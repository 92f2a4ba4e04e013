import ThunderboltVerbs.Apple.RingRuns

/-!
# The pending ring is a queue

The messages of the ring are the ready messages of the queue, and its active slot is the active message there. The
queue knows nothing of capacities: `alloc` says there whether a buffer is large enough or can be grown.
-/

namespace ThunderboltVerbs.Apple
open Proto Verbs Receive Lib

/-- Without the numbers of the messages that the frames belong to. -/
def Pending.plain (p : Pending) : Pending := { p with sources := [] }

def Completion.plain (c : Completion) : Completion := { c with sources := [] }

structure Refines (waiting : List PendingRx) (current : Option PendingRx) (q : RingQp) (a : AppleQp) : Prop where
  slotCount : a.slotCount = q.slotCount
  ready : a.ready.map Pending.plain = waiting.map PendingRx.message
  active : a.active.map Pending.plain = current.map PendingRx.message
  bytes : a.pendingBytes = q.pendingBytes
  discard : a.discard = q.discard
  closing : a.closing = q.closing
  recvq : a.recvq = q.recvq
  cq : a.cq = q.cq
  completions : a.completions.map Completion.plain = q.completions

section Refinement

variable {limits : RxLimits} {q : RingQp} {a : AppleQp} {waiting : List PendingRx} {current : Option PendingRx}
  {p : PendingRx} {m : Pending}

theorem PendingRx.Bounded.length_message (bounded : p.Bounded limits) : p.message.bytes.length = p.delivered := by
  change (p.buf.take p.delivered).length = p.delivered
  rw [List.length_take, bounded.sized, Nat.min_eq_left bounded.inside]

theorem length_of_plain (bounded : p.Bounded limits) (same : m.plain = p.message) :
    m.bytes.length = p.delivered := by
  rw [← bounded.length_message, ← same]
  rfl

/-! ## The drain -/

/-- A completion does not depend on whether buffers can be grown. -/
theorem completion_plain (alloc alloc' : Bool) (mrs : Nat → Option Mr) (wqe : RecvWqe) (same : m.plain = p.message) :
    (AppleQp.completion (limits.env alloc' mrs) wqe m).plain =
      AppleQp.completion (limits.env alloc mrs) wqe p.message := by
  rw [← same]
  rfl

theorem popRecv_cases (recvq : a.recvq = q.recvq) (closing : a.closing = q.closing) :
    (a.popRecv = none ∧ q.popRecv = none) ∨
      ∃ wqe rest, a.popRecv = some (wqe, { a with recvq := rest }) ∧ q.popRecv = some (wqe, { q with recvq := rest }) := by
  unfold AppleQp.popRecv RingQp.popRecv
  rw [recvq, closing]
  cases q.recvq with
  | nil => exact .inl ⟨rfl, rfl⟩
  | cons wqe rest =>
      cases q.closing with
      | true => exact .inl ⟨rfl, rfl⟩
      | false => exact .inr ⟨wqe, rest, rfl, rfl⟩

theorem Refines.drainOne {ready : List Pending} (holds : Holds limits q (p :: waiting) current)
    (refines : Refines (p :: waiting) current q { a with ready := m :: ready }) (alloc alloc' : Bool)
    (mrs : Nat → Option Mr) (wqe : RecvWqe) :
    Refines waiting current (q.drainOne (limits.env alloc mrs) wqe)
      { a.pushWc (AppleQp.completion (limits.env alloc' mrs) wqe m) with
        ready
        pendingBytes :=
          (a.pushWc (AppleQp.completion (limits.env alloc' mrs) wqe m)).pendingBytes - m.bytes.length } := by
  have bounded := holds.bounded p (List.mem_of_getElem? holds.head_cell)
  have same : m.plain = p.message := (List.cons_eq_cons.mp refines.ready).1
  have rest : ready.map Pending.plain = waiting.map PendingRx.message := (List.cons_eq_cons.mp refines.ready).2
  have cq : a.cq = q.cq := refines.cq
  have bytes : a.pendingBytes = q.pendingBytes := refines.bytes
  have completions : a.completions.map Completion.plain = q.completions := refines.completions
  rw [holds.drainOne_eq (limits.env alloc mrs) wqe, length_of_plain bounded same]
  unfold AppleQp.pushWc RingQp.pushWc
  rw [cq]
  split
  · exact ⟨refines.slotCount, rest, refines.active, congrArg (· - p.delivered) bytes, refines.discard, refines.closing,
      refines.recvq, rfl, completions⟩
  · refine ⟨refines.slotCount, rest, refines.active, congrArg (· - p.delivered) bytes, refines.discard,
      refines.closing, refines.recvq, rfl, ?_⟩
    change (a.completions ++ [_]).map Completion.plain = q.completions ++ [_]
    rw [List.map_append, completions, List.map_singleton, completion_plain alloc alloc' mrs wqe same]

theorem Refines.drainFrom (alloc alloc' : Bool) (mrs : Nat → Option Mr) {ready : List Pending}
    (holds : Holds limits q waiting current) (refines : Refines waiting current q { a with ready }) :
    ∃ rest, Holds limits (RingQp.drainFrom (limits.env alloc mrs) waiting.length q) rest current ∧
      Refines rest current (RingQp.drainFrom (limits.env alloc mrs) waiting.length q)
        (AppleQp.drainFrom (limits.env alloc' mrs) ready a) := by
  induction waiting generalizing q a ready with
  | nil =>
      have none : ready = [] := List.map_eq_nil_iff.mp refines.ready
      subst none
      exact ⟨[], holds, refines⟩
  | cons p waiting ih =>
      cases ready with
      | nil => cases refines.ready
      | cons m ready =>
          rw [List.length_cons]
          unfold RingQp.drainFrom AppleQp.drainFrom
          rcases popRecv_cases (q := q) (a := a) refines.recvq refines.closing with
            ⟨noneA, noneQ⟩ | ⟨wqe, rest, takenA, takenQ⟩
          · rw [noneA, noneQ]
            exact ⟨p :: waiting, holds, refines⟩
          · rw [takenA, takenQ]
            have popped := holds.other rest q.cq q.completions q.discard q.closing
            have poppedA : Refines (p :: waiting) current { q with recvq := rest }
                { { a with recvq := rest } with ready := m :: ready } :=
              ⟨refines.slotCount, refines.ready, refines.active, refines.bytes, refines.discard, refines.closing, rfl,
                refines.cq, refines.completions⟩
            exact ih (popped.drainOne _ wqe) (poppedA.drainOne popped alloc alloc' mrs wqe)

theorem Refines.drainPending (holds : Holds limits q waiting current) (refines : Refines waiting current q a)
    (alloc alloc' : Bool) (mrs : Nat → Option Mr) :
    ∃ rest, Holds limits (q.drainPending (limits.env alloc mrs)) rest current ∧
      Refines rest current (q.drainPending (limits.env alloc mrs)) (a.drainPending (limits.env alloc' mrs)) := by
  unfold RingQp.drainPending
  rw [holds.count]
  exact Refines.drainFrom alloc alloc' mrs holds refines

/-! ## Frames -/

/-- Whether the buffer of the arriving message is large enough or can be grown. -/
def RingQp.allocates (limits : RxLimits) (q : RingQp) (alloc : Bool) (len : Nat) : Bool :=
  match pendingActive limits q with
  | none => alloc
  | some (k, q) => alloc || decide ((q.slot k).delivered + len ≤ (q.slot k).capacity)

/-- The check after the loop never fails. -/
theorem reserve_cases (p : PendingRx) (alloc : Bool) {required : Nat} (fits : required ≤ limits.maxBytes) :
    (RingQp.reserve limits alloc p required = .error .eNoMem ∧ (alloc || decide (required ≤ p.capacity)) = false) ∨
      ∃ p', RingQp.reserve limits alloc p required = .ok p' ∧ (alloc || decide (required ≤ p.capacity)) = true := by
  unfold RingQp.reserve
  by_cases small : p.capacity < required
  · have none : decide (required ≤ p.capacity) = false := decide_eq_false (Nat.not_le_of_lt small)
    rw [if_pos small, none, Bool.or_false]
    dsimp only
    rw [if_neg (Nat.not_lt.mpr (p.le_newCapacity fits))]
    cases alloc with
    | false => exact .inl ⟨rfl, rfl⟩
    | true => exact .inr ⟨_, rfl, rfl⟩
  · have large : decide (required ≤ p.capacity) = true := decide_eq_true (Nat.le_of_not_lt small)
    rw [if_neg small, large, Bool.or_true]
    exact .inr ⟨p, rfl, rfl⟩

def outcome : Option Errno → Except Errno Unit
  | none => .ok ()
  | some error => .error error

theorem copyPiece_outcome (holds : Holds limits q waiting (some p)) (bytes : a.pendingBytes = q.pendingBytes)
    (same : m.plain = p.message) (total : limits.pendingTotalBytes < 2 ^ 32) {src : List UInt8} (filled : src ≠ [])
    (alloc : Bool) (mrs : Nat → Option Mr) :
    a.copyPiece (limits.env (alloc || decide (p.delivered + src.length ≤ p.capacity)) mrs) m src.length =
      outcome (RingQp.copyPiece limits alloc q q.tail src).2 := by
  have slot := slot_eq holds.tail_cell
  have bounded := holds.bounded p (List.mem_of_getElem? holds.tail_cell)
  have capped : limits.maxBytes < 2 ^ 32 := (Nat.min_le_right ..).trans_lt (by decide)
  unfold RingQp.copyPiece AppleQp.copyPiece
  rw [slot, bytes, length_of_plain bounded same]
  dsimp only [RxLimits.env]
  simp only [gt_iff_lt]
  rw [if_neg (fun none => filled (List.eq_nil_of_length_eq_zero none))]
  change (if limits.maxBytes = 0 ∨ limits.maxBytes < p.delivered + src.length then _ else _) = _
  by_cases long : limits.maxBytes = 0 ∨ limits.maxBytes < p.delivered + src.length
  · rw [if_pos long, if_pos long]
    split <;> rfl
  have fits : p.delivered + src.length ≤ limits.maxBytes := Nat.le_of_not_lt fun above => long (.inr above)
  rw [if_neg long, if_neg (Nat.not_le_of_lt (fits.trans_lt capped)), if_neg long]
  by_cases full : limits.pendingTotalBytes = 0 ∨ limits.pendingTotalBytes < q.pendingBytes + src.length
  · have fullRing : limits.pendingTotalBytes = 0 ∨ 2 ^ 32 ≤ q.pendingBytes + src.length ∨
        limits.pendingTotalBytes < q.pendingBytes + src.length := full.imp_right .inr
    rw [if_pos full, if_pos fullRing]
    rfl
  have spare : ¬(limits.pendingTotalBytes = 0 ∨ 2 ^ 32 ≤ q.pendingBytes + src.length ∨
      limits.pendingTotalBytes < q.pendingBytes + src.length) := by
    rintro (none | wraps | above)
    · exact full (.inl none)
    · exact full (.inr (total.trans_le wraps))
    · exact full (.inr above)
  rw [if_neg full, if_neg spare]
  rcases reserve_cases p alloc fits with ⟨failed, none⟩ | ⟨p', reserved, room⟩
  · rw [failed, none]
    rfl
  · rw [reserved, room]
    rfl

theorem Refines.copyFrame (holds : Holds limits q waiting (some p)) (refines : Refines waiting (some p) q a)
    (total : limits.pendingTotalBytes < 2 ^ 32) {payload : List UInt8} (filled : payload ≠ []) (alloc : Bool)
    (mrs : Nat → Option Mr) (same : m.plain = p.message) (message : Nat) :
    ∃ p', Holds limits (RingQp.copyFrame limits alloc q q.tail payload) waiting (some p') ∧
      Refines waiting (some p') (RingQp.copyFrame limits alloc q q.tail payload)
        (a.copyFrame (limits.env (alloc || decide (p.delivered + payload.length ≤ p.capacity)) mrs) m payload message) := by
  have copied := copyPiece_outcome holds refines.bytes same total filled alloc mrs
  unfold RingQp.copyFrame AppleQp.copyFrame
  rcases holds.copyPiece_cases alloc payload with ⟨error, failed⟩ | ⟨p', done, after, appended⟩
  · have slot := slot_eq holds.tail_cell
    have bounded := holds.bounded p (List.mem_of_getElem? holds.tail_cell)
    rw [copied, failed]
    dsimp only [outcome]
    rw [slot]
    refine ⟨_, holds.write (holds.arriving p rfl) ⟨bounded.sized, bounded.inside, bounded.capped⟩ rfl holds.total,
      refines.slotCount, refines.ready, congrArg some ?_, refines.bytes, refines.discard, refines.closing,
      refines.recvq, refines.cq, refines.completions⟩
    exact congrArg (Pending.mk · _ []) (congrArg Pending.bytes same)
  · rw [copied, done]
    refine ⟨p', after, refines.slotCount, refines.ready, congrArg some ?_, congrArg (· + payload.length) refines.bytes,
      refines.discard, refines.closing, refines.recvq, refines.cq, refines.completions⟩
    rw [appended]
    exact congrArg (fun plain : Pending => { plain with bytes := plain.bytes ++ payload }) same

/-- The message that is put together is the same one, and the ring has room where the queue has. -/
theorem Refines.pendingActive (holds : Holds limits q waiting current) (refines : Refines waiting current q a)
    (alloc : Bool) (mrs : Nat → Option Mr) :
    (RingQp.pendingActive limits q = none ∧ a.pendingActive (limits.env alloc mrs) = none) ∨
    ∃ q' p m, RingQp.pendingActive limits q = some (q'.tail, q') ∧
      a.pendingActive (limits.env alloc mrs) = some m ∧ m.plain = p.message ∧
      Holds limits q' waiting (some p) ∧ Refines waiting (some p) q' { a with active := some m } := by
  cases current with
  | some p =>
      cases active : a.active with
      | none =>
          have refined := refines.active
          rw [active] at refined
          cases refined
      | some m =>
          have refined := refines.active
          rw [active] at refined
          refine .inr ⟨q, p, m, ?_, ?_, Option.some.inj refined, holds, refines.slotCount, refines.ready, refined,
            refines.bytes, refines.discard, refines.closing, refines.recvq, refines.cq, refines.completions⟩
          · unfold RingQp.pendingActive
            rw [holds.active]
            rfl
          · unfold AppleQp.pendingActive
            rw [active]
  | none =>
      have active : a.active = none := Option.map_eq_none_iff.mp refines.active
      have length : a.ready.length = waiting.length := by
        have lengths := congrArg List.length refines.ready
        rwa [List.length_map, List.length_map] at lengths
      have positive : 0 < q.slotCount := Nat.zero_lt_of_lt holds.ring.head_lt
      have slots : ¬(q.pending = [] ∨ q.slotCount = 0) := by
        rintro (none | zero)
        · have sized := holds.sized
          rw [none] at sized
          exact positive.ne sized
        · exact positive.ne' zero
      unfold RingQp.pendingActive AppleQp.pendingActive
      rw [holds.active, active]
      dsimp only [Option.map_none]
      rw [if_neg slots, refines.slotCount, length, holds.count]
      by_cases full : q.slotCount ≤ waiting.length
      · rw [if_pos full, if_pos (.inl full)]
        exact .inl ⟨rfl, rfl⟩
      by_cases bytes : (limits.env alloc mrs).rxPendingBytes = 0
      · have none : limits.pendingBytes = 0 := bytes
        rw [if_neg full, if_pos none, if_pos (.inr (.inl bytes))]
        exact .inl ⟨rfl, rfl⟩
      have enough : ¬limits.pendingBytes = 0 := bytes
      by_cases total : (limits.env alloc mrs).rxPendingTotalBytes = 0
      · have none : limits.pendingTotalBytes = 0 := total
        rw [if_neg full, if_neg enough, if_pos none, if_pos (.inr (.inr total))]
        exact .inl ⟨rfl, rfl⟩
      have left : ¬limits.pendingTotalBytes = 0 := total
      rw [if_neg full, if_neg enough, if_neg left, if_neg (not_or.mpr ⟨full, not_or.mpr ⟨bytes, total⟩⟩)]
      exact .inr ⟨_, _, {}, rfl, rfl, rfl, holds.activate (Nat.lt_of_not_le full), rfl, refines.ready, rfl,
        refines.bytes, refines.discard, refines.closing, refines.recvq, refines.cq, refines.completions⟩

theorem Refines.finish (holds : Holds limits q waiting (some p)) (refines : Refines waiting (some p) q a) :
    Refines (waiting ++ [{ p with active := false, ready := true }]) none q.finish a.finish := by
  have active := holds.active
  rw [Option.map_some] at active
  cases held : a.active with
  | none =>
      have refined := refines.active
      rw [held] at refined
      cases refined
  | some m =>
      have refined := refines.active
      rw [held] at refined
      unfold RingQp.finish AppleQp.finish
      rw [active, held]
      refine ⟨refines.slotCount, ?_, rfl, refines.bytes, refines.discard, refines.closing, refines.recvq, refines.cq,
        refines.completions⟩
      rw [List.map_append, List.map_append, refines.ready]
      exact congrArg (waiting.map PendingRx.message ++ [·]) (Option.some.inj refined)

/-- What the queue is told of the buffers for a frame. -/
def RxLimits.queueEnv (limits : RxLimits) (q : RingQp) (alloc : Bool) (mrs : Nat → Option Mr) (len : Nat) : AppleEnv :=
  limits.env (q.allocates limits alloc len) mrs

theorem queueEnv_active {q' : RingQp} (found : RingQp.pendingActive limits q = some (q'.tail, q'))
    (holds : Holds limits q' waiting (some p)) (alloc : Bool) (mrs : Nat → Option Mr) (len : Nat) :
    limits.queueEnv q alloc mrs len = limits.env (alloc || decide (p.delivered + len ≤ p.capacity)) mrs := by
  unfold RxLimits.queueEnv RingQp.allocates
  rw [found]
  dsimp only
  rw [slot_eq holds.tail_cell]

/-- What the queue notes beside the messages does not count. -/
theorem Refines.noted (refines : Refines waiting current q a) (seen : Framing) (spoiled : List Nat) :
    Refines waiting current q { a with seen, spoiled } :=
  ⟨refines.slotCount, refines.ready, refines.active, refines.bytes, refines.discard, refines.closing, refines.recvq,
    refines.cq, refines.completions⟩

theorem Refines.setDiscard (refines : Refines waiting current q a) (discard : Bool) :
    Refines waiting current { q with discard } { a with discard } :=
  ⟨refines.slotCount, refines.ready, refines.active, refines.bytes, rfl, refines.closing, refines.recvq, refines.cq,
    refines.completions⟩

theorem Refines.takeFrame (holds : Holds limits q waiting current) (refines : Refines waiting current q a)
    (total : limits.pendingTotalBytes < 2 ^ 32) (alloc : Bool) (mrs : Nat → Option Mr) (frame : AppleFrame)
    (filled : frame.payload ≠ []) :
    ∃ rest current', Holds limits (RingQp.takeFrame limits (limits.env alloc mrs) q frame) rest current' ∧
      Refines rest current' (RingQp.takeFrame limits (limits.env alloc mrs) q frame)
        (a.takeFrame (limits.queueEnv q alloc mrs frame.payload.length) frame) := by
  have discarded (discard : Bool) : Holds limits { q with discard } waiting current :=
    holds.other q.recvq q.cq q.completions discard q.closing
  have dropped := (refines.noted (a.seen.push frame) (a.seen.messages.length :: a.spoiled)).setDiscard
    (decide (frame.eof ≠ frameEnd))
  have idle : a.active = none ↔ q.active = none := by
    rw [holds.active, Option.map_eq_none_iff, ← Option.map_eq_none_iff (f := Pending.plain), refines.active,
      Option.map_eq_none_iff]
  unfold RingQp.takeFrame AppleQp.takeFrame
  dsimp only
  by_cases discarding : q.discard = true
  · rw [if_pos discarding, if_pos (refines.discard.trans discarding)]
    exact ⟨waiting, current, discarded _, dropped⟩
  rw [if_neg discarding, if_neg fun discardingA => discarding (refines.discard.symm.trans discardingA)]
  by_cases stray : q.active = none ∧ (!AppleQp.startsMessage frame) = true
  · rw [if_pos stray, if_pos ⟨idle.mpr stray.1, stray.2⟩]
    exact ⟨waiting, current, holds, refines.noted _ _⟩
  rw [if_neg stray, if_neg fun strayA => stray ⟨idle.mp strayA.1, strayA.2⟩]
  have seen := refines.noted (a.seen.push frame) a.spoiled
  rcases seen.pendingActive holds (q.allocates limits alloc frame.payload.length) mrs with
    ⟨none, noneA⟩ | ⟨q', p, m, found, foundA, same, holds', refines'⟩
  · rw [none]
    change AppleQp.pendingActive _ (limits.queueEnv ..) = _ at noneA
    rw [noneA]
    exact ⟨waiting, current, discarded _, dropped⟩
  · rw [found]
    change AppleQp.pendingActive _ (limits.queueEnv ..) = _ at foundA
    rw [foundA, queueEnv_active found holds']
    obtain ⟨p', copied, copiedA⟩ := refines'.copyFrame holds' total filled alloc mrs same a.seen.messages.length
    dsimp only
    split
    · obtain ⟨rest, drained, drainedA⟩ := Refines.drainPending copied.finish (copiedA.finish copied) alloc
        (alloc || decide (p.delivered + frame.payload.length ≤ p.capacity)) mrs
      exact ⟨rest, none, drained, drainedA⟩
    · exact ⟨waiting, some p', copied, copiedA⟩

theorem Refines.rxFrame (holds : Holds limits q waiting current) (refines : Refines waiting current q a)
    (total : limits.pendingTotalBytes < 2 ^ 32) (alloc : Bool) (mrs : Nat → Option Mr) (frame : AppleFrame) :
    ∃ env rest current', Holds limits (q.rxFrame limits (limits.env alloc mrs) frame) rest current' ∧
      Refines rest current' (q.rxFrame limits (limits.env alloc mrs) frame) (a.rxFrame env frame) := by
  let env := limits.queueEnv (q.drainPending (limits.env alloc mrs)) alloc mrs frame.payload.length
  refine ⟨env, ?_⟩
  unfold RingQp.rxFrame AppleQp.rxFrame
  by_cases bad : frame.payload = [] ∨ frame.payload.length > appleFrameSize
  · rw [if_pos bad, if_pos bad]
    exact ⟨waiting, current, holds, refines⟩
  · rw [if_neg bad, if_neg bad]
    obtain ⟨rest, drained, drainedA⟩ := refines.drainPending holds alloc
      ((q.drainPending (limits.env alloc mrs)).allocates limits alloc frame.payload.length) mrs
    exact drainedA.takeFrame drained total alloc mrs frame fun none => bad (.inl none)

/-! ## Runs -/

theorem foldl_release_eq (q : RingQp) (slots : List Nat) :
    ∃ pending pendingBytes, slots.foldl RingQp.release q = { q with pending, pendingBytes } := by
  induction slots generalizing q with
  | nil => exact ⟨q.pending, q.pendingBytes, rfl⟩
  | cons k slots ih =>
      obtain ⟨pending, pendingBytes, released⟩ := ih (q.release k)
      rw [List.foldl_cons, released]
      exact ⟨pending, pendingBytes, rfl⟩

theorem Refines.flushPending (refines : Refines waiting current q a) :
    Refines [] none q.flushPending a.flushPending := by
  obtain ⟨pending, pendingBytes, released⟩ := foldl_release_eq q (List.range q.slotCount)
  unfold RingQp.flushPending AppleQp.flushPending
  rw [released]
  dsimp only
  split <;>
    exact ⟨refines.slotCount, rfl, rfl, rfl, rfl, refines.closing, refines.recvq, refines.cq, refines.completions⟩

theorem refines_create {cq : Cq} (created : RingQp.create limits cq = some q) :
    Refines [] none q (.created q.slotCount cq) := by
  unfold RingQp.create at created
  dsimp only at created
  split at created
  · cases created
  · cases created
    exact ⟨rfl, rfl, rfl, rfl, rfl, rfl, rfl, rfl, rfl⟩

/-- A frame ends its message by itself: `finish` is no step of its own there. -/
def RingAction.received : RingAction → Prop
  | .finish => False
  | _ => True

theorem Refines.step {action : RingAction} {q' : RingQp} (holds : Holds limits q waiting current)
    (refines : Refines waiting current q a) (total : limits.pendingTotalBytes < 2 ^ 32) (received : action.received)
    (stepped : q.step limits action = some q') :
    ∃ actionA a' rest current', a.step actionA = some a' ∧ Holds limits q' rest current' ∧
      Refines rest current' q' a' := by
  cases action with
  | frame alloc mrs frame =>
      cases stepped
      obtain ⟨env, rest, current', after, afterA⟩ := refines.rxFrame holds total alloc mrs frame
      exact ⟨.frame env frame, _, rest, current', rfl, after, afterA⟩
  | postRecv wqe =>
      cases stepped
      exact ⟨.postRecv wqe, _, waiting, current, rfl, holds.other _ q.cq q.completions q.discard q.closing,
        refines.slotCount, refines.ready, refines.active, refines.bytes, refines.discard, refines.closing,
        congrArg (· ++ [wqe]) refines.recvq, refines.cq, refines.completions⟩
  | finish => exact received.elim
  | drain mrs =>
      cases stepped
      obtain ⟨rest, drained, drainedA⟩ := refines.drainPending holds true true mrs
      exact ⟨.drain (limits.env true mrs), _, rest, current, rfl, drained, drainedA⟩
  | pollCq =>
      cases stepped
      exact ⟨.pollCq, _, waiting, current, rfl, holds.other q.recvq _ q.completions q.discard q.closing,
        refines.slotCount, refines.ready, refines.active, refines.bytes, refines.discard, refines.closing,
        refines.recvq, congrArg (fun cq : Cq => { cq with count := cq.count - 1 }) refines.cq, refines.completions⟩
  | flush =>
      cases stepped
      exact ⟨.flush, _, [], none, rfl, holds.flushPending, refines.flushPending⟩
  | close =>
      cases stepped
      exact ⟨.close, _, waiting, current, rfl, holds.other q.recvq q.cq q.completions q.discard true,
        refines.slotCount, refines.ready, refines.active, refines.bytes, refines.discard, rfl, refines.recvq,
        refines.cq, refines.completions⟩

/-- Every run of the ring is a run of the queue: the messages that wait are the ready ones, in the same order, and the
same receive requests complete. -/
theorem ring_refines_queue (total : limits.pendingTotalBytes < 2 ^ 32)
    (reachable : (ringSystem limits).ReachableVia (fun _ action => action.received) q) :
    ∃ a, rxSystem.Reachable a ∧
      a.ready.map Pending.plain =
        (List.range q.readyCount).map (fun i => (q.slot ((q.head + i) % q.slotCount)).message) ∧
      a.active.map Pending.plain = q.active.map (fun k => (q.slot k).message) ∧
      a.completions.map Completion.plain = q.completions := by
  have related : ∃ a waiting current, rxSystem.Reachable a ∧ Holds limits q waiting current ∧
      Refines waiting current q a := by
    induction reachable with
    | init start =>
        obtain ⟨cqe, created⟩ := start
        exact ⟨.created _ _, [], none, .init ⟨_, cqe, rfl⟩, holds_create created, refines_create created⟩
    | step previous received stepped ih =>
        obtain ⟨a, waiting, current, reachable, holds, refines⟩ := ih
        obtain ⟨actionA, a', rest, current', steppedA, after, afterA⟩ := refines.step holds total received stepped
        exact ⟨a', rest, current', .step reachable trivial steppedA, after, afterA⟩
  obtain ⟨a, waiting, current, reachableA, holds, refines⟩ := related
  refine ⟨a, reachableA, ?_, ?_, refines.completions⟩
  · rw [holds.read]
    exact refines.ready
  · rw [refines.active, holds.active]
    cases current with
    | none => rfl
    | some p => exact congrArg (fun slot : PendingRx => some slot.message) (slot_eq holds.tail_cell).symm

end Refinement

end ThunderboltVerbs.Apple
