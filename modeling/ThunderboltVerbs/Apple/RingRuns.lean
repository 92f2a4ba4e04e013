import ThunderboltVerbs.Apple.RingInvariant

/-!
# Runs of the pending ring

Every function of the receive path keeps the invariant of the ring.
-/

namespace ThunderboltVerbs.Apple
open Proto Verbs Receive Lib

namespace Holds

variable {limits : RxLimits} {q : RingQp} {waiting : List PendingRx} {current : Option PendingRx} {p : PendingRx}

/-! ## Frames -/

/-- A copy that fails changes nothing, and one that succeeds appends to the message. -/
theorem copyPiece_cases (holds : Holds limits q waiting (some p)) (alloc : Bool) (src : List UInt8) :
    (∃ error, RingQp.copyPiece limits alloc q q.tail src = (q, some error)) ∨
      ∃ p' : PendingRx, RingQp.copyPiece limits alloc q q.tail src =
          ({ q.setSlot q.tail p' with pendingBytes := q.pendingBytes + src.length }, none) ∧
        Holds limits { q.setSlot q.tail p' with pendingBytes := q.pendingBytes + src.length } waiting (some p') ∧
        p'.message = { p.message with bytes := p.message.bytes ++ src } := by
  have slot := slot_eq holds.tail_cell
  have bounded := holds.bounded p (List.mem_of_getElem? holds.tail_cell)
  unfold RingQp.copyPiece
  simp only [slot]
  split
  · rename_i empty
    have cells : q.pending.set q.tail p = q.pending := by
      obtain ⟨bound, own⟩ := List.getElem?_eq_some_iff.mp holds.tail_cell
      rw [← own, List.set_getElem_self bound]
    have same : ({ q.setSlot q.tail p with pendingBytes := q.pendingBytes + src.length } : RingQp) = q := by
      unfold RingQp.setSlot
      rw [empty, cells, Nat.add_zero]
    refine .inr ⟨p, by rw [same], same.symm ▸ holds, ?_⟩
    rw [List.eq_nil_of_length_eq_zero empty, List.append_nil]
  split
  · exact .inl ⟨_, rfl⟩
  split
  · exact .inl ⟨_, rfl⟩
  rename_i fits
  split
  · exact .inl ⟨_, rfl⟩
  rename_i within
  split
  · exact .inl ⟨_, rfl⟩
  rename_i p' reserved
  have after := reserve_ok bounded (Nat.le_add_right ..) reserved
  have arriving := holds.arriving p rfl
  have sized := after.sized
  have room := after.room
  have delivered := after.delivered
  have old : (p'.buf.take p'.delivered).length = p.delivered := by
    rw [List.length_take]
    omega
  refine .inr ⟨_, rfl, holds.write ⟨after.ready.trans arriving.1, after.active.trans arriving.2⟩
    ⟨?_, room, ?_⟩ ?_ ?_, ?_⟩
  · simp only [List.length_append, old, List.length_drop]
    omega
  · exact Nat.le_of_not_lt fun above => fits (.inr above)
  · dsimp only
    omega
  · exact Nat.le_of_not_lt fun above => within (.inr (.inr above))
  · have whole : (p'.buf.take p'.delivered ++ src).length = p.delivered + src.length := by
      rw [List.length_append, old]
    unfold PendingRx.message
    dsimp only
    rw [List.take_append_of_le_length whole.ge, List.take_of_length_le whole.le, delivered, after.kept, after.status]

theorem copyFrame (holds : Holds limits q waiting (some p)) (alloc : Bool) (payload : List UInt8) :
    ∃ p', Holds limits (RingQp.copyFrame limits alloc q q.tail payload) waiting (some p') := by
  unfold RingQp.copyFrame
  rcases holds.copyPiece_cases alloc payload with ⟨error, failed⟩ | ⟨p', copied, after, _⟩
  · have slot := slot_eq holds.tail_cell
    have bounded := holds.bounded p (List.mem_of_getElem? holds.tail_cell)
    rw [failed]
    dsimp only
    rw [slot]
    exact ⟨_, holds.write (holds.arriving p rfl) ⟨bounded.sized, bounded.inside, bounded.capped⟩ rfl holds.total⟩
  · rw [copied]
    exact ⟨p', after⟩

theorem pendingActive {k : Nat} {q' : RingQp} (holds : Holds limits q waiting current)
    (found : RingQp.pendingActive limits q = some (k, q')) :
    ∃ p, k = q'.tail ∧ Holds limits q' waiting (some p) := by
  have active := holds.active
  unfold RingQp.pendingActive at found
  cases current with
  | some p =>
      rw [active] at found
      cases found
      exact ⟨p, rfl, holds⟩
  | none =>
      rw [active] at found
      dsimp only [Option.map_none] at found
      split at found
      · cases found
      split at found
      · cases found
      rename_i free
      split at found
      · cases found
      split at found
      · cases found
      cases found
      rw [holds.count] at free
      exact ⟨_, rfl, holds.activate (Nat.lt_of_not_le free)⟩

/-! ## The drain -/

theorem head_cell (holds : Holds limits q (p :: waiting) current) : q.pending[q.head]? = some p :=
  holds.ring.first

theorem pushWc_eq (q : RingQp) (completion : Completion) :
    ∃ cq completions, q.pushWc completion = { q with cq, completions } := by
  unfold RingQp.pushWc
  split
  · exact ⟨_, q.completions, rfl⟩
  · exact ⟨_, _, rfl⟩

theorem release_bytes {n delivered : Nat} (counted : delivered ≤ n) :
    (if delivered = 0 then n else if delivered ≤ n then n - delivered else 0) = n - delivered := by
  rw [if_pos counted]
  split
  · omega
  · rfl

theorem head_bytes (holds : Holds limits q (p :: waiting) current) :
    tally PendingRx.delivered (q.pending.set q.head p.reset) + p.delivered = q.pendingBytes := by
  have cleared := tally_set PendingRx.delivered holds.head_cell p.reset
  change _ = _ + 0 at cleared
  rwa [Nat.add_zero, ← holds.bytes] at cleared

theorem drainOne_eq (holds : Holds limits q (p :: waiting) current) (env : AppleEnv) (wqe : RecvWqe) :
    q.drainOne env wqe =
      { q.pushWc (AppleQp.completion env wqe p.message) with
        pending := q.pending.set q.head p.reset
        pendingBytes := q.pendingBytes - p.delivered
        head := (q.head + 1) % q.slotCount
        readyCount := q.readyCount - 1
        drained := q.drained ++ [p.message] } := by
  have slot := slot_eq holds.head_cell
  have counted : p.delivered ≤ q.pendingBytes := (Nat.le_add_left ..).trans_eq holds.head_bytes
  unfold RingQp.drainOne
  dsimp only
  rw [slot]
  obtain ⟨cq, completions, pushed⟩ := pushWc_eq q (AppleQp.completion env wqe p.message)
  rw [pushed]
  have same : RingQp.slot { q with cq, completions } q.head = p := slot
  unfold RingQp.release
  rw [same]
  dsimp only
  rw [release_bytes counted]
  rfl

theorem drainOne (holds : Holds limits q (p :: waiting) current) (env : AppleEnv) (wqe : RecvWqe) :
    Holds limits (q.drainOne env wqe) waiting current := by
  have bounded := holds.bounded p (List.mem_of_getElem? holds.head_cell)
  obtain ⟨cq, completions, pushed⟩ := pushWc_eq q (AppleQp.completion env wqe p.message)
  rw [holds.drainOne_eq env wqe, pushed]
  exact {
    sized := (List.length_set ..).trans holds.sized
    ring := holds.ring.pop p.idle_reset
    count := by
      change q.readyCount - 1 = waiting.length
      rw [holds.count, List.length_cons, Nat.add_sub_cancel]
    tail := by
      change q.tail = ((q.head + 1) % q.slotCount + waiting.length) % q.slotCount
      rw [ring_next, holds.tail, List.length_cons]
    active := holds.active
    ready := fun p' member => holds.ready p' (List.mem_cons_of_mem p member)
    arriving := holds.arriving
    bytes := Nat.sub_eq_of_eq_add holds.head_bytes.symm
    total := (Nat.sub_le ..).trans holds.total
    bounded := bounded_set holds.bounded bounded.reset
    order := by
      have order := holds.order
      rw [List.map_cons, List.append_cons] at order
      exact order }

theorem drainFrom (env : AppleEnv) {turns : Nat} (holds : Holds limits q waiting current)
    (turns_le : turns ≤ waiting.length) : ∃ rest, Holds limits (RingQp.drainFrom env turns q) rest current := by
  induction turns generalizing q waiting with
  | zero => exact ⟨waiting, holds⟩
  | succ turns ih =>
      unfold RingQp.drainFrom
      cases popped : q.popRecv with
      | none => exact ⟨waiting, holds⟩
      | some head =>
          obtain ⟨wqe, q'⟩ := head
          have taken : Holds limits q' waiting current := by
            unfold RingQp.popRecv at popped
            split at popped
            · cases popped
            split at popped
            · cases popped
            · cases popped
              exact holds.other _ q.cq q.completions q.discard q.closing
          cases waiting with
          | nil => cases turns_le
          | cons p waiting => exact ih (taken.drainOne env wqe) (Nat.le_of_succ_le_succ turns_le)

theorem drainPending (holds : Holds limits q waiting current) (env : AppleEnv) :
    ∃ rest, Holds limits (q.drainPending env) rest current :=
  holds.drainFrom env holds.count.le

/-! ## A frame -/

theorem takeFrame (holds : Holds limits q waiting current) (env : AppleEnv) (frame : AppleFrame) :
    ∃ rest current', Holds limits (RingQp.takeFrame limits env q frame) rest current' := by
  unfold RingQp.takeFrame
  split
  · exact ⟨waiting, current, holds.other q.recvq q.cq q.completions _ q.closing⟩
  split
  · exact ⟨waiting, current, holds⟩
  cases found : RingQp.pendingActive limits q with
  | none => exact ⟨waiting, current, holds.other q.recvq q.cq q.completions _ q.closing⟩
  | some head =>
      obtain ⟨k, q'⟩ := head
      obtain ⟨p, rfl, active⟩ := holds.pendingActive found
      obtain ⟨p', copied⟩ := active.copyFrame env.alloc frame.payload
      dsimp only
      split
      · obtain ⟨rest, drained⟩ := copied.finish.drainPending env
        exact ⟨rest, none, drained⟩
      · exact ⟨waiting, some p', copied⟩

theorem rxFrame (holds : Holds limits q waiting current) (env : AppleEnv) (frame : AppleFrame) :
    ∃ rest current', Holds limits (RingQp.rxFrame limits env q frame) rest current' := by
  unfold RingQp.rxFrame
  split
  · exact ⟨waiting, current, holds⟩
  · obtain ⟨rest, drained⟩ := holds.drainPending env
    exact drained.takeFrame env frame

end Holds

/-! ## The flush -/

/-- The first `n` slots are empty, as they are after `n` turns of the loop of the flush. -/
structure Cleared (limits : RxLimits) (q q' : RingQp) (n : Nat) : Prop where
  length : q'.pending.length = q.pending.length
  slotCount : q'.slotCount = q.slotCount
  idle : ∀ k p, k < n → q'.pending[k]? = some p → p.Idle
  bounded : ∀ p ∈ q'.pending, p.Bounded limits

section Flush

variable {limits : RxLimits} {q : RingQp}

theorem cleared_foldl (bounded : ∀ p ∈ q.pending, p.Bounded limits) {n : Nat} (inside : n ≤ q.pending.length) :
    Cleared limits q ((List.range n).foldl RingQp.release q) n := by
  induction n with
  | zero => exact ⟨rfl, rfl, fun k p none => absurd none (Nat.not_lt_zero k), bounded⟩
  | succ n ih =>
      have before := ih (Nat.le_of_succ_le inside)
      rw [List.range_succ, List.foldl_append, List.foldl_cons, List.foldl_nil]
      generalize (List.range n).foldl RingQp.release q = q' at before ⊢
      have bound : n < q'.pending.length := inside.trans_eq before.length.symm
      have slot := slot_eq (List.getElem?_eq_getElem bound)
      have own := before.bounded _ (List.getElem_mem bound)
      rw [← slot] at own
      refine ⟨(List.length_set ..).trans before.length, before.slotCount, fun k p below found => ?_,
        bounded_set before.bounded own.reset⟩
      change (q'.pending.set n (q'.slot n).reset)[k]? = some p at found
      by_cases same : k = n
      · subst same
        rw [List.getElem?_set_self bound] at found
        cases found
        exact PendingRx.idle_reset _
      · rw [List.getElem?_set_ne (Ne.symm same)] at found
        exact before.idle k p (by omega) found

theorem holds_empty {q : RingQp} (sized : q.pending.length = q.slotCount) (positive : 0 < q.slotCount)
    (idle : ∀ p ∈ q.pending, p.Idle) (bounded : ∀ p ∈ q.pending, p.Bounded limits) (discard : Bool) :
    Holds limits
      { q with discard, head := 0, tail := 0, readyCount := 0, pendingBytes := 0, active := none, finished := [],
               drained := [] } [] none where
  sized := sized
  ring := {
    toWindow := Window.empty sized.ge positive
    rest := fun _ p _ _ found => idle p (List.mem_of_getElem? found) }
  count := rfl
  tail := (Nat.zero_mod _).symm
  active := rfl
  ready _ none := absurd none List.not_mem_nil
  arriving _ none := by cases none
  bytes := (tally_eq_zero fun p member => (idle p member).delivered).symm
  total := Nat.zero_le _
  bounded := bounded
  order := rfl

theorem Holds.flushPending {waiting : List PendingRx} {current : Option PendingRx}
    (holds : Holds limits q waiting current) : Holds limits q.flushPending [] none := by
  have positive : 0 < q.slotCount := Nat.zero_lt_of_lt holds.ring.head_lt
  have slots : q.pending ≠ [] := fun none => by
    have sized := holds.sized
    rw [none] at sized
    exact positive.ne sized
  have cleared := cleared_foldl holds.bounded holds.sized.ge
  unfold RingQp.flushPending
  rw [if_neg slots]
  refine holds_empty (cleared.length.trans (holds.sized.trans cleared.slotCount.symm))
    (positive.trans_eq cleared.slotCount.symm) (fun p member => ?_) cleared.bounded false
  obtain ⟨k, inside, rfl⟩ := List.getElem_of_mem member
  exact cleared.idle k _ (inside.trans_eq (cleared.length.trans holds.sized)) (List.getElem?_eq_getElem inside)

end Flush

/-! ## Runs -/

section Runs

variable {limits : RxLimits} {q q' : RingQp}

def RingInv (limits : RxLimits) (q : RingQp) : Prop := ∃ waiting current, Holds limits q waiting current

theorem holds_create {cq : Cq} (created : RingQp.create limits cq = some q) : Holds limits q [] none := by
  unfold RingQp.create at created
  dsimp only at created
  split at created
  · cases created
  rename_i usable
  cases created
  have positive : 0 < min limits.pendingSlots pendingMaxSlots := Nat.pos_of_ne_zero fun none => usable (.inl none)
  have empty (p : PendingRx) (member : p ∈ List.replicate (min limits.pendingSlots pendingMaxSlots) {}) : p = {} :=
    List.eq_of_mem_replicate member
  have holds := holds_empty (q := { slotCount := min limits.pendingSlots pendingMaxSlots, cq,
                                    pending := List.replicate (min limits.pendingSlots pendingMaxSlots) {} })
    List.length_replicate positive (fun p member => empty p member ▸ ⟨rfl, rfl, rfl⟩)
    (fun p member => empty p member ▸ (⟨rfl, le_rfl, Nat.zero_le _⟩ : PendingRx.Bounded limits {})) false
  exact holds

theorem ringInv_step {action : RingAction} (inv : RingInv limits q) (stepped : q.step limits action = some q') :
    RingInv limits q' := by
  obtain ⟨waiting, current, holds⟩ := inv
  cases action with
  | frame alloc mrs frame =>
      cases stepped
      exact holds.rxFrame _ frame
  | postRecv wqe =>
      cases stepped
      exact ⟨waiting, current, holds.other _ q.cq q.completions q.discard q.closing⟩
  | finish =>
      cases stepped
      cases current with
      | none => exact ⟨waiting, none, holds.finish_none.symm ▸ holds⟩
      | some p => exact ⟨_, none, holds.finish⟩
  | drain mrs =>
      cases stepped
      obtain ⟨rest, drained⟩ := holds.drainPending (limits.env true mrs)
      exact ⟨rest, current, drained⟩
  | pollCq =>
      cases stepped
      exact ⟨waiting, current, holds.other q.recvq _ q.completions q.discard q.closing⟩
  | flush =>
      cases stepped
      exact ⟨[], none, holds.flushPending⟩
  | close =>
      cases stepped
      exact ⟨waiting, current, holds.other q.recvq q.cq q.completions q.discard true⟩

theorem ringInv_reachable (reachable : (ringSystem limits).Reachable q) : RingInv limits q := by
  have base (q : RingQp) (start : (ringSystem limits).init q) : RingInv limits q := by
    obtain ⟨cqe, created⟩ := start
    exact ⟨[], none, holds_create created⟩
  exact reachable.invariant base fun q action q' inv _ stepped => ringInv_step inv stepped

/-! ## What the invariant says of the slots -/

variable {waiting : List PendingRx} {current : Option PendingRx} {k : Nat}

/-- A slot holds a message that waits, the one that is arriving, or nothing. -/
theorem Holds.slot_cases (holds : Holds limits q waiting current) (inside : k < q.slotCount) :
    (∃ i, i < waiting.length ∧ k = (q.head + i) % q.slotCount ∧ q.slot k ∈ waiting) ∨
      (k = q.tail ∧ q.slot k ∈ current) ∨
      (q.slot k).Idle := by
  have found := List.getElem?_eq_getElem (inside.trans_eq holds.sized.symm)
  rw [slot_eq found]
  rcases holds.ring.cell_cases inside found with ⟨i, bound, place, member⟩ | idle
  · rcases Nat.lt_or_ge i waiting.length with old | new
    · rw [List.getElem?_append_left old] at member
      exact .inl ⟨i, old, place, List.mem_of_getElem? member⟩
    · cases current with
      | none =>
          rw [Option.toList_none, List.append_nil] at bound
          exact absurd bound (Nat.not_lt_of_le new)
      | some p =>
          rw [List.length_append, Option.toList_some, List.length_singleton] at bound
          have last : i = waiting.length := by omega
          subst last
          rw [Option.toList_some, List.getElem?_concat_length] at member
          exact .inr (.inl ⟨place.trans holds.tail.symm, Option.mem_some.mpr (Option.some.inj member)⟩)
  · exact .inr (.inr idle)

theorem Holds.ready_iff (holds : Holds limits q waiting current) (inside : k < q.slotCount) :
    (q.slot k).ready = true ↔ ∃ i, i < q.readyCount ∧ k = (q.head + i) % q.slotCount := by
  constructor
  · intro ready
    rcases holds.slot_cases inside with ⟨i, bound, place, _⟩ | ⟨_, arriving⟩ | idle
    · exact ⟨i, bound.trans_eq holds.count.symm, place⟩
    · rw [(holds.arriving _ arriving).1] at ready
      cases ready
    · rw [idle.ready] at ready
      cases ready
  · rintro ⟨i, bound, rfl⟩
    rw [holds.count] at bound
    have cell := holds.ring.cell i (by rw [List.length_append]; omega)
    rw [List.getElem?_append_left bound, List.getElem?_eq_getElem bound] at cell
    rw [slot_eq cell]
    exact (holds.ready _ (List.getElem_mem bound)).1

theorem Holds.active_iff (holds : Holds limits q waiting current) (inside : k < q.slotCount) :
    (q.slot k).active = true ↔ q.active = some k := by
  have active := holds.active
  constructor
  · intro marked
    rcases holds.slot_cases inside with ⟨_, _, _, member⟩ | ⟨rfl, arriving⟩ | idle
    · rw [(holds.ready _ member).2] at marked
      cases marked
    · rw [active, arriving]
      rfl
    · rw [idle.active] at marked
      cases marked
  · intro points
    cases current with
    | none =>
        rw [active] at points
        cases points
    | some p =>
        rw [active] at points
        cases points
        rw [slot_eq holds.tail_cell]
        exact (holds.arriving p rfl).2

theorem Holds.live_le (holds : Holds limits q waiting current) :
    q.readyCount + (if q.active.isSome then 1 else 0) ≤ q.slotCount := by
  have fits := holds.ring.fits
  rw [List.length_append, ← holds.count] at fits
  rw [holds.active]
  cases current with
  | none => exact fits
  | some p => exact fits

theorem Holds.bytes_live (holds : Holds limits q waiting current) :
    q.pendingBytes = tally PendingRx.delivered (q.pending.filter fun p => p.ready || p.active) := by
  rw [holds.bytes]
  refine (tally_filter fun p member unused => ?_).symm
  obtain ⟨k, bound, rfl⟩ := List.getElem_of_mem member
  have inside := bound.trans_eq holds.sized
  rw [Bool.or_eq_false_iff] at unused
  have slot := slot_eq (List.getElem?_eq_getElem bound)
  rw [← slot] at unused ⊢
  rcases holds.slot_cases inside with ⟨_, _, _, member⟩ | ⟨_, arriving⟩ | idle
  · rw [(holds.ready _ member).1] at unused
    cases unused.1
  · rw [(holds.arriving _ arriving).2] at unused
    cases unused.2
  · exact idle.delivered

/-- The messages that wait, as they are read off the slots. -/
theorem Holds.read (holds : Holds limits q waiting current) :
    (List.range q.readyCount).map (fun i => (q.slot ((q.head + i) % q.slotCount)).message) =
      waiting.map PendingRx.message := by
  refine List.ext_getElem (by simp [holds.count]) fun i _ bound => ?_
  rw [List.length_map] at bound
  have cell := holds.ring.cell i (by rw [List.length_append]; omega)
  rw [List.getElem?_append_left bound, List.getElem?_eq_getElem bound] at cell
  rw [List.getElem_map, List.getElem_map, List.getElem_range, slot_eq cell]

/-- The pending ring in every state that can be reached. -/
theorem pending_ring (reachable : (ringSystem limits).Reachable q) :
    q.readyCount + (if q.active.isSome then 1 else 0) ≤ q.slotCount ∧
    q.tail = (q.head + q.readyCount) % q.slotCount ∧
    (∀ k < q.slotCount,
      ((q.slot k).ready = true ↔ ∃ i, i < q.readyCount ∧ k = (q.head + i) % q.slotCount) ∧
      ((q.slot k).active = true ↔ q.active = some k)) ∧
    (∀ k, q.active = some k → k = q.tail) ∧
    q.pendingBytes = tally PendingRx.delivered (q.pending.filter fun p => p.ready || p.active) ∧
    q.pendingBytes ≤ limits.pendingTotalBytes ∧
    (∀ p ∈ q.pending,
      p.delivered ≤ p.capacity ∧
      p.delivered ≤ min limits.pendingBytes appleMaxMsgSize ∧
      ∀ required, required ≤ min limits.pendingBytes appleMaxMsgSize →
        required ≤ p.newCapacity limits required) ∧
    q.finished = q.drained ++
      (List.range q.readyCount).map (fun i => (q.slot ((q.head + i) % q.slotCount)).message) := by
  obtain ⟨waiting, current, holds⟩ := ringInv_reachable reachable
  refine ⟨holds.live_le, ?_, fun k inside => ⟨holds.ready_iff inside, holds.active_iff inside⟩, fun k points => ?_,
    holds.bytes_live, holds.total, fun p member => ?_, ?_⟩
  · rw [holds.count]
    exact holds.tail
  · have active := holds.active
    rw [points] at active
    cases current with
    | none => cases active
    | some p => exact Option.some.inj active
  · have bounded := holds.bounded p member
    exact ⟨bounded.inside, bounded.capped, fun required fits => p.le_newCapacity fits⟩
  · rw [holds.read]
    exact holds.order

def twoSlots : RxLimits where
  pageSize := 4096
  page_pos := by decide
  pendingSlots := 2
  pendingBytes := 65536
  pendingTotalBytes := 131072

/-- Two messages fill the ring, one is taken off, and a third one arrives in its slot. -/
def roundTheRing : List RingAction :=
  [.frame true (fun _ => none) ⟨1, 3, [1]⟩, .frame true (fun _ => none) ⟨1, 3, [2, 3]⟩,
    .postRecv ⟨0, 0, 0, 0⟩, .frame true (fun _ => none) ⟨1, 2, [4]⟩]

theorem pending_ring_twoSlots : ∃ q : RingQp,
    (q.readyCount = 1 ∧ q.head = 1 ∧ q.active = some 0 ∧ q.pendingBytes = 3) ∧
    q.finished = q.drained ++
      (List.range q.readyCount).map (fun i => (q.slot ((q.head + i) % q.slotCount)).message) := by
  obtain ⟨q, reachable, done⟩ := System.exists_reachableVia (ringSystem twoSlots) (fun _ _ => True) roundTheRing
    (fun q => q.readyCount = 1 ∧ q.head = 1 ∧ q.active = some 0 ∧ q.pendingBytes = 3) ⟨16, rfl⟩ (by decide +kernel)
  exact ⟨q, by simpa using done, (pending_ring reachable).2.2.2.2.2.2.2⟩

end Runs

end ThunderboltVerbs.Apple
