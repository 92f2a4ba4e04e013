import ThunderboltVerbs.Receive.Buffer

/-!
# What a frame of a conforming sender does

For each handler, one lemma lists what it does with a frame of the stream, and one derives that the
receive invariant is kept.
-/

namespace ThunderboltVerbs.Receive
open Proto Verbs Lib

variable {s : Stream} {strict : Prop} {sent lo hi k clock n i : Nat} {q : RxQp} {env : RxEnv}

/-! ## The RNR mark -/

theorem Inv.withRnr (inv : Inv s strict sent k clock q) (rnr : Option RnrMark) :
    Inv s strict sent k clock { q with rnr := rnr } :=
  { inv with base := { inv.base with } }

theorem Inv.clearRnr (inv : Inv s strict sent k clock q) (srcQp psn : Nat) :
    Inv s strict sent k clock (q.clearRnr srcQp psn) := by
  simp only [RxQp.clearRnr]
  split
  · exact inv.withRnr none
  · exact inv

theorem Inv.refuseRnr (inv : Inv s strict sent k clock q) (header : DataHeader) :
    Inv s strict sent k clock (q.refuseRnr header) :=
  (inv.withRnr _).note rfl trivial

/-! ## SEND -/

theorem sameSend_header {active : RxMessage} {msg : Message} :
    active.sameSend (s.header n msg i) = active.sameSend (s.header n msg 0) := by
  simp only [RxMessage.sameSend, header_srcQp, header_psn, header_immData, header_opcode, header_rkey]
  congr

theorem sameSend_start (msg : Message) (wqe : RecvWqe) (now count : Nat) :
    (RxMessage.start (s.header n msg i) wqe now count).sameSend (s.header n msg 0) = true := by
  rw [← sameSend_header (i := i)]
  simp [RxMessage.sameSend, RxMessage.start]

theorem psn_of_sameSend {active : RxMessage} {msg : Message}
    (same : active.sameSend (s.header n msg i) = true) : active.psn = s.psn n := by
  simp only [RxMessage.sameSend, Bool.and_eq_true, decide_eq_true_eq, header_psn, s.psn_mod] at same
  exact same.1.1.1.2

/-- The message that takes a fragment of request `k`: the active one, or one that begins. -/
inductive Receiving (s : Stream) (k : Nat) (msg : Message) (i : Nat) (env : RxEnv) (q : RxQp) :
    RxQp → RxMessage → Prop
  | going (active : RxMessage) (isActive : q.rxMsg = some active) : Receiving s k msg i env q q active
  | begun {q' : RxQp} (wqe : RecvWqe) (count : Nat) (vacant : q.rxMsg = none)
      (new : q.reorderFind (s.psn k) = none) (popped : q.popRecv = some (wqe, q')) :
      Receiving s k msg i env q q' (.start (s.header k msg i) wqe env.now count)

def SendWaits (s : Stream) (k n : Nat) (q : RxQp) : Prop :=
  k < n ∨ q.rxMsg = none ∧ (q.reorderFind (s.psn n)).isSome = true

/-- What becomes of fragment `i` of request `n`, a SEND. -/
inductive SendStep (s : Stream) (k n : Nat) (msg : Message) (i : Nat) (env : RxEnv) (q : RxQp) :
    RxQp → Prop
  | ignored : SendStep s k n msg i env q q
  | duplicate (old : n < k) : SendStep s k n msg i env q (q.reackDuplicate s.srcQp s.destQp (s.psn n))
  | buffered {q' : RxQp} (current : k ≤ n) (waits : SendWaits s k n q)
      (step : Buffering s k n msg i env q q') : SendStep s k n msg i env q q'
  | lost (current : n = k) (plain : q.striping = false) (vacant : q.rxMsg = none)
      (new : q.reorderFind (s.psn n) = none) (inner : i ≠ 0) :
      SendStep s k n msg i env q (q.sendErrorAck (s.header n msg i) (s.psn n))
  | refused (current : n = k) (vacant : q.rxMsg = none) (empty : q.popRecv = none) :
      SendStep s k n msg i env q (q.refuseRnr (s.header n msg i))
  | striped {q' : RxQp} {active : RxMessage} (current : n = k) (mode : q.striping = true)
      (receiving : Receiving s k msg i env q q' active)
      (same : active.sameSend (s.header k msg 0) = true) (count : active.fragCount = msg.fragments) :
      SendStep s k n msg i env q (q'.recordStriped env active i (s.dataFrame k msg i))
  | plain {q' : RxQp} {active : RxMessage} (current : n = k) (mode : q.striping = false)
      (receiving : Receiving s k msg i env q q' active)
      (same : active.sameSend (s.header k msg 0) = true) (place : active.received = i * dataMaxPayload) :
      SendStep s k n msg i env q
        (q'.recordPlain env active (i * dataMaxPayload) (msg.slice i) (decide (i + 1 = msg.fragments)))

section Send

variable {msg : Message} (inv : Inv s strict sent k clock q) (request : s.request n = .data msg)
  (isSend : msg.op.isWrite = false) (young : k ≤ n + 2 ^ 23) (near : n < k + 2 ^ 23)
  (bound : i < msg.fragments)
include inv request isSend young near bound

theorem handleStripedSend_cases (mode : q.striping = true) :
    SendStep s k n msg i env q (q.handleStripedSend env (s.dataFrame n msg i)) := by
  have delta : psnDelta (s.psn n) q.rxExpectedPsn = (n : Int) - k := by
    rw [inv.base.expected, s.psnDelta_psn young near]
  have shape := rxFragmentShape_header s n msg bound
  simp only [RxQp.handleStripedSend, Stream.dataFrame, header_immData, isSend, Bool.false_and,
    Bool.false_eq_true, if_false, shape, header_psn, s.psn_mod, delta, header_srcQp, header_destQp]
  split <;> rename_i old
  · exact .duplicate (by omega)
  split <;> rename_i ahead
  · refine .buffered (by omega) (ahead.imp_left (by omega)) ?_
    · rw [show (⟨s.header n msg i, msg.slice i, _⟩ : Frame) = s.dataFrame n msg i from rfl,
        bufferFragment_eq isSend bound]
      exact bufferMessage_cases inv.base request (by omega) near
  · obtain rfl : n = k := by omega
    simp only [not_or, not_and] at ahead
    split <;> rename_i isActive
    · rename_i active
      obtain ⟨own, ownRequest, _, same, count⟩ := inv.active active isActive
      obtain rfl : msg = own := by simpa [request] using ownRequest
      rw [mode, if_pos rfl] at count
      rw [if_neg (by simp [sameSend_header, same, count])]
      exact .striped rfl mode (.going active isActive) same count
    · have new : q.reorderFind (s.psn n) = none := by simpa using ahead.2 isActive
      split <;> rename_i popped
      · exact .refused rfl isActive popped
      · exact .striped rfl mode (.begun _ _ isActive new popped) (sameSend_start ..) rfl

theorem handlePlainSend_cases (mode : q.striping = false) :
    SendStep s k n msg i env q (q.handlePlainSend env (s.dataFrame n msg i)) := by
  have delta : psnDelta (s.psn n) q.rxExpectedPsn = (n : Int) - k := by
    rw [inv.base.expected, s.psnDelta_psn young near]
  have duplicate := s.isDuplicate_psn inv.base.expected young near
  have last := header_isLast s n msg bound
  have positive : 0 < dataMaxPayload := by decide
  have frame : (⟨s.header n msg i, msg.slice i, (s.dataFrame n msg i).sized⟩ : Frame) =
      s.dataFrame n msg i := rfl
  have current : ∀ active, q.rxMsg = some active → (active.sameSend (s.header n msg i) = true ↔ n = k) := by
    intro active isActive
    obtain ⟨own, ownRequest, _, same, _⟩ := inv.active active isActive
    constructor
    · intro matching
      exact s.psn_inj (by omega) (by omega) ((psn_of_sameSend matching).symm.trans (psn_of_sameSend same))
    · rintro rfl
      obtain rfl : msg = own := by simpa [request] using ownRequest
      rw [sameSend_header, same]
  simp only [RxQp.handlePlainSend, Stream.dataFrame, header_fragOffset, header_psn, header_srcQp,
    header_destQp, header_length, s.psn_mod, last, duplicate, delta]
  split <;> rename_i isActive
  · rename_i active
    have sameIff := current active isActive
    split <;> rename_i fits
    · simp only [Bool.and_eq_true] at fits
      obtain rfl := sameIff.mp fits.1
      exact .plain rfl mode (.going active isActive) (sameSend_header ▸ fits.1) (of_decide_eq_true fits.2)
    split <;> rename_i old
    · exact .duplicate (by simpa using old)
    have ahead : k ≤ n := by simpa using old
    split <;> rename_i later
    · refine .buffered ahead (.inl (by omega)) ?_
      rw [frame, bufferFragment_eq isSend bound]
      exact bufferMessage_cases inv.base request ahead near
    obtain rfl : n = k := by omega
    have matching := sameIff.mpr rfl
    obtain ⟨own, ownRequest, _, _, boundary⟩ := inv.active active isActive
    rw [mode, if_neg (by simp)] at boundary
    obtain ⟨j, below, received⟩ := boundary
    simp only [matching, Bool.true_and] at fits ⊢
    have elsewhere : active.received ≠ i * dataMaxPayload := fun same => fits (decide_eq_true same)
    split <;> rename_i behind
    · -- what has been received ends at a fragment boundary, so the whole fragment is old
      have small : (msg.slice i).length ≤ dataMaxPayload := by rw [msg.length_slice]; exact min_le_right _ _
      rw [if_pos]
      · exact .ignored
      · have behind := of_decide_eq_true behind
        rw [received] at behind ⊢
        have before : i < j := Nat.lt_of_mul_lt_mul_right behind
        have step : (i + 1) * dataMaxPayload ≤ j * dataMaxPayload := Nat.mul_le_mul_right _ before
        rw [Nat.add_mul] at step
        omega
    · have behind : ¬i * dataMaxPayload < active.received := fun less => behind (decide_eq_true less)
      split <;> rename_i beyond
      · exact .ignored
      · have beyond : ¬active.received < i * dataMaxPayload := fun less => beyond (decide_eq_true less)
        omega
  · split <;> rename_i elsewhere
    · by_cases old : n < k
      · have reack : q.bufferFragment env (s.dataFrame n msg i) =
            q.reackDuplicate s.srcQp s.destQp (s.psn n) := by
          simp [RxQp.bufferFragment, RxQp.bufferMessage, Stream.dataFrame, duplicate, old]
        rw [frame, reack]
        exact .duplicate old
      · refine .buffered (by omega) ?_ ?_
        · by_cases here : n = k
          · subst here
            exact .inr ⟨isActive, elsewhere.resolve_right fun differs => differs inv.base.expected.symm⟩
          · exact .inl (by omega)
        rw [frame, bufferFragment_eq isSend bound]
        exact bufferMessage_cases inv.base request (by omega) near
    · simp only [not_or, Bool.not_eq_true, Option.isSome_eq_false_iff, Option.isNone_iff_eq_none,
        not_not, inv.base.expected] at elsewhere
      obtain rfl : n = k := s.psn_inj (by omega) (by omega) elsewhere.2
      split <;> rename_i inner
      · refine .lost rfl mode isActive elsewhere.1 ?_
        rintro rfl
        simp at inner
      · have first : i = 0 := by
          simp only [not_not, Nat.mul_eq_zero] at inner
          omega
        split <;> rename_i popped
        · exact .refused rfl isActive popped
        · refine .plain rfl mode (.begun _ 0 isActive elsewhere.1 popped) (sameSend_start ..) ?_
          simp [RxMessage.start, first]

theorem handleSendFragment_cases (env : RxEnv) :
    q.handleSendFragment env (s.dataFrame n msg i) = q ∧ q.rnrSuppresses (s.header n msg i) = true ∨
      q.rnrSuppresses (s.header n msg i) = false ∧
        SendStep s k n msg i env (q.clearRnr s.srcQp (s.psn n))
          (q.handleSendFragment env (s.dataFrame n msg i)) := by
  have valid := sendHeaderOk_header s n msg bound isSend
  have cleared := inv.clearRnr s.srcQp (s.psn n)
  simp only [RxQp.handleSendFragment]
  rw [show (s.dataFrame n msg i).header = s.header n msg i from rfl]
  simp only [valid, Bool.not_true, Bool.false_eq_true, if_false, header_srcQp, header_psn, s.psn_mod]
  split <;> rename_i suppressed
  · exact .inl ⟨rfl, suppressed⟩
  · refine .inr ⟨by simpa using suppressed, ?_⟩
    split <;> rename_i mode
    · exact handleStripedSend_cases cleared request isSend young near bound mode
    · exact handlePlainSend_cases cleared request isSend young near bound (by simpa using mode)

end Send

theorem Inv.noWrite {msg : Message} (inv : Inv s strict sent k clock q) (request : s.request k = .data msg)
    (isSend : msg.op.isWrite = false) : q.rxWrite = none := by
  cases active : q.rxWrite with
  | none => rfl
  | some write =>
      obtain ⟨own, _, ownRequest, isWrite, _⟩ := inv.write write active
      obtain rfl : msg = own := by simpa [request] using ownRequest
      rw [isSend] at isWrite
      cases isWrite

theorem Inv.noMsg {msg : Message} (inv : Inv s strict sent k clock q) (request : s.request k = .data msg)
    (isWrite : msg.op.isWrite = true) : q.rxMsg = none := by
  cases isActive : q.rxMsg with
  | none => rfl
  | some active =>
      obtain ⟨own, ownRequest, isSend, _⟩ := inv.active active isActive
      obtain rfl : msg = own := by simpa [request] using ownRequest
      rw [isSend] at isWrite
      cases isWrite

theorem Base.alone (base : Base s strict k hi k q) (alone : ∀ msg ∈ q.rxReorder, msg.psn ≠ s.psn k) :
    Base s strict (k + 1) hi k q := by
  refine { base with entries := ?_, fresh := by omega, last := by omega }
  intro msg member
  obtain ⟨n, lower, upper, buffered⟩ := base.entries msg member
  have ahead : n ≠ k := by
    rintro rfl
    exact alone msg member buffered.psn
  exact ⟨n, by omega, upper, buffered⟩

theorem Base.finishSend {active : RxMessage} {msg : Message} (base : Base s strict k hi k q)
    (request : s.request k = .data msg) (isSend : msg.op.isWrite = false)
    (alone : ∀ msg ∈ q.rxReorder, msg.psn ≠ s.psn k) (psn : active.psn = s.psn k) :
    Base s strict (k + 1) hi (k + 1) (q.finishSend active) := by
  have cleared : Base s strict (k + 1) hi k { q with rxMsg := none } := { base.alone alone with }
  simp only [RxQp.finishSend, psn]
  refine cleared.conclude (by omega) fun other again isWrite => ?_
  obtain rfl : msg = other := by simpa [request] using again
  rw [isSend] at isWrite
  cases isWrite

theorem finishSend_idle (active : RxMessage) (noWrite : q.rxWrite = none) :
    (q.finishSend active).idle = true := by
  have keeps := keeps_conclude { q with rxMsg := none } active.psn active.srcQp active.status
    (some (recvWc active.wqe active.status active.delivered active.srcQp
      (if active.withImm then some active.immData else none)))
  rw [RxQp.finishSend, keeps.idle]
  simp [RxQp.idle, noWrite]

theorem copySend_spec (q : RxQp) (env : RxEnv) (active : RxMessage) (offset : Nat) (payload : List UInt8) :
    Copied q (q.copySend env active offset payload).1 ∧
      ∃ status delivered, (q.copySend env active offset payload).2 =
        { active with status, delivered, received := active.received + payload.length } := by
  have copied := copyToWqe_copied q env active.wqe offset payload active.delivered
  simp only [RxQp.copySend]
  split <;> rename_i eq <;> rw [eq] at copied
  · exact ⟨copied, _, _, rfl⟩
  · exact ⟨copied, _, _, rfl⟩

def RxMessage.Progress (active active' : RxMessage) : Prop :=
  ∃ received delivered status fragsReceived fragSeen,
    active' = { active with received, delivered, status, fragsReceived, fragSeen }

theorem recordStriped_spec (q : RxQp) (env : RxEnv) (active : RxMessage) (idx : Nat) (frame : Frame) :
    ∃ q' active', Copied q q' ∧ active.Progress active' ∧
      (active'.status = active.status ∨
        active'.status = (q.copySend env active frame.header.fragOffset frame.payload).2.status) ∧
      q.recordStriped env active idx frame =
        if active'.fragsReceived = active'.fragCount then (q'.finishSend active').drain env
        else { q' with rxMsg := some active' } := by
  by_cases seen : active.fragSeen.contains idx = true
  · refine ⟨q, active, .refl _, ⟨_, _, _, _, _, rfl⟩, .inl rfl, ?_⟩
    simp only [RxQp.recordStriped, seen, if_true]
  · obtain ⟨copied, status, delivered, eq⟩ :=
      copySend_spec q env active frame.header.fragOffset frame.payload
    let recorded : RxMessage :=
      { active with
        status := status
        delivered := delivered
        received := active.received + frame.payload.length
        fragsReceived := active.fragsReceived + 1
        fragSeen := idx :: active.fragSeen }
    refine ⟨_, recorded, copied, ⟨_, _, _, _, _, rfl⟩, .inr (by rw [eq]), ?_⟩
    simp only [RxQp.recordStriped, seen, Bool.false_eq_true, if_false, eq]
    rfl

section Recording

variable {msg : Message} {active : RxMessage} (base : Base s strict k hi k q) (below : hi ≤ sent)
  (reach : k < sent) (noWrite : q.rxWrite = none) (alone : ∀ msg ∈ q.rxReorder, msg.psn ≠ s.psn k)
  (request : s.request k = .data msg) (isSend : msg.op.isWrite = false)
  (same : active.sameSend (s.header k msg 0) = true)
include base below reach noWrite alone request isSend same

theorem Base.finishAndDrain (env : RxEnv) :
    ∃ k', k ≤ k' ∧ Inv s strict sent k' clock ((q.finishSend active).drain env) := by
  have finished := base.finishSend request isSend alone (psn_of_sameSend same)
  have idle := finishSend_idle active noWrite
  obtain ⟨k', above, bounded, drained, keeps⟩ := finished.drain env idle
  exact ⟨k', by omega, drained.inv (keeps.idle.trans idle) below (by omega)⟩

theorem Base.begin (shape : if q.striping then active.fragCount = msg.fragments
      else ∃ j < msg.fragments, active.received = j * dataMaxPayload) :
    Inv s strict sent k clock { q with rxMsg := some active } := by
  have wide := base.widen (le_min below base.near) (min_le_right sent _)
  refine ⟨{ wide with }, reach.le, fun _ => reach, ?_, fun _ => alone, ?_, ?_, ?_⟩
  · rintro _ ⟨⟩
    exact ⟨msg, request, isSend, same, shape⟩
  all_goals simp [noWrite]

theorem Base.recordPlain (mode : q.striping = false) (bound : i < msg.fragments)
    (place : active.received = i * dataMaxPayload) :
    ∃ k', k ≤ k' ∧ Inv s strict sent k' clock
      (q.recordPlain env active (i * dataMaxPayload) (msg.slice i) (decide (i + 1 = msg.fragments))) := by
  obtain ⟨copied, status, delivered, eq⟩ := copySend_spec q env active (i * dataMaxPayload) (msg.slice i)
  have base' := base.copied copied
  have keeps := copied.keeps
  have noWrite' := keeps.rxWrite.trans noWrite
  have alone' : ∀ other ∈ (q.copySend env active (i * dataMaxPayload) (msg.slice i)).1.rxReorder,
      other.psn ≠ s.psn k := by rwa [copied.reorder]
  have same' : (q.copySend env active (i * dataMaxPayload) (msg.slice i)).2.sameSend (s.header k msg 0) =
      true := by rw [eq]; exact same
  simp only [RxQp.recordPlain]
  split <;> rename_i last
  · exact base'.finishAndDrain below reach noWrite' alone' request isSend same' env
  · refine ⟨k, le_refl _, base'.begin below reach noWrite' alone' request isSend same' ?_⟩
    have inner : i + 1 ≠ msg.fragments := by simpa using last
    rw [keeps.striping, mode, if_neg (by simp)]
    refine ⟨i + 1, by omega, ?_⟩
    simp only [eq, fragment_length bound, if_neg inner, Nat.add_mul, place]
    omega

theorem Base.recordStriped (mode : q.striping = true) (count : active.fragCount = msg.fragments) :
    ∃ k', k ≤ k' ∧ Inv s strict sent k' clock (q.recordStriped env active i (s.dataFrame k msg i)) := by
  obtain ⟨q', active', copied, message, _, eq⟩ := recordStriped_spec q env active i (s.dataFrame k msg i)
  have same' : active'.sameSend (s.header k msg 0) = true := by
    obtain ⟨received, delivered, status, fragsReceived, fragSeen, rfl⟩ := message
    exact same
  have count' : active'.fragCount = msg.fragments := by
    obtain ⟨received, delivered, status, fragsReceived, fragSeen, rfl⟩ := message
    exact count
  have base' := base.copied copied
  have noWrite' := copied.keeps.rxWrite.trans noWrite
  have alone' : ∀ other ∈ q'.rxReorder, other.psn ≠ s.psn k := by rwa [copied.reorder]
  rw [eq]
  split
  · exact base'.finishAndDrain below reach noWrite' alone' request isSend same' env
  · refine ⟨k, le_refl _, base'.begin below reach noWrite' alone' request isSend same' ?_⟩
    rw [copied.keeps.striping, mode, if_pos rfl]
    exact count'

end Recording

theorem Receiving.base {msg : Message} {q' : RxQp} {active : RxMessage}
    (inv : Inv s strict sent k clock q) (receiving : Receiving s k msg i env q q' active) :
    Base s strict k (min sent (k + maxQpWr)) k q' ∧ Keeps q q' ∧ ∀ msg ∈ q'.rxReorder, msg.psn ≠ s.psn k := by
  cases receiving with
  | going active isActive => exact ⟨inv.base, .refl _, inv.alone (by simp [isActive])⟩
  | begun wqe count vacant new popped =>
      refine ⟨inv.base.popRecv popped, keeps_popRecv popped, ?_⟩
      obtain ⟨rest, _, rfl⟩ := popRecv_spec popped
      simpa [RxQp.reorderFind] using new

/-- The frame may be a duplicate of a request that failed only while the history covers it. -/
def Answerable (strict : Prop) (k n : Nat) (q : RxQp) : Prop :=
  strict → n < k → outcome q.trace n ≠ some .ok → Covered q.trace n

theorem Inv.duplicate {destQp srcQp : Nat} (inv : Inv s strict sent k clock q) (old : n < k)
    (young : k ≤ n + 2 ^ 23) (answerable : Answerable strict k n q) :
    Inv s strict sent k clock (q.reackDuplicate destQp srcQp (s.psn n)) :=
  { inv with
    base := inv.base.reackDuplicate old young fun isStrict => answerable isStrict old
    write := fun write member => (inv.write write member).mono (List.subset_cons_self _ _) }

theorem Inv.sendStep {msg : Message} {q' : RxQp} (inv : Inv s strict sent k clock q)
    (request : s.request n = .data msg) (isSend : msg.op.isWrite = false) (known : n < sent)
    (young : k ≤ n + 2 ^ 23) (near : n < k + 2 ^ 23) (bound : i < msg.fragments) (time : env.Timely clock)
    (answerable : Answerable strict k n q) (step : SendStep s k n msg i env q q') :
    ∃ k', k ≤ k' ∧ Inv s strict sent k' env.now q' := by
  have timely := inv.later time.later
  cases step with
  | ignored => exact ⟨k, le_refl _, timely⟩
  | duplicate old => exact ⟨k, le_refl _, timely.duplicate old young answerable⟩
  | buffered current waits step =>
      refine inv.buffering request ?_ known current bound time ?_ step
      · intro op
        simp [op, SendOp.isWrite] at isSend
      · rcases waits with ahead | ⟨vacant, _⟩
        · exact fun _ => by omega
        · exact fun isActive => absurd vacant isActive
  | lost => exact ⟨k, le_refl _, timely.errorAck⟩
  | refused => exact ⟨k, le_refl _, timely.refuseRnr _⟩
  | striped current mode receiving same count =>
      subst current
      obtain ⟨base, keeps, alone⟩ := receiving.base inv
      exact base.recordStriped (min_le_left _ _) known (keeps.rxWrite.trans (inv.noWrite request isSend)) alone
        request isSend same
        (keeps.striping.trans mode) count
  | plain current mode receiving same place =>
      subst current
      obtain ⟨base, keeps, alone⟩ := receiving.base inv
      exact base.recordPlain (min_le_left _ _) known (keeps.rxWrite.trans (inv.noWrite request isSend)) alone
        request isSend same
        (keeps.striping.trans mode) bound place

theorem clearRnr_eq (q : RxQp) (srcQp psn : Nat) : ∃ rnr, q.clearRnr srcQp psn = { q with rnr := rnr } := by
  simp only [RxQp.clearRnr]
  split
  · exact ⟨none, rfl⟩
  · exact ⟨q.rnr, rfl⟩

theorem clearRnr_trace (srcQp psn : Nat) : (q.clearRnr srcQp psn).trace = q.trace := by
  simp only [RxQp.clearRnr]
  split <;> rfl

theorem Inv.handleSendFragment {msg : Message} (inv : Inv s strict sent k clock q)
    (request : s.request n = .data msg) (isSend : msg.op.isWrite = false) (known : n < sent)
    (young : k ≤ n + 2 ^ 23) (near : n < k + 2 ^ 23) (bound : i < msg.fragments) (time : env.Timely clock)
    (answerable : Answerable strict k n q) :
    ∃ k', k ≤ k' ∧ Inv s strict sent k' env.now (q.handleSendFragment env (s.dataFrame n msg i)) := by
  rcases handleSendFragment_cases inv request isSend young near bound env with ⟨same, _⟩ | ⟨_, step⟩
  · rw [same]
    exact ⟨k, le_refl _, inv.later time.later⟩
  · refine (inv.clearRnr s.srcQp (s.psn n)).sendStep request isSend known young near bound time ?_ step
    simpa only [Answerable, clearRnr_trace] using answerable

/-! ## WRITE -/

theorem sameWrite_header {write : RxWrite} {msg : Message} :
    write.sameWrite (s.header n msg i) = write.sameWrite (s.header n msg 0) := by
  simp only [RxWrite.sameWrite, header_srcQp, header_psn, header_immData, header_opcode, header_rkey,
    header_remoteAddr]
  congr

theorem sameWrite_start (msg : Message) (wqe : RecvWqe) (now : Nat) :
    (RxWrite.start (s.header n msg i) wqe now).sameWrite (s.header n msg 0) = true := by
  rw [← sameWrite_header (i := i)]
  simp [RxWrite.sameWrite, RxWrite.start]

theorem fields_of_sameWrite {write : RxWrite} {msg : Message} (isWrite : msg.op.isWrite = true)
    (same : write.sameWrite (s.header n msg 0) = true) :
    write.psn = s.psn n ∧ write.rkey = msg.rkey ∧ write.remoteAddr = msg.remoteAddr := by
  simp only [RxWrite.sameWrite, Bool.and_eq_true, decide_eq_true_eq, header_psn, s.psn_mod, header_rkey,
    header_remoteAddr, isWrite, if_true] at same
  exact ⟨same.1.1.1.1.2, same.1.1.2, same.2⟩

/-- The WRITE that takes a fragment of request `k`: the active one, or one that begins. -/
inductive Writing (s : Stream) (k : Nat) (msg : Message) (i : Nat) (env : RxEnv) (q : RxQp) :
    RxQp → RxWrite → Prop
  | going (write : RxWrite) (isActive : q.rxWrite = some write) : Writing s k msg i env q q write
  | begun {q' : RxQp} (wqe : RecvWqe) (vacant : q.rxWrite = none)
      (new : msg.op = .rdmaWrite → q.reorderFind (s.psn k) = none)
      (popped : q' = q ∨ q.popRecv = some (wqe, q')) (first : i = 0) :
      Writing s k msg i env q q' (.start (s.header k msg i) wqe env.now)

def WriteWaits (s : Stream) (k n i : Nat) (q : RxQp) : Prop :=
  k < n ∨ match q.rxWrite with
    | some write => write.received < i * dataMaxPayload
    | none => (q.reorderFind (s.psn n)).isSome = true ∨ i ≠ 0

/-- What becomes of fragment `i` of request `n`, a WRITE. -/
inductive WriteStep (s : Stream) (k n : Nat) (msg : Message) (i : Nat) (env : RxEnv) (q : RxQp) :
    RxQp → Prop
  | ignored : WriteStep s k n msg i env q q
  | duplicate (old : n < k) : WriteStep s k n msg i env q (q.reackDuplicate s.srcQp s.destQp (s.psn n))
  | buffered {q' : RxQp} (current : k ≤ n) (waits : WriteWaits s k n i q) (op : msg.op = .rdmaWrite)
      (step : Buffering s k n msg i env q q') : WriteStep s k n msg i env q q'
  | lost (current : n = k) (vacant : q.rxWrite = none) (op : msg.op = .rdmaWriteImm) (inner : i ≠ 0) :
      WriteStep s k n msg i env q (q.sendErrorAck (s.header n msg i) (s.psn n))
  | refused (current : n = k) (vacant : q.rxWrite = none) (op : msg.op = .rdmaWriteImm)
      (empty : q.popRecv = none) : WriteStep s k n msg i env q (q.refuseRnr (s.header n msg i))
  | recorded {q' : RxQp} {write : RxWrite} (current : n = k) (writing : Writing s k msg i env q q' write)
      (same : write.sameWrite (s.header k msg 0) = true) (place : write.received = i * dataMaxPayload) :
      WriteStep s k n msg i env q
        (q'.recordWrite env write (i * dataMaxPayload) (msg.slice i) (decide (i + 1 = msg.fragments)))

section Write

variable {msg : Message} (inv : Inv s strict sent k clock q) (request : s.request n = .data msg)
  (isWrite : msg.op.isWrite = true) (young : k ≤ n + 2 ^ 23) (near : n < k + 2 ^ 23)
  (bound : i < msg.fragments)
include inv request isWrite young near bound

omit young in
theorem deferWrite_cases (env : RxEnv) (current : k ≤ n) (waits : WriteWaits s k n i q) :
    WriteStep s k n msg i env q (q.deferWrite env (s.dataFrame n msg i)) := by
  have header : (s.dataFrame n msg i).header = s.header n msg i := rfl
  by_cases op : msg.op = .rdmaWrite
  · have defer : q.deferWrite env (s.dataFrame n msg i) =
        q.bufferWriteFragment env (s.dataFrame n msg i) msg.payload.length false := by
      simp [RxQp.deferWrite, header, op, SendOp.opcode, SendOp.hasImm]
    rw [defer, bufferWriteFragment_eq op bound]
    exact .buffered current waits op (bufferMessage_cases inv.base request current near)
  · have imm : msg.op.opcode = .rdmaWriteImm := by
      cases kind : msg.op <;> simp_all [SendOp.isWrite, SendOp.opcode]
    have defer : q.deferWrite env (s.dataFrame n msg i) = q := by
      simp [RxQp.deferWrite, header, imm]
    rw [defer]
    exact .ignored

theorem handleActiveWrite_cases {write : RxWrite} (isActive : q.rxWrite = some write) (current : k ≤ n) :
    WriteStep s k n msg i env q (q.handleActiveWrite env (s.dataFrame n msg i) write) := by
  obtain ⟨own, j, ownRequest, ownWrite, same, below, received, applied⟩ := inv.write write isActive
  have delta : psnDelta (s.psn n) q.rxExpectedPsn = (n : Int) - k := by
    rw [inv.base.expected, s.psnDelta_psn young near]
  have last := header_isLast s n msg bound
  have deferred := deferWrite_cases inv request isWrite near bound env current
  have frame : (s.dataFrame n msg i).header = s.header n msg i := rfl
  simp only [RxQp.handleActiveWrite, frame, header_fragOffset, header_psn, header_length, s.psn_mod, last,
    delta]
  by_cases here : n = k
  · subst here
    obtain rfl : msg = own := by simpa [request] using ownRequest
    rw [if_neg (by simp [sameWrite_header, same])]
    split <;> rename_i behind
    · have small : (msg.slice i).length ≤ dataMaxPayload := by rw [msg.length_slice]; exact min_le_right _ _
      rw [if_pos]
      · exact .ignored
      · rw [received] at behind ⊢
        have before : i < j := Nat.lt_of_mul_lt_mul_right behind
        have step : (i + 1) * dataMaxPayload ≤ j * dataMaxPayload := Nat.mul_le_mul_right _ before
        rw [Nat.add_mul] at step
        omega
    · split <;> rename_i beyond
      · exact deferred (.inr (by simpa only [isActive] using beyond))
      · exact .recorded rfl (.going write isActive) same (by omega)
  · have differs : write.sameWrite (s.header n msg i) = false := by
      by_contra matching
      rw [Bool.not_eq_false, sameWrite_header] at matching
      have psn := (fields_of_sameWrite isWrite matching).1.symm.trans (fields_of_sameWrite ownWrite same).1
      exact here (s.psn_inj (by omega) (by omega) psn)
    rw [if_pos (by simp [differs]), if_pos (by omega)]
    exact deferred (.inl (by omega))

theorem handleIdleWrite_cases (vacant : q.rxWrite = none) (current : k ≤ n) :
    WriteStep s k n msg i env q (q.handleIdleWrite env (s.dataFrame n msg i)) := by
  have deferred := deferWrite_cases inv request isWrite near bound env current
  have last := header_isLast s n msg bound
  have frame : (s.dataFrame n msg i).header = s.header n msg i := rfl
  have opcode : msg.op.opcode = .rdmaWriteImm ↔ msg.op = .rdmaWriteImm := by
    cases op : msg.op <;> simp_all [SendOp.opcode]
  have kinds : msg.op ≠ .rdmaWriteImm → msg.op = .rdmaWrite := by
    cases op : msg.op <;> simp_all [SendOp.isWrite]
  simp only [RxQp.handleIdleWrite, frame, header_fragOffset, header_psn, header_opcode, s.psn_mod, last,
    opcode]
  split <;> rename_i elsewhere
  · refine deferred (.inl ?_)
    have differs : n ≠ k := fun here => elsewhere (by rw [inv.base.expected, here])
    omega
  obtain rfl : n = k := by
    rw [inv.base.expected, ne_eq, not_not] at elsewhere
    exact s.psn_inj (by omega) (by omega) elsewhere
  split <;> rename_i waiting
  · exact deferred (.inr (by simpa only [vacant] using .inl waiting.2))
  split <;> rename_i inner
  · split <;> rename_i op
    · refine .lost rfl vacant op ?_
      rintro rfl
      simp at inner
    · refine deferred (.inr ?_)
      simp only [vacant]
      right
      rintro rfl
      simp at inner
  have first : i = 0 := by
    have positive : 0 < dataMaxPayload := by decide
    simp only [ne_eq, Nat.mul_eq_zero, not_not] at inner
    omega
  have new : msg.op = .rdmaWrite → q.reorderFind (s.psn n) = none := by
    intro op
    simpa [op] using waiting
  split <;> rename_i popped
  · split at popped <;> rename_i op
    · exact .refused rfl vacant op popped
    · cases popped
  · split at popped
    · exact .recorded rfl (.begun _ vacant new (.inr popped) first) (sameWrite_start ..)
        (by simp [RxWrite.start, first])
    · cases popped
      exact .recorded rfl (.begun _ vacant new (.inl rfl) first) (sameWrite_start ..)
        (by simp [RxWrite.start, first])

theorem handleRdmaWriteFragment_cases (env : RxEnv) :
    ((q.remoteWrite = false ∨ msg.op = .rdmaWrite ∧ msg.payload = []) ∧
        q.handleRdmaWriteFragment env (s.dataFrame n msg i) =
          q.sendErrorAck (s.header n msg i) (s.psn n)) ∨
      q.handleRdmaWriteFragment env (s.dataFrame n msg i) = q ∧ q.rnrSuppresses (s.header n msg i) = true ∨
      q.rnrSuppresses (s.header n msg i) = false ∧
        WriteStep s k n msg i env (q.clearRnr s.srcQp (s.psn n))
          (q.handleRdmaWriteFragment env (s.dataFrame n msg i)) := by
  have valid := writeHeaderOk_header s n msg bound isWrite
  have cleared := inv.clearRnr s.srcQp (s.psn n)
  have duplicate := s.isDuplicate_psn cleared.base.expected young near
  have frame : (s.dataFrame n msg i).header = s.header n msg i := rfl
  simp only [RxQp.handleRdmaWriteFragment, frame, header_psn, header_srcQp, header_destQp, s.psn_mod, valid,
    duplicate]
  split <;> rename_i refused
  · refine .inl ⟨?_, rfl⟩
    simp only [Bool.not_and, Bool.or_eq_true, Bool.not_eq_true', Bool.or_eq_false_iff,
      decide_eq_false_iff_not, ne_eq, not_not] at refused
    rcases refused with ⟨noImm, empty⟩ | denied
    · refine .inr ⟨?_, empty⟩
      cases op : msg.op <;> simp_all [SendOp.isWrite, SendOp.hasImm]
    · exact .inl denied
  split <;> rename_i suppressed
  · exact .inr (.inl ⟨rfl, suppressed⟩)
  refine .inr (.inr ⟨by simpa using suppressed, ?_⟩)
  split <;> rename_i old
  · exact .duplicate (by simpa using old)
  have current : k ≤ n := by simpa using old
  split <;> rename_i active
  · exact handleActiveWrite_cases cleared request isWrite young near bound active current
  · exact handleIdleWrite_cases cleared request isWrite young near bound active current

end Write

theorem AppliedIf.of_slices {msg : Message} {success : Prop} (request : s.request k = .data msg)
    (slices : ∀ j < msg.fragments, msg.slice j ≠ [] → SliceApplied msg q.trace j) :
    AppliedIf s k q success := by
  intro other again _ _
  obtain rfl : msg = other := by simpa [request] using again
  exact applied_of_slices slices

/-- `finishWrite` up to the drain: the queue pair and the status of the acknowledgement. -/
def RxQp.advanceWrite (q : RxQp) (write : RxWrite) (status : WcStatus) : RxQp × SendAckStatus :=
  let wc :=
    if write.withImm then some (writeImmWc write.immWqe status write.srcQp write.immData) else none
  let (q, pushed) := { q with rxWrite := none }.cqPushOption write.psn wc
  (q.consumePsn write.psn (ackStatus status pushed), ackStatus status pushed)

theorem finishWrite_eq {write : RxWrite} (status : WcStatus) (expected : q.rxExpectedPsn = write.psn) :
    q.finishWrite env write status =
      ((q.advanceWrite write status).1.drain env).sendAck write.srcQp q.qpNum write.psn
        (q.advanceWrite write status).2 := by
  set wc := if write.withImm then some (writeImmWc write.immWqe status write.srcQp write.immData) else none
    with wcDef
  set cleared : RxQp := { q with rxWrite := none } with clearedDef
  obtain ⟨cq, pushed, eq, _⟩ := cqPushOption_spec cleared write.psn wc
  have same : (cleared.cqPushOption write.psn wc).1.rxExpectedPsn = write.psn := by
    rw [eq]
    exact expected
  have qpNum : (cleared.cqPushOption write.psn wc).1.qpNum = q.qpNum := by rw [eq]
  simp only [RxQp.finishWrite, RxQp.advanceWrite, ← wcDef, ← clearedDef, same, qpNum, ne_eq,
    not_true_eq_false, if_false]

section FinishWrite

variable {write : RxWrite} {status : WcStatus} (base : Base s strict k hi k q) (vacant : q.rxMsg = none)
  (psn : write.psn = s.psn k) (applied : AppliedIf s k q (status = .success))
include base vacant psn applied

theorem Base.advanceWrite :
    Base s strict k hi (k + 1) (q.advanceWrite write status).1 ∧
      (q.advanceWrite write status).1.idle = true ∧
      outcome (q.advanceWrite write status).1.trace k = some (q.advanceWrite write status).2 := by
  set wc := if write.withImm then some (writeImmWc write.immWqe status write.srcQp write.immData) else none
    with wcDef
  set cleared : RxQp := { q with rxWrite := none } with clearedDef
  have base' : Base s strict k hi k cleared := { base with }
  have keeps := keeps_cqPushOption cleared (s.psn k) wc
  simp only [RxQp.advanceWrite, ← wcDef, ← clearedDef, psn]
  refine ⟨base'.consume (le_refl k) wc _ fun msg request isWrite fine => ?_, ?_, base'.outcome_consume wc _⟩
  · exact applied msg request isWrite (ackStatus_ne_error fine)
  · rw [(keeps.trans (keeps_consumePsn _ _ _)).idle]
    simp [RxQp.idle, cleared, vacant]

theorem Base.finishWrite :
    ∃ k', k ≤ k' ∧ k' ≤ max (k + 1) hi ∧ Base s strict k' hi k' (q.finishWrite env write status) ∧
      (q.finishWrite env write status).idle = true := by
  obtain ⟨consumed, idle, outcome⟩ := base.advanceWrite vacant psn applied
  obtain ⟨k', above, below, drained, kept⟩ := consumed.drain env idle
  rw [finishWrite_eq status (base.expected.trans psn.symm), psn]
  refine ⟨k', by omega, below, drained.sendAck fun ok => Succeeded.mono kept.grows (ok ▸ outcome) ?_,
    kept.idle.trans idle⟩
  have near := base.near
  simp only [maxQpWr] at near
  rw [drained.sound.count]
  omega

theorem Base.finishWrite_inv (below : hi ≤ sent) (reach : k < sent) :
    ∃ k', k ≤ k' ∧ Inv s strict sent k' clock (q.finishWrite env write status) := by
  obtain ⟨k', above, bounded, final, idle⟩ := base.finishWrite vacant psn applied
  exact ⟨k', above, final.inv idle below (by omega)⟩

end FinishWrite

section RecordWrite

variable {msg : Message} {write : RxWrite} (base : Base s strict k hi k q) (below : hi ≤ sent)
  (reach : k < sent) (vacant : q.rxMsg = none) (request : s.request k = .data msg) (isWrite : msg.op.isWrite = true)
  (same : write.sameWrite (s.header k msg 0) = true)
  (started : 0 < write.startedJiffies ∧ write.startedJiffies ≤ clock)
  (younger : ∀ msg ∈ q.rxReorder, msg.psn = s.psn k → write.startedJiffies ≤ msg.firstJiffies)
include base below reach vacant request isWrite same started younger

theorem Base.recordWrite (bound : i < msg.fragments) (place : write.received = i * dataMaxPayload)
    (applied : ∀ j < i, SliceApplied msg q.trace j) :
    ∃ k', k ≤ k' ∧ Inv s strict sent k' clock
      (q.recordWrite env write (i * dataMaxPayload) (msg.slice i) (decide (i + 1 = msg.fragments))) := by
  obtain ⟨psn, rkey, remoteAddr⟩ := fields_of_sameWrite isWrite same
  simp only [RxQp.recordWrite]
  split <;> rename_i empty
  · have whole : msg.payload = [] := by
      by_contra nonempty
      exact slice_ne_nil msg bound nonempty empty
    have last : i + 1 = msg.fragments := by
      have one : msg.fragments = 1 := by simp [Message.fragments, fragmentCount, whole]
      omega
    rw [if_pos (by simpa using last)]
    refine base.finishWrite_inv vacant psn (.of_slices request fun j _ filled => absurd ?_ filled)
      below reach
    simp [Message.slice, whole]
  · split <;> rename_i copied
    · exact base.finishWrite_inv vacant psn (fun _ _ _ success => by cases success) below reach
    · obtain rfl := copyToRemote_eq copied
      set effect := Effect.wrote write.rkey (write.remoteAddr + i * dataMaxPayload) (msg.slice i)
        with effectDef
      rw [rkey, remoteAddr] at effectDef
      have base' : Base s strict k hi k (q.note effect) := base.note rfl trivial
      have applied' : ∀ j < i + 1, SliceApplied msg (q.note effect).trace j := by
        intro j before
        by_cases here : j = i
        · subst here
          simp [SliceApplied, RxQp.note, effectDef]
        · exact List.mem_cons_of_mem _ (applied j (by omega))
      split <;> rename_i last
      · have final : i + 1 = msg.fragments := by simpa using last
        exact base'.finishWrite_inv vacant psn (.of_slices request fun j inside _ => applied' j (by omega))
          below reach
      · have inner : i + 1 ≠ msg.fragments := by simpa using last
        have wide := base'.widen (le_min below base'.near) (min_le_right sent _)
        refine ⟨k, le_refl _, { wide with }, reach.le, fun _ => reach, ?_, ?_, ?_, ?_, ?_⟩
        · simp [RxQp.note, vacant]
        · simp [RxQp.note, vacant]
        · rintro _ ⟨⟩
          refine ⟨msg, i + 1, request, isWrite, same, by omega, ?_, applied'⟩
          simp only [fragment_length bound, if_neg inner, Nat.add_mul]
          omega
        · rintro _ ⟨⟩
          exact started
        · rintro _ ⟨⟩
          exact younger

end RecordWrite

theorem Inv.writeStep {msg : Message} {q' : RxQp} (inv : Inv s strict sent k clock q)
    (request : s.request n = .data msg) (isWrite : msg.op.isWrite = true) (known : n < sent)
    (young : k ≤ n + 2 ^ 23) (near : n < k + 2 ^ 23) (bound : i < msg.fragments) (time : env.Timely clock)
    (answerable : Answerable strict k n q) (step : WriteStep s k n msg i env q q') :
    ∃ k', k ≤ k' ∧ Inv s strict sent k' env.now q' := by
  have timely := inv.later time.later
  cases step with
  | ignored => exact ⟨k, le_refl _, timely⟩
  | duplicate old => exact ⟨k, le_refl _, timely.duplicate old young answerable⟩
  | buffered current _ op step =>
      refine inv.buffering request (by simp [op]) known current bound time ?_ step
      rintro isActive rfl
      exact isActive (inv.noMsg request isWrite)
  | lost => exact ⟨k, le_refl _, timely.errorAck⟩
  | refused => exact ⟨k, le_refl _, timely.refuseRnr _⟩
  | recorded current writing same place =>
      rename_i opened write
      subst current
      have vacant := inv.noMsg request isWrite
      cases writing with
      | going write isActive =>
          obtain ⟨own, j, ownRequest, _, _, _, received, applied⟩ := timely.write _ isActive
          obtain rfl : msg = own := by simpa [request] using ownRequest
          obtain rfl : j = i :=
            Nat.eq_of_mul_eq_mul_right (by decide : 0 < dataMaxPayload) (received.symm.trans place)
          exact timely.base.recordWrite (min_le_left _ _) known vacant request isWrite same (timely.started _ isActive)
            (timely.younger _ isActive) bound place applied
      | begun wqe idle new popped first =>
          subst first
          have absent : ∀ other ∈ q.rxReorder, other.psn ≠ s.psn n := by
            by_cases op : msg.op = .rdmaWrite
            · simpa [RxQp.reorderFind] using new op
            · intro other member psn
              cases inv.base.buffered (le_refl _) (by simp [maxQpWr]) member psn with
              | data _ _ request' noImm =>
                  obtain rfl : msg = _ := by simpa [request] using request'
                  cases kind : msg.op <;> simp_all [SendOp.isWrite]
              | read _ request' =>
                  rw [request] at request'
                  cases request'
          have base : Base s strict n (min sent (n + maxQpWr)) n opened ∧ opened.rxMsg = none ∧
              opened.rxReorder = q.rxReorder := by
            rcases popped with rfl | popped
            · exact ⟨inv.base, vacant, rfl⟩
            · refine ⟨inv.base.popRecv popped, (keeps_popRecv popped).rxMsg.trans vacant, ?_⟩
              obtain ⟨rest, _, rfl⟩ := popRecv_spec popped
              rfl
          refine base.1.recordWrite (min_le_left _ _) known base.2.1 request isWrite same ⟨time.positive, le_refl _⟩
            ?_ bound place ?_
          · intro other member psn
            rw [base.2.2] at member
            exact absurd psn (absent other member)
          · intro j before
            omega

theorem Inv.handleRdmaWriteFragment {msg : Message} (inv : Inv s strict sent k clock q)
    (request : s.request n = .data msg) (isWrite : msg.op.isWrite = true) (known : n < sent)
    (young : k ≤ n + 2 ^ 23) (near : n < k + 2 ^ 23) (bound : i < msg.fragments) (time : env.Timely clock)
    (answerable : Answerable strict k n q) :
    ∃ k', k ≤ k' ∧ Inv s strict sent k' env.now (q.handleRdmaWriteFragment env (s.dataFrame n msg i)) := by
  rcases handleRdmaWriteFragment_cases inv request isWrite young near bound env with
    ⟨_, eq⟩ | ⟨eq, _⟩ | ⟨_, step⟩
  · rw [eq]
    exact ⟨k, le_refl _, (inv.later time.later).errorAck⟩
  · rw [eq]
    exact ⟨k, le_refl _, inv.later time.later⟩
  · refine (inv.clearRnr s.srcQp (s.psn n)).writeStep request isWrite known young near bound time ?_ step
    simpa only [Answerable, clearRnr_trace] using answerable

/-! ## READ -/

section Read

variable {totalLen remoteAddr rkey : Nat} (inv : Inv s strict sent k clock q)
  (request : s.request n = .read totalLen remoteAddr rkey) (known : n < sent) (young : k ≤ n + 2 ^ 23)
  (near : n < k + 2 ^ 23)
include inv request known young near

theorem Inv.bufferReadReq (time : env.Timely clock) :
    ∃ k', k ≤ k' ∧ Inv s strict sent k' env.now
      (q.bufferReadReq env (s.readFrame n totalLen remoteAddr rkey).header) := by
  have duplicate := s.isDuplicate_psn inv.base.expected young near
  have delta : psnDelta (s.psn n) q.rxExpectedPsn = (n : Int) - k := by
    rw [inv.base.expected, s.psnDelta_psn young near]
  have timely := inv.later time.later
  have psn : (s.readFrame n totalLen remoteAddr rkey).header.psn % psnMod = s.psn n := s.psn_mod n
  simp only [RxQp.bufferReadReq, psn, duplicate, delta]
  split <;> rename_i old
  · exact ⟨k, le_refl _, timely.note rfl trivial⟩
  have current : k ≤ n := by simpa using old
  split <;> rename_i far
  · exact ⟨k, le_refl _, timely.note rfl trivial⟩
  have upper : n < k + maxQpWr := by
    simp only [reorderMaxMessages] at far
    omega
  split <;> rename_i found
  · split
    · exact ⟨k, le_refl _, timely.note rfl trivial⟩
    · split
      · exact ⟨k, le_refl _, timely.note rfl trivial⟩
      · refine ⟨k, le_refl _, timely.link known current upper (.read time.bounded request) found (le_refl _) ?_⟩
        rintro isActive rfl
        obtain ⟨active, eq⟩ := Option.ne_none_iff_exists'.mp isActive
        obtain ⟨own, ownRequest, _⟩ := inv.active active eq
        rw [request] at ownRequest
        cases ownRequest
  · split
    · rename_i msg _
      exact ⟨k, le_refl _, (timely.unlink (reorderFind_some found).1).note rfl trivial⟩
    · split
      · exact timely.drain
      · exact ⟨k, le_refl _, timely⟩

theorem Inv.handleRdmaReadReq (time : env.Timely clock) :
    ∃ k', k ≤ k' ∧ Inv s strict sent k' env.now
      (q.handleRdmaReadReq env (s.readFrame n totalLen remoteAddr rkey).header) := by
  have delta : psnDelta (s.psn n) q.rxExpectedPsn = (n : Int) - k := by
    rw [inv.base.expected, s.psnDelta_psn young near]
  have buffered := inv.bufferReadReq request known young near time
  have psn : (s.readFrame n totalLen remoteAddr rkey).header.psn % psnMod = s.psn n := s.psn_mod n
  have shape : ¬((s.readFrame n totalLen remoteAddr rkey).header.length ≠ 0 ∨
      (s.readFrame n totalLen remoteAddr rkey).header.flags ≠ flagLast) := by
    simp [Stream.readFrame, readRequestHeader]
  simp only [RxQp.handleRdmaReadReq, psn, delta, if_neg shape]
  split <;> rename_i elsewhere
  · exact buffered
  simp only [not_or, not_not, Bool.not_eq_false, Bool.not_eq_true, Option.isSome_eq_false_iff,
    Option.isNone_iff_eq_none] at elsewhere
  obtain ⟨here, idle, new⟩ := elsewhere
  obtain rfl : n = k := by omega
  have absent : ∀ other ∈ q.rxReorder, other.psn ≠ s.psn n := by simpa [RxQp.reorderFind] using new
  have skipped : Base s strict (n + 1) (min sent (n + maxQpWr)) (n + 1) (q.skipPsn (s.psn n) .ok) := by
    refine (inv.base.alone absent).skip (by omega) .ok fun data again => ?_
    rw [request] at again
    cases again
  have idle' : (q.skipPsn (s.psn n) .ok).idle = true := idle
  obtain ⟨k', above, below, drained, keeps⟩ := skipped.drain env idle'
  have read : ReadConsumed s (s.psn n) ((q.skipPsn (s.psn n) .ok).drain env).trace :=
    ⟨n, by rw [drained.sound.count]; omega, rfl, _, _, _, request⟩
  have final : Inv s strict sent k' env.now ((q.skipPsn (s.psn n) .ok).drain env) :=
    drained.inv (keeps.idle.trans idle') (min_le_left _ _) (by omega)
  refine ⟨k', by omega, ?_⟩
  simp only [RxQp.queueReadWork]
  split
  · exact final.note rfl ⟨read, drained.sound.writes⟩
  · exact final.note rfl trivial

end Read

theorem Inv.handleFrame {frame : Frame} (inv : Inv s strict sent k clock q) (framed : s.frame n i = some frame)
    (known : n < sent) (young : k ≤ n + 2 ^ 23) (near : n < k + 2 ^ 23) (time : env.Timely clock)
    (answerable : ∀ msg, s.request n = .data msg → Answerable strict k n q) :
    ∃ k', k ≤ k' ∧ Inv s strict sent k' env.now (q.handleFrame env frame) := by
  simp only [Stream.frame] at framed
  split at framed <;> rename_i request
  · rename_i msg
    split at framed <;> rename_i bound
    · obtain rfl := Option.some.inj framed
      have opcode : (s.dataFrame n msg i).header.opcode = msg.op.opcode := rfl
      simp only [RxQp.handleFrame, opcode]
      cases op : msg.op with
      | send | sendImm =>
          exact inv.handleSendFragment request (by simp [op, SendOp.isWrite]) known young near bound time
            (answerable msg request)
      | rdmaWrite | rdmaWriteImm =>
          exact inv.handleRdmaWriteFragment request (by simp [op, SendOp.isWrite]) known young near bound time
            (answerable msg request)
    · cases framed
  · split at framed
    · obtain rfl := Option.some.inj framed
      exact inv.handleRdmaReadReq request known young near time
    · cases framed

end ThunderboltVerbs.Receive
