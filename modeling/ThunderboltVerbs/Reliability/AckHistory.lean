import ThunderboltVerbs.Reliability.Model
import ThunderboltVerbs.Lib.Calls
import Mathlib.Data.List.Nodup

/-!
# The acknowledgements that a receiver keeps

The history is a ring of `TBV_REL_ACK_HISTORY_SIZE` cells that the free-running counter `ack_history_next`
goes round. The counter wraps at a multiple of the size.
-/

namespace ThunderboltVerbs.Reliability
open Proto Lib

def RxOp.onData (rx : RxOp) (call : DataFrame × Bool) : RxOp × Except Errno RxEvent := rxOnData rx call.1 call.2

/-- The acknowledgement of an operation that the call completed. -/
def completionAck : Except Errno RxEvent → Option AckFrame
  | .ok event => if event.completion.isSome then event.ack else none
  | .error _ => none

def completionAcks (results : List (Except Errno RxEvent)) : List AckFrame := results.filterMap completionAck

/-! ## What one call does -/

/-- A call leaves the history alone or stores the acknowledgement of the operation that it completed. -/
structure Recorded (rx : RxOp) (result : RxOp × Except Errno RxEvent) : Prop where
  connId : result.1.connId = rx.connId
  history : result.1.ackHistory = ((completionAck result.2).elim rx rx.storeCachedAck).ackHistory
  next : result.1.ackHistoryNext = ((completionAck result.2).elim rx rx.storeCachedAck).ackHistoryNext
  ok : ∀ ack, completionAck result.2 = some ack → ack.status = ackOk

variable {rx : RxOp} {frame : DataFrame}

theorem recorded_unchanged {result : Except Errno RxEvent} (silent : completionAck result = none) :
    Recorded rx (rx, result) where
  connId := rfl
  history := by rw [silent, Option.elim_none]
  next := by rw [silent, Option.elim_none]
  ok ack completed := by
    rw [silent] at completed
    cases completed

theorem recorded_collect (rx : RxOp) (frame : DataFrame) : Recorded rx (rx.collect frame) := by
  have kept : (rx.record frame).connId = rx.connId ∧ (rx.record frame).ackHistory = rx.ackHistory ∧
      (rx.record frame).ackHistoryNext = rx.ackHistoryNext := by
    unfold RxOp.record
    split <;> exact ⟨rfl, rfl, rfl⟩
  unfold RxOp.collect
  split
  · exact recorded_unchanged rfl
  dsimp only
  split
  · constructor
    case connId => exact kept.1
    case history =>
      simp only [RxOp.conclude, RxOp.storeCachedAck, completionAck, Option.isSome_some, if_true, Option.elim_some,
        kept.2.1, kept.2.2]
    case next =>
      simp only [RxOp.conclude, RxOp.storeCachedAck, completionAck, Option.isSome_some, if_true, Option.elim_some,
        kept.2.2]
    case ok =>
      intro ack completed
      obtain rfl : buildAck frame ackOk = ack := by simpa [completionAck] using completed
      rfl
  · exact ⟨kept.1, kept.2.1, kept.2.2, fun ack completed => by simp [completionAck] at completed⟩

theorem recorded_onData (rx : RxOp) (call : DataFrame × Bool) : Recorded rx (rx.onData call) := by
  unfold RxOp.onData rxOnData
  split
  · exact recorded_unchanged rfl
  split
  · exact recorded_unchanged rfl
  split
  · exact recorded_collect rx call.1
  split
  · exact recorded_unchanged rfl
  split
  · have recorded := recorded_collect (rx.begin call.1) call.1
    constructor
    case connId => exact recorded.connId
    case history =>
      rw [recorded.history]
      cases completionAck ((rx.begin call.1).collect call.1).2 <;> rfl
    case next =>
      rw [recorded.next]
      cases completionAck ((rx.begin call.1).collect call.1).2 <;> rfl
    case ok => exact recorded.ok
  · exact recorded_unchanged rfl

/-! ## The history of a run -/

/-- The history holds the last acknowledgements of the log, each in the cell of its number. -/
structure Remembers (rx : RxOp) (log : List AckFrame) : Prop where
  size : rx.ackHistory.length = ackHistorySize
  next : rx.ackHistoryNext = UInt32.ofNat log.length
  cell : ∀ i (bound : i < log.length), log.length ≤ i + ackHistorySize →
    rx.ackHistory[i % ackHistorySize]? = some (some { opId := log[i].opId, ack := log[i] })
  held : ∀ entry, some entry ∈ rx.ackHistory → entry.opId = entry.ack.opId ∧ entry.ack ∈ log
  ok : ∀ ack ∈ log, ack.status = ackOk

theorem next_mod (count : Nat) : (UInt32.ofNat count).toNat % ackHistorySize = count % ackHistorySize := by
  rw [UInt32.toNat_ofNat', ackHistorySize]
  omega

variable {log : List AckFrame}

theorem Remembers.store (remembers : Remembers rx log) {ack : AckFrame} (ok : ack.status = ackOk) :
    Remembers (rx.storeCachedAck ack) (log ++ [ack]) := by
  have place : rx.ackHistoryNext.toNat % ackHistorySize = log.length % ackHistorySize := by
    rw [remembers.next, next_mod]
  constructor
  case size => exact (List.length_set ..).trans remembers.size
  case next =>
    change rx.ackHistoryNext + 1 = UInt32.ofNat (log ++ [ack]).length
    rw [remembers.next, List.length_append, List.length_singleton, UInt32.ofNat_add]
    rfl
  case cell =>
    intro i bound recent
    change (rx.ackHistory.set _ _)[i % ackHistorySize]? = _
    rw [List.length_append, List.length_singleton] at bound recent
    rw [place]
    rcases (Nat.lt_succ_iff.mp bound).eq_or_lt with rfl | old
    · have inside : log.length % ackHistorySize < rx.ackHistory.length := by
        rw [remembers.size]
        exact Nat.mod_lt _ (by decide)
      rw [List.getElem?_set_self inside]
      simp
    · have apart : log.length % ackHistorySize ≠ i % ackHistorySize := by
        rw [ackHistorySize] at recent ⊢
        omega
      rw [List.getElem?_set_ne apart, remembers.cell i old (by omega), List.getElem_append_left old]
  case held =>
    intro entry member
    rcases List.mem_or_eq_of_mem_set member with old | new
    · exact ⟨(remembers.held entry old).1, List.mem_append_left _ (remembers.held entry old).2⟩
    · obtain rfl := Option.some.inj new
      exact ⟨rfl, List.mem_append_right _ (List.mem_singleton_self ack)⟩
  case ok =>
    intro other member
    rcases List.mem_append.mp member with old | new
    · exact remembers.ok other old
    · rwa [List.mem_singleton.mp new]

theorem Remembers.onData (remembers : Remembers rx log) (call : DataFrame × Bool) :
    Remembers (rx.onData call).1 (log ++ (completionAck (rx.onData call).2).toList) := by
  have recorded := recorded_onData rx call
  have same {rx' : RxOp} {log' : List AckFrame} (known : Remembers rx' log')
      (history : (rx.onData call).1.ackHistory = rx'.ackHistory)
      (next : (rx.onData call).1.ackHistoryNext = rx'.ackHistoryNext) : Remembers (rx.onData call).1 log' :=
    ⟨history ▸ known.size, next ▸ known.next, history ▸ known.cell, history ▸ known.held, known.ok⟩
  have history := recorded.history
  have next := recorded.next
  cases completed : completionAck (rx.onData call).2 with
  | none =>
      rw [completed, Option.elim_none] at history next
      rw [Option.toList_none, List.append_nil]
      exact same remembers history next
  | some ack =>
      rw [completed, Option.elim_some] at history next
      exact same (remembers.store (recorded.ok ack completed)) history next

theorem Remembers.run (remembers : Remembers rx log) (script : List (DataFrame × Bool)) :
    Remembers (calls RxOp.onData rx script).1 (log ++ completionAcks (calls RxOp.onData rx script).2) := by
  induction script generalizing rx log with
  | nil => simpa [calls, completionAcks] using remembers
  | cons call rest ih =>
      have later := ih (remembers.onData call)
      rw [List.append_assoc] at later
      have results : completionAcks (calls RxOp.onData rx (call :: rest)).2 =
          (completionAck (rx.onData call).2).toList ++
            completionAcks (calls RxOp.onData (rx.onData call).1 rest).2 := by
        rw [calls, completionAcks, List.filterMap_cons]
        cases completionAck (rx.onData call).2 <;> rfl
      rw [results]
      exact later

theorem remembers_init (connId : UInt64) (maxPayload : UInt32) : Remembers (rxInit connId maxPayload) [] where
  size := List.length_replicate
  next := rfl
  cell i bound := absurd bound (Nat.not_lt_zero i)
  held entry member := by
    cases List.eq_of_mem_replicate member
  ok ack member := by cases member

theorem Remembers.findCachedAck (remembers : Remembers rx log) (distinct : (log.map AckFrame.opId).Nodup)
    {ack : AckFrame} (stored : some { opId := ack.opId, ack } ∈ rx.ackHistory) (member : ack ∈ log) :
    rx.findCachedAck ack.opId = some ack := by
  cases found : rx.findCachedAck ack.opId with
  | none =>
      rw [RxOp.findCachedAck, List.findSome?_eq_none_iff] at found
      have missed := found _ stored
      simp at missed
  | some other =>
      obtain ⟨entry, inside, value⟩ := List.exists_of_findSome?_eq_some found
      obtain ⟨kept, rfl, answer⟩ := Option.bind_eq_some_iff.mp value
      split at answer
      · rename_i named
        obtain rfl := Option.some.inj answer
        obtain ⟨own, known⟩ := remembers.held kept inside
        exact congrArg some (List.inj_on_of_nodup_map distinct known member (own.symm.trans named))
      · cases answer

theorem Remembers.stored (remembers : Remembers rx log) {ack : AckFrame}
    (recent : ack ∈ log.reverse.take ackHistorySize) : some { opId := ack.opId, ack } ∈ rx.ackHistory := by
  obtain ⟨k, bound, here⟩ := List.getElem_of_mem recent
  rw [List.length_take, List.length_reverse, lt_min_iff] at bound
  rw [List.getElem_take, List.getElem_reverse] at here
  have cell := remembers.cell (log.length - 1 - k) (by omega) (by omega)
  rw [here] at cell
  exact List.mem_of_getElem? cell

/-! ## Calls that change nothing -/

/-- An operation that was just taken up cannot be in conflict with its own frame. -/
theorem collect_begin_ok (rx : RxOp) (frame : DataFrame) : ∃ event, ((rx.begin frame).collect frame).2 = .ok event ∧
    event.stale = false ∧ event.rnr = false := by
  have own : ¬(frame.opId ≠ (rx.begin frame).opId ∨ frame.op ≠ (rx.begin frame).op ∨
      frame.fragCount.toUInt32 ≠ (rx.begin frame).frameCount) := by
    simp [RxOp.begin]
  unfold RxOp.collect
  rw [if_neg own]
  dsimp only
  split <;> exact ⟨_, rfl, rfl, rfl⟩

theorem collect_quiet {event : RxEvent} (collected : (rx.collect frame).2 = .ok event) :
    event.stale = false ∧ event.rnr = false := by
  unfold RxOp.collect at collected
  split at collected
  · cases collected
  dsimp only at collected
  split at collected <;> cases collected <;> exact ⟨rfl, rfl⟩

theorem collect_error {error : Errno} (refused : (rx.collect frame).2 = .error error) :
    (rx.collect frame).1 = rx ∧
      ¬(frame.opId = rx.opId ∧ frame.op = rx.op ∧ frame.fragCount.toUInt32 = rx.frameCount) := by
  unfold RxOp.collect at refused ⊢
  split at refused
  · rename_i conflict
    rw [if_pos conflict]
    exact ⟨rfl, by tauto⟩
  · dsimp only at refused
    split at refused <;> cases refused

theorem validateFrame_ne_busy {error : Errno} (refused : rxValidateFrame rx frame = .error error) :
    error ≠ .eBusy := by
  unfold rxValidateFrame at refused
  rintro rfl
  split_ifs at refused <;> cases refused

theorem onData_error {recvAvailable : Bool} {error : Errno}
    (refused : (rxOnData rx frame recvAvailable).2 = .error error) :
    (rxOnData rx frame recvAvailable).1 = rx ∧
      (error = .eBusy → rx.active = true ∧
        ¬(frame.opId = rx.opId ∧ frame.op = rx.op ∧ frame.fragCount.toUInt32 = rx.frameCount)) := by
  unfold rxOnData at refused ⊢
  cases checked : rxValidateFrame rx frame with
  | error found =>
      rw [checked] at refused
      obtain rfl := Except.error.inj refused
      exact ⟨rfl, fun busy => absurd busy (validateFrame_ne_busy checked)⟩
  | ok _ =>
      rw [checked] at refused
      dsimp only at refused ⊢
      split at refused
      · cases refused
      rename_i ours
      rw [if_neg ours]
      split at refused
      · rename_i active
        rw [if_pos active]
        obtain ⟨unchanged, conflict⟩ := collect_error refused
        exact ⟨unchanged, fun _ => ⟨active, conflict⟩⟩
      · split at refused
        · cases refused
        split at refused
        · obtain ⟨event, taken, -⟩ := collect_begin_ok rx frame
          rw [taken] at refused
          cases refused
        · cases refused

theorem onData_quiet {recvAvailable : Bool} {event : RxEvent}
    (answered : (rxOnData rx frame recvAvailable).2 = .ok event) (refused : event.stale = true ∨ event.rnr = true) :
    (rxOnData rx frame recvAvailable).1 = rx := by
  unfold rxOnData at answered ⊢
  split at answered
  · rfl
  split at answered
  · rename_i foreign
    rw [if_pos foreign]
  rename_i ours
  rw [if_neg ours]
  split at answered
  · simp [collect_quiet answered] at refused
  rename_i idle
  rw [if_neg idle]
  split at answered
  · rfl
  split at answered
  · simp [collect_quiet answered] at refused
  · rename_i unavailable
    rw [if_neg unavailable]

/-- The last acknowledgements are replayed as they were sent, and a call that fails changes nothing. -/
theorem ack_history_protects (connId : UInt64) (maxPayload : UInt32) (script : List (DataFrame × Bool)) :
    let rx := (calls RxOp.onData (rxInit connId maxPayload) script).1
    let acks := completionAcks (calls RxOp.onData (rxInit connId maxPayload) script).2
    ((acks.map AckFrame.opId).Nodup → ∀ ack ∈ acks.reverse.take ackHistorySize, ack.status = ackOk ∧
      ∀ frame recvAvailable, rx.active = false → rxValidateFrame rx frame = .ok () → frame.connId = connId →
        frame.opId = ack.opId → rxOnData rx frame recvAvailable = (rx, .ok { duplicate := true, ack := some ack })) ∧
    ∀ frame recvAvailable,
      (∀ error, (rxOnData rx frame recvAvailable).2 = .error error →
        (rxOnData rx frame recvAvailable).1 = rx ∧
          (error = .eBusy → rx.active = true ∧
            ¬(frame.opId = rx.opId ∧ frame.op = rx.op ∧ frame.fragCount.toUInt32 = rx.frameCount))) ∧
      ∀ event, (rxOnData rx frame recvAvailable).2 = .ok event → event.stale = true ∨ event.rnr = true →
        (rxOnData rx frame recvAvailable).1 = rx := by
  intro rx acks
  have remembers : Remembers rx acks := (remembers_init connId maxPayload).run script
  have ours : rx.connId = connId := by
    have keeps : ∀ (before : RxOp) (call : DataFrame × Bool), before.connId = connId →
        (before.onData call).1.connId = connId :=
      fun before call known => (recorded_onData before call).connId.trans known
    exact calls_invariant keeps rfl script
  refine ⟨fun distinct ack recent => ?_,
    fun frame recvAvailable => ⟨fun error => onData_error, fun event => onData_quiet⟩⟩
  have member : ack ∈ acks := List.mem_reverse.mp (List.mem_of_mem_take recent)
  refine ⟨remembers.ok ack member, fun frame recvAvailable idle valid conn named => ?_⟩
  have cached : rx.findCachedAck frame.opId = some ack := by
    rw [named]
    exact remembers.findCachedAck distinct (remembers.stored recent) member
  unfold rxOnData
  rw [valid]
  simp only [conn, ours, ne_eq, not_true, if_false, idle, Bool.false_eq_true, cached]

def smallFrame (opId : UInt32) : DataFrame where
  connId := 0x5757
  opId := opId
  frameSeq := 0
  retryGeneration := 0
  offset := 0
  length := 8
  fragIndex := 0
  fragCount := 1
  op := opSend

theorem ack_history_protects_fifth :
    rxOnData (calls RxOp.onData (rxInit 0x5757 16) [(smallFrame 5, true), (smallFrame 6, true)]).1 (smallFrame 5) true =
      ((calls RxOp.onData (rxInit 0x5757 16) [(smallFrame 5, true), (smallFrame 6, true)]).1,
        .ok { duplicate := true, ack := some (buildAck (smallFrame 5) ackOk) }) :=
  ((ack_history_protects 0x5757 16 [(smallFrame 5, true), (smallFrame 6, true)]).1 (by decide)
    (buildAck (smallFrame 5) ackOk) (by decide)).2 (smallFrame 5) true (by decide) (by decide) rfl rfl

end ThunderboltVerbs.Reliability
