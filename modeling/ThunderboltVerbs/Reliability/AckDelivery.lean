import ThunderboltVerbs.Reliability.AckHistory
import ThunderboltVerbs.Reliability.ExactlyOnce

/-!
# Acknowledgements that arrive again

A finished operation does not change any more, so that an acknowledgement of success counts once. The sender
does not look at the retry generation that an acknowledgement answers: the receiver replays the
acknowledgement of the generation in which the operation was completed.
-/

namespace ThunderboltVerbs.Reliability
open Proto Lib

/-- A receiver that has taken any frames answers a frame of that generation with the acknowledgement. -/
def Produced (generation : UInt32) (ack : AckFrame) : Prop :=
  ∃ connId maxPayload script frame recvAvailable event,
    frame.retryGeneration = generation ∧
      (rxOnData (calls RxOp.onData (rxInit connId maxPayload) script).1 frame recvAvailable).2 = .ok event ∧
      event.ack = some ack

inductive SenderCall
  | nextFrame
  | timeout
  | ack (ack : AckFrame)

/-- The operation after the call; a call that fails leaves it as it is. -/
def TxOp.call (tx : TxOp) : SenderCall → TxOp
  | .nextFrame => match txNextFrame tx with | .ok (tx', _) => tx' | .error _ => tx
  | .timeout => match txOnTimeout tx with | .ok (tx', _) => tx' | .error _ => tx
  | .ack ack => match txOnAck tx ack with | .ok (tx', _) => tx' | .error _ => tx

def TxOp.calls (tx : TxOp) (script : List SenderCall) : TxOp := script.foldl TxOp.call tx

/-- The acknowledgement is about this operation. -/
def TxOp.answeredBy (tx : TxOp) (ack : AckFrame) : Prop := ack.connId = tx.connId ∧ ack.opId = tx.opId

/-! ## What a receiver produces -/

theorem collect_ack {rx : RxOp} {frame : DataFrame} {event : RxEvent} {ack : AckFrame}
    (collected : (rx.collect frame).2 = .ok event) (answer : event.ack = some ack) : ack.status = ackOk := by
  unfold RxOp.collect at collected
  split at collected
  · cases collected
  dsimp only at collected
  split at collected
  · cases collected
    cases answer
    rfl
  · cases collected
    cases answer

theorem produced_status {generation : UInt32} {ack : AckFrame} (produced : Produced generation ack) :
    ack.status = ackOk ∨ ack.status = ackRnr := by
  obtain ⟨connId, maxPayload, script, frame, recvAvailable, event, -, answered, answer⟩ := produced
  have remembers := (remembers_init connId maxPayload).run script
  unfold rxOnData at answered
  split at answered
  · cases answered
  split at answered
  · cases answered
    cases answer
  split at answered
  · exact .inl (collect_ack answered answer)
  split at answered
  · rename_i cached found
    cases answered
    obtain rfl := Option.some.inj answer
    obtain ⟨entry, inside, value⟩ := List.exists_of_findSome?_eq_some found
    obtain ⟨kept, rfl, own⟩ := Option.bind_eq_some_iff.mp value
    split at own
    · obtain rfl := Option.some.inj own
      exact .inl (remembers.ok _ (remembers.held kept inside).2)
    · cases own
  split at answered
  · exact .inl (collect_ack answered answer)
  · cases answered
    cases answer
    exact .inr rfl

/-! ## A finished operation -/

variable {tx : TxOp}

theorem call_finished (finished : tx.finished = true) (call : SenderCall) : tx.call call = tx := by
  have final : tx.state = .complete ∨ tx.state = .failed := by
    simpa [TxOp.finished] using finished
  have closed : tx.state ≠ .ready ∧ tx.state ≠ .inFlight := by
    rcases final with state | state <;> simp [state]
  cases call with
  | nextFrame => simp only [TxOp.call, txNextFrame, closed, ne_eq, not_false_eq_true, and_self, if_true]
  | timeout => simp only [TxOp.call, txOnTimeout, closed.2, ne_eq, not_false_eq_true, if_true]
  | ack ack =>
      simp only [TxOp.call, txOnAck, final, if_true]
      split_ifs <;> rfl

theorem calls_finished (finished : tx.finished = true) (script : List SenderCall) :
    tx.calls script = tx := by
  induction script with
  | nil => rfl
  | cons call rest ih =>
      change (tx.call call).calls rest = tx
      rw [call_finished finished call, ih]

/-! ## One delivery -/

theorem call_other {ack : AckFrame} (other : ¬tx.answeredBy ack) : tx.call (.ack ack) = tx := by
  have foreign : ack.connId ≠ tx.connId ∨ ack.opId ≠ tx.opId := by
    unfold TxOp.answeredBy at other
    tauto
  simp only [TxOp.call, txOnAck, foreign, if_true]

theorem call_ok {ack : AckFrame} (ours : tx.answeredBy ack) (unfinished : tx.finished = false)
    (ok : ack.status = ackOk) : tx.call (.ack ack) = tx.finish .complete := by
  have running : ¬(tx.state = .complete ∨ tx.state = .failed) := by
    simpa [TxOp.finished] using unfinished
  simp only [TxOp.call, txOnAck, ours.1, ours.2, ne_eq, not_true, or_self, if_false, running, ok, if_true]

/-- Every call counts one completion and finishes the operation, or counts none. -/
theorem call_counts (unfinished : tx.finished = false) (call : SenderCall) :
    ((tx.call call).finished = true ∧ (tx.call call).completionCount = tx.completionCount + 1) ∨
      ((tx.call call).finished = false ∧ (tx.call call).completionCount = tx.completionCount) := by
  cases call with
  | nextFrame =>
      simp only [TxOp.call, txNextFrame]
      split_ifs
      · exact .inr ⟨unfinished, rfl⟩
      · exact .inr ⟨unfinished, rfl⟩
      · exact .inr ⟨rfl, rfl⟩
  | timeout =>
      simp only [TxOp.call, txOnTimeout]
      split_ifs
      · exact .inr ⟨unfinished, rfl⟩
      · exact .inl ⟨rfl, rfl⟩
      · exact .inr ⟨unfinished, rfl⟩
  | ack ack =>
      simp only [TxOp.call, txOnAck]
      split_ifs
      · exact .inr ⟨unfinished, rfl⟩
      · exact .inr ⟨unfinished, rfl⟩
      · exact .inl ⟨rfl, rfl⟩
      · exact .inl ⟨rfl, rfl⟩
      · exact .inr ⟨rfl, rfl⟩
      · exact .inl ⟨rfl, rfl⟩
      · exact .inr ⟨unfinished, rfl⟩

theorem calls_count (unfinished : tx.finished = false) (script : List SenderCall) :
    (tx.calls script).completionCount = tx.completionCount ∨
      (tx.calls script).completionCount = tx.completionCount + 1 := by
  induction script generalizing tx with
  | nil => exact .inl rfl
  | cons call rest ih =>
      change ((tx.call call).calls rest).completionCount = _ ∨ ((tx.call call).calls rest).completionCount = _
      rcases call_counts unfinished call with ⟨finished, counted⟩ | ⟨running, same⟩
      · rw [calls_finished finished rest]
        exact .inr counted
      · rw [← same]
        exact ih running

/-- An acknowledgement takes at most one unit of the RNR budget, and none of an infinite one. -/
def TxOp.SpendsOne (tx tx' : TxOp) : Prop :=
  tx'.rnrBudget = tx.rnrBudget ∨
    tx.rnrBudget ≠ 0 ∧ tx.rnrBudget ≠ retryInfinite ∧ tx'.rnrBudget.toNat + 1 = tx.rnrBudget.toNat

theorem spendsOne_rnr {tx tx' : TxOp} (left : ¬(tx.rnrBudget ≠ retryInfinite ∧ tx.rnrBudget = 0))
    (spent : tx'.rnrBudget = spend tx.rnrBudget) : tx.SpendsOne tx' := by
  unfold spend at spent
  split at spent
  · rename_i finite
    have some : tx.rnrBudget ≠ 0 := fun zero => left ⟨finite, zero⟩
    have positive : 1 ≤ tx.rnrBudget.toNat := Nat.pos_of_ne_zero fun zero => some (UInt32.toNat_inj.mp zero)
    have fell : tx'.rnrBudget.toNat = tx.rnrBudget.toNat - 1 := by
      rw [spent]
      exact UInt32.toNat_sub_of_le _ _ (UInt32.le_iff_toNat_le.mpr positive)
    exact .inr ⟨some, finite, by omega⟩
  · exact .inl spent

theorem call_ack_spends (tx : TxOp) (ack : AckFrame) : tx.SpendsOne (tx.call (.ack ack)) := by
  simp only [TxOp.call, txOnAck]
  split_ifs with foreign finished ok rnr spent error
  · exact .inl rfl
  · exact .inl rfl
  · exact .inl rfl
  · exact .inl rfl
  · exact spendsOne_rnr spent rfl
  · exact .inl rfl
  · exact .inl rfl

/-- An acknowledgement of success counts once, whatever its generation and however often it arrives. -/
theorem acks_count_once {generation : UInt32} {ack : AckFrame} (produced : Produced generation ack) (tx : TxOp) :
    (ack.status = ackOk ∨ ack.status = ackRnr) ∧
    (tx.finished = true → ∀ script, tx.calls script = tx) ∧
    (¬tx.answeredBy ack → tx.call (.ack ack) = tx) ∧
    (tx.answeredBy ack → tx.finished = false → ack.status = ackOk →
      tx.call (.ack ack) = { tx with state := .complete, completionCount := tx.completionCount + 1 } ∧
      ∀ script, (tx.call (.ack ack)).calls script = tx.call (.ack ack)) ∧
    (tx.finished = false → ∀ script, (tx.calls script).completionCount = tx.completionCount ∨
      (tx.calls script).completionCount = tx.completionCount + 1) ∧
    tx.SpendsOne (tx.call (.ack ack)) := by
  refine ⟨produced_status produced, calls_finished, call_other, fun ours unfinished ok => ?_, calls_count,
    call_ack_spends tx ack⟩
  have completed := call_ok ours unfinished ok
  refine ⟨completed, calls_finished ?_⟩
  rw [completed]
  rfl

/-! ## A sender that has moved on -/

def retriedTx (generation : UInt32) : TxOp where
  connId := 0x5757
  opId := 5
  totalLen := 8
  maxPayload := 16
  frameCount := 1
  retryGeneration := generation
  retryBudget := 3
  rnrBudget := 3
  op := opSend
  state := .inFlight

theorem produced_ok : Produced 0 (buildAck (smallFrame 5) ackOk) :=
  ⟨0x5757, 16, [(smallFrame 5, true)], smallFrame 5, true,
    { duplicate := true, ack := some (buildAck (smallFrame 5) ackOk) }, by decide⟩

theorem produced_rnr : Produced 0 (buildAck (smallFrame 5) ackRnr) :=
  ⟨0x5757, 16, [], smallFrame 5, false, { rnr := true, ack := some (buildAck (smallFrame 5) ackRnr) }, by decide⟩

theorem acks_count_once_replayed :
    (retriedTx 1).call (.ack (buildAck (smallFrame 5) ackOk)) =
      { retriedTx 1 with state := .complete, completionCount := 1 } :=
  ((acks_count_once produced_ok (retriedTx 1)).2.2.2.1 ⟨rfl, rfl⟩ rfl rfl).1

def TxOp.progress (tx : TxOp) : TxState × UInt32 × UInt32 × UInt32 × UInt32 :=
  (tx.state, tx.rnrBudget, tx.retryGeneration, tx.nextFrame, tx.completionCount)

/-- Neither a second delivery nor one to a sender that has moved on is without effect. -/
theorem acks_not_idempotent :
    (¬∀ generation ack tx, Produced generation ack →
      (TxOp.call (TxOp.call tx (.ack ack)) (.ack ack)).progress = (TxOp.call tx (.ack ack)).progress) ∧
    ¬∀ generation ack tx, Produced generation ack → generation < tx.retryGeneration →
      (TxOp.call tx (.ack ack)).progress = tx.progress := by
  constructor
  · intro idempotent
    have again := idempotent 0 _ (retriedTx 0) produced_rnr
    revert again
    decide
  · intro ignored
    have late := ignored 0 _ (retriedTx 1) produced_ok (by decide)
    revert late
    decide

end ThunderboltVerbs.Reliability
