import ThunderboltVerbs.Receive.Drain

/-!
# A queue pair with a past

`RxQp.age` puts an older trace and older entries of the ACK history behind those of a queue pair. If the
older entries all say OK, no call can tell: a status that is missing is answered with OK too. Every
operation of the receive half therefore commutes with ageing.
-/

namespace ThunderboltVerbs.Receive
open Proto Verbs Lib

/-- What is left of an earlier connection. -/
structure Past where
  trace : List Effect
  ackHistory : Nat → Option (Nat × SendAckStatus)
  fine : ∀ slot entry, ackHistory slot = some entry → entry.2 = .ok

namespace RxQp

def age (past : Past) (q : RxQp) : RxQp :=
  { q with
    trace := q.trace ++ past.trace
    ackHistory := fun slot => (q.ackHistory slot).or (past.ackHistory slot) }

variable (past : Past) (q : RxQp) (env : RxEnv)

section Fields

@[simp] theorem age_qpNum : (q.age past).qpNum = q.qpNum := rfl
@[simp] theorem age_remoteWrite : (q.age past).remoteWrite = q.remoteWrite := rfl
@[simp] theorem age_striping : (q.age past).striping = q.striping := rfl
@[simp] theorem age_rxExpectedPsn : (q.age past).rxExpectedPsn = q.rxExpectedPsn := rfl
@[simp] theorem age_rxMsg : (q.age past).rxMsg = q.rxMsg := rfl
@[simp] theorem age_rxWrite : (q.age past).rxWrite = q.rxWrite := rfl
@[simp] theorem age_rxReorder : (q.age past).rxReorder = q.rxReorder := rfl
@[simp] theorem age_rxReorderCount : (q.age past).rxReorderCount = q.rxReorderCount := rfl
@[simp] theorem age_rxReorderBytes : (q.age past).rxReorderBytes = q.rxReorderBytes := rfl
@[simp] theorem age_recvq : (q.age past).recvq = q.recvq := rfl
@[simp] theorem age_cq : (q.age past).cq = q.cq := rfl
@[simp] theorem age_idle : (q.age past).idle = q.idle := rfl
@[simp] theorem age_isDuplicate (psn : Nat) : (q.age past).isDuplicate psn = q.isDuplicate psn := rfl
@[simp] theorem age_reorderFind (psn : Nat) : (q.age past).reorderFind psn = q.reorderFind psn := rfl
@[simp] theorem age_rnrSuppresses (header : DataHeader) :
    (q.age past).rnrSuppresses header = q.rnrSuppresses header := rfl

end Fields

section Moves

@[simp] theorem age_note (effect : Effect) : (q.age past).note effect = (q.note effect).age past := rfl
@[simp] theorem age_sendAck (destQp srcQp psn : Nat) (status : SendAckStatus) :
    (q.age past).sendAck destQp srcQp psn status = (q.sendAck destQp srcQp psn status).age past := rfl
@[simp] theorem age_sendErrorAck (header : DataHeader) (psn : Nat) :
    (q.age past).sendErrorAck header psn = (q.sendErrorAck header psn).age past := rfl
@[simp] theorem age_sendReadStatus (header : DataHeader) (psn : Nat) (error : Errno) :
    (q.age past).sendReadStatus header psn error = (q.sendReadStatus header psn error).age past := rfl
@[simp] theorem age_skipPsn (psn : Nat) (status : SendAckStatus) :
    (q.age past).skipPsn psn status = (q.skipPsn psn status).age past := rfl
@[simp] theorem age_reorderUnlink (msg : ReorderMsg) :
    (q.age past).reorderUnlink msg = (q.reorderUnlink msg).age past := rfl
@[simp] theorem age_reorderLink (msg : ReorderMsg) :
    (q.age past).reorderLink msg = (q.reorderLink msg).age past := rfl
@[simp] theorem age_refuseRnr (header : DataHeader) :
    (q.age past).refuseRnr header = (q.refuseRnr header).age past := rfl

@[simp] theorem age_clearRnr (srcQp psn : Nat) :
    (q.age past).clearRnr srcQp psn = (q.clearRnr srcQp psn).age past := by
  simp only [clearRnr, apply_ite (age past)]
  rfl

@[simp] theorem age_consumePsn (psn : Nat) (status : SendAckStatus) :
    (q.age past).consumePsn psn status = (q.consumePsn psn status).age past := by
  have stored : Function.update (fun slot => (q.ackHistory slot).or (past.ackHistory slot))
      (psn % ackHistorySize) (some (psn % psnMod, status)) =
      fun slot => (Function.update q.ackHistory (psn % ackHistorySize) (some (psn % psnMod, status)) slot).or
        (past.ackHistory slot) := by
    funext slot
    simp only [Function.update_apply]
    split <;> rfl
  simp only [consumePsn, ackHistoryStore, age, stored]
  rfl

/-- An older OK and a missing entry get the same answer. -/
theorem age_lookup (psn : Nat) :
    ((q.age past).ackHistoryLookup psn).getD .ok = (q.ackHistoryLookup psn).getD .ok := by
  simp only [ackHistoryLookup, age]
  cases q.ackHistory (psn % ackHistorySize) with
  | some entry => rfl
  | none =>
      simp only [Option.none_or]
      cases stale : past.ackHistory (psn % ackHistorySize) with
      | none => rfl
      | some entry =>
          have ok := past.fine _ _ stale
          dsimp only
          split <;> simp [ok]

@[simp] theorem age_reackDuplicate (destQp srcQp psn : Nat) :
    (q.age past).reackDuplicate destQp srcQp psn = (q.reackDuplicate destQp srcQp psn).age past := by
  simp only [reackDuplicate, age_lookup]
  rfl

@[simp] theorem age_popRecv :
    (q.age past).popRecv = q.popRecv.map fun popped => (popped.1, popped.2.age past) := by
  simp only [popRecv, age_recvq]
  cases q.recvq with
  | nil => rfl
  | cons wqe rest =>
      have closing : (q.age past).closing = q.closing := rfl
      dsimp only
      rw [closing]
      split <;> rfl

@[simp] theorem age_cqPushOption (psn : Nat) (wc : Option Wc) :
    (q.age past).cqPushOption psn wc = ((q.cqPushOption psn wc).1.age past, (q.cqPushOption psn wc).2) := by
  cases wc with
  | none => rfl
  | some wc =>
      simp only [cqPushOption, cqPush]
      change (if q.cq.overflowed = true ∨ q.cq.count = q.cq.cqe then _ else _) = _
      by_cases full : q.cq.overflowed = true ∨ q.cq.count = q.cq.cqe
      · rw [if_pos full, if_pos full]
        rfl
      · rw [if_neg full, if_neg full]
        rfl

@[simp] theorem age_conclude (psn srcQp : Nat) (status : WcStatus) (wc : Option Wc) :
    (q.age past).conclude psn srcQp status wc = (q.conclude psn srcQp status wc).age past := by
  simp only [conclude, age_cqPushOption, age_consumePsn, age_sendAck, age_qpNum]

@[simp] theorem age_copyToWqe (wqe : RecvWqe) (offset : Nat) (payload : List UInt8) (delivered : Nat) :
    (q.age past).copyToWqe env wqe offset payload delivered =
      ((q.copyToWqe env wqe offset payload delivered).1.age past,
        (q.copyToWqe env wqe offset payload delivered).2) := by
  simp only [copyToWqe]
  split
  · rfl
  split
  · rfl
  split <;> rfl

@[simp] theorem age_copyToRemote (rkey remoteAddr offset : Nat) (payload : List UInt8) :
    (q.age past).copyToRemote env rkey remoteAddr offset payload =
      (q.copyToRemote env rkey remoteAddr offset payload).map (age past) := by
  simp only [copyToRemote]
  split
  · rfl
  split
  · rfl
  split <;> rfl

end Moves

/-! ## Delivery -/

section Delivery

@[simp] theorem age_copyFrags (wqe : RecvWqe) (frags : List ReorderFrag) (delivered : Nat) :
    copyFrags env wqe frags (q.age past) delivered =
      ((copyFrags env wqe frags q delivered).1.age past, (copyFrags env wqe frags q delivered).2) := by
  induction frags generalizing q delivered with
  | nil => rfl
  | cons frag rest ih =>
      simp only [copyFrags, age_copyToWqe]
      obtain ⟨q', result⟩ := q.copyToWqe env wqe frag.offset frag.data delivered
      cases result with
      | none => rfl
      | some delivered => exact ih q' delivered

@[simp] theorem age_copyWriteFrags (rkey remoteAddr : Nat) (frags : List ReorderFrag) :
    copyWriteFrags env rkey remoteAddr frags (q.age past) =
      ((copyWriteFrags env rkey remoteAddr frags q).1.age past,
        (copyWriteFrags env rkey remoteAddr frags q).2) := by
  induction frags generalizing q with
  | nil => rfl
  | cons frag rest ih =>
      simp only [copyWriteFrags, age_copyToRemote]
      cases q.copyToRemote env rkey remoteAddr frag.offset frag.data with
      | none => rfl
      | some q' => exact ih q'

theorem age_deliverSend (msg : ReorderMsg) :
    (q.age past).deliverSend env msg = ((q.deliverSend env msg).1.age past, (q.deliverSend env msg).2) := by
  simp only [deliverSend, age_popRecv]
  cases q.popRecv with
  | none => rfl
  | some popped =>
      simp only [Option.map_some, age_reorderUnlink, age_copyFrags, age_conclude]

theorem age_deliverWrite (msg : ReorderMsg) :
    (q.age past).deliverWrite env msg = ((q.deliverWrite env msg).1.age past, (q.deliverWrite env msg).2) := by
  have popped : (if msg.withImm then (q.age past).popRecv else some ({}, q.age past)) =
      (if msg.withImm then q.popRecv else some ({}, q)).map fun popped => (popped.1, popped.2.age past) := by
    rw [apply_ite (Option.map _), age_popRecv]
    rfl
  simp only [deliverWrite, popped]
  cases (if msg.withImm then q.popRecv else some ({}, q)) with
  | none => rfl
  | some popped =>
      simp only [Option.map_some, age_reorderUnlink, age_copyWriteFrags]
      split <;> exact Prod.ext (age_conclude past _ _ _ _ _) rfl

theorem age_queueReadWork (request : DataHeader) :
    (q.age past).queueReadWork env request = (q.queueReadWork env request).age past := by
  simp only [queueReadWork, apply_ite (age past)]
  rfl

theorem age_deliver (msg : ReorderMsg) :
    (q.age past).deliver env msg = ((q.deliver env msg).1.age past, (q.deliver env msg).2) := by
  simp only [deliver]
  split
  · exact age_deliverWrite past q env msg
  · simp only [deliverRead, age_reorderUnlink, age_skipPsn, age_queueReadWork, age_qpNum]
  · exact age_deliverSend past q env msg

theorem age_pruneMsg (msg : ReorderMsg) : (q.age past).pruneMsg msg = (q.pruneMsg msg).age past := by
  simp only [pruneMsg, age_isDuplicate, age_note, age_reackDuplicate, age_qpNum]
  split
  · rfl
  · split <;> rfl

@[simp] theorem age_pruneStale : (q.age past).pruneStale = q.pruneStale.age past := by
  simp only [pruneStale, age_rxReorder]
  generalize q.rxReorder = msgs
  induction msgs generalizing q with
  | nil => rfl
  | cons msg msgs ih =>
      simp only [List.foldl_cons, age_pruneMsg]
      exact ih _

theorem age_drainLoop (turns : Nat) : drainLoop env turns (q.age past) = (drainLoop env turns q).age past := by
  induction turns generalizing q with
  | zero => rfl
  | succ turns ih =>
      simp only [drainLoop, age_idle, age_pruneStale, age_reorderFind, age_rxExpectedPsn]
      split
      · rfl
      split
      · rfl
      rename_i msg _
      split
      · rfl
      rw [age_deliver]
      obtain ⟨q', goes⟩ := q.pruneStale.deliver env msg
      cases goes with
      | false => rfl
      | true => exact ih q'

@[simp] theorem age_drain : (q.age past).drain env = (q.drain env).age past := age_drainLoop past q env _

end Delivery

/-! ## Buffering -/

section Buffering

@[simp] theorem age_bufferStore (frame : Frame) (msg : ReorderMsg) (idx : Nat) :
    (q.age past).bufferStore env frame msg idx = (q.bufferStore env frame msg idx).age past := by
  let stored := { q.reorderReplace (msg.addFragment idx frame.header.fragOffset frame.payload) with
    rxReorderBytes := q.rxReorderBytes + frame.header.length }
  simp only [bufferStore]
  by_cases refused : frame.header.length ≠ 0 ∧
      (q.rxReorderBytes + frame.header.length > reorderMaxBytes ∨ env.fragAlloc = false)
  · rw [if_pos refused, if_pos (show frame.header.length ≠ 0 ∧
      ((q.age past).rxReorderBytes + frame.header.length > reorderMaxBytes ∨ env.fragAlloc = false) from refused)]
    rfl
  · rw [if_neg refused, if_neg (show ¬(frame.header.length ≠ 0 ∧
      ((q.age past).rxReorderBytes + frame.header.length > reorderMaxBytes ∨ env.fragAlloc = false)) from refused)]
    split
    · exact age_drain past stored env
    · rfl

@[simp] theorem age_bufferMessage (frame : Frame) (shape : Except Errno (Nat × Nat)) (fresh : ReorderMsg) :
    (q.age past).bufferMessage env frame shape fresh = (q.bufferMessage env frame shape fresh).age past := by
  simp only [bufferMessage, age_isDuplicate, age_reackDuplicate, age_rxExpectedPsn, age_sendErrorAck,
    age_reorderFind, age_rxReorderCount, age_reorderLink, age_bufferStore, age_drain, dropReorder,
    age_reorderUnlink]
  split
  · rfl
  split
  · rfl
  split
  · rfl
  split
  · split
    · rfl
    split <;> rfl
  · split
    · rfl
    split
    · split
      · rfl
      split <;> rfl
    · rfl

theorem age_bufferReadReq (header : DataHeader) :
    (q.age past).bufferReadReq env header = (q.bufferReadReq env header).age past := by
  simp only [bufferReadReq, age_isDuplicate, age_note, age_rxExpectedPsn, age_sendReadStatus,
    age_reorderFind, age_reorderLink, age_drain, dropReorder, age_reorderUnlink]
  split
  · rfl
  split
  · rfl
  split
  · rw [apply_ite (age past), apply_ite (age past)]
    rfl
  · split
    · rfl
    split <;> rfl

end Buffering

/-! ## SEND -/

section Send

@[simp] theorem age_finishSend (msg : RxMessage) : (q.age past).finishSend msg = (q.finishSend msg).age past :=
  age_conclude past { q with rxMsg := none } _ _ _ _

@[simp] theorem age_failActiveSend (status : WcStatus) :
    (q.age past).failActiveSend status = (q.failActiveSend status).age past := by
  simp only [failActiveSend, age_rxMsg]
  split
  · rfl
  · exact age_finishSend past q _

theorem age_copySend (msg : RxMessage) (offset : Nat) (payload : List UInt8) :
    (q.age past).copySend env msg offset payload =
      ((q.copySend env msg offset payload).1.age past, (q.copySend env msg offset payload).2) := by
  simp only [copySend, age_copyToWqe]
  obtain ⟨q', result⟩ := q.copyToWqe env msg.wqe offset payload msg.delivered
  cases result <;> rfl

@[simp] theorem age_recordStriped (msg : RxMessage) (idx : Nat) (frame : Frame) :
    (q.age past).recordStriped env msg idx frame = (q.recordStriped env msg idx frame).age past := by
  simp only [recordStriped, age_copySend]
  by_cases seen : msg.fragSeen.contains idx = true
  · simp only [seen, if_true, age_finishSend, age_drain, apply_ite (age past)]
    rfl
  · simp only [seen, Bool.false_eq_true, if_false, age_finishSend, age_drain, apply_ite (age past)]
    rfl

@[simp] theorem age_recordPlain (msg : RxMessage) (offset : Nat) (payload : List UInt8) (last : Bool) :
    (q.age past).recordPlain env msg offset payload last =
      (q.recordPlain env msg offset payload last).age past := by
  simp only [recordPlain, age_copySend, age_finishSend, age_drain, apply_ite (age past)]
  rfl

theorem age_handleStripedSend (frame : Frame) :
    (q.age past).handleStripedSend env frame = (q.handleStripedSend env frame).age past := by
  simp only [handleStripedSend, bufferFragment, age_rxExpectedPsn, age_rxMsg, age_reorderFind,
    age_sendErrorAck, age_reackDuplicate, age_bufferMessage, age_failActiveSend, age_recordStriped,
    age_popRecv]
  split
  · rfl
  split
  · rfl
  split
  · rfl
  split
  · split <;> rfl
  · cases q.popRecv with
    | none => rfl
    | some popped => exact age_recordStriped past popped.2 env _ _ frame

theorem age_handlePlainSend (frame : Frame) :
    (q.age past).handlePlainSend env frame = (q.handlePlainSend env frame).age past := by
  simp only [handlePlainSend, bufferFragment, age_rxExpectedPsn, age_rxMsg, age_reorderFind,
    age_sendErrorAck, age_reackDuplicate, age_bufferMessage, age_failActiveSend, age_recordPlain,
    age_popRecv, age_isDuplicate]
  split
  · split
    · rfl
    split
    · rfl
    split
    · rfl
    split
    · split <;> rfl
    split <;> rfl
  · split
    · rfl
    split
    · rfl
    cases q.popRecv with
    | none => rfl
    | some popped => exact age_recordPlain past popped.2 env _ _ _ _

theorem age_handleSendFragment (frame : Frame) :
    (q.age past).handleSendFragment env frame = (q.handleSendFragment env frame).age past := by
  simp only [handleSendFragment, age_sendErrorAck, age_rnrSuppresses, age_clearRnr, age_striping,
    age_handleStripedSend, age_handlePlainSend]
  split
  · rfl
  split
  · rfl
  split <;> rfl

end Send

/-! ## WRITE and READ -/

section Write

@[simp] theorem age_finishWrite (write : RxWrite) (status : WcStatus) :
    (q.age past).finishWrite env write status = (q.finishWrite env write status).age past := by
  have cleared : { q.age past with rxWrite := none } = { q with rxWrite := none }.age past := rfl
  simp only [finishWrite]
  generalize (if write.withImm then
    some (writeImmWc write.immWqe status write.srcQp write.immData) else none) = wc
  rw [cleared, age_cqPushOption, apply_ite (age past)]
  dsimp only
  rw [age_consumePsn, age_drain]
  rfl

@[simp] theorem age_failActiveWrite (status : WcStatus) :
    (q.age past).failActiveWrite env status = (q.failActiveWrite env status).age past := by
  simp only [failActiveWrite, age_rxWrite]
  split
  · rfl
  · exact age_finishWrite past q env _ _

@[simp] theorem age_recordWrite (write : RxWrite) (offset : Nat) (payload : List UInt8) (last : Bool) :
    (q.age past).recordWrite env write offset payload last =
      (q.recordWrite env write offset payload last).age past := by
  simp only [recordWrite, age_finishWrite, age_copyToRemote]
  split
  · split <;> rfl
  · cases q.copyToRemote env write.rkey write.remoteAddr offset payload with
    | none => rfl
    | some q' =>
        simp only [Option.map_some, age_finishWrite]
        split <;> rfl

theorem age_deferWrite (frame : Frame) :
    (q.age past).deferWrite env frame = (q.deferWrite env frame).age past := by
  simp only [deferWrite, bufferWriteFragment, age_bufferMessage, apply_ite (age past)]

theorem age_handleActiveWrite (frame : Frame) (write : RxWrite) :
    (q.age past).handleActiveWrite env frame write = (q.handleActiveWrite env frame write).age past := by
  simp only [handleActiveWrite, age_rxExpectedPsn, age_deferWrite, age_failActiveWrite, age_recordWrite]
  split
  · split <;> rfl
  split
  · split <;> rfl
  split <;> rfl

theorem age_handleIdleWrite (frame : Frame) :
    (q.age past).handleIdleWrite env frame = (q.handleIdleWrite env frame).age past := by
  have popped : (if frame.header.opcode = .rdmaWriteImm then (q.age past).popRecv else some ({}, q.age past)) =
      (if frame.header.opcode = .rdmaWriteImm then q.popRecv else some ({}, q)).map
        fun popped => (popped.1, popped.2.age past) := by
    rw [apply_ite (Option.map _), age_popRecv]
    rfl
  simp only [handleIdleWrite, popped, age_rxExpectedPsn, age_deferWrite, age_reorderFind, age_sendErrorAck,
    age_refuseRnr]
  split
  · rfl
  split
  · rfl
  split
  · split <;> rfl
  · cases (if frame.header.opcode = .rdmaWriteImm then q.popRecv else some ({}, q)) with
    | none => rfl
    | some popped => exact age_recordWrite past popped.2 env _ _ _ _

theorem age_handleRdmaWriteFragment (frame : Frame) :
    (q.age past).handleRdmaWriteFragment env frame = (q.handleRdmaWriteFragment env frame).age past := by
  simp only [handleRdmaWriteFragment, age_remoteWrite, age_sendErrorAck, age_rnrSuppresses, age_clearRnr,
    age_isDuplicate, age_reackDuplicate, age_rxWrite, age_handleActiveWrite, age_handleIdleWrite]
  split
  · rfl
  split
  · rfl
  split
  · rfl
  split <;> rfl

theorem age_handleRdmaReadReq (header : DataHeader) :
    (q.age past).handleRdmaReadReq env header = (q.handleRdmaReadReq env header).age past := by
  simp only [handleRdmaReadReq, age_sendReadStatus, age_rxExpectedPsn, age_idle, age_reorderFind,
    age_bufferReadReq, age_skipPsn, age_drain, age_queueReadWork]
  split
  · rfl
  split <;> rfl

theorem age_handleFrame (frame : Frame) :
    (q.age past).handleFrame env frame = (q.handleFrame env frame).age past := by
  simp only [handleFrame, age_handleSendFragment, age_handleRdmaWriteFragment, age_handleRdmaReadReq]
  split <;> rfl

end Write

/-! ## Timeout and error -/

section Errors

theorem age_reapMsg (msg : ReorderMsg) : (q.age past).reapMsg env msg = (q.reapMsg env msg).age past := by
  simp only [reapMsg, dropReorder, age_reorderUnlink, age_rxExpectedPsn, age_skipPsn, age_note, age_drain,
    age_qpNum, apply_ite (age past)]

theorem age_reapLoop (timeout turns : Nat) :
    reapLoop env timeout turns (q.age past) = (reapLoop env timeout turns q).age past := by
  induction turns generalizing q with
  | zero => rfl
  | succ turns ih =>
      simp only [reapLoop, age_rxReorder, age_reapMsg]
      split
      · rfl
      · exact ih _

theorem age_timeoutReapRx (timeout : Nat) :
    (q.age past).timeoutReapRx env timeout = (q.timeoutReapRx env timeout).age past := by
  have send : (if q.rxMsg.any fun msg => entryExpired msg.startedJiffies env.now timeout then
      (q.failActiveSend .generalErr).age past else q.age past) =
      (if q.rxMsg.any fun msg => entryExpired msg.startedJiffies env.now timeout then
        q.failActiveSend .generalErr else q).age past := (apply_ite (age past) _ _ _).symm
  simp only [timeoutReapRx, age_rxMsg, age_failActiveSend, send]
  generalize (if q.rxMsg.any fun msg => entryExpired msg.startedJiffies env.now timeout then
    q.failActiveSend .generalErr else q) = sent
  simp only [age_rxWrite, age_failActiveWrite]
  have write : (if sent.rxWrite.any fun write => entryExpired write.startedJiffies env.now timeout then
      (sent.failActiveWrite env .generalErr).age past else sent.age past) =
      (if sent.rxWrite.any fun write => entryExpired write.startedJiffies env.now timeout then
        sent.failActiveWrite env .generalErr else sent).age past := (apply_ite (age past) _ _ _).symm
  rw [write, age_rxReorder, age_reapLoop]

theorem age_flushRx : (q.age past).flushRx env = (q.flushRx env).age past := by
  simp only [flushRx, age_failActiveSend, age_failActiveWrite]
  rfl

end Errors

end RxQp

end ThunderboltVerbs.Receive
