import ThunderboltVerbs.Receive.Order

/-!
# The trace only grows

What a call has done stays done: every step of the receiver extends its trace.
-/

namespace ThunderboltVerbs.Receive
open Proto Verbs Lib

def Grows (q q' : RxQp) : Prop := q.trace <:+ q'.trace

variable {q q' q'' : RxQp} {env : RxEnv}

namespace Grows

theorem refl (q : RxQp) : Grows q q := List.suffix_rfl

theorem trans (first : Grows q q') (second : Grows q' q'') : Grows q q'' := List.IsSuffix.trans first second

theorem note (grows : Grows q q') (effect : Effect) : Grows q (q'.note effect) :=
  grows.trans (List.suffix_cons _ _)

theorem start (grows : Grows q' q'') (trace : q'.trace = q.trace) : Grows q q'' := by
  rw [Grows, ← trace]
  exact grows

end Grows

/-! ## Delivery -/

theorem grows_conclude (q : RxQp) (psn srcQp : Nat) (status : WcStatus) (wc : Option Wc) :
    Grows q (q.conclude psn srcQp status wc) := (keeps_conclude q psn srcQp status wc).grows

theorem grows_popRecv {wqe : RecvWqe} (popped : q.popRecv = some (wqe, q')) : Grows q q' :=
  (keeps_popRecv popped).grows

theorem grows_deliverSend (q : RxQp) (env : RxEnv) (msg : ReorderMsg) :
    Grows q (q.deliverSend env msg).1 := by
  simp only [RxQp.deliverSend]
  split <;> rename_i popped
  · exact (Grows.refl q).note _
  · rename_i wqe q'
    have copied := copyFrags_copied env wqe msg.frags (q'.reorderUnlink msg) 0
    exact ((grows_popRecv popped).trans copied.keeps.grows).trans (grows_conclude _ _ _ _ _)

theorem grows_deliverWrite (q : RxQp) (env : RxEnv) (msg : ReorderMsg) :
    Grows q (q.deliverWrite env msg).1 := by
  simp only [RxQp.deliverWrite]
  split <;> rename_i popped
  · exact (Grows.refl q).note _
  · rename_i wqe q'
    have first : Grows q q' := by
      split at popped
      · exact grows_popRecv popped
      · cases popped
        exact .refl q
    refine Grows.trans ?_ (grows_conclude _ _ _ _ _)
    split
    · exact first.trans
        (copyWriteFrags_copied env msg.rkey msg.remoteAddr msg.frags (q'.reorderUnlink msg)).keeps.grows
    · exact first

theorem grows_queueReadWork (q : RxQp) (env : RxEnv) (request : DataHeader) :
    Grows q (q.queueReadWork env request) := by
  simp only [RxQp.queueReadWork]
  split <;> exact (Grows.refl q).note _

theorem grows_deliver (q : RxQp) (env : RxEnv) (msg : ReorderMsg) : Grows q (q.deliver env msg).1 := by
  simp only [RxQp.deliver]
  split
  · exact grows_deliverWrite q env msg
  · have skipped : Grows q ((q.reorderUnlink msg).skipPsn msg.psn .ok) :=
      (keeps_skipPsn (q.reorderUnlink msg) _ _).grows
    exact skipped.trans (grows_queueReadWork _ env _)
  · exact grows_deliverSend q env msg

theorem grows_pruneStale (q : RxQp) : Grows q q.pruneStale := by
  simp only [RxQp.pruneStale]
  generalize q.rxReorder = msgs
  induction msgs generalizing q with
  | nil => exact .refl q
  | cons msg msgs ih =>
      refine Grows.trans ?_ (ih (q.pruneMsg msg))
      simp only [RxQp.pruneMsg]
      split
      · exact .refl q
      · split <;> exact (Grows.refl q).note _

theorem grows_drainLoop (env : RxEnv) (turns : Nat) (q : RxQp) : Grows q (RxQp.drainLoop env turns q) := by
  induction turns generalizing q with
  | zero => exact .refl q
  | succ turns ih =>
      have pruned := grows_pruneStale q
      simp only [RxQp.drainLoop]
      split
      · exact .refl q
      split
      · exact pruned
      · rename_i msg _
        split
        · exact pruned
        · have delivered := grows_deliver q.pruneStale env msg
          split <;> rename_i result <;> rw [result] at delivered
          · exact pruned.trans delivered
          · exact (pruned.trans delivered).trans (ih _)

theorem grows_drain (q : RxQp) (env : RxEnv) : Grows q (q.drain env) := grows_drainLoop _ _ _

/-! ## Handlers -/

theorem grows_bufferStore (q : RxQp) (env : RxEnv) (frame : Frame) (msg : ReorderMsg) (idx : Nat) :
    Grows q (q.bufferStore env frame msg idx) := by
  simp only [RxQp.bufferStore]
  split
  · exact (Grows.refl q).note _
  · split
    · exact (grows_drain _ env).start rfl
    · exact .refl q

theorem grows_bufferMessage (q : RxQp) (env : RxEnv) (frame : Frame) (shape : Except Errno (Nat × Nat))
    (fresh : ReorderMsg) : Grows q (q.bufferMessage env frame shape fresh) := by
  simp only [RxQp.bufferMessage]
  split
  · exact (Grows.refl q).note _
  split
  · exact (Grows.refl q).note _
  split
  · exact (Grows.refl q).note _
  split
  · split
    · exact (Grows.refl q).note _
    split
    · exact (Grows.refl q).note _
    · exact (grows_bufferStore _ env frame _ _).start rfl
  · split
    · exact (Grows.refl q).note _
    split
    · split
      · exact (Grows.refl q).note _
      split
      · exact grows_drain q env
      · exact .refl q
    · exact grows_bufferStore q env frame _ _

theorem grows_bufferReadReq (q : RxQp) (env : RxEnv) (header : DataHeader) :
    Grows q (q.bufferReadReq env header) := by
  simp only [RxQp.bufferReadReq]
  split
  · exact (Grows.refl q).note _
  split
  · exact (Grows.refl q).note _
  split
  · split
    · exact (Grows.refl q).note _
    split
    · exact (Grows.refl q).note _
    · exact .refl q
  · split
    · exact (Grows.refl q).note _
    split
    · exact grows_drain q env
    · exact .refl q

theorem grows_finishSend (q : RxQp) (msg : RxMessage) : Grows q (q.finishSend msg) :=
  (grows_conclude { q with rxMsg := none } _ _ _ _).start rfl

theorem grows_failActiveSend (q : RxQp) (status : WcStatus) : Grows q (q.failActiveSend status) := by
  simp only [RxQp.failActiveSend]
  split
  · exact .refl q
  · exact grows_finishSend q _

theorem grows_recordStriped (q : RxQp) (env : RxEnv) (msg : RxMessage) (idx : Nat) (frame : Frame) :
    Grows q (q.recordStriped env msg idx frame) := by
  obtain ⟨q', msg', copied, _, _, eq⟩ := recordStriped_spec q env msg idx frame
  rw [eq]
  split
  · exact (Grows.trans copied.keeps.grows (grows_finishSend q' msg')).trans (grows_drain _ env)
  · exact copied.keeps.grows

theorem grows_recordPlain (q : RxQp) (env : RxEnv) (msg : RxMessage) (offset : Nat) (payload : List UInt8)
    (last : Bool) : Grows q (q.recordPlain env msg offset payload last) := by
  have copied := (copySend_spec q env msg offset payload).1.keeps.grows
  simp only [RxQp.recordPlain]
  split
  · exact (Grows.trans copied (grows_finishSend _ _)).trans (grows_drain _ env)
  · exact copied

theorem grows_clearRnr (q : RxQp) (srcQp psn : Nat) : Grows q (q.clearRnr srcQp psn) :=
  (Grows.refl _).start (clearRnr_trace srcQp psn)

theorem grows_handleStripedSend (q : RxQp) (env : RxEnv) (frame : Frame) :
    Grows q (q.handleStripedSend env frame) := by
  simp only [RxQp.handleStripedSend]
  split
  · exact (Grows.refl q).note _
  split
  · exact (Grows.refl q).note _
  split
  · exact grows_bufferMessage q env frame _ _
  split
  · split
    · exact (grows_failActiveSend q _).note _
    · exact grows_recordStriped q env _ _ frame
  · split <;> rename_i popped
    · exact (Grows.refl q).note _
    · exact (grows_popRecv popped).trans (grows_recordStriped _ env _ _ frame)

theorem grows_handlePlainSend (q : RxQp) (env : RxEnv) (frame : Frame) :
    Grows q (q.handlePlainSend env frame) := by
  simp only [RxQp.handlePlainSend]
  split
  · split
    · exact grows_recordPlain q env _ _ _ _
    split
    · exact (Grows.refl q).note _
    split
    · exact grows_bufferMessage q env frame _ _
    split
    · split
      · exact .refl q
      · exact grows_recordPlain q env _ _ _ _
    split
    · exact .refl q
    · exact (grows_failActiveSend q _).note _
  · split
    · exact grows_bufferMessage q env frame _ _
    split
    · exact (Grows.refl q).note _
    split <;> rename_i popped
    · exact (Grows.refl q).note _
    · exact (grows_popRecv popped).trans (grows_recordPlain _ env _ _ _ _)

theorem grows_handleSendFragment (q : RxQp) (env : RxEnv) (frame : Frame) :
    Grows q (q.handleSendFragment env frame) := by
  simp only [RxQp.handleSendFragment]
  split
  · exact (Grows.refl q).note _
  split
  · exact .refl q
  split
  · exact (grows_clearRnr q _ _).trans (grows_handleStripedSend _ env frame)
  · exact (grows_clearRnr q _ _).trans (grows_handlePlainSend _ env frame)

theorem grows_finishWrite (q : RxQp) (env : RxEnv) (write : RxWrite) (status : WcStatus) :
    Grows q (q.finishWrite env write status) := by
  simp only [RxQp.finishWrite]
  generalize wcDef : (if write.withImm then
    some (writeImmWc write.immWqe status write.srcQp write.immData) else none) = wc
  have pushed : Grows q ({ q with rxWrite := none }.cqPushOption write.psn wc).1 :=
    (keeps_cqPushOption { q with rxWrite := none } write.psn wc).grows
  split
  · exact pushed.note _
  · have consumed := pushed.trans (keeps_consumePsn _ write.psn (ackStatus status
      ({ q with rxWrite := none }.cqPushOption write.psn wc).2)).grows
    exact (consumed.trans (grows_drain _ env)).note _

theorem grows_failActiveWrite (q : RxQp) (env : RxEnv) (status : WcStatus) :
    Grows q (q.failActiveWrite env status) := by
  simp only [RxQp.failActiveWrite]
  split
  · exact .refl q
  · exact grows_finishWrite q env _ status

theorem grows_recordWrite (q : RxQp) (env : RxEnv) (write : RxWrite) (offset : Nat) (payload : List UInt8)
    (last : Bool) : Grows q (q.recordWrite env write offset payload last) := by
  simp only [RxQp.recordWrite]
  split
  · split
    · exact grows_finishWrite q env write _
    · exact .refl q
  · split <;> rename_i copied
    · exact grows_finishWrite q env write _
    · obtain rfl := copyToRemote_eq copied
      split
      · exact ((Grows.refl q).note _).trans (grows_finishWrite _ env _ _)
      · exact (Grows.refl q).note _

theorem grows_deferWrite (q : RxQp) (env : RxEnv) (frame : Frame) : Grows q (q.deferWrite env frame) := by
  simp only [RxQp.deferWrite]
  split
  · exact .refl q
  · exact grows_bufferMessage q env frame _ _

theorem grows_handleActiveWrite (q : RxQp) (env : RxEnv) (frame : Frame) (write : RxWrite) :
    Grows q (q.handleActiveWrite env frame write) := by
  simp only [RxQp.handleActiveWrite]
  split
  · split
    · exact grows_deferWrite q env frame
    · exact grows_failActiveWrite q env _
  split
  · split
    · exact .refl q
    · exact grows_recordWrite q env _ _ _ _
  split
  · exact grows_deferWrite q env frame
  · exact grows_recordWrite q env _ _ _ _

theorem grows_handleIdleWrite (q : RxQp) (env : RxEnv) (frame : Frame) :
    Grows q (q.handleIdleWrite env frame) := by
  simp only [RxQp.handleIdleWrite]
  split
  · exact grows_deferWrite q env frame
  split
  · exact grows_deferWrite q env frame
  split
  · split
    · exact (Grows.refl q).note _
    · exact grows_deferWrite q env frame
  split <;> rename_i popped
  · exact (Grows.refl q).note _
  · split at popped
    · exact (grows_popRecv popped).trans (grows_recordWrite _ env _ _ _ _)
    · cases popped
      exact grows_recordWrite q env _ _ _ _

theorem grows_handleRdmaWriteFragment (q : RxQp) (env : RxEnv) (frame : Frame) :
    Grows q (q.handleRdmaWriteFragment env frame) := by
  simp only [RxQp.handleRdmaWriteFragment]
  split
  · exact (Grows.refl q).note _
  split
  · exact .refl q
  refine Grows.trans (grows_clearRnr q frame.header.srcQp (frame.header.psn % psnMod)) ?_
  split
  · exact (Grows.refl _).note _
  split
  · exact grows_handleActiveWrite _ env frame _
  · exact grows_handleIdleWrite _ env frame

theorem grows_handleRdmaReadReq (q : RxQp) (env : RxEnv) (header : DataHeader) :
    Grows q (q.handleRdmaReadReq env header) := by
  simp only [RxQp.handleRdmaReadReq]
  split
  · exact (Grows.refl q).note _
  split
  · exact grows_bufferReadReq q env header
  · have skipped : Grows q (q.skipPsn (header.psn % psnMod) .ok) := (keeps_skipPsn _ _ _).grows
    exact (skipped.trans (grows_drain _ env)).trans (grows_queueReadWork _ env header)

theorem grows_handleFrame (q : RxQp) (env : RxEnv) (frame : Frame) : Grows q (q.handleFrame env frame) := by
  simp only [RxQp.handleFrame]
  split
  · exact grows_handleSendFragment q env frame
  · exact grows_handleSendFragment q env frame
  · exact grows_handleRdmaWriteFragment q env frame
  · exact grows_handleRdmaWriteFragment q env frame
  · exact grows_handleRdmaReadReq q env frame.header
  · exact .refl q

/-! ## Timeout and error -/

theorem grows_reapMsg (q : RxQp) (env : RxEnv) (msg : ReorderMsg) : Grows q (q.reapMsg env msg) := by
  simp only [RxQp.reapMsg]
  split
  · have skipped : Grows q ((q.dropReorder msg).skipPsn msg.psn .error) :=
      (keeps_skipPsn (q.dropReorder msg) _ _).grows
    exact (skipped.note _).trans (grows_drain _ env)
  · exact Grows.note (.refl q) _

theorem grows_reapLoop (env : RxEnv) (timeout turns : Nat) (q : RxQp) :
    Grows q (RxQp.reapLoop env timeout turns q) := by
  induction turns generalizing q with
  | zero => exact .refl q
  | succ turns ih =>
      simp only [RxQp.reapLoop]
      split
      · exact .refl q
      · exact (grows_reapMsg q env _).trans (ih _)

theorem grows_timeoutReapRx (q : RxQp) (env : RxEnv) (timeout : Nat) :
    Grows q (q.timeoutReapRx env timeout) := by
  simp only [RxQp.timeoutReapRx]
  refine Grows.trans ?_ (grows_reapLoop env timeout _ _)
  split <;> split
  · exact (grows_failActiveSend q _).trans (grows_failActiveWrite _ env _)
  · exact grows_failActiveSend q _
  · exact grows_failActiveWrite q env _
  · exact .refl q

theorem grows_flushRx (q : RxQp) (env : RxEnv) : Grows q (q.flushRx env) :=
  (grows_failActiveSend q _).trans (grows_failActiveWrite _ env _)

theorem grows_rxStep {s : Stream} {r r' : Receiver} {action : RxAction} (step : s.rxStep r action = some r') :
    Grows r.q r'.q := by
  cases action with
  | deliver n i env =>
      simp only [Stream.rxStep] at step
      split at step
      · obtain ⟨frame, _, rfl⟩ := Option.map_eq_some_iff.mp step
        exact grows_handleFrame r.q env frame
      · cases step
  | post wqes =>
      obtain rfl := Option.some.inj step
      exact .refl r.q
  | drain env =>
      simp only [Stream.rxStep] at step
      split at step
      · obtain rfl := Option.some.inj step
        exact grows_drain r.q env
      · cases step
  | cq cq =>
      obtain rfl := Option.some.inj step
      exact .refl r.q
  | reap env timeout =>
      simp only [Stream.rxStep] at step
      split at step
      · obtain rfl := Option.some.inj step
        exact grows_timeoutReapRx r.q env timeout
      · cases step
  | flush env =>
      simp only [Stream.rxStep] at step
      split at step
      · obtain rfl := Option.some.inj step
        exact grows_flushRx r.q env
      · cases step

end ThunderboltVerbs.Receive
