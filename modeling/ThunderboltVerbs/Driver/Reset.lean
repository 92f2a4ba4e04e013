import ThunderboltVerbs.Driver.Confinement
import ThunderboltVerbs.Receive.Ageing

/-!
# Reset and reuse

Moving a native queue pair to RESET changes its state and nothing else. What it does after it has been
moved back to RTS is what a new queue pair does if nothing of its earlier use is left to be seen.
-/

namespace ThunderboltVerbs.Driver
open Proto Verbs Receive SendQueue Lib

/-! ## The destination stays known -/

namespace Known

variable {qp : Qp}

theorem completeSendOrdered (psn : Nat) (status : Option Errno) :
    (qp.completeSendOrdered psn status).1.destQpKnown = qp.destQpKnown := by
  simp only [Qp.completeSendOrdered]
  split <;> rfl

theorem handleSendAck (psn now : Nat) (status : SendAckStatus) :
    (qp.handleSendAck psn status now).1.destQpKnown = qp.destQpKnown := by
  simp only [Qp.handleSendAck]
  split
  · rfl
  split
  · exact completeSendOrdered psn _
  · simp only [Qp.noteRnrAck]
    split
    · rfl
    split <;> rfl
  · exact completeSendOrdered psn _

theorem sendTxDone (addr psn now : Nat) (status : Option Errno) :
    (qp.sendTxDone addr psn status now).1.destQpKnown = qp.destQpKnown := by
  simp only [Qp.sendTxDone]
  split
  · rfl
  · exact completeSendOrdered psn _

theorem timeoutReapSends (clock : Qp.Clock) :
    (qp.timeoutReapSends clock).1.destQpKnown = qp.destQpKnown := by
  simp only [Qp.timeoutReapSends]
  split <;> rfl

theorem retried (addr now : Nat) (reason : PostReason) (ret : Option Errno) :
    (qp.retried addr reason ret now).1.destQpKnown = qp.destQpKnown := by
  simp only [Qp.retried]
  split
  · rfl
  split <;> rfl

theorem completeRead (addr : Nat) (copies : List SegmentCopy) (error : Option Errno) :
    (qp.completeRead addr copies error).1.destQpKnown = qp.destQpKnown := by
  simp only [Qp.completeRead, Qp.completeReadOrdered]
  split <;> rfl

theorem handleRdmaReadResp (header : DataHeader) (payload : List UInt8) (alloc : Bool) :
    (qp.handleRdmaReadResp header payload alloc).1.destQpKnown = qp.destQpKnown := by
  simp only [Qp.handleRdmaReadResp]
  split
  · rfl
  split
  · exact completeRead _ _ _
  split
  · rfl
  split
  · split
    · exact completeRead _ _ _
    · rfl
  split
  · exact completeRead _ _ _
  · split
    · rfl
    · exact completeRead _ _ _

theorem getLive {live : Qp} (found : qp.getLive = some live) : live.destQpKnown = qp.destQpKnown := by
  simp only [Qp.getLive] at found
  split at found
  · cases found
  · cases found
    rfl

theorem reserveSendq {counted : Qp} (reserved : qp.reserveSendq = .ok counted) :
    counted.destQpKnown = qp.destQpKnown := by
  simp only [Qp.reserveSendq] at reserved
  split at reserved
  · cases reserved
  split at reserved
  · cases reserved
  · cases reserved
    rfl

theorem unqueueSend (addr : Nat) : (qp.unqueueSend addr).1.destQpKnown = qp.destQpKnown := by
  simp only [Qp.unqueueSend]
  split
  · rfl
  · split <;> rfl

theorem unqueueRead (addr : Nat) : (qp.unqueueRead addr).1.destQpKnown = qp.destQpKnown := by
  simp only [Qp.unqueueRead]
  split
  · rfl
  · split <;> rfl

theorem giveBack (consumed : Bool) : (Verbs.giveBack qp consumed).destQpKnown = qp.destQpKnown := by
  simp only [Verbs.giveBack, Qp.returnRemoteRecvCredit]
  split
  · split <;> rfl
  · rfl

theorem takeCredit {credited : Qp} {consumed : Bool} {op : SendOp}
    (taken : Verbs.takeCredit qp op = .ok (credited, consumed)) : credited.destQpKnown = qp.destQpKnown := by
  simp only [Verbs.takeCredit, Qp.consumeRemoteRecvCredit] at taken
  split at taken
  · split at taken
    · rename_i live isTaken
      cases taken
      split at isTaken
      · cases isTaken
      split at isTaken
      · cases isTaken
        rfl
      · cases isTaken
    · cases taken
      rfl
    · cases taken
  · cases taken
    rfl

variable {device : Device} {env : PostEnv qp}

theorem postReadCtx (live : Qp) (wr : SendWr) (addr totalLen : Nat) (segs : List Segment) :
    (Verbs.postReadCtx env live wr addr segs totalLen).1.destQpKnown = live.destQpKnown := by
  simp only [Verbs.postReadCtx]
  split
  · rfl
  rename_i counted reserved
  have same := reserveSendq reserved
  split
  · exact same
  split
  · exact same
  · exact same
  · split
    · exact (unqueueRead addr).trans same
    · exact same

theorem postRdmaRead (wr : SendWr) : (Verbs.postRdmaRead device qp env wr).1.destQpKnown = qp.destQpKnown := by
  simp only [Verbs.postRdmaRead]
  split
  · rfl
  split
  · rfl
  rename_i live found
  have same := getLive found
  split
  · exact same
  split
  · exact same
  split
  · exact same
  · exact (postReadCtx live wr _ _ _).trans same

theorem postSendCtx (live : Qp) (op : SendOp) (wr : SendWr) (consumed : Bool) (addr totalLen : Nat)
    (segs : List Segment) :
    (Verbs.postSendCtx device env live op wr consumed addr segs totalLen).1.destQpKnown = live.destQpKnown := by
  simp only [Verbs.postSendCtx]
  split
  · exact giveBack consumed
  rename_i counted reserved
  have same := reserveSendq reserved
  split
  · exact same
  split <;> rename_i unqueued
  · exact (giveBack consumed).trans (((congrArg (fun r : Qp × Bool => r.1.destQpKnown) unqueued).symm.trans
      (unqueueSend addr)).trans same)
  · exact ((congrArg (fun r : Qp × Bool => r.1.destQpKnown) unqueued).symm.trans (unqueueSend addr)).trans same

theorem postSendOne (wr : SendWr) : (Verbs.postSendOne device qp env wr).1.destQpKnown = qp.destQpKnown := by
  simp only [Verbs.postSendOne]
  split
  · rfl
  split
  · exact postRdmaRead wr
  split
  · rfl
  simp only [Verbs.postSend]
  split
  · rfl
  split
  · rfl
  rename_i live found
  have same := getLive found
  split
  · exact same
  split
  · exact same
  split
  · exact same
  rename_i credited consumed taken
  have sameCredit := (takeCredit taken).trans same
  split
  · exact (giveBack consumed).trans sameCredit
  · exact (postSendCtx credited _ wr consumed _ _ _).trans sameCredit

end Known

namespace NativeQp

theorem markError_known (q : NativeQp) (env : RxEnv) :
    (q.markError env).1.tx.destQpKnown = q.tx.destQpKnown := by
  simp only [markError]
  split <;> rfl

theorem advertiseRecvCredits_known (q : NativeQp) (sent : Bool) :
    (q.advertiseRecvCredits sent).1.tx = q.tx := by
  simp only [advertiseRecvCredits]
  split <;> rfl

theorem postRecvs_known (mrs : Nat → Option Mr) (wrs : List RecvWr) (q : NativeQp) :
    (postRecvs mrs wrs q).1.tx = q.tx := by
  induction wrs generalizing q with
  | nil => rfl
  | cons wr rest ih =>
      simp only [postRecvs]
      split
      · rfl
      · rename_i next taken
        rw [ih]
        simp only [postRecvOne] at taken
        split at taken
        · cases taken
        split at taken
        · cases taken
        split at taken
        · cases taken
        split at taken
        · cases taken
        · cases taken
          rfl

theorem postRecv_known (q : NativeQp) (env : RxEnv) (wrs : List RecvWr) (sent : Bool) :
    (q.postRecv env wrs sent).1.tx = q.tx := by
  have posted := postRecvs_known env.mrs wrs q
  have advertised := (advertiseRecvCredits_known (postRecvs env.mrs wrs q).1 sent).trans posted
  simp only [postRecv]
  split
  · rfl
  split
  · exact posted
  · split
    · exact advertised
    · exact advertised

theorem acceptRecvCredit_known (q : NativeQp) (header : DataHeader) :
    (q.acceptRecvCredit header).tx.destQpKnown = q.tx.destQpKnown := by
  simp only [acceptRecvCredit]
  split
  · rfl
  split
  · split <;> rfl
  · split <;> rfl

theorem acked_known (q : NativeQp) (env : RxEnv) (header : DataHeader) :
    (q.acked env header).1.tx.destQpKnown = q.tx.destQpKnown := by
  simp only [acked]
  split
  · rfl
  split
  · exact (markError_known _ env).trans (Known.handleSendAck _ _ _)
  · exact Known.handleSendAck _ _ _

theorem rxNativeFrame_known (q : NativeQp) (env : RxEnv) (frame : Frame) :
    (q.rxNativeFrame env frame).1.tx.destQpKnown = q.tx.destQpKnown := by
  simp only [rxNativeFrame]
  split
  · split
    · rfl
    · exact acceptRecvCredit_known q frame.header
  split
  · rfl
  split
  · exact acked_known q env frame.header
  · simp only [readAcked]
    split <;> rfl
  · exact Known.handleRdmaReadResp _ _ _
  · rfl

theorem readReqWork_known (q : NativeQp) (env : ReadWorkEnv) (request : DataHeader) :
    (q.readReqWork env request).1.tx = q.tx := by
  simp only [readReqWork]
  split
  · rfl
  split
  · rfl
  split
  · rfl
  split
  · rfl
  · split <;> rfl

theorem step_known {q : NativeQp} {action : QpAction} {outcome : Outcome}
    (stepped : q.step action = some outcome) : outcome.1.tx.destQpKnown = q.tx.destQpKnown := by
  cases action with
  | postSend device wr answers =>
      obtain ⟨env, -, rfl⟩ := Option.map_eq_some_iff.mp stepped
      exact Known.postSendOne wr
  | postRecv env wrs sent =>
      cases stepped
      exact congrArg Qp.destQpKnown (postRecv_known q env wrs sent)
  | frame env frame =>
      cases stepped
      exact rxNativeFrame_known q env frame
  | readWork env request =>
      cases stepped
      exact congrArg Qp.destQpKnown (readReqWork_known q env request)
  | txDone addr psn error now =>
      cases stepped
      exact Known.sendTxDone addr psn now error
  | timeoutTx clock =>
      cases stepped
      exact Known.timeoutReapSends clock
  | retried addr reason ret now =>
      cases stepped
      exact Known.retried addr now reason ret
  | timeoutRx env timeout =>
      cases stepped
      simp only [timeoutRx]
      split
      · exact markError_known _ env
      · rfl
  | errorWork env =>
      cases stepped
      exact markError_known q env
  | pollCq cq =>
      cases stepped
      rfl

end NativeQp

/-! ## An aged queue pair answers like a young one -/

def NativeQp.age (past : Past) (src : Option Nat) (q : NativeQp) : NativeQp :=
  { q with rx := q.rx.age past, earlyCreditSrc := src }

def Outcome.age (past : Past) (src : Option Nat) (outcome : Outcome) : Outcome :=
  (outcome.1.age past src, outcome.2)

namespace NativeQp

variable (past : Past) (src : Option Nat) (q : NativeQp) (env : RxEnv)

theorem age_received (rx : RxQp) :
    (q.age past src).received (rx.age past) = (q.received rx).age past src := by
  have news : (rx.age past).trace.take ((rx.age past).trace.length - (q.age past src).rx.trace.length) =
      rx.trace.take (rx.trace.length - q.rx.trace.length) := by
    show (rx.trace ++ past.trace).take ((rx.trace ++ past.trace).length - (q.rx.trace ++ past.trace).length) = _
    rw [List.length_append, List.length_append, Nat.add_sub_add_right, List.take_append_of_le_length
      (Nat.sub_le _ _)]
  simp only [received, news]
  rfl

theorem age_flushError : (q.age past src).flushError env = (q.flushError env).age past src := by
  let cleared : NativeQp := { q with tx := q.tx.flushSends.1.flushReads.1, readResps := [] }
  let finish (outcome : Outcome) : Outcome :=
    (outcome.1.flushRecvWqes.1,
      sendsDone q.tx.flushSends.2 ++ readsDone q.tx.flushSends.1.flushReads.2 (fun _ => some .eCanceled) ++
        outcome.2 ++ outcome.1.flushRecvWqes.2)
  have flushed : (cleared.age past src).received ((q.rx.age past).flushRx env) =
      (cleared.received (q.rx.flushRx env)).age past src := by
    rw [RxQp.age_flushRx, age_received]
  exact congrArg finish flushed

theorem age_markError : (q.age past src).markError env = (q.markError env).age past src := by
  have flushed := age_flushError past src { q with tx := { q.tx with state := .err } } env
  simp only [markError, apply_ite (Outcome.age past src), ← flushed]
  rfl

theorem age_advertiseRecvCredits (sent : Bool) :
    (q.age past src).advertiseRecvCredits sent = (q.advertiseRecvCredits sent).age past src := by
  simp only [advertiseRecvCredits, apply_ite (Outcome.age past src)]
  rfl

theorem age_postRecvOne (mrs : Nat → Option Mr) (wr : RecvWr) :
    (q.age past src).postRecvOne mrs wr = (q.postRecvOne mrs wr).map (age past src) := by
  simp only [postRecvOne]
  split
  · rfl
  split
  · rfl
  simp only [apply_ite (Except.map (age past src))]
  rfl

theorem age_postRecvs (mrs : Nat → Option Mr) (wrs : List RecvWr) :
    postRecvs mrs wrs (q.age past src) =
      ((postRecvs mrs wrs q).1.age past src, (postRecvs mrs wrs q).2) := by
  induction wrs generalizing q with
  | nil => rfl
  | cons wr rest ih =>
      simp only [postRecvs, age_postRecvOne]
      cases q.postRecvOne mrs wr with
      | error error => rfl
      | ok next => exact ih next

theorem age_drained : (q.age past src).received ((q.age past src).rx.drain env) =
    (q.received (q.rx.drain env)).age past src := by
  rw [← age_received, ← RxQp.age_drain]
  rfl

theorem age_postRecv (wrs : List RecvWr) (sent : Bool) :
    (q.age past src).postRecv env wrs sent = (q.postRecv env wrs sent).age past src := by
  simp only [postRecv, age_postRecvs, age_advertiseRecvCredits]
  rw [apply_ite (Outcome.age past src), apply_ite (Outcome.age past src)]
  cases (postRecvs env.mrs wrs q).2 with
  | some error => rfl
  | none =>
      simp only [Outcome.age, age_drained]
      rfl

/-- The source of an early credit is read only while the destination is not known. -/
theorem age_acceptRecvCredit (known : q.tx.destQpKnown = true) (header : DataHeader) :
    (q.age past src).acceptRecvCredit header = (q.acceptRecvCredit header).age past src := by
  have known' : (q.age past src).tx.destQpKnown = true := known
  simp only [acceptRecvCredit, known, known', if_true, apply_ite (age past src)]
  rfl

theorem age_acked (header : DataHeader) :
    (q.age past src).acked env header = (q.acked env header).age past src := by
  simp only [acked]
  cases sendAckStatus header.immData with
  | none => rfl
  | some status =>
      let acked := q.tx.handleSendAck header.psn status env.now
      let noted : NativeQp := { q with tx := acked.1 }
      let finish (outcome : Outcome) : Outcome := (outcome.1, sendsDone acked.2 ++ outcome.2)
      have marked : (if acked.2.any fun entry => entry.2.completionStatus.isSome then
          (noted.age past src).markError env else (noted.age past src, [])) =
          Outcome.age past src (if acked.2.any fun entry => entry.2.completionStatus.isSome then
            noted.markError env else (noted, [])) := by
        rw [age_markError, apply_ite (Outcome.age past src)]
        rfl
      exact congrArg finish marked

theorem age_rxNativeFrame (known : q.tx.destQpKnown = true) (frame : Frame) :
    (q.age past src).rxNativeFrame env frame = (q.rxNativeFrame env frame).age past src := by
  have handled : (q.age past src).received ((q.age past src).rx.handleFrame env frame) =
      (q.received (q.rx.handleFrame env frame)).age past src := by
    rw [← age_received, ← RxQp.age_handleFrame]
    rfl
  simp only [rxNativeFrame, age_acceptRecvCredit past src q known, age_acked, handled]
  rw [apply_ite (Outcome.age past src), apply_ite (Outcome.age past src), apply_ite (Outcome.age past src)]
  cases frame.header.opcode <;> try rfl
  simp only [readAcked, apply_ite (Outcome.age past src)]
  rfl

theorem age_readReqWork (env : ReadWorkEnv) (request : DataHeader) :
    (q.age past src).readReqWork env request = (q.readReqWork env request).age past src := by
  have checked : (q.age past src).readReqMr env.mrs request = q.readReqMr env.mrs request := rfl
  simp only [readReqWork, checked]
  cases q.readReqMr env.mrs request with
  | error error => rfl
  | ok mr =>
      simp only [apply_ite (Outcome.age past src)]
      rcases env.sent with _ | error
      · rfl
      · cases error <;> rfl

theorem age_timeoutRx (timeout : Nat) :
    (q.age past src).timeoutRx env timeout = (q.timeoutRx env timeout).age past src := by
  have reaped : (q.age past src).received ((q.age past src).rx.timeoutReapRx env timeout) =
      (q.received (q.rx.timeoutReapRx env timeout)).age past src := by
    rw [← age_received, ← RxQp.age_timeoutReapRx]
    rfl
  have expired : rxExpired (q.age past src).rx env.now timeout = rxExpired q.rx env.now timeout := rfl
  simp only [timeoutRx, reaped, expired, Outcome.age, age_markError]
  split <;> rfl

theorem age_step (known : q.tx.destQpKnown = true) (action : QpAction) :
    (q.age past src).step action = (q.step action).map (Outcome.age past src) := by
  cases action with
  | postSend device wr answers =>
      simp only [step, Option.map_map]
      rfl
  | postRecv env wrs sent => exact congrArg some (age_postRecv past src q env wrs sent)
  | frame env frame => exact congrArg some (age_rxNativeFrame past src q env known frame)
  | readWork env request => exact congrArg some (age_readReqWork past src q env request)
  | txDone addr psn error now => rfl
  | timeoutTx clock => rfl
  | retried addr reason ret now => rfl
  | timeoutRx env timeout => exact congrArg some (age_timeoutRx past src q env timeout)
  | errorWork env => exact congrArg some (age_markError past src q env)
  | pollCq cq => rfl

def answers : NativeQp → List QpAction → List (List Response)
  | _, [] => []
  | q, action :: rest =>
      match q.step action with
      | none => []
      | some (next, responses) => responses :: answers next rest

theorem age_answers (known : q.tx.destQpKnown = true) (actions : List QpAction) :
    (q.age past src).answers actions = q.answers actions := by
  induction actions generalizing q with
  | nil => rfl
  | cons action rest ih =>
      simp only [answers, age_step past src q known]
      cases stepped : q.step action with
      | none => rfl
      | some outcome =>
          have next := ih outcome.1 ((step_known stepped).trans known)
          simp only [Option.map_some, Outcome.age, next]

end NativeQp

/-! ## Through RESET to RTS -/

/-- The attributes of a connection; `init`, `rtr` and `rts` stand for those that only the mask check sees. -/
structure Setup where
  access : AccessFlags
  destQpNum : Nat
  rqPsn : Nat
  sqPsn : Nat
  retryCnt : Nat
  rnrRetry : Nat
  maxDestRdAtomic : Nat
  maxRdAtomic : Nat
  init : Nat := 0
  rtr : Nat := 0
  rts : Nat := 0

namespace Setup

def toInit (setup : Setup) : QpAttr :=
  { state := some .init, access := some setup.access, others := setup.init }

def toRtr (setup : Setup) : QpAttr :=
  { state := some .rtr, destQpNum := some setup.destQpNum, rqPsn := some setup.rqPsn
    maxDestRdAtomic := some setup.maxDestRdAtomic, others := setup.rtr }

def toRts (setup : Setup) : QpAttr :=
  { state := some .rts, sqPsn := some setup.sqPsn, retryCnt := some setup.retryCnt
    rnrRetry := some setup.rnrRetry, maxRdAtomic := some setup.maxRdAtomic, others := setup.rts }

def attrs (setup : Setup) : List QpAttr := [{ state := some .reset }, setup.toInit, setup.toRtr, setup.toRts]

def fits (isOk : QpState → QpState → QpAttr → Bool) (setup : Setup) (early : Option Nat) : Bool :=
  isOk .reset .init setup.toInit && isOk .init .rtr setup.toRtr && isOk .rtr .rts setup.toRts &&
    setup.maxDestRdAtomic ≤ maxReadCtx && setup.maxRdAtomic ≤ maxReadCtx &&
    early.all fun src => src = setup.destQpNum

end Setup

namespace NativeQp

/-- Calls of `tbv_modify_qp` that all succeed. -/
def transitions (isOk : QpState → QpState → QpAttr → Bool) (env : RxEnv) (sent : Bool) :
    List QpAttr → NativeQp → Option NativeQp
  | [], q => some q
  | attr :: rest, q =>
      let outcome := q.modifyQp isOk env attr sent
      if outcome.2.contains (.returned none) then transitions isOk env sent rest outcome.1 else none

def renew (q : NativeQp) : NativeQp :=
  .create q.pd q.tx.qpNum q.tx.maxSendWr q.recvqSize q.rx.striping q.rx.cq

/-- Reset and reused, the queue pair answers every list of actions as a new one does. -/
def ResetForgets (isOk : QpState → QpState → QpAttr → Bool) (q : NativeQp) (setup : Setup) : Prop :=
  ∀ env sent renewed, transitions isOk env sent setup.attrs q.renew = some renewed →
    ∃ reused, transitions isOk env sent setup.attrs q = some reused ∧
      ∀ actions, reused.answers actions = renewed.answers actions

/-- Nothing of the earlier use is left that a call could see. -/
structure Clean (q : NativeQp) (dest : Nat) : Prop where
  numbered : q.rx.qpNum = q.tx.qpNum
  open_ : q.tx.closing = false ∧ q.rx.closing = false
  refs : q.tx.refs = 1
  sends : q.tx.pendingSends = []
  reads : q.tx.pendingReads = []
  sendqCount : q.tx.sendqCount = 0
  remoteRecvCredits : q.tx.remoteRecvCredits = 0
  recvq : q.rx.recvq = []
  recvCreditsAdvertised : q.recvCreditsAdvertised = 0
  readResps : q.readResps = []
  active : q.rx.rxMsg = none ∧ q.rx.rxWrite = none
  reorder : q.rx.rxReorder = [] ∧ q.rx.rxReorderCount = 0 ∧ q.rx.rxReorderBytes = 0
  rnr : q.rx.rnr = none
  ackHistory : ∀ slot entry, q.rx.ackHistory slot = some entry → entry.2 = .ok
  earlyCreditSrc : ∀ src ∈ q.earlyCreditSrc, src = dest

def permits (isOk : QpState → QpState → QpAttr → Bool) (q : NativeQp) (attr : QpAttr) : Bool :=
  !((attr.maxDestRdAtomic.any fun max => maxReadCtx < max) ||
    (attr.maxRdAtomic.any fun max => maxReadCtx < max) || !q.validateModifyQp isOk attr)

variable {isOk : QpState → QpState → QpAttr → Bool} {q : NativeQp}

theorem modifyQp_empty {attr : QpAttr} (empty : q.rx.recvq = []) (alive : attr.state ≠ some .err) (env : RxEnv)
    (sent : Bool) :
    q.modifyQp isOk env attr sent =
      if q.permits isOk attr then (q.applyAttr attr, [.returned none]) else (q, [.returned (some .eInval)]) := by
  have nothing : (q.applyAttr attr).advertiseRecvCredits sent = (q.applyAttr attr, []) := by
    have none_left : (q.applyAttr attr).rx.recvq = [] := empty
    simp [advertiseRecvCredits, none_left]
  by_cases permitted : q.permits isOk attr = true
  · have valid := permitted
    simp only [permits, Bool.not_eq_true'] at valid
    rw [if_pos permitted, modifyQp, valid]
    simp [alive, nothing]
  · have invalid := permitted
    simp only [permits, Bool.not_eq_true', Bool.not_eq_false] at invalid
    rw [if_neg permitted, modifyQp, if_pos invalid]

theorem transitions_cons {attr : QpAttr} (empty : q.rx.recvq = []) (alive : attr.state ≠ some .err) (env : RxEnv)
    (sent : Bool) (rest : List QpAttr) :
    transitions isOk env sent (attr :: rest) q =
      if q.permits isOk attr then transitions isOk env sent rest (q.applyAttr attr) else none := by
  simp only [transitions, modifyQp_empty empty alive env sent]
  split <;> simp

def established (q : NativeQp) (setup : Setup) : NativeQp :=
  (((q.applyAttr { state := some .reset }).applyAttr setup.toInit).applyAttr setup.toRtr).applyAttr setup.toRts

theorem transitions_attrs (resets : ∀ state, isOk state .reset { state := some .reset } = true)
    (empty : q.rx.recvq = []) (env : RxEnv) (sent : Bool) (setup : Setup) :
    transitions isOk env sent setup.attrs q =
      if setup.fits isOk q.earlyCreditSrc then some (q.established setup) else none := by
  have first : (q.applyAttr { state := some .reset }).rx.recvq = [] := empty
  have second : ((q.applyAttr { state := some .reset }).applyAttr setup.toInit).rx.recvq = [] := empty
  have third : (((q.applyAttr { state := some .reset }).applyAttr setup.toInit).applyAttr
    setup.toRtr).rx.recvq = [] := empty
  have within : ∀ max, (!decide (maxReadCtx < max)) = decide (max ≤ maxReadCtx) := by
    intro max
    simp only [← Nat.not_lt, decide_not]
  have reset : q.permits isOk { state := some .reset } = true := by
    simp [permits, validateModifyQp, resets]
  have init : ∀ q : NativeQp, q.tx.state = .reset → q.permits isOk setup.toInit = isOk .reset .init setup.toInit := by
    intro q state
    simp [permits, validateModifyQp, Setup.toInit, state]
  have rtr : ∀ q : NativeQp, q.tx.state = .init → q.permits isOk setup.toRtr =
      (isOk .init .rtr setup.toRtr && setup.maxDestRdAtomic ≤ maxReadCtx &&
        q.earlyCreditSrc.all fun src => src = setup.destQpNum) := by
    intro q state
    cases early : q.earlyCreditSrc <;>
      simp [permits, validateModifyQp, Setup.toRtr, state, early, within,
        Bool.and_comm, Bool.and_left_comm]
  have rts : ∀ q : NativeQp, q.tx.state = .rtr → q.permits isOk setup.toRts =
      (isOk .rtr .rts setup.toRts && setup.maxRdAtomic ≤ maxReadCtx) := by
    intro q state
    simp [permits, validateModifyQp, Setup.toRts, state, within, Bool.and_comm]
  rw [Setup.attrs, transitions_cons empty (by simp), if_pos reset,
    transitions_cons first (by simp [Setup.toInit]), transitions_cons second (by simp [Setup.toRtr]),
    transitions_cons third (by simp [Setup.toRts]), init _ rfl, rtr _ rfl, rts _ rfl]
  simp only [Setup.fits, established, transitions]
  rw [← ite_and, ← ite_and]
  refine if_congr ?_ rfl rfl
  have early : ((q.applyAttr { state := some .reset }).applyAttr setup.toInit).earlyCreditSrc =
    q.earlyCreditSrc := rfl
  simp only [Bool.and_eq_true, early]
  tauto

theorem Clean.established_eq {dest : Nat} (clean : q.Clean dest) (setup : Setup) :
    q.established setup =
      (q.renew.established setup).age ⟨q.rx.trace, q.rx.ackHistory, clean.ackHistory⟩ q.earlyCreditSrc := by
  obtain ⟨rxMsg, rxWrite⟩ := clean.active
  obtain ⟨rxReorder, rxReorderCount, rxReorderBytes⟩ := clean.reorder
  simp [established, applyAttr, Setup.toInit, Setup.toRtr, Setup.toRts, age, RxQp.age, renew, create,
    clean.numbered, clean.open_, clean.refs, clean.sends, clean.reads, clean.sendqCount,
    clean.remoteRecvCredits, clean.recvq, clean.recvCreditsAdvertised, clean.readResps, rxMsg, rxWrite,
    rxReorder, rxReorderCount, rxReorderBytes, clean.rnr]

/-- What is left of an earlier use does not show if the queue pair is clean before it is reset. -/
theorem reset_forgets (resets : ∀ state, isOk state .reset { state := some .reset } = true) (setup : Setup)
    (clean : q.Clean setup.destQpNum) : q.ResetForgets isOk setup := by
  intro env sent renewed accepted
  rw [transitions_attrs resets rfl] at accepted
  rw [transitions_attrs resets clean.recvq]
  have fits : setup.fits isOk q.earlyCreditSrc = setup.fits isOk none := by
    cases source : q.earlyCreditSrc with
    | none => rfl
    | some src => simp [Setup.fits, clean.earlyCreditSrc src source]
  rw [fits]
  have established := clean.established_eq setup
  split at accepted
  · rename_i fitting
    cases accepted
    refine ⟨q.established setup, if_pos fitting, ?_⟩
    intro actions
    rw [established]
    exact age_answers _ _ _ rfl actions
  · cases accepted

end NativeQp

def resettable (current next : QpState) (attr : QpAttr) : Bool := next = .reset || rcTransitions current next attr

def toNine : Setup where
  access := ⟨true, false⟩
  destQpNum := 9
  rqPsn := 0
  sqPsn := 0
  retryCnt := 0
  rnrRetry := 0
  maxDestRdAtomic := 1
  maxRdAtomic := 1

def usedQp : NativeQp :=
  let fresh := (NativeQp.create 0 5 4 4 false { cqe := 4 }).established toNine
  { fresh with
    rx :=
      { fresh.rx with
        rxExpectedPsn := 1
        ackHistory := Function.update (fun _ => none) 0 (some (0, .ok))
        trace := [.ack 9 5 0 .ok, .consumed 0 .ok true, .wrote 2 4098 [7]] } }

theorem usedQp_clean : usedQp.Clean 9 where
  numbered := rfl
  open_ := ⟨rfl, rfl⟩
  refs := rfl
  sends := rfl
  reads := rfl
  sendqCount := rfl
  remoteRecvCredits := rfl
  recvq := rfl
  recvCreditsAdvertised := rfl
  readResps := rfl
  active := ⟨rfl, rfl⟩
  reorder := ⟨rfl, rfl, rfl⟩
  rnr := rfl
  ackHistory := by
    intro slot entry found
    simp only [usedQp, Function.update_apply] at found
    split at found
    · cases found
      rfl
    · cases found
  earlyCreditSrc := by
    intro src source
    cases source

theorem reset_forgets_usedQp :
    ∃ renewed, NativeQp.transitions resettable noEnv true toNine.attrs usedQp.renew = some renewed ∧
      ∃ reused, NativeQp.transitions resettable noEnv true toNine.attrs usedQp = some reused ∧
        ∀ actions, reused.answers actions = renewed.answers actions := by
  have accepted : NativeQp.transitions resettable noEnv true toNine.attrs usedQp.renew =
    some (usedQp.renew.established toNine) := rfl
  exact ⟨_, accepted, NativeQp.reset_forgets (fun _ => rfl) toNine usedQp_clean noEnv true _ accepted⟩

def oneSend : Frame where
  header := { opcode := .send, flags := flagLast, destQp := 5, srcQp := 9, length := 1, immData := 1 }
  payload := [7]
  sized := length_oneByte

def resettableKernel : Kernel := { pagingKernel with modifyQpIsOk := resettable }

def afterPostRecv : List HostAction :=
  connectWritable ++
    [.qp 0 (.postRecv noEnv [{ wrId := 3, sgList := [{ addr := 8192, length := 8, lkey := 2 }] }] true)]

/-- A receive request from before RESET takes the first SEND after it; a new queue pair answers with RNR. -/
theorem leftover_request_completes :
    ∃ host, (device resettableKernel).Reachable host ∧
      ∃ q ∈ host.qps, ¬ q.ResetForgets resettableKernel.modifyQpIsOk toNine := by
  let differs (q : NativeQp) : Bool :=
    (q.renew.transitions resettable noEnv true toNine.attrs).any fun renewed =>
      (q.transitions resettable noEnv true toNine.attrs).any fun reused =>
        reused.answers [.frame noEnv oneSend] ≠ renewed.answers [.frame noEnv oneSend]
  have check : ((device resettableKernel).runVia (fun _ _ => True) bareHost afterPostRecv).any
      (fun host => host.qps.any differs) = true := by decide
  obtain ⟨host, reachable, test⟩ := System.exists_reachableVia (device resettableKernel) (fun _ _ => True)
    afterPostRecv _ rfl check
  obtain ⟨q, member, different⟩ := List.any_eq_true.mp test
  refine ⟨host, reachable, q, member, ?_⟩
  intro forgets
  cases accepted : q.renew.transitions resettable noEnv true toNine.attrs with
  | none => simp [differs, accepted] at different
  | some renewed =>
      obtain ⟨reused, taken, same⟩ := forgets noEnv true renewed accepted
      have taken : q.transitions resettable noEnv true toNine.attrs = some reused := taken
      simp only [differs, accepted, taken, Option.any_some, ne_eq, decide_not, Bool.not_eq_true',
        decide_eq_false_iff_not] at different
      exact different (same _)

end ThunderboltVerbs.Driver
