import ThunderboltVerbs.Receive.ReadResponse
import ThunderboltVerbs.SendQueue.Machine

/-!
# A native RC queue pair as a whole (`kernel/ibdev.c`)

Both halves of a queue pair, its state transitions and the dispatch of frames to it. An operation
returns what it answers, oldest first.
-/

namespace ThunderboltVerbs.Driver
open Proto Verbs Receive SendQueue

def maxReadCtx : Nat := 128

structure RecvWr where
  wrId : Nat
  sgList : List Sge
  deriving DecidableEq, Repr

/-- The attributes that the mask names. `others` is the rest of the mask, which nothing here reads. -/
structure QpAttr where
  curState : Option QpState := none
  state : Option QpState := none
  access : Option AccessFlags := none
  destQpNum : Option Nat := none
  rqPsn : Option Nat := none
  sqPsn : Option Nat := none
  retryCnt : Option Nat := none
  rnrRetry : Option Nat := none
  maxDestRdAtomic : Option Nat := none
  maxRdAtomic : Option Nat := none
  others : Nat := 0
  deriving DecidableEq, Repr

inductive Response
  | effect (effect : Effect)
  | returned (error : Option Errno)
  | posted (frames : Posted)
  | sendDone (wrId : Nat) (error : Option Errno)
  | readDone (wrId : Nat) (error : Option Errno)
  | recvFlushed (wc : Wc)
  | credit (destQp srcQp credits : Nat)
  | readAck (destQp srcQp psn : Nat) (status : ReadAckStatus)
  | readReply (destQp srcQp psn totalLen : Nat) (error : Option Errno)
  | readCopy (copy : SegmentCopy)
  | respond (request : DataHeader)
  | retry (addr : Nat) (reason : PostReason)
  deriving DecidableEq, Repr

structure NativeQp where
  pd : Nat
  tx : Qp
  rx : RxQp
  recvqSize : Nat
  recvCreditsAdvertised : Nat := 0
  earlyCreditSrc : Option Nat := none
  readResps : List DataHeader := []

structure ReadWorkEnv where
  mrs : Nat → Option Mr
  alloc : Bool
  sent : Option Errno

/-- The answers to one post; `PostEnv` wants them to fit the queue pair. -/
structure PostAnswers where
  ctx : Option Nat
  readFrame : Bool
  readSend : Option Errno
  collected : List PathEnv
  selected : Option PathEnv
  fragment : Nat → FragmentEnv

def PostAnswers.env (answers : PostAnswers) (qp : Qp) : Option (PostEnv qp) :=
  if fresh : (∀ addr ∈ answers.ctx, ∀ entry ∈ qp.pendingSends, entry.1 ≠ addr) ∧
      ∀ addr ∈ answers.ctx, ∀ entry ∈ qp.pendingReads, entry.1 ≠ addr then
    some { answers with fresh_send := fresh.1, fresh_read := fresh.2 }
  else none

inductive QpAction
  | postSend (device : Device) (wr : SendWr) (answers : PostAnswers)
  | postRecv (env : RxEnv) (wrs : List RecvWr) (sent : Bool)
  | frame (env : RxEnv) (frame : Frame)
  | readWork (env : ReadWorkEnv) (request : DataHeader)
  | txDone (addr psn : Nat) (error : Option Errno) (now : Nat)
  | timeoutTx (clock : Qp.Clock)
  | retried (addr : Nat) (reason : PostReason) (ret : Option Errno) (now : Nat)
  | timeoutRx (env : RxEnv) (timeout : Nat)
  | errorWork (env : RxEnv)
  | pollCq (cq : Cq)

abbrev Outcome := NativeQp × List Response

namespace NativeQp

/-! ## The two halves -/

/-- The receive half after a call: what it noted is answered, the credits of the receive requests it took
are used up, and a READ that it was asked for again is sent again. -/
def received (q : NativeQp) (rx : RxQp) : Outcome :=
  let noted := (rx.trace.take (rx.trace.length - q.rx.trace.length)).reverse
  ({ q with
      rx
      recvCreditsAdvertised := q.recvCreditsAdvertised - (q.rx.recvq.length - rx.recvq.length) },
    noted.flatMap fun effect =>
      match effect with
      | .readRetry psn =>
          .effect effect :: ((q.readResps.find? fun request => request.psn = psn).map Response.respond).toList
      | _ => [.effect effect])

def sendsDone (completed : List SendEntry) : List Response :=
  (completed.filter fun entry => entry.2.signaled).map fun entry =>
    .sendDone entry.2.wrId entry.2.completionStatus

def readsDone (completed : List ReadEntry) (status : ReadCtx → Option Errno) : List Response :=
  (completed.filter fun entry => entry.2.signaled).map fun entry => .readDone entry.2.wrId (status entry.2)

/-! ## Errors -/

def flushWc (wqe : RecvWqe) : Wc := { wrId := wqe.wrId, status := .wrFlushErr }

/-- `tbv_qp_flush_recv_wqes`: a completion queue that is full takes no more. -/
def flushRecvWqes (q : NativeQp) : Outcome :=
  let room := if q.rx.cq.overflowed then 0 else q.rx.cq.cqe - q.rx.cq.count
  let cq : Cq :=
    { q.rx.cq with
      count := q.rx.cq.count + min room q.rx.recvq.length
      overflowed := q.rx.cq.overflowed || room < q.rx.recvq.length }
  ({ q with
      rx := { q.rx with recvq := [], cq }
      recvCreditsAdvertised := q.recvCreditsAdvertised - q.rx.recvq.length },
    (q.rx.recvq.take room).map fun wqe => .recvFlushed (flushWc wqe))

def flushError (q : NativeQp) (env : RxEnv) : Outcome :=
  let (tx, sends) := q.tx.flushSends
  let (tx, reads) := tx.flushReads
  let (q, effects) := { q with tx, readResps := [] }.received (q.rx.flushRx env)
  let (q, flushed) := q.flushRecvWqes
  (q, sendsDone sends ++ readsDone reads (fun _ => some .eCanceled) ++ effects ++ flushed)

def markError (q : NativeQp) (env : RxEnv) : Outcome :=
  if q.tx.closing || q.tx.state = .err then (q, [])
  else { q with tx := { q.tx with state := .err } }.flushError env

/-! ## Receive requests -/

/-- `tbv_qp_advertise_recv_credits`; credits that could not be sent stay to be advertised. -/
def advertiseRecvCredits (q : NativeQp) (sent : Bool) : Outcome :=
  if q.tx.closing || !q.tx.destQpKnown || q.rx.recvq.length ≤ q.recvCreditsAdvertised || !sent then (q, [])
  else
    ({ q with recvCreditsAdvertised := q.rx.recvq.length },
      [.credit q.tx.destQpNum q.tx.qpNum (q.rx.recvq.length - q.recvCreditsAdvertised)])

/-- `tbv_validate_recv_sge` on a queue pair that takes no kernel key. -/
def validateRecvSge (mrs : Nat → Option Mr) (sge : Sge) : Option Errno :=
  if sge.length = 0 then none
  else if 2 ^ 64 ≤ sge.addr + sge.length then some .eInval
  else
    match mrs sge.lkey with
    | none => some .eInval
    | some mr =>
        if !mr.localWrite then some .eAcces
        else if 2 ^ 64 ≤ mr.start + mr.length then some .eInval
        else if sge.addr < mr.start ∨ mr.start + mr.length < sge.addr + sge.length then some .eFault
        else none

def recvWqe (wr : RecvWr) : RecvWqe :=
  match wr.sgList with
  | [] => { wrId := wr.wrId }
  | sge :: _ => { wrId := wr.wrId, addr := sge.addr, length := sge.length, lkey := sge.lkey }

/-- One turn of the loop of `tbv_post_recv`. -/
def postRecvOne (q : NativeQp) (mrs : Nat → Option Mr) (wr : RecvWr) : Except Errno NativeQp :=
  if wr.sgList.length > 1 then .error .eInval
  else
    match wr.sgList.findSome? (validateRecvSge mrs) with
    | some error => .error error
    | none =>
        if !q.tx.allowsPost then .error .eInval
        else if q.rx.recvq.length = q.recvqSize then .error .eNoMem
        else .ok { q with rx := { q.rx with recvq := q.rx.recvq ++ [recvWqe wr] } }

/-- The requests before the first bad one are taken. -/
def postRecvs (mrs : Nat → Option Mr) : List RecvWr → NativeQp → NativeQp × Option Errno
  | [], q => (q, none)
  | wr :: rest, q =>
      match q.postRecvOne mrs wr with
      | .error error => (q, some error)
      | .ok q => postRecvs mrs rest q

def postRecv (q : NativeQp) (env : RxEnv) (wrs : List RecvWr) (sent : Bool) : Outcome :=
  if !q.tx.allowsPost then (q, [.returned (some .eInval)])
  else
    let (posted, error) := postRecvs env.mrs wrs q
    if posted.rx.recvq.length = q.rx.recvq.length then (posted, [.returned error])
    else
      let (advertised, credits) := posted.advertiseRecvCredits sent
      match error with
      | some _ => (advertised, credits ++ [.returned error])
      | none =>
          let (drained, effects) := advertised.received (advertised.rx.drain env)
          (drained, credits ++ effects ++ [.returned none])

/-! ## Transitions -/

/-- `tbv_validate_modify_qp_locked`, with `ib_modify_qp_is_ok` as `isOk`. -/
def validateModifyQp (isOk : QpState → QpState → QpAttr → Bool) (q : NativeQp) (attr : QpAttr) : Bool :=
  attr.curState.all (fun state => state = q.tx.state) &&
    isOk q.tx.state (attr.state.getD q.tx.state) attr &&
    !(attr.destQpNum.any fun dest => q.earlyCreditSrc.any fun src => src ≠ dest)

def applyAttr (q : NativeQp) (attr : QpAttr) : NativeQp :=
  { q with
    tx :=
      { q.tx with
        state := attr.state.getD q.tx.state
        destQpKnown := q.tx.destQpKnown || attr.destQpNum.isSome
        destQpNum := attr.destQpNum.getD q.tx.destQpNum
        sendPsn := (attr.sqPsn.map (· % psnMod)).getD q.tx.sendPsn
        retryCnt := attr.retryCnt.getD q.tx.retryCnt
        rnrRetry := attr.rnrRetry.getD q.tx.rnrRetry }
    rx :=
      { q.rx with
        remoteWrite := (attr.access.map AccessFlags.remoteWrite).getD q.rx.remoteWrite
        remoteRead := (attr.access.map AccessFlags.remoteRead).getD q.rx.remoteRead
        rxExpectedPsn := (attr.rqPsn.map (· % psnMod)).getD q.rx.rxExpectedPsn } }

/-- `tbv_modify_qp` on a native queue pair. -/
def modifyQp (isOk : QpState → QpState → QpAttr → Bool) (q : NativeQp) (env : RxEnv) (attr : QpAttr)
    (sent : Bool) : Outcome :=
  if (attr.maxDestRdAtomic.any fun max => maxReadCtx < max) ||
      (attr.maxRdAtomic.any fun max => maxReadCtx < max) || !q.validateModifyQp isOk attr then
    (q, [.returned (some .eInval)])
  else
    let (flushed, responses) :=
      if q.tx.state ≠ .err ∧ attr.state = some .err then (q.applyAttr attr).flushError env
      else (q.applyAttr attr, [])
    let (advertised, credits) :=
      if attr.state.isSome || attr.destQpNum.isSome then flushed.advertiseRecvCredits sent else (flushed, [])
    (advertised, responses ++ credits ++ [.returned none])

/-! ## Frames -/

def acceptRecvCredit (q : NativeQp) (header : DataHeader) : NativeQp :=
  let credits := q.tx.remoteRecvCredits + header.immData
  let credited :=
    { q with tx := { q.tx with remoteRecvCredits :=
        if u32Max < credits then q.tx.remoteRecvCredits else credits } }
  if q.tx.closing || q.tx.state = .err || header.destQp ≠ q.tx.qpNum then q
  else if q.tx.destQpKnown then if header.srcQp = q.tx.destQpNum then credited else q
  else if q.earlyCreditSrc.any fun src => src ≠ header.srcQp then q
  else { credited with earlyCreditSrc := some header.srcQp }

/-- `tbv_qp_validate_native_endpoint`. -/
def validEndpoint (q : NativeQp) (header : DataHeader) : Bool :=
  !q.tx.closing && q.tx.state ≠ .err && header.destQp = q.tx.qpNum && q.tx.destQpKnown &&
    header.srcQp = q.tx.destQpNum

def sendAckStatus (code : Nat) : Option SendAckStatus :=
  [.ok, .rnr, .error].find? fun status => sendAckCode status = code

def acked (q : NativeQp) (env : RxEnv) (header : DataHeader) : Outcome :=
  match sendAckStatus header.immData with
  | none => (q, [])
  | some status =>
      let (tx, completed) := q.tx.handleSendAck header.psn status env.now
      let (q, responses) :=
        if completed.any fun entry => entry.2.completionStatus.isSome then { q with tx }.markError env
        else ({ q with tx }, [])
      (q, sendsDone completed ++ responses)

def readAcked (q : NativeQp) (header : DataHeader) : Outcome :=
  if header.immData = readAckCode .retry then
    (q, ((q.readResps.find? fun request => request.psn = header.psn).map Response.respond).toList)
  else ({ q with readResps := q.readResps.eraseP fun request => request.psn = header.psn }, [])

def readResponse (q : NativeQp) (env : RxEnv) (frame : Frame) : Outcome :=
  let header := frame.header
  let (tx, answer) := q.tx.handleRdmaReadResp header frame.payload env.fragAlloc
  ({ q with tx },
    answer.copies.map Response.readCopy ++
      (answer.ack.map fun status => .readAck header.srcQp header.destQp header.psn status).toList ++
      readsDone answer.completed ReadCtx.completionStatus)

/-- `tbv_ibdev_rx_native_frame` for the queue pair that the frame names. -/
def rxNativeFrame (q : NativeQp) (env : RxEnv) (frame : Frame) : Outcome :=
  let header := frame.header
  if header.opcode = .recvCredit then
    if header.immData = 0 then (q, []) else (q.acceptRecvCredit header, [])
  else if !q.validEndpoint header then (q, [])
  else
    match header.opcode with
    | .sendAck => q.acked env header
    | .rdmaReadAck => q.readAcked header
    | .rdmaReadResp => q.readResponse env frame
    | _ => q.received (q.rx.handleFrame env frame)

/-! ## READ work -/

/-- The checks of `tbv_read_req_workfn`: the region that is read. -/
def readReqMr (q : NativeQp) (mrs : Nat → Option Mr) (request : DataHeader) : Except Errno Mr :=
  if !q.rx.remoteRead then .error .eAcces
  else
    match mrs request.rkey with
    | none => .error .eAcces
    | some mr =>
        if !mr.remoteRead then .error .eAcces
        else if request.immData > dataMaxMsgSize then .error .eMsgSize
        else
          match mr.iovaToAddr request.remoteAddr request.immData with
          | .error error => .error error
          | .ok _ => .ok mr

/-- `tbv_read_req_workfn`, with the snapshot of `tbv_read_resp_ctx_alloc`. A response that could not be sent
for want of memory stays queued for the timer. -/
def readReqWork (q : NativeQp) (env : ReadWorkEnv) (request : DataHeader) : Outcome :=
  let reply := fun error =>
    Response.readReply request.srcQp request.destQp request.psn request.immData error
  match q.readReqMr env.mrs request with
  | .error error => (q, [reply (some error)])
  | .ok _ =>
      if request.immData = 0 then (q, [reply none])
      else if q.tx.getLive.isNone then (q, [reply (some .eInval)])
      else if !env.alloc then (q, [reply (some .eNoMem)])
      else
        let snapped := Effect.snapped request.rkey request.remoteAddr request.immData
        let noted := { q with rx := q.rx.note snapped }
        let queued := { noted with readResps := q.readResps ++ [request] }
        match env.sent with
        | none => (queued, [.effect snapped, .respond request])
        | some .eNoMem => (queued, [.effect snapped])
        | some error =>
            ({ queued with readResps := queued.readResps.eraseP fun other => other.psn = request.psn },
              [.effect snapped, reply (some error)])

/-! ## Steps -/

def posted (q : NativeQp) (result : Qp × Except Errno Posted) : Outcome :=
  ({ q with tx := result.1 },
    match result.2 with
    | .error error => [.returned (some error)]
    | .ok frames => [.posted frames, .returned none])

def timeoutTx (q : NativeQp) (clock : Qp.Clock) : Outcome :=
  let retries := retrySends (q.tx.reapEnv clock) q.tx.remoteRecvCredits q.tx.pendingSends
  let (tx, sends) := q.tx.timeoutReapSends clock
  let (tx, reads) := tx.timeoutReapReads clock
  ({ q with tx },
    retries.map (fun retry => .retry retry.1 retry.2) ++ sendsDone sends ++
      readsDone reads fun _ => some .eTimedOut)

def rxExpired (q : RxQp) (now timeout : Nat) : Bool :=
  (q.rxMsg.any fun msg => entryExpired msg.startedJiffies now timeout) ||
    (q.rxWrite.any fun write => entryExpired write.startedJiffies now timeout) ||
    q.rxReorder.any fun msg => entryExpired msg.firstJiffies now timeout

/-- `tbv_qp_timeout_reap_rx`. -/
def timeoutRx (q : NativeQp) (env : RxEnv) (timeout : Nat) : Outcome :=
  let (reaped, effects) := q.received (q.rx.timeoutReapRx env timeout)
  let (marked, responses) := if rxExpired q.rx env.now timeout then reaped.markError env else (reaped, [])
  (marked, effects ++ responses)

def step (q : NativeQp) : QpAction → Option Outcome
  | .postSend device wr answers =>
      (answers.env q.tx).map fun env => q.posted (postSendOne device q.tx env wr)
  | .postRecv env wrs sent => some (q.postRecv env wrs sent)
  | .frame env frame => some (q.rxNativeFrame env frame)
  | .readWork env request => some (q.readReqWork env request)
  | .txDone addr psn error now =>
      let (tx, sends) := q.tx.sendTxDone addr psn error now
      some ({ q with tx }, sendsDone sends)
  | .timeoutTx clock => some (q.timeoutTx clock)
  | .retried addr reason ret now =>
      let (tx, sends) := q.tx.retried addr reason ret now
      some ({ q with tx }, sendsDone sends)
  | .timeoutRx env timeout => some (q.timeoutRx env timeout)
  | .errorWork env => some (q.markError env)
  | .pollCq cq => some ({ q with rx := { q.rx with cq } }, [])

end NativeQp

end ThunderboltVerbs.Driver
