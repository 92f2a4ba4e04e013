import ThunderboltVerbs.DataPath.Link

/-!
# The send queue of a native RC queue pair (`kernel/ibdev.c`)

Contexts are named by their addresses, which the allocator chooses.
-/

namespace ThunderboltVerbs.Verbs
open Proto

def maxSge : Nat := 4
def psnMod : Nat := 2 ^ 24
def maxSendRetries : Nat := 7
def rnrRetriesInfinite : Nat := 255

def psnNext (psn : Nat) : Nat := (psn + 1) % psnMod

theorem psnNext_ne (psn : Nat) : psnNext (psn % psnMod) ≠ psn := by
  simp only [psnNext, psnMod]
  omega

/-! ## Work requests and their segments -/

structure Sge where
  addr : Nat
  length : Nat
  lkey : Nat
  deriving DecidableEq, Repr

inductive WrOpcode
  | send | sendWithImm | rdmaWrite | rdmaWriteWithImm | rdmaRead | other
  deriving DecidableEq, Repr

def WrOpcode.sendOp : WrOpcode → Option SendOp
  | .send => some .send
  | .sendWithImm => some .sendImm
  | .rdmaWrite => some .rdmaWrite
  | .rdmaWriteWithImm => some .rdmaWriteImm
  | .rdmaRead | .other => none

structure SendWr where
  wrId : Nat
  opcode : WrOpcode
  sgList : List Sge
  isInline : Bool := false
  signaled : Bool := false
  solicited : Bool := false
  immData : Nat := 0
  remoteAddr : Nat := 0
  rkey : Nat := 0
  deriving DecidableEq, Repr

structure Mr where
  start : Nat
  length : Nat
  dmaMr : Bool := false
  localWrite : Bool := false
  remoteWrite : Bool := false
  remoteRead : Bool := false
  virtAddr : Nat := 0
  deriving DecidableEq, Repr

/-- The range lies in the region; `check_add_overflow` guards both ends. -/
def Mr.covers (mr : Mr) (addr length : Nat) : Bool :=
  mr.start + mr.length < 2 ^ 64 && mr.start ≤ addr && addr + length ≤ mr.start + mr.length

/-- `tbv_umem_copy_to` succeeds, for a length that is not 0. -/
def Mr.takesCopy (mr : Mr) (addr length : Nat) : Bool :=
  !mr.dmaMr && addr + length < 2 ^ 64 && mr.covers addr length

/-- `tbv_umem_copy_to_iova` succeeds, for a length that is not 0. -/
def Mr.takesIovaCopy (mr : Mr) (iova length : Nat) : Bool :=
  !mr.dmaMr && iova + length < 2 ^ 64 && mr.virtAddr + mr.length < 2 ^ 64 && mr.virtAddr ≤ iova &&
    iova + length ≤ mr.virtAddr + mr.length && mr.start + (iova - mr.virtAddr) < 2 ^ 64 &&
    mr.takesCopy (mr.start + (iova - mr.virtAddr)) length

structure Segment where
  mr : Mr
  addr : Nat
  length : Nat
  deriving DecidableEq, Repr

structure Device where
  mrs : Nat → Option Mr
  nativeFragmentStriping : Bool

def Device.prepareSges (device : Device) : Nat → List Sge → Except Errno (List Segment × Nat)
  | total, [] => .ok ([], total)
  | total, sge :: rest =>
      if sge.length = 0 then device.prepareSges total rest
      else if total + sge.length > dataMaxMsgSize then .error .eMsgSize
      else if 2 ^ 64 ≤ sge.addr + sge.length then .error .eInval
      else
        match device.mrs sge.lkey with
        | none => .error .eInval
        | some mr =>
            if mr.dmaMr then .error .eOpNotSupp
            else if !mr.covers sge.addr sge.length then .error .eFault
            else
              match device.prepareSges (total + sge.length) rest with
              | .error error => .error error
              | .ok (segs, sum) => .ok ({ mr, addr := sge.addr, length := sge.length } :: segs, sum)

def Device.prepareSendSegments (device : Device) (wr : SendWr) : Except Errno (List Segment × Nat) :=
  if wr.isInline then .error .eOpNotSupp
  else if wr.sgList.length > maxSge then .error .eInval
  else device.prepareSges 0 wr.sgList

def Device.prepareReadSegments (device : Device) (wr : SendWr) : Except Errno (List Segment × Nat) :=
  match device.prepareSendSegments wr with
  | .error error => .error error
  | .ok (segs, total) =>
      if segs.all fun seg => seg.mr.localWrite then .ok (segs, total) else .error .eAcces

/-! ## Contexts -/

inductive PostReason
  | initial | retryTimeout | retryRnr
  deriving DecidableEq, Repr

structure SendCtx where
  wrId : Nat := 0
  msg : SendMsg
  segs : List Segment := []
  signaled : Bool := false
  retryable : Bool := true
  maxRetries : Nat := 0
  maxRnrRetries : Nat := 0
  recvCreditRequired : Bool := false
  sqCounted : Bool := false
  txPending : Nat := 0
  queuedJiffies : Nat := 0
  retries : Nat := 0
  rnrRetries : Nat := 0
  retryReason : PostReason := .initial
  completionStatus : Option Errno := none
  ready : Bool := false
  pending : Bool := false
  retrying : Bool := false
  rnrWaiting : Bool := false
  deriving DecidableEq, Repr

structure ReadCtx where
  wrId : Nat
  psn : Nat
  totalLen : Nat
  segs : List Segment
  signaled : Bool
  sqCounted : Bool := false
  queuedJiffies : Nat := 0
  ready : Bool := false
  completionStatus : Option Errno := none
  received : Nat := 0
  respFrags : List (Nat × List UInt8) := []
  respBufferedBytes : Nat := 0
  deriving DecidableEq, Repr

/-! ## The queue pair -/

inductive QpState
  | reset | init | rtr | rts | sqd | sqe | err
  deriving DecidableEq, Repr

structure Qp where
  state : QpState
  closing : Bool := false
  refs : Nat
  qpNum : Nat
  destQpKnown : Bool
  destQpNum : Nat
  retryCnt : Nat
  rnrRetry : Nat
  maxSendWr : Nat
  sendPsn : Nat
  sendqCount : Nat := 0
  remoteRecvCredits : Nat := 0
  pendingSends : List (Nat × SendCtx) := []
  pendingReads : List (Nat × ReadCtx) := []
  deriving DecidableEq, Repr

namespace Qp

def allowsPost (qp : Qp) : Bool := !qp.closing && qp.state ≠ .reset && qp.state ≠ .err

def getLive (qp : Qp) : Option Qp :=
  if qp.closing ∨ qp.refs = 0 then none else some { qp with refs := qp.refs + 1 }

def put (qp : Qp) : Qp := { qp with refs := qp.refs - 1 }

def sendMaxRetries (qp : Qp) : Nat := min qp.retryCnt maxSendRetries

/-- `tbv_qp_send_max_rnr_retries` with `tbv_rel_decode_verbs_rnr_retry`. -/
def sendMaxRnrRetries (qp : Qp) : Nat :=
  if qp.rnrRetry % 8 = 7 then rnrRetriesInfinite else qp.rnrRetry % 8

def consumeRemoteRecvCredit (qp : Qp) : Except Errno Qp :=
  if qp.closing ∨ qp.state = .err then .error .eCanceled
  else if qp.remoteRecvCredits ≠ 0 then .ok { qp with remoteRecvCredits := qp.remoteRecvCredits - 1 }
  else .error .eAgain

def returnRemoteRecvCredit (qp : Qp) : Qp :=
  if !qp.closing && qp.state ≠ .err then { qp with remoteRecvCredits := qp.remoteRecvCredits + 1 }
  else qp

def reserveSendq (qp : Qp) : Except Errno Qp :=
  if qp.closing ∨ qp.state = .reset ∨ qp.state = .err then .error .eInval
  else if qp.sendqCount ≥ qp.maxSendWr then .error .eNoMem
  else .ok { qp with sendqCount := qp.sendqCount + 1 }

/-- `tbv_qp_release_sendq_counted_locked` on a context that is counted. -/
def releaseSendq (qp : Qp) : Qp := { qp with sendqCount := qp.sendqCount - 1 }

def takePsn (qp : Qp) : Qp × Nat :=
  let psn := qp.sendPsn % psnMod
  ({ qp with sendPsn := psnNext psn }, psn)

def queueSend (qp : Qp) (addr : Nat) (send : SendCtx) : Qp :=
  { qp with pendingSends := qp.pendingSends ++ [(addr, { send with pending := true })] }

def queueRead (qp : Qp) (addr : Nat) (read : ReadCtx) : Qp :=
  { qp with pendingReads := qp.pendingReads ++ [(addr, read)] }

/-- `tbv_qp_unqueue_send`: the new queue pair, and whether the context was still queued. -/
def unqueueSend (qp : Qp) (addr : Nat) : Qp × Bool :=
  match qp.pendingSends.find? fun entry => entry.1 = addr with
  | none => (qp, false)
  | some (_, send) =>
      let removed := { qp with pendingSends := qp.pendingSends.eraseP fun entry => entry.1 = addr }
      (if send.sqCounted then removed.releaseSendq else removed, true)

def unqueueRead (qp : Qp) (addr : Nat) : Qp × Bool :=
  match qp.pendingReads.find? fun entry => entry.1 = addr with
  | none => (qp, false)
  | some (_, read) =>
      let removed := { qp with pendingReads := qp.pendingReads.eraseP fun entry => entry.1 = addr }
      (if read.sqCounted then removed.releaseSendq else removed, true)

end Qp

end ThunderboltVerbs.Verbs
