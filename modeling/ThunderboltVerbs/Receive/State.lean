import ThunderboltVerbs.Verbs.Send
import ThunderboltVerbs.Lib.Keyed

/-!
# The receive side of a native RC queue pair (`kernel/ibdev.c`)

Everything here runs under `rx_lock`. What a call does to the outside (acknowledgements, copies,
completions, queued READ work) and every advance of `rx_expected_psn` is kept in a trace, the newest
effect first.
-/

namespace ThunderboltVerbs.Receive
open Proto Verbs

def maxQpWr : Nat := 1024
def reorderMaxMessages : Nat := maxQpWr
def reorderMaxBytes : Nat := 64 * 1024 * 1024
def ackHistorySize : Nat := maxQpWr

def psnDelta (a b : Nat) : Int :=
  let delta := (a % psnMod + psnMod - b % psnMod) % psnMod
  if delta < 2 ^ 23 then delta else (delta : Int) - psnMod

structure RecvWqe where
  wrId : Nat := 0
  addr : Nat := 0
  length : Nat := 0
  lkey : Nat := 0
  deriving DecidableEq, Repr

inductive WcStatus
  | success | locLenErr | locProtErr | generalErr | wrFlushErr
  deriving DecidableEq, Repr

inductive WcOpcode
  | recv | recvRdmaWithImm
  deriving DecidableEq, Repr

structure Wc where
  wrId : Nat
  status : WcStatus
  opcode : WcOpcode := .recv
  byteLen : Nat := 0
  srcQp : Nat := 0
  immData : Option Nat := none
  deriving DecidableEq, Repr

/-- `consumed` is an advance of `rx_expected_psn` over the PSN; `recorded` says whether the status went
into the ACK history. A `reack` is the answer to a duplicate. A WRITE `wrote` to an iova of a region, a
receive copy `placed` its bytes at an address, and a READ `snapped` a range of iovas. -/
inductive Effect
  | ack (destQp srcQp psn : Nat) (status : SendAckStatus)
  | reack (destQp srcQp psn : Nat) (status : SendAckStatus)
  | readStatus (destQp srcQp psn totalLen : Nat) (error : Errno)
  | readRetry (psn : Nat)
  | wrote (rkey iova : Nat) (data : List UInt8)
  | placed (lkey addr : Nat) (data : List UInt8)
  | snapped (rkey iova length : Nat)
  | completion (psn : Nat) (wc : Wc)
  | consumed (psn : Nat) (status : SendAckStatus) (recorded : Bool)
  | dispatched (request : DataHeader)
  deriving DecidableEq, Repr

/-- A frame that `tbv_native_data_parse_header` accepted. -/
structure Frame where
  header : DataHeader
  payload : List UInt8
  sized : payload.length = header.length

structure RxMessage where
  wqe : RecvWqe
  startedJiffies : Nat
  srcQp : Nat
  psn : Nat
  totalLen : Nat
  withImm : Bool
  immData : Nat
  status : WcStatus
  received : Nat := 0
  delivered : Nat := 0
  fragCount : Nat := 0
  fragsReceived : Nat := 0
  fragSeen : List Nat := []
  deriving DecidableEq, Repr

structure RxWrite where
  immWqe : RecvWqe := {}
  startedJiffies : Nat
  srcQp : Nat
  psn : Nat
  remoteAddr : Nat
  rkey : Nat
  immData : Nat
  withImm : Bool
  received : Nat := 0
  deriving DecidableEq, Repr

structure ReorderFrag where
  offset : Nat
  data : List UInt8
  deriving DecidableEq, Repr

inductive ReorderKind
  | send | write | readReq
  deriving DecidableEq, Repr

structure ReorderMsg where
  kind : ReorderKind
  firstJiffies : Nat
  srcQp : Nat
  psn : Nat
  totalLen : Nat
  remoteAddr : Nat := 0
  rkey : Nat := 0
  withImm : Bool := false
  immData : Nat := 0
  fragCount : Nat := 0
  fragsReceived : Nat := 0
  fragSeen : List Nat := []
  received : Nat := 0
  bufferedBytes : Nat := 0
  complete : Bool := false
  frags : List ReorderFrag := []
  deriving DecidableEq, Repr

structure RnrMark where
  srcQp : Nat
  psn : Nat
  remoteAddr : Nat
  fragOffset : Nat
  deriving DecidableEq, Repr

structure Cq where
  cqe : Nat
  count : Nat := 0
  overflowed : Bool := false
  deriving DecidableEq, Repr

/-- What a call finds: the registered regions, the answers of the allocator, the time. -/
structure RxEnv where
  mrs : Nat → Option Mr
  msgAlloc : Bool := true
  fragAlloc : Bool := true
  readWork : Nat → Bool := fun _ => true
  now : Nat

structure AccessFlags where
  remoteWrite : Bool
  remoteRead : Bool
  deriving DecidableEq, Repr

structure RxQp where
  qpNum : Nat
  remoteWrite : Bool
  remoteRead : Bool := false
  striping : Bool
  closing : Bool := false
  rxExpectedPsn : Nat
  rnr : Option RnrMark := none
  rxMsg : Option RxMessage := none
  rxWrite : Option RxWrite := none
  rxReorder : List ReorderMsg := []
  rxReorderCount : Nat := 0
  rxReorderBytes : Nat := 0
  ackHistory : Nat → Option (Nat × SendAckStatus) := fun _ => none
  recvq : List RecvWqe := []
  cq : Cq
  trace : List Effect := []

namespace RxQp

def flags (q : RxQp) : AccessFlags := { remoteWrite := q.remoteWrite, remoteRead := q.remoteRead }

def note (q : RxQp) (effect : Effect) : RxQp := { q with trace := effect :: q.trace }

def sendAck (q : RxQp) (destQp srcQp psn : Nat) (status : SendAckStatus) : RxQp :=
  q.note (.ack destQp srcQp psn status)

def sendErrorAck (q : RxQp) (header : DataHeader) (psn : Nat) : RxQp :=
  q.sendAck header.srcQp header.destQp psn .error

def sendReadStatus (q : RxQp) (header : DataHeader) (psn : Nat) (error : Errno) : RxQp :=
  q.note (.readStatus header.srcQp header.destQp psn header.immData error)

/-! ## The ACK history -/

def ackHistoryStore (q : RxQp) (psn : Nat) (status : SendAckStatus) : RxQp :=
  { q with
    ackHistory := Function.update q.ackHistory (psn % ackHistorySize) (some (psn % psnMod, status)) }

def ackHistoryLookup (q : RxQp) (psn : Nat) : Option SendAckStatus :=
  match q.ackHistory (psn % ackHistorySize) with
  | none => none
  | some (stored, status) => if stored = psn % psnMod then some status else none

/-- `tbv_rx_reack_duplicate_locked` for a PSN before the expected one. A status that the history no
longer has is answered with OK. -/
def reackDuplicate (q : RxQp) (destQp srcQp psn : Nat) : RxQp :=
  q.note (.reack destQp srcQp psn ((q.ackHistoryLookup psn).getD .ok))

def isDuplicate (q : RxQp) (psn : Nat) : Bool := psnDelta psn q.rxExpectedPsn < 0

/-! ## Receive requests and completions -/

def popRecv (q : RxQp) : Option (RecvWqe × RxQp) :=
  match q.recvq with
  | [] => none
  | wqe :: rest => if q.closing then none else some (wqe, { q with recvq := rest })

def cqPush (q : RxQp) (psn : Nat) (wc : Wc) : RxQp × Bool :=
  if q.cq.overflowed ∨ q.cq.count = q.cq.cqe then ({ q with cq := { q.cq with overflowed := true } }, false)
  else
    ({ q with cq := { q.cq with count := q.cq.count + 1 }, trace := .completion psn wc :: q.trace }, true)

def cqPushOption (q : RxQp) (psn : Nat) : Option Wc → RxQp × Bool
  | none => (q, true)
  | some wc => q.cqPush psn wc

/-- `rx_expected_psn` moves past the PSN, whose status goes into the history. -/
def consumePsn (q : RxQp) (psn : Nat) (status : SendAckStatus) : RxQp :=
  ({ q with rxExpectedPsn := psnNext psn }.ackHistoryStore psn status).note (.consumed psn status true)

/-- `rx_expected_psn` moves past the PSN and nothing is recorded. -/
def skipPsn (q : RxQp) (psn : Nat) (status : SendAckStatus) : RxQp :=
  { q with rxExpectedPsn := psnNext psn }.note (.consumed psn status false)

/-! ## Copies -/

/-- `tbv_rx_copy_to_wqe`: the new count of delivered bytes, unless the copy failed. -/
def copyToWqe (q : RxQp) (env : RxEnv) (wqe : RecvWqe) (offset : Nat) (payload : List UInt8)
    (delivered : Nat) : RxQp × Option Nat :=
  let copyLen := min payload.length (wqe.length - offset)
  if copyLen = 0 then (q, some delivered)
  else
    let addr := (wqe.addr + offset) % 2 ^ 64
    match env.mrs wqe.lkey with
    | none => (q, none)
    | some mr =>
        if mr.takesCopy addr copyLen then
          (q.note (.placed wqe.lkey addr (payload.take copyLen)), some (delivered + copyLen))
        else (q, none)

/-- The copy of a fragment to `remote_addr + offset`, for a length that is not 0. -/
def copyToRemote (q : RxQp) (env : RxEnv) (rkey remoteAddr offset : Nat) (payload : List UInt8) :
    Option RxQp :=
  if 2 ^ 64 ≤ remoteAddr + offset then none
  else
    match env.mrs rkey with
    | none => none
    | some mr =>
        if mr.remoteWrite && mr.takesIovaCopy (remoteAddr + offset) payload.length then
          some (q.note (.wrote rkey (remoteAddr + offset) payload))
        else none

/-! ## The reorder list -/

def reorderFind (q : RxQp) (psn : Nat) : Option ReorderMsg :=
  q.rxReorder.find? fun msg => msg.psn = psn

/-- `tbv_rx_reorder_unlink_msg_locked`; no two messages of the list have the same PSN. -/
def reorderUnlink (q : RxQp) (msg : ReorderMsg) : RxQp :=
  { q with
    rxReorder := q.rxReorder.eraseP fun other => other.psn = msg.psn
    rxReorderCount := q.rxReorderCount - 1
    rxReorderBytes := q.rxReorderBytes - msg.bufferedBytes }

def reorderLink (q : RxQp) (msg : ReorderMsg) : RxQp :=
  { q with rxReorder := q.rxReorder ++ [msg], rxReorderCount := q.rxReorderCount + 1 }

def reorderReplace (q : RxQp) (msg : ReorderMsg) : RxQp :=
  { q with rxReorder := Lib.replaceKey ReorderMsg.psn msg q.rxReorder }

/-! ## The RNR mark -/

def rnrMatches (q : RxQp) (srcQp psn : Nat) : Bool :=
  q.rnr.any fun mark => mark.srcQp = srcQp && mark.psn = psn

/-- The fragment belongs to a marked message and is not the one that was refused. -/
def rnrSuppresses (q : RxQp) (header : DataHeader) : Bool :=
  q.rnr.any fun mark => mark.srcQp = header.srcQp && mark.psn = header.psn % psnMod &&
    !(mark.remoteAddr = header.remoteAddr && mark.fragOffset = header.fragOffset)

def clearRnr (q : RxQp) (srcQp psn : Nat) : RxQp :=
  if q.rnrMatches srcQp psn then { q with rnr := none } else q

def refuseRnr (q : RxQp) (header : DataHeader) : RxQp :=
  let psn := header.psn % psnMod
  { q with
    rnr := some { srcQp := header.srcQp, psn, remoteAddr := header.remoteAddr
                  fragOffset := header.fragOffset } }.sendAck header.srcQp header.destQp psn .rnr

end RxQp

end ThunderboltVerbs.Receive
