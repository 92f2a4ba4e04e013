import ThunderboltVerbs.Receive.State

/-!
# Delivery from the reorder list

The functions that may stop for want of a receive request return the new queue pair and whether the
drain goes on.
-/

namespace ThunderboltVerbs.Receive
open Proto Verbs

def ackStatus (status : WcStatus) (pushed : Bool) : SendAckStatus :=
  if status = .success ∧ pushed = true then .ok else .error

def recvWc (wqe : RecvWqe) (status : WcStatus) (byteLen srcQp : Nat) (immData : Option Nat) : Wc :=
  { wrId := wqe.wrId, status, byteLen, srcQp, immData }

def writeImmWc (wqe : RecvWqe) (status : WcStatus) (srcQp immData : Nat) : Wc :=
  if status = .success then
    { wrId := wqe.wrId, status, opcode := .recvRdmaWithImm, srcQp, immData := some immData }
  else { wrId := wqe.wrId, status, srcQp }

namespace RxQp

/-! ## SEND -/

/-- The copy loop over the stored fragments; `false` after a failed copy. -/
def copyFrags (env : RxEnv) (wqe : RecvWqe) : List ReorderFrag → RxQp → Nat → RxQp × Nat × Bool
  | [], q, delivered => (q, delivered, true)
  | frag :: rest, q, delivered =>
      match q.copyToWqe env wqe frag.offset frag.data delivered with
      | (q, none) => (q, delivered, false)
      | (q, some delivered) => copyFrags env wqe rest q delivered

def conclude (q : RxQp) (psn srcQp : Nat) (status : WcStatus) (wc : Option Wc) : RxQp :=
  let (q, pushed) := q.cqPushOption psn wc
  (q.consumePsn psn (ackStatus status pushed)).sendAck srcQp q.qpNum psn (ackStatus status pushed)

/-- `tbv_rx_deliver_reorder_msg_locked`. -/
def deliverSend (q : RxQp) (env : RxEnv) (msg : ReorderMsg) : RxQp × Bool :=
  match q.popRecv with
  | none => (q.sendAck msg.srcQp q.qpNum msg.psn .rnr, false)
  | some (wqe, q) =>
      let (q, delivered, copied) := copyFrags env wqe msg.frags (q.reorderUnlink msg) 0
      let status :=
        if !copied then .locProtErr else if msg.totalLen > wqe.length then .locLenErr else .success
      let wc := recvWc wqe status delivered msg.srcQp (if msg.withImm then some msg.immData else none)
      (q.conclude msg.psn msg.srcQp status (some wc), true)

/-! ## WRITE -/

def copyWriteFrags (env : RxEnv) (rkey remoteAddr : Nat) : List ReorderFrag → RxQp → RxQp × Bool
  | [], q => (q, true)
  | frag :: rest, q =>
      match q.copyToRemote env rkey remoteAddr frag.offset frag.data with
      | none => (q, false)
      | some q => copyWriteFrags env rkey remoteAddr rest q

/-- `tbv_rx_deliver_reorder_write_locked`. -/
def deliverWrite (q : RxQp) (env : RxEnv) (msg : ReorderMsg) : RxQp × Bool :=
  match if msg.withImm then q.popRecv else some ({}, q) with
  | none => (q.sendAck msg.srcQp q.qpNum msg.psn .rnr, false)
  | some (wqe, q) =>
      let writable := (env.mrs msg.rkey).any fun mr => mr.remoteWrite
      let (q, copied) :=
        if writable then copyWriteFrags env msg.rkey msg.remoteAddr msg.frags (q.reorderUnlink msg)
        else (q.reorderUnlink msg, false)
      let status := if copied then .success else .locProtErr
      let wc := if msg.withImm then some (writeImmWc wqe status msg.srcQp msg.immData) else none
      (q.conclude msg.psn msg.srcQp status wc, true)

/-! ## READ -/

/-- `tbv_rx_queue_rdma_read_req_work`. -/
def queueReadWork (q : RxQp) (env : RxEnv) (request : DataHeader) : RxQp :=
  if env.readWork request.psn then q.note (.dispatched request)
  else q.sendReadStatus request request.psn .eNoMem

/-- `tbv_rx_deliver_reorder_read_req_locked`. -/
def deliverRead (q : RxQp) (env : RxEnv) (msg : ReorderMsg) : RxQp :=
  ((q.reorderUnlink msg).skipPsn msg.psn .ok).queueReadWork env
    (readRequestHeader q.qpNum msg.srcQp msg.psn msg.totalLen msg.remoteAddr msg.rkey)

def deliver (q : RxQp) (env : RxEnv) (msg : ReorderMsg) : RxQp × Bool :=
  match msg.kind with
  | .write => q.deliverWrite env msg
  | .readReq => (q.deliverRead env msg, true)
  | .send => q.deliverSend env msg

/-! ## The drain -/

def pruneMsg (q : RxQp) (msg : ReorderMsg) : RxQp :=
  if !q.isDuplicate msg.psn then q
  else
    let answered :=
      if msg.kind = .readReq then q.note (.readRetry msg.psn)
      else q.reackDuplicate msg.srcQp q.qpNum msg.psn
    answered.reorderUnlink msg

/-- `tbv_rx_prune_stale_reorder_locked`. -/
def pruneStale (q : RxQp) : RxQp := q.rxReorder.foldl pruneMsg q

def idle (q : RxQp) : Bool := q.rxMsg.isNone && q.rxWrite.isNone

/-- The loop of `tbv_rx_drain_reorder_locked`; every turn but the last takes a message off the list. -/
def drainLoop (env : RxEnv) : Nat → RxQp → RxQp
  | 0, q => q
  | turns + 1, q =>
      if !q.idle then q
      else
        let q := q.pruneStale
        match q.reorderFind q.rxExpectedPsn with
        | none => q
        | some msg =>
            if !msg.complete then q
            else
              match q.deliver env msg with
              | (q, false) => q
              | (q, true) => drainLoop env turns q

def drain (q : RxQp) (env : RxEnv) : RxQp := drainLoop env (q.rxReorder.length + 1) q

end RxQp

end ThunderboltVerbs.Receive
