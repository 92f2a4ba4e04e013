import ThunderboltVerbs.Verbs.Send

/-!
# Posting a send request (`tbv_post_send_one`)

Allocations, path selection, reservations, copies and path sends answer as `PostEnv` says. The
functions return the queue pair they leave, and the frames they queued for each lane or an error.
-/

namespace ThunderboltVerbs.Verbs
open Proto DataPath

structure FragmentEnv where
  frame : Bool
  copy : Option Errno
  owned : Bool
  deriving DecidableEq, Repr

structure PathEnv where
  reserve : Option Errno
  prepare : Option Errno
  enqueue : Option Errno
  deriving DecidableEq, Repr

/-- The answers to one post; the address of a new context is not that of a queued one. -/
structure PostEnv (qp : Qp) where
  ctx : Option Nat
  readFrame : Bool
  readSend : Option Errno
  collected : List PathEnv
  selected : Option PathEnv
  fragment : Nat → FragmentEnv
  fresh_send : ∀ addr ∈ ctx, ∀ entry ∈ qp.pendingSends, entry.1 ≠ addr
  fresh_read : ∀ addr ∈ ctx, ∀ entry ∈ qp.pendingReads, entry.1 ≠ addr

abbrev Posted := List (Nat × List DataHeader)

/-! ## Frames -/

def fragmentCount (totalLen : Nat) : Nat :=
  if totalLen = 0 then 1 else (totalLen + dataMaxPayload - 1) / dataMaxPayload

def fragmentHeader (msg : SendMsg) (i : Nat) : DataHeader :=
  let offset := i * dataMaxPayload
  let payloadLen := min (msg.totalLen - offset) dataMaxPayload
  msg.nativeHeader offset payloadLen (offset + payloadLen = msg.totalLen)

def buildFragment (msg : SendMsg) (i : Nat) (env : FragmentEnv) : Except Errno DataHeader :=
  if !env.frame then .error .eNoMem
  else
    match env.copy with
    | some error => .error error
    | none =>
        match buildFrame (fragmentHeader msg i) with
        | .error error => .error error
        | .ok _ => if env.owned then .ok (fragmentHeader msg i) else .error .eNoMem

def buildFragments (msg : SendMsg) (env : Nat → FragmentEnv) :
    Nat → Nat → Except Errno (List DataHeader)
  | 0, _ => .ok []
  | left + 1, i =>
      match buildFragment msg i (env i) with
      | .error error => .error error
      | .ok header =>
          match buildFragments msg env left (i + 1) with
          | .error error => .error error
          | .ok rest => .ok (header :: rest)

def laneOf (striped : Bool) (psn pathCount i : Nat) : Nat := if striped then (psn + i) % pathCount else 0

def carriers (striped : Bool) (msg : SendMsg) (paths : List PathEnv) : List (PathEnv × Nat) :=
  paths.zipIdx.filter fun path =>
    (List.range (fragmentCount msg.totalLen)).any fun i =>
      laneOf striped msg.psn paths.length i = path.2

/-- The lanes that were queued. An error after the first of them only stops the loop. -/
def enqueueLanes : Bool → List (PathEnv × Nat) → Except Errno (List Nat)
  | _, [] => .ok []
  | queued, (path, lane) :: rest =>
      match path.enqueue with
      | none =>
          match enqueueLanes true rest with
          | .error error => .error error
          | .ok lanes => .ok (lane :: lanes)
      | some error => if queued then .ok [] else .error error

def headersOf (striped : Bool) (msg : SendMsg) (pathCount : Nat) (headers : List DataHeader)
    (lane : Nat) : List DataHeader :=
  (headers.zipIdx.filter fun entry => laneOf striped msg.psn pathCount entry.2 = lane).map Prod.fst

variable {qp : Qp}

/-- WRITE fragments are never striped. -/
def Device.stripes (device : Device) (op : SendOp) : Bool := device.nativeFragmentStriping && !op.isWrite

def PostEnv.paths (env : PostEnv qp) (striped : Bool) : List PathEnv :=
  if striped then env.collected else env.selected.toList

/-- `tbv_native_send_ctx_post_frames` for a retryable context, which is never sent as a raw stream. -/
def postFrames (device : Device) (env : PostEnv qp) (msg : SendMsg) : Except Errno Posted :=
  let striped := device.stripes msg.op
  let paths := env.paths striped
  let carrying := carriers striped msg paths
  if paths = [] then .error .eNotConn
  else
    match carrying.findSome? fun path => path.1.reserve with
    | some error => .error error
    | none =>
        match buildFragments msg env.fragment (fragmentCount msg.totalLen) 0 with
        | .error error => .error error
        | .ok headers =>
            match carrying.findSome? fun path => path.1.prepare with
            | some error => .error error
            | none =>
                match enqueueLanes false carrying with
                | .error error => .error error
                | .ok lanes =>
                    .ok (lanes.map fun lane =>
                      (lane, headersOf striped msg paths.length headers lane))

/-! ## READ requests -/

/-- `tbv_post_rdma_read` from the reservation of the send queue on. -/
def postReadCtx (env : PostEnv qp) (live : Qp) (wr : SendWr) (addr : Nat) (segs : List Segment)
    (totalLen : Nat) : Qp × Except Errno Posted :=
  match live.reserveSendq with
  | .error error => (live.put, .error error)
  | .ok counted =>
      let (numbered, psn) := counted.takePsn
      if !env.readFrame then (numbered.releaseSendq.put, .error .eNoMem)
      else
        let header := readRequestHeader qp.destQpNum qp.qpNum psn totalLen wr.remoteAddr wr.rkey
        match buildFrame header, env.selected with
        | .error error, _ => (numbered.releaseSendq.put, .error error)
        | .ok _, none => (numbered.releaseSendq.put, .error .eNotConn)
        | .ok _, some _ =>
            let queued := numbered.queueRead addr
              { wrId := wr.wrId, psn, totalLen, segs, signaled := wr.signaled, sqCounted := true }
            match env.readSend with
            | some error => ((queued.unqueueRead addr).1.put, .error error)
            | none => (queued, .ok [(0, [header])])

def postRdmaRead (device : Device) (qp : Qp) (env : PostEnv qp) (wr : SendWr) :
    Qp × Except Errno Posted :=
  if !qp.destQpKnown then (qp, .error .eInval)
  else
    match qp.getLive with
    | none => (qp, .error .eInval)
    | some live =>
        match device.prepareReadSegments wr with
        | .error error => (live.put, .error error)
        | .ok (segs, totalLen) =>
            if 2 ^ 64 ≤ wr.remoteAddr + totalLen then (live.put, .error .eInval)
            else
              match env.ctx with
              | none => (live.put, .error .eNoMem)
              | some addr => postReadCtx env live wr addr segs totalLen

/-! ## SEND and WRITE requests -/

def recvCreditRequired : SendOp → Bool
  | .send | .sendImm | .rdmaWriteImm => true
  | .rdmaWrite => false

/-- The receive credit of a request; credits are advisory, so that having none is no error. -/
def takeCredit (live : Qp) (op : SendOp) : Except Errno (Qp × Bool) :=
  if recvCreditRequired op then
    match live.consumeRemoteRecvCredit with
    | .ok taken => .ok (taken, true)
    | .error .eAgain => .ok (live, false)
    | .error error => .error error
  else .ok (live, false)

def giveBack (live : Qp) (creditConsumed : Bool) : Qp :=
  if creditConsumed then live.returnRemoteRecvCredit else live

def sendMsg (qp : Qp) (op : SendOp) (wr : SendWr) (psn totalLen : Nat) : SendMsg where
  op := op
  destQp := qp.destQpNum
  srcQp := qp.qpNum
  psn := psn
  totalLen := totalLen
  immData := if op.hasImm then wr.immData else 0
  remoteAddr := if op.isWrite then wr.remoteAddr else 0
  rkey := if op.isWrite then wr.rkey else 0
  solicited := wr.solicited

/-- `tbv_post_send_one` from the reservation of the send queue on. -/
def postSendCtx (device : Device) (env : PostEnv qp) (live : Qp) (op : SendOp) (wr : SendWr)
    (creditConsumed : Bool) (addr : Nat) (segs : List Segment) (totalLen : Nat) :
    Qp × Except Errno Posted :=
  match live.reserveSendq with
  | .error error => (giveBack live.put creditConsumed, .error error)
  | .ok counted =>
      let (numbered, psn) := counted.takePsn
      let msg := sendMsg qp op wr psn totalLen
      let queued := numbered.queueSend addr
        { wrId := wr.wrId, msg, segs, signaled := wr.signaled, maxRetries := qp.sendMaxRetries
          maxRnrRetries := qp.sendMaxRnrRetries, recvCreditRequired := recvCreditRequired op
          sqCounted := true }
      match postFrames device env msg with
      | .ok posted => (queued, .ok posted)
      | .error error =>
          match queued.unqueueSend addr with
          | (unqueued, true) => ((giveBack unqueued creditConsumed).put, .error error)
          | (unqueued, false) => (unqueued, .error error)

def postSend (device : Device) (qp : Qp) (env : PostEnv qp) (op : SendOp) (wr : SendWr) :
    Qp × Except Errno Posted :=
  if !qp.destQpKnown then (qp, .error .eInval)
  else
    match qp.getLive with
    | none => (qp, .error .eInval)
    | some live =>
        match device.prepareSendSegments wr with
        | .error error => (live.put, .error error)
        | .ok (segs, totalLen) =>
            if op.isWrite ∧ 2 ^ 64 ≤ wr.remoteAddr + totalLen then (live.put, .error .eInval)
            else
              match takeCredit live op with
              | .error error => (live.put, .error error)
              | .ok (credited, creditConsumed) =>
                  match env.ctx with
                  | none => ((giveBack credited creditConsumed).put, .error .eNoMem)
                  | some addr =>
                      postSendCtx device env credited op wr creditConsumed addr segs totalLen

/-- `tbv_post_send_one` on a native RC queue pair. -/
def postSendOne (device : Device) (qp : Qp) (env : PostEnv qp) (wr : SendWr) :
    Qp × Except Errno Posted :=
  if !qp.allowsPost then (qp, .error .eInval)
  else if wr.opcode = .rdmaRead then postRdmaRead device qp env wr
  else
    match wr.opcode.sendOp with
    | none => (qp, .error .eOpNotSupp)
    | some op => postSend device qp env op wr

end ThunderboltVerbs.Verbs
