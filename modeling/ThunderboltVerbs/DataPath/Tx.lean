import ThunderboltVerbs.Proto.NativeData

/-!
# The transmit half of a path (`kernel/path.c`)

Each function is one critical section under `tx_lock`. The thread that runs `tbv_path_schedule_tx` is
part of the path: `scheduler` is its program counter with its locals, and `tx_scheduling` is true
exactly when it is not `idle`.
-/

namespace ThunderboltVerbs.DataPath
open Proto

def controlFrameSize : Nat := 256
def dataCreditControlReserve : Nat := 256

inductive PathState
  | new | ringAllocated | ringStarted | tunnelEnabled | stopped
  deriving DecidableEq, Repr

structure PathConfig where
  txRingSize : Nat
  rxRingSize : Nat
  rx_positive : 0 < rxRingSize
  rx_u32 : rxRingSize < 2 ^ 32
  deriving DecidableEq

/-- A frame on the ring. `header` is what `tbv_native_data_parse_header` reads from its bytes. -/
structure WireFrame where
  len : Nat
  header : Option DataHeader
  deriving DecidableEq, Repr

structure TxPacket where
  frame : WireFrame
  done : Option Nat := none
  ownerCtx : Option Nat := none
  startCreditGroupFrames : Nat := 0
  control : Bool := false
  pooled : Bool := false
  zcopy : Bool := false
  rawStreamStart : Bool := false
  rawStreamEnd : Bool := false
  rawStreamCounted : Bool := false
  deriving DecidableEq, Repr

structure RawStream where
  active : Bool := false
  owner : Option Nat := none
  endSeen : Bool := false
  inflight : Nat := 0
  deriving DecidableEq, Repr

inductive Scheduler
  | idle
  | looping
  | posting (packet : TxPacket) (fromControlQueue charged : Bool) (oldRaw : RawStream)
      (oldStartCreditGroupFrames : Nat)
  | releasing
  deriving DecidableEq, Repr

structure RxRaw where
  pending : Bool := false
  stream : DataHeader := { opcode := .send }
  done : Nat := 0
  remaining : Nat := 0
  deriving DecidableEq, Repr

structure Path where
  state : PathState
  cfg : PathConfig
  txFrameCount : Nat
  txFree : Nat
  txControlFree : Nat
  txControlQueue : List TxPacket
  txDataQueue : List TxPacket
  txControlQueued : Nat
  txDataQueued : Nat
  txDataReserved : Nat
  txDataQueueLimit : Nat
  txRemoteDataCredits : Nat
  txRemoteDataCreditMax : Nat
  rxDataCreditPending : Nat
  txInflight : Nat
  txRawStream : RawStream
  txPosted : List TxPacket
  scheduler : Scheduler
  rxRaw : RxRaw
  deriving DecidableEq

namespace Path

/-! ## Queueing -/

/-- `tbv_path_enqueue_control`; `alloc` says whether the fallback allocation of a packet succeeds. -/
def enqueueControl (p : Path) (frame : WireFrame) (done : Option Nat) (alloc : Bool) :
    Except Errno Path :=
  if frame.len > controlFrameSize then .error .eMsgSize
  else if p.state ≠ .tunnelEnabled then .error .eNotConn
  else if p.txControlFree = 0 ∧ alloc = false then .error .eNoMem
  else
    let packet : TxPacket :=
      { frame := frame, done := done, ownerCtx := done, control := true
        pooled := decide (p.txControlFree ≠ 0) }
    .ok { p with
      txControlFree := p.txControlFree - 1
      txControlQueue := p.txControlQueue ++ [packet]
      txControlQueued := p.txControlQueued + 1 }

def enqueueData (p : Path) (packet : TxPacket) : Except Errno Path :=
  if p.state ≠ .tunnelEnabled then .error .eNotConn
  else if p.txDataReserved = 0 ∧ p.txDataQueueLimit ≤ p.txDataQueued then .error .eNoMem
  else
    .ok { p with
      txDataReserved := p.txDataReserved - 1
      txDataQueue := p.txDataQueue ++ [{ packet with startCreditGroupFrames := 1 }]
      txDataQueued := p.txDataQueued + 1 }

def markGroup (packets : List TxPacket) (count : Nat) : List TxPacket :=
  match packets with
  | [] => []
  | first :: rest =>
      { first with startCreditGroupFrames := count } ::
        rest.map fun packet => { packet with startCreditGroupFrames := 0 }

def spliceData (p : Path) (packets : List TxPacket) (count : Nat) : Path :=
  { p with
    txDataQueue := p.txDataQueue ++ markGroup packets count
    txDataQueued := p.txDataQueued + packets.length }

def enqueueDataList (p : Path) (packets : List TxPacket) (count : Nat) : Except Errno Path :=
  if count = 0 then .ok p
  else if p.state ≠ .tunnelEnabled then .error .eNotConn
  else if count > p.txDataQueueLimit ∨
      p.txDataQueued + p.txDataReserved > p.txDataQueueLimit - count then .error .eNoMem
  else .ok (p.spliceData packets count)

def enqueueReservedDataList (p : Path) (packets : List TxPacket) (count : Nat) :
    Except Errno Path :=
  if count = 0 then .ok p
  else if p.state ≠ .tunnelEnabled then .error .eNotConn
  else if p.txDataReserved < count then .error .eNoMem
  else .ok (spliceData { p with txDataReserved := p.txDataReserved - count } packets count)

def reserveData (p : Path) (frames : Nat) : Except Errno Path :=
  if frames = 0 then .ok p
  else if p.state ≠ .tunnelEnabled then .error .eNotConn
  else if frames > p.txDataQueueLimit ∨
      p.txDataQueued + p.txDataReserved > p.txDataQueueLimit - frames then .error .eNoMem
  else .ok { p with txDataReserved := p.txDataReserved + frames }

def releaseDataReservation (p : Path) (frames : Nat) : Path :=
  { p with txDataReserved := p.txDataReserved - frames }

/-! ## Raw streams -/

def countRawStream (p : Path) (packet : TxPacket) : RawStream × TxPacket :=
  let raw : RawStream :=
    if packet.rawStreamStart then { active := true, owner := packet.ownerCtx } else p.txRawStream
  if raw.active ∧ packet.ownerCtx = raw.owner then
    ({ raw with inflight := raw.inflight + 1 }, { packet with rawStreamCounted := true })
  else (raw, packet)

def finishRawStream (raw : RawStream) (packet : TxPacket) : RawStream :=
  if !packet.rawStreamCounted then raw
  else
    let raw :=
      if raw.owner = packet.ownerCtx then
        let endSeen := raw.endSeen || packet.rawStreamEnd
        let inflight := raw.inflight - 1
        if endSeen ∧ inflight = 0 then
          { active := false, owner := none, endSeen := false, inflight := inflight }
        else { raw with endSeen := endSeen, inflight := inflight }
      else raw
    if raw.active then raw else {}

/-! ## The scheduler -/

def txInflightLimit (p : Path) (nativeTxMaxInflight : Nat) : Nat :=
  if nativeTxMaxInflight = 0 then 0 else min (max nativeTxMaxInflight 1) p.cfg.txRingSize

def txControlFrameReserve (p : Path) : Nat :=
  if p.txFrameCount ≤ 1 then 0
  else min (max (p.txFrameCount / 4) 1) dataCreditControlReserve

def selectTx (p : Path) : Option (TxPacket × Bool) :=
  if p.state ≠ .tunnelEnabled then none
  else if p.txRawStream.active then
    match p.txDataQueue with
    | [] => none
    | packet :: _ =>
        if !packet.zcopy || packet.rawStreamStart || packet.ownerCtx ≠ p.txRawStream.owner then none
        else some (packet, false)
  else
    match p.txControlQueue with
    | packet :: _ => some (packet, true)
    | [] => p.txDataQueue.head?.map fun packet => (packet, false)

def needsStaging (packet : TxPacket) (fromControlQueue : Bool) : Bool :=
  fromControlQueue || !packet.zcopy

def ringAllows (p : Path) (nativeTxMaxInflight : Nat) (packet : TxPacket)
    (fromControlQueue : Bool) : Bool :=
  let limit := p.txInflightLimit nativeTxMaxInflight
  let staging := needsStaging packet fromControlQueue
  (fromControlQueue || limit = 0 || p.txInflight < limit) &&
  (!staging || p.txFree ≠ 0) &&
  (!staging || fromControlQueue || p.txControlFrameReserve < p.txFrameCount - p.txInflight)

def chargesCredit (p : Path) (packet : TxPacket) : Bool :=
  !packet.control && p.txRemoteDataCreditMax ≠ 0

def creditAllows (p : Path) (packet : TxPacket) : Bool :=
  !p.chargesCredit packet ||
    max 1 (startCreditRequired packet.startCreditGroupFrames p.txRemoteDataCreditMax) ≤
      p.txRemoteDataCredits

def takeTx (p : Path) (packet : TxPacket) (fromControlQueue : Bool) : Path :=
  let charged := p.chargesCredit packet
  let counted := p.countRawStream { packet with startCreditGroupFrames := 0 }
  { p with
    txRemoteDataCredits := if charged then p.txRemoteDataCredits - 1 else p.txRemoteDataCredits
    txControlQueue := if fromControlQueue then p.txControlQueue.tail else p.txControlQueue
    txControlQueued := if fromControlQueue then p.txControlQueued - 1 else p.txControlQueued
    txDataQueue := if fromControlQueue then p.txDataQueue else p.txDataQueue.tail
    txDataQueued := if fromControlQueue then p.txDataQueued else p.txDataQueued - 1
    txRawStream := counted.1
    txFree := if needsStaging packet fromControlQueue then p.txFree - 1 else p.txFree
    txInflight := p.txInflight + 1
    scheduler := .posting counted.2 fromControlQueue charged p.txRawStream
      packet.startCreditGroupFrames }

def scheduleEnter (p : Path) : Path :=
  match p.scheduler with
  | .idle => { p with scheduler := .looping }
  | _ => p

/-- The first critical section of one round of `tbv_path_schedule_tx`: it takes a packet or stops. -/
def scheduleTake (p : Path) (nativeTxMaxInflight : Nat) : Path :=
  match p.selectTx with
  | none => { p with scheduler := .idle }
  | some (packet, fromControlQueue) =>
      if p.ringAllows nativeTxMaxInflight packet fromControlQueue && p.creditAllows packet then
        p.takeTx packet fromControlQueue
      else { p with scheduler := .idle }

def posted (p : Path) (packet : TxPacket) : Path :=
  { p with txPosted := p.txPosted ++ [packet], scheduler := .looping }

def requeues (p : Path) (packet : TxPacket) (error : Errno) : Bool :=
  error = .eNoMem && p.state = .tunnelEnabled &&
    ((packet.control && !packet.zcopy) || packet.done.isSome || packet.ownerCtx.isSome)

/-- `tb_ring_tx` failed: the staging frame, the raw-stream state and the credit are given back. -/
def rollBackPost (p : Path) (packet : TxPacket) (fromControlQueue charged : Bool)
    (oldRaw : RawStream) : Path :=
  { p with
    txFree := if needsStaging packet fromControlQueue then p.txFree + 1 else p.txFree
    txRawStream := oldRaw
    txRemoteDataCredits :=
      if charged ∧ p.txRemoteDataCredits < p.txRemoteDataCreditMax then p.txRemoteDataCredits + 1
      else p.txRemoteDataCredits
    txInflight := p.txInflight - 1 }

def requeueTx (p : Path) (packet : TxPacket) (oldStartCreditGroupFrames : Nat) : Path :=
  if packet.control then
    { p with
      txControlQueue := { packet with rawStreamCounted := false } :: p.txControlQueue
      txControlQueued := p.txControlQueued + 1
      scheduler := .idle }
  else
    let packet :=
      { packet with
        rawStreamCounted := false, startCreditGroupFrames := oldStartCreditGroupFrames }
    { p with
      txDataQueue := packet :: p.txDataQueue
      txDataQueued := p.txDataQueued + 1
      scheduler := .idle }

def controlFreeAfter (p : Path) (packet : TxPacket) : Nat :=
  if packet.control && packet.pooled then p.txControlFree + 1 else p.txControlFree

def dropTx (p : Path) (packet : TxPacket) : Path :=
  { p with txControlFree := p.controlFreeAfter packet, scheduler := .releasing }

def postFailed (p : Path) (packet : TxPacket) (fromControlQueue charged : Bool) (oldRaw : RawStream)
    (oldStartCreditGroupFrames : Nat) (error : Errno) : Path :=
  let rolledBack := p.rollBackPost packet fromControlQueue charged oldRaw
  if p.requeues packet error then rolledBack.requeueTx packet oldStartCreditGroupFrames
  else rolledBack.dropTx packet

/-- The completion callback of the posted packet number `i`. -/
def txComplete (p : Path) (i : Nat) : Option Path :=
  p.txPosted[i]?.map fun packet =>
    { p with
      txPosted := p.txPosted.eraseIdx i
      txFree := if packet.zcopy then p.txFree else p.txFree + 1
      txRawStream := finishRawStream p.txRawStream packet
      txControlFree := p.controlFreeAfter packet
      txInflight := p.txInflight - 1 }

end Path

end ThunderboltVerbs.DataPath
