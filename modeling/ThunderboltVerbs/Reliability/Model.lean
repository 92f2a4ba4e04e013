import ThunderboltVerbs.Proto.NativeData

/-!
# The reliability model (`proto/reliability.c`)

One operation of a sender and one of a receiver. Machine integers keep their width, so every
addition and multiplication wraps as it does in the source.
-/

namespace ThunderboltVerbs.Reliability
open Proto

def maxFrags : UInt32 := 64
def ackHistorySize : Nat := 16
def retryInfinite : UInt32 := 0xffffffff

def opSend : UInt8 := 1
def opSendImm : UInt8 := 2
def opRdmaWrite : UInt8 := 3
def opRdmaWriteImm : UInt8 := 4
def opRdmaReadResp : UInt8 := 5

def ackOk : UInt8 := 0
def ackRnr : UInt8 := 1
def ackError : UInt8 := 2

inductive CompletionStatus
  | ok | rnrRetryExhausted | retryExhausted | remoteError
  deriving DecidableEq, Repr

inductive TxState
  | ready | inFlight | complete | failed
  deriving DecidableEq, Repr

structure DataFrame where
  connId : UInt64
  opId : UInt32
  frameSeq : UInt32
  retryGeneration : UInt32
  offset : UInt32
  length : UInt32
  fragIndex : UInt16
  fragCount : UInt16
  op : UInt8
  deriving DecidableEq, Repr

structure AckFrame where
  connId : UInt64
  opId : UInt32
  retryGeneration : UInt32
  status : UInt8
  deriving DecidableEq, Repr

structure Completion where
  opId : UInt32
  status : CompletionStatus
  deriving DecidableEq, Repr

structure TxOp where
  connId : UInt64
  opId : UInt32
  totalLen : UInt32
  maxPayload : UInt32
  frameCount : UInt32
  nextFrame : UInt32 := 0
  retryGeneration : UInt32 := 0
  retryBudget : UInt32
  rnrBudget : UInt32
  localTxFrames : UInt32 := 0
  completionCount : UInt32 := 0
  op : UInt8
  state : TxState
  deriving DecidableEq, Repr

structure AckHistoryEntry where
  opId : UInt32
  ack : AckFrame
  deriving DecidableEq, Repr

structure RxOp where
  connId : UInt64
  maxPayload : UInt32
  opId : UInt32 := 0
  totalLen : UInt32 := 0
  frameCount : UInt32 := 0
  receivedCount : UInt32 := 0
  completionCount : UInt32 := 0
  ackHistoryNext : UInt32 := 0
  receivedBitmap : UInt64 := 0
  cachedAck : AckFrame := { connId := 0, opId := 0, retryGeneration := 0, status := 0 }
  ackHistory : List (Option AckHistoryEntry) := List.replicate ackHistorySize none
  op : UInt8 := 0
  active : Bool := false
  accepted : Bool := false
  deriving DecidableEq, Repr

structure RxEvent where
  ack : Option AckFrame := none
  completion : Option Completion := none
  duplicate : Bool := false
  stale : Bool := false
  rnr : Bool := false
  deriving DecidableEq, Repr

def validOp (op : UInt8) : Bool :=
  op == opSend || op == opSendImm || op == opRdmaWrite || op == opRdmaWriteImm ||
    op == opRdmaReadResp

def buildAck (frame : DataFrame) (status : UInt8) : AckFrame where
  connId := frame.connId
  opId := frame.opId
  retryGeneration := frame.retryGeneration
  status := status

/-! ## The sender -/

def frameCountOf (totalLen maxPayload : UInt32) : UInt32 :=
  if totalLen ≠ 0 then (totalLen + maxPayload - 1) / maxPayload else 1

def txStart (connId : UInt64) (opId : UInt32) (op : UInt8)
    (totalLen maxPayload retryBudget rnrBudget : UInt32) : Except Errno TxOp :=
  if !validOp op || maxPayload = 0 then .error .eInval
  else
    let frameCount := frameCountOf totalLen maxPayload
    if frameCount = 0 ∨ frameCount > maxFrags then .error .eMsgSize
    else
      .ok
        { connId := connId, opId := opId, op := op, totalLen := totalLen
          maxPayload := maxPayload, frameCount := frameCount, retryBudget := retryBudget
          rnrBudget := rnrBudget, state := .ready }

def TxOp.frame (tx : TxOp) : DataFrame :=
  let offset := tx.nextFrame * tx.maxPayload
  let remaining := if tx.totalLen > offset then tx.totalLen - offset else 0
  { connId := tx.connId
    opId := tx.opId
    frameSeq := tx.nextFrame
    retryGeneration := tx.retryGeneration
    offset := offset
    length := if remaining > tx.maxPayload then tx.maxPayload else remaining
    fragIndex := tx.nextFrame.toUInt16
    fragCount := tx.frameCount.toUInt16
    op := tx.op }

def txNextFrame (tx : TxOp) : Except Errno (TxOp × DataFrame) :=
  if tx.state ≠ .ready ∧ tx.state ≠ .inFlight then .error .eInval
  else if tx.nextFrame ≥ tx.frameCount then .error .eNoData
  else
    .ok ({ tx with nextFrame := tx.nextFrame + 1, localTxFrames := tx.localTxFrames + 1
                   state := .inFlight }, tx.frame)

def TxOp.finish (tx : TxOp) (state : TxState) : TxOp :=
  { tx with state := state, completionCount := tx.completionCount + 1 }

def TxOp.rewind (tx : TxOp) : TxOp :=
  { tx with retryGeneration := tx.retryGeneration + 1, nextFrame := 0 }

def spend (budget : UInt32) : UInt32 := if budget ≠ retryInfinite then budget - 1 else budget

def txOnTimeout (tx : TxOp) : Except Errno (TxOp × Option Completion) :=
  if tx.state ≠ .inFlight then .error .eInval
  else if tx.retryBudget ≠ retryInfinite ∧ tx.retryBudget = 0 then
    .ok (tx.finish .failed, some { opId := tx.opId, status := .retryExhausted })
  else .ok ({ tx.rewind with retryBudget := spend tx.retryBudget }, none)

def txOnAck (tx : TxOp) (ack : AckFrame) : Except Errno (TxOp × Option Completion) :=
  if ack.connId ≠ tx.connId ∨ ack.opId ≠ tx.opId then .ok (tx, none)
  else if tx.state = .complete ∨ tx.state = .failed then .ok (tx, none)
  else if ack.status = ackOk then
    .ok (tx.finish .complete, some { opId := tx.opId, status := .ok })
  else if ack.status = ackRnr then
    if tx.rnrBudget ≠ retryInfinite ∧ tx.rnrBudget = 0 then
      .ok (tx.finish .failed, some { opId := tx.opId, status := .rnrRetryExhausted })
    else .ok ({ tx.rewind with rnrBudget := spend tx.rnrBudget, state := .ready }, none)
  else if ack.status = ackError then
    .ok (tx.finish .failed, some { opId := tx.opId, status := .remoteError })
  else .error .eInval

/-! ## The receiver -/

def rxInit (connId : UInt64) (maxPayload : UInt32) : RxOp where
  connId := connId
  maxPayload := maxPayload

def RxOp.findCachedAck (rx : RxOp) (opId : UInt32) : Option AckFrame :=
  rx.ackHistory.findSome? fun entry =>
    entry.bind fun entry => if entry.opId = opId then some entry.ack else none

def RxOp.storeCachedAck (rx : RxOp) (ack : AckFrame) : RxOp :=
  { rx with
    ackHistory := rx.ackHistory.set (rx.ackHistoryNext.toNat % ackHistorySize)
      (some { opId := ack.opId, ack := ack })
    ackHistoryNext := rx.ackHistoryNext + 1 }

def rxValidateFrame (rx : RxOp) (frame : DataFrame) : Except Errno Unit :=
  if !validOp frame.op then .error .eInval
  else if rx.maxPayload = 0 ∨ frame.fragCount = 0 ∨ frame.fragCount.toUInt32 > maxFrags ∨
      frame.fragIndex ≥ frame.fragCount then .error .eInval
  else if frame.offset ≠ frame.fragIndex.toUInt32 * rx.maxPayload then .error .eInval
  else if frame.length > rx.maxPayload then .error .eMsgSize
  else .ok ()

def RxOp.begin (rx : RxOp) (frame : DataFrame) : RxOp :=
  { rx with active := true, opId := frame.opId, op := frame.op
            frameCount := frame.fragCount.toUInt32, receivedCount := 0, receivedBitmap := 0
            totalLen := 0 }

def RxOp.seen (rx : RxOp) (frame : DataFrame) : Bool :=
  rx.receivedBitmap &&& ((1 : UInt64) <<< frame.fragIndex.toUInt64) != 0

def RxOp.record (rx : RxOp) (frame : DataFrame) : RxOp :=
  if rx.seen frame then rx
  else
    { rx with receivedBitmap := rx.receivedBitmap ||| ((1 : UInt64) <<< frame.fragIndex.toUInt64)
              receivedCount := rx.receivedCount + 1
              totalLen := rx.totalLen + frame.length }

def RxOp.conclude (rx : RxOp) (frame : DataFrame) : RxOp :=
  let ack := buildAck frame ackOk
  { rx with accepted := true, active := false, completionCount := rx.completionCount + 1
            cachedAck := ack }.storeCachedAck ack

/-- The part of `tbv_rel_rx_on_data` after the operation has been taken up. -/
def RxOp.collect (rx : RxOp) (frame : DataFrame) : RxOp × Except Errno RxEvent :=
  if frame.opId ≠ rx.opId ∨ frame.op ≠ rx.op ∨ frame.fragCount.toUInt32 ≠ rx.frameCount then
    (rx, .error .eBusy)
  else
    let duplicate := rx.seen frame
    let rx := rx.record frame
    if rx.receivedCount = rx.frameCount then
      (rx.conclude frame,
        .ok { duplicate := duplicate, ack := some (buildAck frame ackOk)
              completion := some { opId := frame.opId, status := .ok } })
    else (rx, .ok { duplicate := duplicate })

/-- `tbv_rel_rx_on_data`: the receiver afterwards and the error or the event. -/
def rxOnData (rx : RxOp) (frame : DataFrame) (recvAvailable : Bool) :
    RxOp × Except Errno RxEvent :=
  match rxValidateFrame rx frame with
  | .error error => (rx, .error error)
  | .ok () =>
      if frame.connId ≠ rx.connId then (rx, .ok { stale := true })
      else if rx.active then rx.collect frame
      else
        match rx.findCachedAck frame.opId with
        | some ack => (rx, .ok { duplicate := true, ack := some ack })
        | none =>
            if recvAvailable then (rx.begin frame).collect frame
            else (rx, .ok { rnr := true, ack := some (buildAck frame ackRnr) })

end ThunderboltVerbs.Reliability
