import ThunderboltVerbs.Proto.NativeData

/-!
# The frames the driver builds (`kernel/ibdev.c`)
-/

namespace ThunderboltVerbs.Proto

inductive SendOp
  | send | sendImm | rdmaWrite | rdmaWriteImm
  deriving DecidableEq, Repr

def SendOp.opcode : SendOp → DataOp
  | .send => .send
  | .sendImm => .sendImm
  | .rdmaWrite => .rdmaWrite
  | .rdmaWriteImm => .rdmaWriteImm

def SendOp.isWrite : SendOp → Bool
  | .rdmaWrite | .rdmaWriteImm => true
  | .send | .sendImm => false

def SendOp.hasImm : SendOp → Bool
  | .sendImm | .rdmaWriteImm => true
  | .send | .rdmaWrite => false

structure SendMsg where
  op : SendOp
  destQp : Nat
  srcQp : Nat
  psn : Nat
  totalLen : Nat
  immData : Nat
  remoteAddr : Nat
  rkey : Nat
  solicited : Bool
  deriving DecidableEq, Repr

def SendMsg.flags (msg : SendMsg) (last : Bool) : UInt8 :=
  (if last then flagLast else 0) ||| (if last && msg.solicited then flagSolicited else 0)

def SendMsg.nativeHeader (msg : SendMsg) (offset payloadLen : Nat) (last : Bool) : DataHeader where
  opcode := msg.op.opcode
  flags := msg.flags last
  destQp := msg.destQp
  srcQp := msg.srcQp
  psn := msg.psn
  length := payloadLen
  fragOffset := offset
  immData := if msg.op.isWrite && msg.op.hasImm then msg.immData else msg.totalLen
  remoteAddr := if msg.op.isWrite then msg.remoteAddr else 0
  rkey :=
    if msg.op.isWrite then msg.rkey
    else if msg.op.hasImm then msg.immData else 0

def readRequestHeader (destQp srcQp psn totalLen remoteAddr rkey : Nat) : DataHeader :=
  { opcode := .rdmaReadReq, flags := flagLast, destQp := destQp, srcQp := srcQp, psn := psn
    immData := totalLen, remoteAddr := remoteAddr, rkey := rkey }

def readResponseHeader (destQp srcQp psn totalLen offset payloadLen : Nat) (last : Bool) :
    DataHeader :=
  { opcode := .rdmaReadResp, flags := if last then flagLast else 0, destQp := destQp, srcQp := srcQp
    psn := psn, length := payloadLen, immData := totalLen, fragOffset := offset }

def readStatusHeader (destQp srcQp psn totalLen : Nat) (failed : Bool) : DataHeader :=
  { opcode := .rdmaReadResp, flags := flagLast, destQp := destQp, srcQp := srcQp, psn := psn
    immData := totalLen, rkey := if failed then 1 else 0 }

def sendAckHeader (destQp srcQp psn : Nat) (status : SendAckStatus) : DataHeader :=
  { opcode := .sendAck, destQp := destQp, srcQp := srcQp, psn := psn
    immData := sendAckCode status }

def readAckHeader (destQp srcQp psn : Nat) (status : ReadAckStatus) : DataHeader :=
  { opcode := .rdmaReadAck, destQp := destQp, srcQp := srcQp, psn := psn
    immData := readAckCode status }

def recvCreditHeader (destQp srcQp credits : Nat) : DataHeader :=
  { opcode := .recvCredit, destQp := destQp, srcQp := srcQp, immData := credits }

def gsiQpn : Nat := 1

def madHeader (payloadLen madSize : Nat) : DataHeader :=
  { opcode := .mad, flags := flagLast, destQp := gsiQpn, srcQp := gsiQpn, length := payloadLen
    immData := madSize }

theorem nativeHeader_isRawStream (msg : SendMsg) (offset payloadLen : Nat) (last : Bool) :
    (msg.nativeHeader offset payloadLen last).isRawStream = false := by
  simp only [DataHeader.isRawStream, SendMsg.nativeHeader, SendMsg.flags]
  cases last <;> cases msg.solicited <;> decide

theorem nativeHeader_isLast (msg : SendMsg) (offset payloadLen : Nat) (last : Bool) :
    (msg.nativeHeader offset payloadLen last).isLast = last := by
  simp only [DataHeader.isLast, SendMsg.nativeHeader, SendMsg.flags]
  cases last <;> cases msg.solicited <;> decide

end ThunderboltVerbs.Proto
