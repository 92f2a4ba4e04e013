import Mathlib.Algebra.Order.Ring.Nat
import Mathlib.Data.List.Basic

/-!
# The native data header (`proto/native_data.h`)

Fields of 32 and 64 bits are natural numbers; where the C arithmetic can wrap, the wrap is written
out.
-/

namespace ThunderboltVerbs.Proto

inductive Errno
  | eInval | eNoMem | eNotConn | eMsgSize | eNoSpc | eCanceled | eAgain | eIo | eBusy | eOpNotSupp
  | eFault | eShutdown | eTimedOut | eProto | eOverflow | eNoEnt | eAcces | eNoData | eExist | eAlready
  | eNoDev | eXDev | eNameTooLong
  deriving DecidableEq, Repr

def u32Max : Nat := 2 ^ 32 - 1

def dataHdrSize : Nat := 48
def dataFrameSize : Nat := 4096
def dataMaxPayload : Nat := dataFrameSize - dataHdrSize
def dataMaxMsgSize : Nat := 16 * 1024 * 1024
def dataCreditBatch : Nat := 32
def dataMaxFrags : Nat := (dataMaxMsgSize + dataMaxPayload - 1) / dataMaxPayload

inductive DataOp
  | send | sendAck | rdmaWrite | rdmaWriteImm | recvCredit | sendImm | rdmaReadReq | rdmaReadResp
  | pathCredit | rdmaReadAck | mad
  deriving DecidableEq, Repr

def flagLast : UInt8 := 1
def flagSolicited : UInt8 := 2
def flagRawStream : UInt8 := 4

def hasFlag (flags flag : UInt8) : Bool := flags &&& flag != 0

inductive ReadAckStatus
  | ok | retry | error
  deriving DecidableEq, Repr

inductive SendAckStatus
  | ok | rnr | error
  deriving DecidableEq, Repr

structure DataHeader where
  opcode : DataOp
  flags : UInt8 := 0
  destQp : Nat := 0
  srcQp : Nat := 0
  psn : Nat := 0
  length : Nat := 0
  immData : Nat := 0
  remoteAddr : Nat := 0
  rkey : Nat := 0
  fragOffset : Nat := 0
  deriving DecidableEq, Repr

def DataHeader.isLast (header : DataHeader) : Bool := hasFlag header.flags flagLast
def DataHeader.isSolicited (header : DataHeader) : Bool := hasFlag header.flags flagSolicited
def DataHeader.isRawStream (header : DataHeader) : Bool := hasFlag header.flags flagRawStream

def sendAckCode : SendAckStatus → Nat
  | .ok => 0
  | .rnr => 1
  | .error => 2

def readAckCode : ReadAckStatus → Nat
  | .ok => 0
  | .retry => 1
  | .error => 2

def lengthAllowed (header : DataHeader) : Bool :=
  header.length ≤ if header.isRawStream then dataMaxMsgSize else dataMaxPayload

def creditReturnThreshold (creditWindow : Nat) : Nat :=
  if creditWindow ≠ 0 ∧ creditWindow < dataCreditBatch then creditWindow else dataCreditBatch

def startCreditRequired (frames creditWindow : Nat) : Nat :=
  if frames = 0 then 0
  else
    let threshold := creditReturnThreshold creditWindow
    if frames < threshold then frames else threshold

/-- `tbv_native_data_fragment_shape`: fragment index and fragment count. -/
def fragmentShape (totalLen maxPayload maxFrags offset len : Nat) (last : Bool) :
    Except Errno (Nat × Nat) :=
  if maxPayload = 0 ∨ maxFrags = 0 then .error .eInval
  else if totalLen = 0 then
    if offset ≠ 0 ∨ len ≠ 0 ∨ last = false then .error .eInval else .ok (0, 1)
  else if offset % maxPayload ≠ 0 then .error .eInval
  else
    let idx := offset / maxPayload
    let count := ((totalLen + maxPayload - 1) % 2 ^ 32) / maxPayload
    if idx ≥ count ∨ count > maxFrags then .error .eInval
    else
      let expectedLen := if idx = count - 1 then totalLen - idx * maxPayload else maxPayload
      if len ≠ expectedLen then .error .eInval
      else if last ≠ decide (idx = count - 1) then .error .eInval
      else .ok (idx, count)

section FragmentShape

variable {totalLen maxPayload maxFrags offset len idx count : Nat} {last : Bool}

theorem fragmentShape_sizes (shape : fragmentShape totalLen maxPayload maxFrags offset len last = .ok (idx, count)) :
    0 < maxPayload ∧ 0 < maxFrags := by
  unfold fragmentShape at shape
  split at shape
  · cases shape
  · omega

theorem fragmentShape_empty (positive : 0 < maxPayload) (frags : 0 < maxFrags) :
    fragmentShape 0 maxPayload maxFrags offset len last = .ok (idx, count) ↔
      idx = 0 ∧ count = 1 ∧ offset = 0 ∧ len = 0 ∧ last = true := by
  unfold fragmentShape
  rw [if_neg (by omega), if_pos rfl]
  split
  · rename_i differs
    simp only [reduceCtorEq, false_iff]
    rintro ⟨-, -, rfl, rfl, rfl⟩
    simp at differs
  · rename_i whole
    simp only [not_or, ne_eq, not_not, Bool.not_eq_false] at whole
    simp only [Except.ok.injEq, Prod.mk.injEq, whole, and_self, and_true]
    constructor
    · rintro ⟨rfl, rfl⟩
      exact ⟨rfl, rfl⟩
    · rintro ⟨rfl, rfl⟩
      exact ⟨rfl, rfl⟩

theorem fragmentShape_nonempty (some : totalLen ≠ 0) (positive : 0 < maxPayload) (frags : 0 < maxFrags) :
    fragmentShape totalLen maxPayload maxFrags offset len last = .ok (idx, count) ↔
      count = (totalLen + maxPayload - 1) % 2 ^ 32 / maxPayload ∧ count ≤ maxFrags ∧ idx < count ∧
        offset = idx * maxPayload ∧
        len = (if idx = count - 1 then totalLen - idx * maxPayload else maxPayload) ∧
        last = decide (idx = count - 1) := by
  unfold fragmentShape
  rw [if_neg (by omega), if_neg some]
  generalize (totalLen + maxPayload - 1) % 2 ^ 32 / maxPayload = c
  constructor
  · intro shape
    split at shape
    · cases shape
    rename_i aligned
    have start : offset = offset / maxPayload * maxPayload :=
      (Nat.div_mul_cancel (Nat.dvd_of_mod_eq_zero (not_not.mp aligned))).symm
    simp only at shape
    split at shape
    · cases shape
    rename_i inside
    by_cases length : len =
        if offset / maxPayload = c - 1 then totalLen - offset / maxPayload * maxPayload else maxPayload
    · rw [if_neg (not_not.mpr length)] at shape
      by_cases flagged : last = decide (offset / maxPayload = c - 1)
      · rw [if_neg (not_not.mpr flagged)] at shape
        simp only [Except.ok.injEq, Prod.mk.injEq] at shape
        obtain ⟨rfl, rfl⟩ := shape
        exact ⟨rfl, by omega, by omega, start, length, flagged⟩
      · rw [if_pos flagged] at shape
        cases shape
    · rw [if_pos length] at shape
      cases shape
  · rintro ⟨rfl, few, inside, rfl, rfl, rfl⟩
    rw [if_neg (not_not.mpr (Nat.mul_mod_left idx maxPayload))]
    simp only [Nat.mul_div_cancel idx positive]
    rw [if_neg (by omega), if_neg (by simp), if_neg (by simp)]

end FragmentShape

/-- `tbv_native_data_raw_payload_header`: the header of one payload frame of a raw stream. -/
def rawPayloadHeader (stream : DataHeader) (done remaining payloadLen : Nat) :
    Except Errno DataHeader :=
  if !stream.isRawStream then .error .eInval
  else if payloadLen = 0 ∨ payloadLen > remaining then .error .eInval
  else
    let cleared := stream.flags &&& ~~~(flagRawStream ||| flagLast ||| flagSolicited)
    let flags :=
      if payloadLen = remaining then cleared ||| (stream.flags &&& (flagLast ||| flagSolicited))
      else cleared
    .ok { stream with flags := flags, length := payloadLen, fragOffset := done }

@[simp] theorem hasFlag_zero (flag : UInt8) : hasFlag 0 flag = false := by
  simp [hasFlag]

@[simp] theorem hasFlag_last_rawStream : hasFlag flagLast flagRawStream = false := by
  decide

@[simp] theorem hasFlag_last_last : hasFlag flagLast flagLast = true := by
  decide

end ThunderboltVerbs.Proto
