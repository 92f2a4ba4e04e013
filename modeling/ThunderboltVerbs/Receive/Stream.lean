import ThunderboltVerbs.Receive.Handlers
import ThunderboltVerbs.Verbs.Post

/-!
# What a conforming sender sends

The requests of a sender are numbered from 0 on; each takes the next PSN, and its frames are the ones
that `tbv_native_send_ctx_post_frames` or `tbv_post_rdma_read` builds.
-/

namespace ThunderboltVerbs.Receive
open Proto Verbs

structure Message where
  op : SendOp
  payload : List UInt8
  bounded : payload.length ≤ dataMaxMsgSize
  immData : Nat := 0
  remoteAddr : Nat := 0
  rkey : Nat := 0
  solicited : Bool := false

inductive Request
  | data (msg : Message)
  | read (totalLen remoteAddr rkey : Nat)

structure Stream where
  firstPsn : Nat
  destQp : Nat
  srcQp : Nat
  request : Nat → Request

namespace Message

variable (msg : Message)

def fragments : Nat := fragmentCount msg.payload.length

def slice (i : Nat) : List UInt8 := (msg.payload.drop (i * dataMaxPayload)).take dataMaxPayload

def sendMsg (destQp srcQp psn : Nat) : SendMsg where
  op := msg.op
  destQp := destQp
  srcQp := srcQp
  psn := psn
  totalLen := msg.payload.length
  immData := msg.immData
  remoteAddr := msg.remoteAddr
  rkey := msg.rkey
  solicited := msg.solicited

theorem length_slice (i : Nat) :
    (msg.slice i).length = min (msg.payload.length - i * dataMaxPayload) dataMaxPayload := by
  simp [slice, Nat.min_comm]

end Message

namespace Stream

variable (s : Stream)

def psn (n : Nat) : Nat := (s.firstPsn + n) % psnMod

def header (n : Nat) (msg : Message) (i : Nat) : DataHeader :=
  fragmentHeader (msg.sendMsg s.destQp s.srcQp (s.psn n)) i

def dataFrame (n : Nat) (msg : Message) (i : Nat) : Frame where
  header := s.header n msg i
  payload := msg.slice i
  sized := msg.length_slice i

def readFrame (n totalLen remoteAddr rkey : Nat) : Frame where
  header := readRequestHeader s.destQp s.srcQp (s.psn n) totalLen remoteAddr rkey
  payload := []
  sized := rfl

def frame (n i : Nat) : Option Frame :=
  match s.request n with
  | .data msg => if i < msg.fragments then some (s.dataFrame n msg i) else none
  | .read totalLen remoteAddr rkey =>
      if i = 0 then some (s.readFrame n totalLen remoteAddr rkey) else none

/-! ## PSNs -/

theorem psn_lt (n : Nat) : s.psn n < psnMod := Nat.mod_lt _ (by decide)

@[simp] theorem psn_mod (n : Nat) : s.psn n % psnMod = s.psn n := Nat.mod_eq_of_lt (s.psn_lt n)

theorem psnNext_psn (n : Nat) : psnNext (s.psn n) = s.psn (n + 1) := by
  simp only [psnNext, psn, psnMod]
  omega

theorem psnDelta_psn {n k : Nat} (young : k ≤ n + 2 ^ 23) (near : n < k + 2 ^ 23) :
    psnDelta (s.psn n) (s.psn k) = (n : Int) - k := by
  have distance : (s.psn n % psnMod + psnMod - s.psn k % psnMod) % psnMod =
      if k ≤ n then n - k else n + psnMod - k := by
    simp only [psn, psnMod]
    split <;> omega
  have size : psnMod = 2 ^ 24 := rfl
  simp only [psnDelta, distance]
  by_cases ahead : k ≤ n
  · rw [if_pos ahead, if_pos (by omega)]
    omega
  · rw [if_neg ahead, if_neg (by omega)]
    omega

theorem psn_inj {n k : Nat} (young : k < n + 2 ^ 24) (near : n < k + 2 ^ 24)
    (same : s.psn n = s.psn k) : n = k := by
  simp only [psn, psnMod] at same
  omega

theorem isDuplicate_psn {q : RxQp} {n k : Nat} (expected : q.rxExpectedPsn = s.psn k)
    (young : k ≤ n + 2 ^ 23) (near : n < k + 2 ^ 23) : q.isDuplicate (s.psn n) = decide (n < k) := by
  simp only [RxQp.isDuplicate, expected, s.psnDelta_psn young near]
  simp only [decide_eq_decide]
  omega

end Stream

/-! ## The headers of a message -/

theorem fragments_pos (msg : Message) : 0 < msg.fragments := by
  simp only [Message.fragments, fragmentCount, dataMaxPayload, dataFrameSize, dataHdrSize]
  split <;> omega

theorem fragment_length {msg : Message} {i : Nat} (bound : i < msg.fragments) :
    (msg.slice i).length = if i + 1 = msg.fragments then msg.payload.length - i * dataMaxPayload
      else dataMaxPayload := by
  simp only [Message.length_slice, Message.fragments, fragmentCount, dataMaxPayload, dataFrameSize,
    dataHdrSize] at bound ⊢
  split at bound <;> split <;> split <;> omega

theorem fragment_ends {msg : Message} {i : Nat} (bound : i < msg.fragments) :
    i * dataMaxPayload + (msg.slice i).length = msg.payload.length ↔ i + 1 = msg.fragments := by
  simp only [Message.length_slice, Message.fragments, fragmentCount, dataMaxPayload, dataFrameSize,
    dataHdrSize] at bound ⊢
  split at bound <;> split <;> omega

theorem fragment_inside {msg : Message} {i : Nat} (bound : i < msg.fragments) :
    i * dataMaxPayload + (msg.slice i).length ≤ msg.payload.length := by
  simp only [Message.length_slice, Message.fragments, fragmentCount, dataMaxPayload, dataFrameSize,
    dataHdrSize] at bound ⊢
  split at bound <;> omega

theorem fragments_le (msg : Message) : msg.fragments ≤ dataMaxFrags := by
  have bounded := msg.bounded
  simp only [Message.fragments, fragmentCount, dataMaxFrags, dataMaxMsgSize, dataMaxPayload,
    dataFrameSize, dataHdrSize] at bounded ⊢
  split <;> omega

section Header

variable (s : Stream) (n : Nat) (msg : Message) (i : Nat)

@[simp] theorem header_opcode : (s.header n msg i).opcode = msg.op.opcode := rfl
@[simp] theorem header_psn : (s.header n msg i).psn = s.psn n := rfl
@[simp] theorem header_srcQp : (s.header n msg i).srcQp = s.srcQp := rfl
@[simp] theorem header_destQp : (s.header n msg i).destQp = s.destQp := rfl
@[simp] theorem header_fragOffset : (s.header n msg i).fragOffset = i * dataMaxPayload := rfl

@[simp] theorem header_length : (s.header n msg i).length = (msg.slice i).length :=
  (msg.length_slice i).symm

@[simp] theorem header_remoteAddr :
    (s.header n msg i).remoteAddr = if msg.op.isWrite then msg.remoteAddr else 0 := rfl

@[simp] theorem header_rkey :
    (s.header n msg i).rkey =
      if msg.op.isWrite then msg.rkey else if msg.op.hasImm then msg.immData else 0 := rfl

@[simp] theorem header_immData :
    (s.header n msg i).immData =
      if msg.op.isWrite && msg.op.hasImm then msg.immData else msg.payload.length := rfl

variable {i}

theorem header_isLast (bound : i < msg.fragments) :
    (s.header n msg i).isLast = decide (i + 1 = msg.fragments) := by
  have ends := fragment_ends bound
  rw [msg.length_slice] at ends
  simp only [Stream.header, fragmentHeader, nativeHeader_isLast, Message.sendMsg]
  exact decide_eq_decide.mpr ends

theorem header_knownFlags : knownFlags (s.header n msg i) = true := by
  simp only [knownFlags, Stream.header, fragmentHeader, SendMsg.nativeHeader, SendMsg.flags]
  split <;> split <;> decide

theorem slice_ne_nil (bound : i < msg.fragments) (nonempty : msg.payload ≠ []) :
    msg.slice i ≠ [] := by
  have positive : 0 < msg.payload.length := List.length_pos_iff.mpr nonempty
  apply List.length_pos_iff.mp
  simp only [Message.length_slice, Message.fragments, fragmentCount, dataMaxPayload, dataFrameSize,
    dataHdrSize] at bound ⊢
  split at bound <;> omega

theorem sendHeaderOk_header (bound : i < msg.fragments) (isSend : msg.op.isWrite = false) :
    sendHeaderOk (s.header n msg i) = true := by
  have inside := fragment_inside bound
  have ends := fragment_ends bound
  have full := fragment_length bound
  have last := header_isLast s n msg bound
  simp only [sendHeaderOk, header_remoteAddr, header_fragOffset, header_length, header_immData,
    header_opcode, header_rkey, header_knownFlags, isSend, last, Bool.false_and, Bool.false_eq_true,
    if_false, decide_true, Bool.true_and, Bool.and_true, inside, msg.bounded, decide_eq_decide.mpr ends.symm]
  have nonempty : i + 1 = msg.fragments ∨ (msg.slice i).length ≠ 0 := by
    by_cases final : i + 1 = msg.fragments
    · exact .inl final
    · right
      rw [full, if_neg final]
      decide
  have immediate : msg.op.opcode = .sendImm ∨ msg.op.hasImm = false := by
    cases op : msg.op <;> simp_all [SendOp.isWrite, SendOp.hasImm, SendOp.opcode]
  rcases nonempty with final | filled <;> rcases immediate with imm | plain <;> simp_all

theorem writeHeaderOk_header (bound : i < msg.fragments) (isWrite : msg.op.isWrite = true) :
    writeHeaderOk (s.header n msg i) = (msg.op.hasImm || decide (msg.payload ≠ [])) := by
  have inside := fragment_inside bound
  have small : i * dataMaxPayload + (msg.slice i).length ≤ dataMaxMsgSize := inside.trans msg.bounded
  have ends := fragment_ends bound
  have full := fragment_length bound
  have last := header_isLast s n msg bound
  have nonempty : i + 1 = msg.fragments ∨ msg.slice i ≠ [] := by
    by_cases final : i + 1 = msg.fragments
    · exact .inl final
    · right
      apply List.length_pos_iff.mp
      rw [full, if_neg final]
      decide
  have opcode : msg.op.opcode = .rdmaWriteImm ↔ msg.op.hasImm = true := by
    cases op : msg.op <;> simp_all [SendOp.isWrite, SendOp.hasImm, SendOp.opcode]
  simp only [writeHeaderOk, header_fragOffset, header_length, header_immData, header_opcode,
    header_knownFlags, isWrite, last, opcode, small, decide_true, Bool.true_and]
  cases msg.op.hasImm with
  | true => simpa using nonempty
  | false => simp [inside, msg.bounded, ends, nonempty]

theorem rxFragmentShape_header (bound : i < msg.fragments) :
    rxFragmentShape msg.payload.length (s.header n msg i) = .ok (i, msg.fragments) := by
  have last := header_isLast s n msg bound
  have full := fragment_length bound
  have few := fragments_le msg
  have bounded := msg.bounded
  simp only [rxFragmentShape, rxFragmentShapeMax, fragmentShape, header_fragOffset, header_length,
    last]
  by_cases empty : msg.payload.length = 0
  · have one : msg.fragments = 1 := by simp [Message.fragments, fragmentCount, empty]
    have first : i = 0 := by omega
    have none : (msg.slice 0).length = 0 := by simp [Message.length_slice, empty]
    simp [empty, one, first, none, dataMaxPayload, dataFrameSize, dataHdrSize, dataMaxFrags,
      dataMaxMsgSize]
  · have count : (msg.payload.length + dataMaxPayload - 1) % 2 ^ 32 / dataMaxPayload =
        msg.fragments := by
      simp only [Message.fragments, fragmentCount, if_neg empty]
      rw [Nat.mod_eq_of_lt]
      simp only [dataMaxMsgSize, dataMaxPayload, dataFrameSize, dataHdrSize] at bounded ⊢
      omega
    have index : i * dataMaxPayload / dataMaxPayload = i := Nat.mul_div_cancel _ (by decide)
    have final : (i = msg.fragments - 1) ↔ i + 1 = msg.fragments := by omega
    have settings : ¬(dataMaxPayload = 0 ∨ dataMaxFrags = 0) := by decide
    simp only [if_neg settings, if_neg empty, Nat.mul_mod_left, ne_eq, not_true_eq_false, if_false,
      index, count, final]
    rw [if_neg (by omega), full]
    simp

end Header

end ThunderboltVerbs.Receive
