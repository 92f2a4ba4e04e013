import ThunderboltVerbs.Proto.Codec
import ThunderboltVerbs.Receive.Stream
import ThunderboltVerbs.Verbs.Unwind

/-!
# Sender and receiver agree on headers

A header that a post produces is written to the wire, parsed there and checked by the handler of its
opcode.
-/

namespace ThunderboltVerbs.Proto

def DataOp.code : DataOp → UInt8
  | .send => 1
  | .sendAck => 2
  | .rdmaWrite => 3
  | .rdmaWriteImm => 4
  | .recvCredit => 5
  | .sendImm => 6
  | .rdmaReadReq => 7
  | .rdmaReadResp => 8
  | .pathCredit => 9
  | .rdmaReadAck => 10
  | .mad => 11

def dataOps : List DataOp :=
  [.send, .sendAck, .rdmaWrite, .rdmaWriteImm, .recvCredit, .sendImm, .rdmaReadReq, .rdmaReadResp,
    .pathCredit, .rdmaReadAck, .mad]

def DataHeader.toWire (header : DataHeader) : WireHeader where
  opcode := header.opcode.code
  flags := header.flags
  destQp := header.destQp.toUInt32
  srcQp := header.srcQp.toUInt32
  psn := header.psn.toUInt32
  length := header.length.toUInt32
  immData := header.immData.toUInt32
  remoteAddr := header.remoteAddr.toUInt64
  rkey := header.rkey.toUInt32
  fragOffset := header.fragOffset.toUInt32

def WireHeader.decode (wire : WireHeader) : Option DataHeader :=
  (dataOps.find? fun op => op.code = wire.opcode).map fun op =>
    { opcode := op, flags := wire.flags, destQp := wire.destQp.toNat, srcQp := wire.srcQp.toNat
      psn := wire.psn.toNat, length := wire.length.toNat, immData := wire.immData.toNat
      remoteAddr := wire.remoteAddr.toNat, rkey := wire.rkey.toNat
      fragOffset := wire.fragOffset.toNat }

structure DataHeader.Sized (header : DataHeader) : Prop where
  destQp : header.destQp < 2 ^ 32
  srcQp : header.srcQp < 2 ^ 32
  psn : header.psn < 2 ^ 32
  length : header.length < 2 ^ 32
  immData : header.immData < 2 ^ 32
  remoteAddr : header.remoteAddr < 2 ^ 64
  rkey : header.rkey < 2 ^ 32
  fragOffset : header.fragOffset < 2 ^ 32

theorem decode_toWire {header : DataHeader} (sized : header.Sized) :
    header.toWire.decode = some header := by
  have found : (dataOps.find? fun op => op.code = header.opcode.code) = some header.opcode := by
    cases header.opcode <;> decide
  rw [WireHeader.decode, show header.toWire.opcode = header.opcode.code from rfl, found,
    Option.map_some]
  obtain ⟨opcode, flags, destQp, srcQp, psn, length, immData, remoteAddr, rkey, fragOffset⟩ := header
  simp only [DataHeader.toWire, Option.some.injEq, DataHeader.mk.injEq, true_and]
  exact ⟨UInt32.toNat_ofNat_of_lt' sized.destQp, UInt32.toNat_ofNat_of_lt' sized.srcQp,
    UInt32.toNat_ofNat_of_lt' sized.psn, UInt32.toNat_ofNat_of_lt' sized.length,
    UInt32.toNat_ofNat_of_lt' sized.immData, UInt64.toNat_ofNat_of_lt' sized.remoteAddr,
    UInt32.toNat_ofNat_of_lt' sized.rkey, UInt32.toNat_ofNat_of_lt' sized.fragOffset⟩

theorem opcodeOk_toWire (header : DataHeader) : header.toWire.opcodeOk = true := by
  obtain ⟨opcode, flags, destQp, srcQp, psn, length, immData, remoteAddr, rkey, fragOffset⟩ := header
  cases opcode <;> rfl

theorem parses_built {header : DataHeader} (sized : header.Sized)
    (allowed : lengthAllowed header = true) {buffer : List UInt8}
    (long : dataHdrSize ≤ buffer.length) :
    ∃ frame wire, buildHeader buffer header.toWire = .ok (dataHdrSize, frame) ∧
      parseHeader frame = .ok wire ∧ wire.decode = some header := by
  have opcode : header.toWire.opcodeOk = true := opcodeOk_toWire header
  have same : header.toWire.length.toNat = header.length := UInt32.toNat_ofNat_of_lt' sized.length
  have length : header.toWire.lengthOk = true := by
    apply decide_eq_true
    rw [same]
    exact of_decide_eq_true allowed
  exact ⟨_, header.toWire, buildHeader_eq long opcode length,
    parseHeader_fields _ opcode length, decode_toWire sized⟩

end ThunderboltVerbs.Proto

namespace ThunderboltVerbs.Receive
open Proto Verbs

def RxQp.validates (q : RxQp) (header : DataHeader) : Bool :=
  match header.opcode with
  | .send | .sendImm =>
      sendHeaderOk header && (!q.striping || (rxFragmentShape header.immData header).isOk)
  | .rdmaWrite | .rdmaWriteImm => writeHeaderOk header && q.remoteWrite
  | _ => false

/-- The header is parsed as it was built, and every peer that permits the operation accepts it. -/
def HeaderAgrees (header : DataHeader) : Prop :=
  (∀ buffer : List UInt8, buffer.length = dataHdrSize + header.length →
    ∃ frame wire, buildHeader buffer header.toWire = .ok (dataHdrSize, frame) ∧
      parseHeader frame = .ok wire ∧ wire.decode = some header) ∧
  ∀ q : RxQp, q.remoteWrite = true → q.validates header = true

def permissivePeer : RxQp :=
  { qpNum := 7, remoteWrite := true, striping := false, rxExpectedPsn := 0, cq := { cqe := 16 } }

/-! ## The headers of one message -/

def messageOf (msg : SendMsg) (small : msg.totalLen ≤ dataMaxMsgSize) : Message where
  op := msg.op
  payload := List.replicate msg.totalLen 0
  bounded := List.length_replicate.trans_le small
  immData := msg.immData
  remoteAddr := msg.remoteAddr
  rkey := msg.rkey
  solicited := msg.solicited

def streamOf (msg : SendMsg) (small : msg.totalLen ≤ dataMaxMsgSize) : Stream where
  firstPsn := msg.psn
  destQp := msg.destQp
  srcQp := msg.srcQp
  request := fun _ => .data (messageOf msg small)

section Fragment

variable {msg : SendMsg} {i : Nat} (small : msg.totalLen ≤ dataMaxMsgSize)
  (numbered : msg.psn < psnMod)
include small numbered

theorem fragmentHeader_eq : fragmentHeader msg i =
    (streamOf msg small).header 0 (messageOf msg small) i := by
  have psn : (streamOf msg small).psn 0 = msg.psn := Nat.mod_eq_of_lt numbered
  have same : (messageOf msg small).sendMsg msg.destQp msg.srcQp msg.psn = msg := by
    simp [Message.sendMsg, messageOf]
  rw [Stream.header, psn]
  exact congrArg (fragmentHeader · i) same.symm

theorem validates_fragmentHeader (bound : i < fragmentCount msg.totalLen) (q : RxQp)
    (permitted : q.remoteWrite = true) :
    q.validates (fragmentHeader msg i) =
      (msg.op != .rdmaWrite || decide (msg.totalLen ≠ 0)) := by
  have inside : i < (messageOf msg small).fragments := by
    simpa [Message.fragments, messageOf] using bound
  have total : (messageOf msg small).payload.length = msg.totalLen := by simp [messageOf]
  have sendOk := sendHeaderOk_header (streamOf msg small) 0 (messageOf msg small) inside
  have writeOk := writeHeaderOk_header (streamOf msg small) 0 (messageOf msg small) inside
  have shape := rxFragmentShape_header (streamOf msg small) 0 (messageOf msg small) inside
  rw [total] at shape
  have nonempty : decide ((messageOf msg small).payload ≠ []) = decide (msg.totalLen ≠ 0) := by
    simp [messageOf]
  rw [nonempty] at writeOk
  rw [fragmentHeader_eq small numbered]
  have op : (messageOf msg small).op = msg.op := rfl
  simp only [RxQp.validates, header_opcode, op, permitted, Bool.and_true]
  rw [op] at sendOk writeOk
  cases kind : msg.op with
  | send | sendImm =>
      have imm : ((streamOf msg small).header 0 (messageOf msg small) i).immData = msg.totalLen := by
        simp [op, kind, SendOp.isWrite, total]
      rw [kind] at sendOk
      change (sendHeaderOk _ && (!q.striping || (rxFragmentShape _ _).isOk)) = true
      rw [imm, shape, sendOk rfl]
      cases q.striping <;> rfl
  | rdmaWrite | rdmaWriteImm =>
      rw [kind] at writeOk
      exact writeOk rfl

end Fragment

/-! ## The headers of a post -/

/-- The fields of a request and of its queue pair have the widths of the C types. -/
structure Typed (qp : Qp) (wr : SendWr) : Prop where
  qpNum : qp.qpNum < 2 ^ 32
  destQpNum : qp.destQpNum < 2 ^ 32
  immData : wr.immData < 2 ^ 32
  rkey : wr.rkey < 2 ^ 32

def totalLength (wr : SendWr) : Nat := (wr.sgList.map Sge.length).sum

section Posted

variable {device : Device} {qp qp' : Qp} {env : PostEnv qp} {wr : SendWr} {op : SendOp}
  {posted : Posted}

theorem prepareSges_total {segs : List Segment} {sges : List Sge} {start total : Nat}
    (prepared : device.prepareSges start sges = .ok (segs, total)) (small : start ≤ dataMaxMsgSize) :
    total = start + (sges.map Sge.length).sum ∧ total ≤ dataMaxMsgSize := by
  induction sges generalizing start segs with
  | nil =>
      obtain ⟨-, rfl⟩ := Prod.mk.inj (Except.ok.inj prepared)
      exact ⟨rfl, small⟩
  | cons sge rest ih =>
      rw [Device.prepareSges] at prepared
      rw [List.map_cons, List.sum_cons]
      split at prepared
      · rename_i empty
        obtain ⟨sum, bound⟩ := ih prepared small
        exact ⟨by omega, bound⟩
      split at prepared
      · cases prepared
      rename_i fits
      split at prepared
      · cases prepared
      split at prepared
      · cases prepared
      split at prepared
      · cases prepared
      split at prepared
      · cases prepared
      split at prepared
      · cases prepared
      rename_i more
      obtain ⟨-, rfl⟩ := Prod.mk.inj (Except.ok.inj prepared)
      obtain ⟨sum, bound⟩ := ih more (by omega)
      exact ⟨by omega, bound⟩

theorem prepareSendSegments_total {segs : List Segment} {total : Nat}
    (prepared : device.prepareSendSegments wr = .ok (segs, total)) :
    total = totalLength wr ∧ total ≤ dataMaxMsgSize := by
  unfold Device.prepareSendSegments at prepared
  split at prepared
  · cases prepared
  split at prepared
  · cases prepared
  obtain ⟨sum, bound⟩ := prepareSges_total prepared (Nat.zero_le _)
  exact ⟨by rw [sum, Nat.zero_add, totalLength], bound⟩

theorem postSendOne_posted (accepted : postSendOne device qp env wr = (qp', .ok posted))
    (isSend : wr.opcode.sendOp = some op) :
    ∃ psn < psnMod, totalLength wr ≤ dataMaxMsgSize ∧
      (op.isWrite = true → wr.remoteAddr < 2 ^ 64) ∧
      postFrames device env (sendMsg qp op wr psn (totalLength wr)) = .ok posted := by
  unfold postSendOne at accepted
  split at accepted
  · cases (Prod.mk.inj accepted).2
  split at accepted
  · rename_i read
    rw [read] at isSend
    cases isSend
  rw [isSend] at accepted
  simp only [postSend] at accepted
  split at accepted
  · cases (Prod.mk.inj accepted).2
  split at accepted
  · cases (Prod.mk.inj accepted).2
  split at accepted
  · cases (Prod.mk.inj accepted).2
  rename_i segs total prepared
  obtain ⟨rfl, bound⟩ := prepareSendSegments_total prepared
  split at accepted
  · cases (Prod.mk.inj accepted).2
  rename_i addressed
  split at accepted
  · cases (Prod.mk.inj accepted).2
  split at accepted
  · cases (Prod.mk.inj accepted).2
  simp only [postSendCtx] at accepted
  split at accepted
  · cases (Prod.mk.inj accepted).2
  rename_i counted reserved
  have psnBound : counted.takePsn.2 < psnMod := Nat.mod_lt _ (by decide)
  refine ⟨counted.takePsn.2, psnBound, bound, ?_, ?_⟩
  · intro write
    have below : ¬2 ^ 64 ≤ wr.remoteAddr + totalLength wr := fun far => addressed ⟨write, far⟩
    omega
  · split at accepted
    · rename_i frames
      rw [frames]
      exact (Prod.mk.inj accepted).2
    · split at accepted <;> cases (Prod.mk.inj accepted).2

theorem postFrames_headers {msg : SendMsg} (frames : postFrames device env msg = .ok posted) :
    (∀ entry ∈ posted, ∀ header ∈ entry.2,
      ∃ i < fragmentCount msg.totalLen, header = fragmentHeader msg i) ∧
    (msg.op.isWrite = true → ∃ entry ∈ posted, fragmentHeader msg 0 ∈ entry.2) := by
  simp only [postFrames] at frames
  split at frames
  · cases frames
  rename_i somePath
  split at frames
  · cases frames
  split at frames
  · cases frames
  rename_i headers built
  split at frames
  · cases frames
  split at frames
  · cases frames
  rename_i lanes enqueued
  obtain rfl := Except.ok.inj frames
  have listed := buildFragments_eq built
  constructor
  · intro entry member header found
    obtain ⟨lane, -, rfl⟩ := List.mem_map.mp member
    obtain ⟨⟨kept, number⟩, filtered, rfl⟩ := List.mem_map.mp found
    have original := List.fst_mem_of_mem_zipIdx (List.mem_filter.mp filtered).1
    rw [listed] at original
    obtain ⟨i, inside, rfl⟩ := List.mem_map.mp original
    exact ⟨i, by simpa using (List.mem_range'_1.mp inside).2, rfl⟩
  · intro write
    have single : device.stripes msg.op = false := by simp [Device.stripes, write]
    rw [single] at somePath enqueued ⊢
    cases selected : env.selected with
    | none => simp [PostEnv.paths, selected] at somePath
    | some path =>
        have positive := fragmentCount_pos msg.totalLen
        have carrying : carriers false msg (env.paths false) = [(path, 0)] := by
          have reached : ((List.range (fragmentCount msg.totalLen)).any fun i =>
              decide (laneOf false msg.psn (env.paths false).length i = 0)) = true :=
            List.any_eq_true.mpr ⟨0, List.mem_range.mpr positive, rfl⟩
          have paths : env.paths false = [path] := by simp [PostEnv.paths, selected]
          rw [paths] at reached
          rw [carriers, paths]
          exact List.filter_cons_of_pos reached
        rw [carrying] at enqueued
        have lanesEq : lanes = [0] := by
          simp only [enqueueLanes] at enqueued
          split at enqueued
          · exact (Except.ok.inj enqueued).symm
          · simp at enqueued
        rw [lanesEq]
        refine ⟨_, List.mem_singleton.mpr rfl, ?_⟩
        have first : (fragmentHeader msg 0, 0) ∈ headers.zipIdx := by
          rw [List.mk_mem_zipIdx_iff_getElem?, listed]
          simp [positive]
        refine List.mem_map.mpr ⟨(fragmentHeader msg 0, 0), List.mem_filter.mpr ⟨first, ?_⟩, rfl⟩
        simp [laneOf]

theorem sized_fragmentHeader {psn i : Nat} (typed : Typed qp wr) (numbered : psn < psnMod)
    (small : totalLength wr ≤ dataMaxMsgSize)
    (addressed : op.isWrite = true → wr.remoteAddr < 2 ^ 64)
    (bound : i < fragmentCount (totalLength wr)) :
    (fragmentHeader (sendMsg qp op wr psn (totalLength wr)) i).Sized := by
  simp only [psnMod, dataMaxMsgSize] at numbered small
  have shortTotal : totalLength wr < 2 ^ 32 := by omega
  constructor
  case destQp => exact typed.destQpNum
  case srcQp => exact typed.qpNum
  case psn =>
    change psn < 2 ^ 32
    omega
  case length =>
    change min _ dataMaxPayload < 2 ^ 32
    have most := Nat.min_le_right (totalLength wr - i * dataMaxPayload) dataMaxPayload
    have payload : dataMaxPayload < 2 ^ 32 := by decide
    exact Nat.lt_of_le_of_lt most payload
  case immData =>
    have imm := typed.immData
    cases op <;> assumption
  case remoteAddr =>
    cases op with
    | send | sendImm => exact Nat.two_pow_pos 64
    | rdmaWrite | rdmaWriteImm => exact addressed rfl
  case rkey =>
    have imm := typed.immData
    have key := typed.rkey
    cases op with
    | send => exact Nat.two_pow_pos 32
    | sendImm | rdmaWrite | rdmaWriteImm => assumption
  case fragOffset =>
    change i * dataMaxPayload < 2 ^ 32
    simp only [fragmentCount, dataMaxPayload, dataFrameSize, dataHdrSize] at bound ⊢
    split at bound <;> omega

/-- Only the empty RDMA_WRITE is posted with a header that its receiver refuses. -/
theorem headers_agree_iff (accepted : postSendOne device qp env wr = (qp', .ok posted))
    (isSend : wr.opcode.sendOp = some op) (typed : Typed qp wr) :
    (∀ entry ∈ posted, ∀ header ∈ entry.2, HeaderAgrees header) ↔
      ¬(op = .rdmaWrite ∧ totalLength wr = 0) := by
  obtain ⟨psn, numbered, small, addressed, frames⟩ := postSendOne_posted accepted isSend
  obtain ⟨fragments, carried⟩ := postFrames_headers frames
  have checked : ∀ i < fragmentCount (totalLength wr), ∀ q : RxQp, q.remoteWrite = true →
      q.validates (fragmentHeader (sendMsg qp op wr psn (totalLength wr)) i) =
        (op != .rdmaWrite || decide (totalLength wr ≠ 0)) :=
    fun i bound q permitted => validates_fragmentHeader small numbered bound q permitted
  constructor
  · rintro agree ⟨rfl, empty⟩
    obtain ⟨entry, member, first⟩ := carried rfl
    have refused := (agree entry member _ first).2 permissivePeer rfl
    rw [checked 0 (by rw [empty]; exact Nat.one_pos) _ rfl, empty] at refused
    cases refused
  · intro other entry member header found
    obtain ⟨i, bound, rfl⟩ := fragments entry member header found
    have sized := sized_fragmentHeader typed numbered small addressed bound
    constructor
    · intro buffer long
      exact parses_built sized (lengthAllowed_fragmentHeader _ i) (by omega)
    · intro q permitted
      rw [checked i bound q permitted]
      by_cases write : op = .rdmaWrite
      · have some : totalLength wr ≠ 0 := fun empty => other ⟨write, empty⟩
        simp [some]
      · simp [write]

end Posted

def onePath : PostEnv readyQp :=
  { noPath with selected := some { reserve := none, prepare := none, enqueue := none } }

def regionDevice : Device where
  mrs key := if key = 1 then some { start := 4096, length := 8192 } else none
  nativeFragmentStriping := false

def twoSgeSend : SendWr :=
  { wrId := 3, opcode := .sendWithImm, immData := 9
    sgList := [{ addr := 4096, length := 4000, lkey := 1 }, { addr := 8192, length := 1000, lkey := 1 }] }

def emptyWrite : SendWr := { wrId := 3, opcode := .rdmaWrite, sgList := [], remoteAddr := 64, rkey := 1 }

def twoSgeMsg : SendMsg := sendMsg readyQp .sendImm twoSgeSend 0 5000

theorem twoSgeSend_posted : (postSendOne regionDevice readyQp onePath twoSgeSend).2 =
    .ok [(0, [fragmentHeader twoSgeMsg 0, fragmentHeader twoSgeMsg 1])] := rfl

theorem headers_agree_twoSgeSend :
    (postSendOne regionDevice readyQp onePath twoSgeSend).2 =
      .ok [(0, [fragmentHeader twoSgeMsg 0, fragmentHeader twoSgeMsg 1])] ∧
    HeaderAgrees (fragmentHeader twoSgeMsg 0) ∧ HeaderAgrees (fragmentHeader twoSgeMsg 1) := by
  have typed : Typed readyQp twoSgeSend := by constructor <;> decide
  have accepted : postSendOne regionDevice readyQp onePath twoSgeSend =
      ((postSendOne regionDevice readyQp onePath twoSgeSend).1,
        .ok [(0, [fragmentHeader twoSgeMsg 0, fragmentHeader twoSgeMsg 1])]) :=
    Prod.ext rfl twoSgeSend_posted
  have agree := (headers_agree_iff accepted rfl typed).mpr
    fun empty => SendOp.noConfusion empty.1
  have both := agree _ (List.mem_singleton_self _)
  exact ⟨twoSgeSend_posted, both _ (by simp), both _ (by simp)⟩

/-- `tbv_rx_handle_rdma_write_fragment` refuses `!total_len` for the opcode without an immediate. -/
theorem emptyWrite_refused :
    ∃ qp' header, postSendOne emptyDevice readyQp onePath emptyWrite = (qp', .ok [(0, [header])]) ∧
      permissivePeer.validates header = false ∧ ¬HeaderAgrees header := by
  have refused : permissivePeer.validates
      (fragmentHeader (sendMsg readyQp .rdmaWrite emptyWrite 0 0) 0) = false := by decide +kernel
  refine ⟨_, fragmentHeader (sendMsg readyQp .rdmaWrite emptyWrite 0 0) 0, rfl, refused, ?_⟩
  intro agrees
  rw [agrees.2 permissivePeer rfl] at refused
  cases refused

end ThunderboltVerbs.Receive
