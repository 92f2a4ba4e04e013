import ThunderboltVerbs.Receive.Steps
import ThunderboltVerbs.Receive.Copies
import ThunderboltVerbs.Receive.Unseen

/-!
# A message in order

The fragments of the expected message come one after the other, and the handler copies each to its
destination.
-/

namespace ThunderboltVerbs.Receive
open Proto Verbs Lib

/-- The queue pair is idle and expects request `n`; what it has buffered is for later requests. -/
structure Expecting (s : Stream) (n : Nat) (q : RxQp) : Prop where
  expected : q.rxExpectedPsn = s.psn n
  noMsg : q.rxMsg = none
  noWrite : q.rxWrite = none
  ahead : ∀ other ∈ q.rxReorder, 0 < psnDelta other.psn q.rxExpectedPsn

/-- The handler takes the fragments in the order given, fragment `i` at the time `now i`. -/
def RxQp.handled (q : RxQp) (env : RxEnv) (now : Nat → Nat) (s : Stream) (n : Nat) (msg : Message) (order : List Nat) :
    RxQp :=
  order.foldl (fun q i => q.handleFrame (env.timed (now i)) (s.dataFrame n msg i)) q

/-- The first `count` fragments one after the other. -/
def RxQp.inOrder (q : RxQp) (env : RxEnv) (now : Nat → Nat) (s : Stream) (n : Nat) (msg : Message) (count : Nat) :
    RxQp :=
  q.handled env now s n msg (List.range count)

variable {s : Stream} {n i j : Nat} {msg : Message} {q q' : RxQp} {env : RxEnv} {now : Nat → Nat} {wqe : RecvWqe}

theorem inOrder_succ (count : Nat) :
    q.inOrder env now s n msg (count + 1) =
      (q.inOrder env now s n msg count).handleFrame (env.timed (now count)) (s.dataFrame n msg count) := by
  simp only [RxQp.inOrder, RxQp.handled, List.range_succ, List.foldl_append, List.foldl_cons, List.foldl_nil]

theorem Expecting.absent (expecting : Expecting s n q) : ∀ other ∈ q.rxReorder, other.psn ≠ s.psn n := by
  intro other member same
  have ahead := expecting.ahead other member
  rw [same, expecting.expected, s.psnDelta_psn (by omega) (by omega), Int.sub_self] at ahead
  exact absurd ahead (lt_irrefl _)

theorem Expecting.notFound (expecting : Expecting s n q) : q.reorderFind (s.psn n) = none := by
  simpa [RxQp.reorderFind] using expecting.absent

theorem Expecting.current (expecting : Expecting s n q) : q.isDuplicate (s.psn n) = false := by
  rw [s.isDuplicate_psn expecting.expected (by omega) (by omega)]
  simp

theorem Expecting.delta (expecting : Expecting s n q) : psnDelta (s.psn n) q.rxExpectedPsn = 0 := by
  rw [expecting.expected, s.psnDelta_psn (by omega) (by omega), Int.sub_self]

theorem rnrSuppresses_unmarked {header : DataHeader}
    (unmarked : q.rnrMatches header.srcQp (header.psn % psnMod) = false) :
    q.rnrSuppresses header = false := by
  simp only [RxQp.rnrMatches, RxQp.rnrSuppresses] at unmarked ⊢
  cases mark : q.rnr with
  | none => rfl
  | some mark =>
      rw [mark, Option.any_some] at unmarked
      rw [Option.any_some, unmarked, Bool.false_and]

theorem clearRnr_unmarked {srcQp psn : Nat} (unmarked : q.rnrMatches srcQp psn = false) : q.clearRnr srcQp psn = q := by
  simp [RxQp.clearRnr, unmarked]

/-! ## SEND -/

def Message.sendStatus (msg : Message) (env : RxEnv) (wqe : RecvWqe) (order : List Nat) : WcStatus :=
  if copyFails (msg.placeCopy env wqe) order then .locProtErr
  else if msg.payload.length > wqe.length then .locLenErr
  else .success

/-- The active SEND after its first `j` fragments. -/
def Stream.receiving (s : Stream) (n : Nat) (msg : Message) (env : RxEnv) (wqe : RecvWqe) (now : Nat)
    (striping : Bool) (j : Nat) : RxMessage :=
  { RxMessage.start (s.header n msg 0) wqe now (if striping then msg.fragments else 0) with
    status := msg.sendStatus env wqe (List.range j)
    received := min (j * dataMaxPayload) msg.payload.length
    delivered := copyBytes (msg.placeCopy env wqe) (List.range j)
    fragsReceived := if striping then j else 0
    fragSeen := if striping then (List.range j).reverse else [] }

theorem receiving_sameSend (s : Stream) (n : Nat) (msg : Message) (env : RxEnv) (wqe : RecvWqe) (i j started : Nat)
    (striping : Bool) :
    (s.receiving n msg env wqe started striping j).sameSend (s.header n msg i) = true := by
  rw [sameSend_header]
  exact sameSend_start (s := s) (n := n) (i := 0) msg wqe started (if striping then msg.fragments else 0)

theorem receiving_start (env : RxEnv) (wqe : RecvWqe) (isSend : msg.op.isWrite = false) (started : Nat)
    (striping : Bool) :
    s.receiving n msg env wqe started striping 0 =
      RxMessage.start (s.header n msg 0) wqe started (if striping then msg.fragments else 0) := by
  simp [Stream.receiving, RxMessage.start, Message.sendStatus, copyFails, copyBytes, isSend]

theorem received_succ (bound : j < msg.fragments) :
    min (j * dataMaxPayload) msg.payload.length + (msg.slice j).length =
      min ((j + 1) * dataMaxPayload) msg.payload.length := by
  have inside := fragment_inside bound
  rw [msg.length_slice] at inside ⊢
  rw [Nat.add_mul]
  omega

theorem sendStatus_succ (msg : Message) (env : RxEnv) (wqe : RecvWqe) (j : Nat) :
    msg.sendStatus env wqe (List.range (j + 1)) =
      if (msg.placeCopy env wqe j).isNone then .locProtErr else msg.sendStatus env wqe (List.range j) := by
  simp only [Message.sendStatus, copyFails_range_succ]
  cases (msg.placeCopy env wqe j).isNone <;> simp

theorem copySend_receiving (env : RxEnv) (wqe : RecvWqe) (bound : j < msg.fragments) (started time : Nat)
    (striping : Bool) :
    q.copySend (env.timed time) (s.receiving n msg env wqe started striping j) (j * dataMaxPayload) (msg.slice j) =
      ({ q with trace := (msg.placeCopy env wqe j).effects ++ q.trace },
        { s.receiving n msg env wqe started striping (j + 1) with
          fragsReceived := if striping then j else 0
          fragSeen := if striping then (List.range j).reverse else [] }) := by
  have copied := copyToWqe_eq (q := q) (env.timed time) wqe (j * dataMaxPayload) (msg.slice j)
    (copyBytes (msg.placeCopy env wqe) (List.range j))
  have size := received_succ bound
  have bytes : copyBytes (msg.placeCopy env wqe) (List.range (j + 1)) =
      copyBytes (msg.placeCopy env wqe) (List.range j) + (msg.placeCopy env wqe j).bytes := by
    simp [copyBytes, List.range_succ]
  have status := sendStatus_succ msg env wqe j
  have timeless : Receive.placeCopy (env.timed time) wqe (j * dataMaxPayload) (msg.slice j) =
      msg.placeCopy env wqe j := rfl
  rw [timeless] at copied
  simp only [RxQp.copySend, Stream.receiving, RxMessage.start, copied, size, bytes, status]
  cases msg.placeCopy env wqe j with
  | none => simp [Copy.effects, Copy.bytes]
  | some copy => simp [Copy.effects, Copy.bytes]

/-- Fragment `j` is copied; the last one finishes the message. -/
def RxQp.takeSend (q : RxQp) (env : RxEnv) (s : Stream) (n : Nat) (msg : Message) (wqe : RecvWqe)
    (started j time : Nat) :
    RxQp :=
  let copied := { q with trace := (msg.placeCopy env wqe j).effects ++ q.trace }
  let active := s.receiving n msg env wqe started q.striping (j + 1)
  if j + 1 = msg.fragments then (copied.finishSend active).drain (env.timed time)
  else { copied with rxMsg := some active }

theorem recordPlain_receiving (bound : j < msg.fragments) (mode : q.striping = false) (started time : Nat) :
    q.recordPlain (env.timed time) (s.receiving n msg env wqe started false j) (j * dataMaxPayload) (msg.slice j)
      (s.header n msg j).isLast = q.takeSend env s n msg wqe started j time := by
  have copied := copySend_receiving (s := s) (n := n) (q := q) env wqe bound started time false
  have last := header_isLast s n msg bound
  simp only [RxQp.recordPlain, RxQp.takeSend, copied, last, mode, decide_eq_true_eq]
  rfl

theorem recordStriped_receiving (bound : j < msg.fragments) (mode : q.striping = true) (started time : Nat) :
    q.recordStriped (env.timed time) (s.receiving n msg env wqe started true j) j (s.dataFrame n msg j) =
      q.takeSend env s n msg wqe started j time := by
  have copied := copySend_receiving (s := s) (n := n) (q := q) env wqe bound started time true
  have unseen : (s.receiving n msg env wqe started true j).fragSeen.contains j = false := by
    simp [Stream.receiving]
  have next : ({ s.receiving n msg env wqe started true (j + 1) with
      fragsReceived := j + 1, fragSeen := j :: (List.range j).reverse } : RxMessage) =
      s.receiving n msg env wqe started true (j + 1) := by
    simp [Stream.receiving, List.range_succ]
  have total : (s.receiving n msg env wqe started true (j + 1)).fragCount = msg.fragments := rfl
  simp only [RxQp.recordStriped, unseen, Bool.false_eq_true, if_false, RxQp.takeSend]
  rw [show (s.dataFrame n msg j).header.fragOffset = j * dataMaxPayload from rfl,
    show (s.dataFrame n msg j).payload = msg.slice j from rfl, copied]
  simp only [if_true] at next ⊢
  rw [next, total]
  simp only [mode]

/-! ## The handler -/

theorem handleFrame_isSend (isSend : msg.op.isWrite = false) :
    q.handleFrame env (s.dataFrame n msg i) = q.handleSendFragment env (s.dataFrame n msg i) := by
  cases op : msg.op with
  | send | sendImm => simp [RxQp.handleFrame, Stream.dataFrame, op, SendOp.opcode]
  | rdmaWrite | rdmaWriteImm => simp [op, SendOp.isWrite] at isSend

theorem handleFrame_send (isSend : msg.op.isWrite = false) (bound : i < msg.fragments)
    (unmarked : q.rnrMatches s.srcQp (s.psn n) = false) :
    q.handleFrame env (s.dataFrame n msg i) =
      if q.striping then q.handleStripedSend env (s.dataFrame n msg i)
      else q.handlePlainSend env (s.dataFrame n msg i) := by
  have ok := sendHeaderOk_header s n msg bound isSend
  have taken : q.rnrSuppresses (s.header n msg i) = false := rnrSuppresses_unmarked (by simpa using unmarked)
  rw [handleFrame_isSend isSend]
  simp only [RxQp.handleSendFragment, Stream.dataFrame, ok, taken, Bool.not_true, Bool.false_eq_true, if_false,
    header_srcQp, header_psn, s.psn_mod, clearRnr_unmarked unmarked]

theorem handleFrame_receiving (isSend : msg.op.isWrite = false) (bound : j < msg.fragments)
    (unmarked : q.rnrMatches s.srcQp (s.psn n) = false) (expected : q.rxExpectedPsn = s.psn n) {started : Nat}
    (active : q.rxMsg = some (s.receiving n msg env wqe started q.striping j)) (time : Nat) :
    q.handleFrame (env.timed time) (s.dataFrame n msg j) = q.takeSend env s n msg wqe started j time := by
  have same := fun striping => receiving_sameSend s n msg env wqe j j started striping
  have delta : psnDelta (s.psn n) q.rxExpectedPsn = 0 := by
    rw [expected, s.psnDelta_psn (by omega) (by omega), Int.sub_self]
  rw [handleFrame_send isSend bound unmarked]
  cases mode : q.striping with
  | true =>
      rw [mode] at active
      have shape := rxFragmentShape_header s n msg bound
      have count : (s.receiving n msg env wqe started true j).fragCount = msg.fragments := rfl
      rw [← recordStriped_receiving bound mode]
      simp [RxQp.handleStripedSend, Stream.dataFrame, header_immData, isSend, shape, delta, active, same, count]
  | false =>
      rw [mode] at active
      have place : (s.receiving n msg env wqe started false j).received = j * dataMaxPayload := by
        have inside := fragment_inside bound
        simp only [Stream.receiving]
        omega
      rw [← recordPlain_receiving bound mode]
      simp [RxQp.handlePlainSend, Stream.dataFrame, active, same, place]

theorem handleFrame_starts (isSend : msg.op.isWrite = false) (expecting : Expecting s n q)
    (unmarked : q.rnrMatches s.srcQp (s.psn n) = false) (popped : q.popRecv = some (wqe, q')) (time : Nat) :
    q.handleFrame (env.timed time) (s.dataFrame n msg 0) = q'.takeSend env s n msg wqe time 0 time := by
  have bound := fragments_pos msg
  have start := receiving_start (s := s) (n := n) env wqe isSend time q.striping
  have mode' : q'.striping = q.striping := (keeps_popRecv popped).striping
  rw [handleFrame_send isSend bound unmarked]
  cases mode : q.striping with
  | true =>
      rw [mode] at start mode'
      have shape := rxFragmentShape_header s n msg bound
      rw [← recordStriped_receiving bound mode', start]
      simp [RxQp.handleStripedSend, Stream.dataFrame, header_immData, isSend, shape, expecting.delta, expecting.noMsg,
        expecting.notFound, popped, RxEnv.timed]
  | false =>
      rw [mode] at start mode'
      rw [← recordPlain_receiving bound mode', start]
      simp [RxQp.handlePlainSend, Stream.dataFrame, expecting.noMsg, expecting.notFound, expecting.expected, popped,
        RxEnv.timed]

theorem handleFrame_refused (isSend : msg.op.isWrite = false) (expecting : Expecting s n q)
    (unmarked : q.rnrMatches s.srcQp (s.psn n) = false) (popped : q.popRecv = none) (time : Nat) :
    q.handleFrame (env.timed time) (s.dataFrame n msg 0) = q.refuseRnr (s.header n msg 0) := by
  have bound := fragments_pos msg
  rw [handleFrame_send isSend bound unmarked]
  cases mode : q.striping with
  | true =>
      have shape := rxFragmentShape_header s n msg bound
      simp [RxQp.handleStripedSend, Stream.dataFrame, header_immData, isSend, shape, expecting.delta, expecting.noMsg,
        expecting.notFound, popped]
  | false =>
      simp [RxQp.handlePlainSend, Stream.dataFrame, expecting.noMsg, expecting.notFound, expecting.expected, popped]

/-! ## A SEND in order -/

/-- The completion of a SEND of which the fragments in `order` were copied. -/
def Stream.sendWc (s : Stream) (msg : Message) (env : RxEnv) (wqe : RecvWqe) (order : List Nat) (bytes : Nat) : Wc :=
  recvWc wqe (msg.sendStatus env wqe order) bytes s.srcQp (if msg.op = .sendImm then some msg.immData else none)

/-- A SEND ends with its status. -/
def RxQp.endSend (q : RxQp) (s : Stream) (n : Nat) (msg : Message) (env : RxEnv) (wqe : RecvWqe) (bytes : Nat)
    (effects : List Effect) : RxQp :=
  ({ q with trace := effects ++ q.trace } : RxQp).conclude (s.psn n) s.srcQp
    (msg.sendStatus env wqe (List.range msg.fragments))
    (some (s.sendWc msg env wqe (List.range msg.fragments) bytes))

theorem receiving_imm (env : RxEnv) (wqe : RecvWqe) (isSend : msg.op.isWrite = false) (started : Nat)
    (striping : Bool) :
    (if (s.receiving n msg env wqe started striping j).withImm then
        some (s.receiving n msg env wqe started striping j).immData
      else none) = if msg.op = .sendImm then some msg.immData else none := by
  cases op : msg.op with
  | send | sendImm => simp [Stream.receiving, RxMessage.start, op, SendOp.opcode, SendOp.hasImm, SendOp.isWrite]
  | rdmaWrite | rdmaWriteImm => simp [op, SendOp.isWrite] at isSend

theorem finishSend_receiving (isSend : msg.op.isWrite = false) (started : Nat) (striping : Bool)
    (rxMsg : Option RxMessage) (effects : List Effect) (noMsg : q.rxMsg = none) :
    ({ q with rxMsg, trace := effects ++ q.trace } : RxQp).finishSend
        (s.receiving n msg env wqe started striping msg.fragments) =
      q.endSend s n msg env wqe (copyBytes (msg.placeCopy env wqe) (List.range msg.fragments)) effects := by
  have imm := receiving_imm (s := s) (n := n) (j := msg.fragments) env wqe isSend started striping
  have psn : (s.receiving n msg env wqe started striping msg.fragments).psn = s.psn n := s.psn_mod n
  have cleared : q = { q with rxMsg := none } := by
    rw [← noMsg]
  rw [RxQp.endSend, cleared]
  simp only [RxQp.finishSend, imm, psn]
  rfl

/-- The first `j` fragments were copied, and the message is not complete. -/
def RxQp.amid (q : RxQp) (s : Stream) (n : Nat) (msg : Message) (env : RxEnv) (wqe : RecvWqe) (started j : Nat) :
    RxQp :=
  { q with
    rxMsg := some (s.receiving n msg env wqe started q.striping j)
    trace := copyEffects (msg.placeCopy env wqe) (List.range j) ++ q.trace }

theorem takeSend_more (started time : Nat) (rxMsg : Option RxMessage) (more : j + 1 ≠ msg.fragments) :
    ({ q with rxMsg, trace := copyEffects (msg.placeCopy env wqe) (List.range j) ++ q.trace } : RxQp).takeSend env s n
        msg wqe started j time = q.amid s n msg env wqe started (j + 1) := by
  simp only [RxQp.takeSend, if_neg more, RxQp.amid, List.range_succ, copyEffects_snoc, List.append_assoc]

theorem takeSend_last (isSend : msg.op.isWrite = false) (noMsg : q.rxMsg = none) (started time : Nat)
    (rxMsg : Option RxMessage) (last : j + 1 = msg.fragments) :
    ({ q with rxMsg, trace := copyEffects (msg.placeCopy env wqe) (List.range j) ++ q.trace } : RxQp).takeSend env s n
        msg wqe started j time =
      (q.endSend s n msg env wqe (copyBytes (msg.placeCopy env wqe) (List.range msg.fragments))
        (copyEffects (msg.placeCopy env wqe) (List.range msg.fragments))).drain (env.timed time) := by
  rw [← finishSend_receiving isSend started q.striping rxMsg _ noMsg]
  simp only [RxQp.takeSend, ← last, if_true, List.range_succ, copyEffects_snoc, List.append_assoc]

section Send

variable (env now) (isSend : msg.op.isWrite = false) (expecting : Expecting s n q)
  (unmarked : q.rnrMatches s.srcQp (s.psn n) = false)
include isSend expecting unmarked

section Taken

variable (popped : q.popRecv = some (wqe, q'))
include popped

theorem inOrder_take (bound : j < msg.fragments) :
    ∃ rxMsg, q.inOrder env now s n msg (j + 1) =
      ({ q' with rxMsg, trace := copyEffects (msg.placeCopy env wqe) (List.range j) ++ q'.trace } : RxQp).takeSend env
        s n msg wqe (now 0) j (now j) := by
  have kept := keeps_popRecv popped
  have expected : q'.rxExpectedPsn = s.psn n := by
    obtain ⟨rest, -, rfl⟩ := popRecv_spec popped
    exact expecting.expected
  have unmarked' : q'.rnrMatches s.srcQp (s.psn n) = false := by
    rw [RxQp.rnrMatches, kept.rnr]
    exact unmarked
  induction j with
  | zero => exact ⟨q'.rxMsg, handleFrame_starts isSend expecting unmarked popped (now 0)⟩
  | succ j ih =>
      obtain ⟨rxMsg, before⟩ := ih (by omega)
      refine ⟨some (s.receiving n msg env wqe (now 0) q'.striping (j + 1)), ?_⟩
      rw [inOrder_succ, before, takeSend_more (now 0) (now j) rxMsg (by omega)]
      exact handleFrame_receiving (q := q'.amid s n msg env wqe (now 0) (j + 1)) isSend bound unmarked' expected rfl _

theorem inOrder_send :
    ∃ time, q.inOrder env now s n msg msg.fragments =
      (q'.endSend s n msg env wqe (copyBytes (msg.placeCopy env wqe) (List.range msg.fragments))
        (copyEffects (msg.placeCopy env wqe) (List.range msg.fragments))).drain (env.timed time) := by
  have positive := fragments_pos msg
  obtain ⟨last, count⟩ : ∃ last, last + 1 = msg.fragments := ⟨msg.fragments - 1, by omega⟩
  have noMsg : q'.rxMsg = none := (keeps_popRecv popped).rxMsg.trans expecting.noMsg
  obtain ⟨rxMsg, taken⟩ := inOrder_take env now isSend expecting unmarked popped (j := last) (by omega)
  rw [count] at taken
  exact ⟨now last, taken.trans (takeSend_last isSend noMsg _ _ _ count)⟩

end Taken

/-- Without a receive request the first fragment is refused and the others are suppressed. -/
theorem inOrder_refused (popped : q.popRecv = none) (bound : j < msg.fragments) :
    q.inOrder env now s n msg (j + 1) = q.refuseRnr (s.header n msg 0) := by
  induction j with
  | zero => exact handleFrame_refused isSend expecting unmarked popped (now 0)
  | succ j ih =>
      have valid := sendHeaderOk_header s n msg bound isSend
      have suppressed : (q.refuseRnr (s.header n msg 0)).rnrSuppresses (s.header n msg (j + 1)) = true := by
        simp [RxQp.rnrSuppresses, RxQp.refuseRnr, RxQp.sendAck, RxQp.note, isSend, dataMaxPayload, dataFrameSize,
          dataHdrSize]
      rw [inOrder_succ, ih (by omega), handleFrame_isSend isSend]
      simp only [RxQp.handleSendFragment, Stream.dataFrame, valid, suppressed, Bool.not_true, Bool.false_eq_true,
        if_false, if_true]

end Send

end ThunderboltVerbs.Receive
