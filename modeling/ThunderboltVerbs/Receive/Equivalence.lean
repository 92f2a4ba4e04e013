import ThunderboltVerbs.Receive.Buffered
import ThunderboltVerbs.Receive.Recovery

/-!
# Buffered delivery is direct delivery

A message has the same outcome whether its fragments come in order or through the reorder buffer, and whether
SENDs are striped.
-/

namespace ThunderboltVerbs.Receive
open Proto Verbs Lib

def Effect.acked : Effect → Option (Nat × SendAckStatus)
  | .ack _ _ psn status => some (psn, status)
  | _ => none

def Effect.completed : Effect → Option (Nat × Wc)
  | .completion psn wc => some (psn, wc)
  | _ => none

def acks (trace : List Effect) : List (Nat × SendAckStatus) := trace.filterMap Effect.acked

def completions (trace : List Effect) : List (Nat × Wc) := trace.filterMap Effect.completed

def Wc.unsized (wc : Wc) : Wc := { wc with byteLen := 0 }

/-- Two queue pairs that had the same `past` made the same of the message with this PSN: each reported it with
`status`, if there was anything to report, and byte count and memory are the same unless a copy failed. -/
structure Agree (psn : Nat) (status : Option WcStatus) (past : List Effect) (q q' : RxQp) : Prop where
  expected : q.rxExpectedPsn = q'.rxExpectedPsn
  history : q.ackHistory = q'.ackHistory
  acks : (acks q.trace).Perm (acks q'.trace)
  answered : ∀ reported ∈ status, ∃ pushed, (psn, ackStatus reported pushed) ∈ Receive.acks q.trace
  completions : ∃ later, ∃ own own' : Option Wc,
    completions q.trace = later ++ (own.map (psn, ·)).toList ++ completions past ∧
    completions q'.trace = later ++ (own'.map (psn, ·)).toList ++ completions past ∧
    own.map Wc.unsized = own'.map Wc.unsized ∧ (∀ wc ∈ own, some wc.status = status) ∧
    (status ≠ some .locProtErr → own = own')
  memory : status ≠ some .locProtErr → ∀ {κ : Type} [DecidableEq κ] (layout : Layout κ) (memory : κ → UInt8),
    layout.after memory q.trace = layout.after memory q'.trace

variable {s : Stream} {n psn : Nat} {msg : Message} {q a b : RxQp} {env : RxEnv} {order : List Nat} {wqe : RecvWqe}
  {trace later written written' : List Effect}

section Traces

@[simp] theorem acks_append : acks (later ++ trace) = acks later ++ acks trace := List.filterMap_append

@[simp] theorem completions_append : completions (later ++ trace) = completions later ++ completions trace :=
  List.filterMap_append

theorem acks_copies (copies : ∀ effect ∈ written, effect.isCopy = true) : acks written = [] :=
  List.filterMap_eq_nil_iff.mpr fun effect member => by
    have copy := copies effect member
    cases effect <;> first | rfl | cases copy

theorem completions_copies (copies : ∀ effect ∈ written, effect.isCopy = true) : completions written = [] :=
  List.filterMap_eq_nil_iff.mpr fun effect member => by
    have copy := copies effect member
    cases effect <;> first | rfl | cases copy

theorem after_quiet {κ : Type} [DecidableEq κ] (layout : Layout κ) (memory : κ → UInt8)
    (quiet : ∀ effect ∈ later, effect.isCopy = false) : layout.after memory later = memory := by
  have nothing : (later.reverse.flatMap Effect.cells) = [] :=
    List.flatMap_eq_nil_iff.mpr fun effect member => by
      have still := quiet effect (List.mem_reverse.mp member)
      cases effect <;> first | rfl | cases still
  simp only [Layout.after, Layout.writes, nothing, List.map_nil]
  rfl

end Traces

/-! ## The end of a message -/

def RxQp.pushes (q : RxQp) : Bool := !decide (q.cq.overflowed = true ∨ q.cq.count = q.cq.cqe)

/-- What `conclude` leaves in the trace. -/
def RxQp.report (q : RxQp) (psn srcQp : Nat) (status : WcStatus) (wc : Option Wc) : List Effect :=
  let pushed := wc.isNone || q.pushes
  .ack srcQp q.qpNum psn (ackStatus status pushed) :: .consumed psn (ackStatus status pushed) true ::
    ((if q.pushes then wc else none).map (Effect.completion psn)).toList

theorem conclude_trace (srcQp : Nat) (status : WcStatus) (wc : Option Wc) :
    (q.conclude psn srcQp status wc).trace = q.report psn srcQp status wc ++ q.trace := by
  cases wc with
  | none =>
      rw [RxQp.report, ite_self]
      rfl
  | some wc =>
      by_cases full : q.cq.overflowed = true ∨ q.cq.count = q.cq.cqe
      · have refused : q.pushes = false := by
          rw [RxQp.pushes, decide_eq_true full, Bool.not_true]
        simp only [RxQp.conclude, RxQp.report, RxQp.cqPushOption, RxQp.cqPush, if_pos full, refused]
        rfl
      · have taken : q.pushes = true := by
          rw [RxQp.pushes, decide_eq_false full, Bool.not_false]
        simp only [RxQp.conclude, RxQp.report, RxQp.cqPushOption, RxQp.cqPush, if_neg full, taken]
        rfl

theorem acks_report (srcQp : Nat) (status : WcStatus) (wc : Option Wc) :
    acks (q.report psn srcQp status wc) = [(psn, ackStatus status (wc.isNone || q.pushes))] := by
  simp only [RxQp.report]
  cases (if q.pushes then wc else none) <;> rfl

theorem completions_report (srcQp : Nat) (status : WcStatus) (wc : Option Wc) :
    completions (q.report psn srcQp status wc) = ((if q.pushes then wc else none).map (psn, ·)).toList := by
  simp only [RxQp.report]
  cases (if q.pushes then wc else none) <;> rfl

theorem after_report {κ : Type} [DecidableEq κ] (layout : Layout κ) (memory : κ → UInt8) (srcQp : Nat)
    (status : WcStatus) (wc : Option Wc) : layout.after memory (q.report psn srcQp status wc) = memory := by
  refine after_quiet layout memory ?_
  simp only [RxQp.report]
  cases (if q.pushes then wc else none) <;> simp [Effect.isCopy]

theorem pushes_bare (same : a.bare = b.bare) : a.pushes = b.pushes := by
  have pushed := congrArg RxQp.pushes same
  exact pushed

theorem bare_conclude (srcQp : Nat) (status : WcStatus) (wc : Option Wc) :
    (q.conclude psn srcQp status wc).bare = (q.bare.conclude psn srcQp status wc).bare := by
  have concluded := congrArg RxQp.bare (RxQp.cloaked_conclude q.cloak q.bare psn srcQp status wc)
  exact concluded

/-- Whether a completion can be pushed does not depend on what it says. -/
theorem conclude_bare (same : a.bare = b.bare) (srcQp : Nat) (status : WcStatus) (wc wc' : Wc) :
    (a.conclude psn srcQp status (some wc)).bare = (b.conclude psn srcQp status (some wc')).bare := by
  rw [bare_conclude, same, ← bare_conclude]
  simp only [RxQp.conclude, RxQp.cqPushOption, RxQp.cqPush]
  split <;> rfl

/-! ## SEND -/

theorem endSend_trace (bytes : Nat) :
    (q.endSend s n msg env wqe bytes written).trace =
      q.report (s.psn n) s.srcQp (msg.sendStatus env wqe (List.range msg.fragments))
        (some (s.sendWc msg env wqe (List.range msg.fragments) bytes)) ++ (written ++ q.trace) :=
  conclude_trace (q := { q with trace := written ++ q.trace }) s.srcQp _ _

section Send

variable {past : List Effect} (same : a.bare = b.bare) (before : a.trace = past) (before' : b.trace = past)
  {bytes bytes' : Nat} (copies : ∀ effect ∈ written, effect.isCopy = true)
  (copies' : ∀ effect ∈ written', effect.isCopy = true)
  (whole : copyFails (msg.placeCopy env wqe) (List.range msg.fragments) = false →
    bytes = bytes' ∧ ∀ {κ : Type} [DecidableEq κ] (layout : Layout κ) (memory : κ → UInt8),
      layout.after memory written = layout.after memory written')
include same before before' copies copies' whole

theorem agree_send (time time' : Nat) :
    Agree (s.psn n) (some (msg.sendStatus env wqe (List.range msg.fragments))) past
      ((a.endSend s n msg env wqe bytes written).drain (env.timed time))
      ((b.endSend s n msg env wqe bytes' written').drain (env.timed time')) := by
  set status := msg.sendStatus env wqe (List.range msg.fragments) with statusDef
  have ends : (a.endSend s n msg env wqe bytes written).bare = (b.endSend s n msg env wqe bytes' written').bare := by
    simp only [RxQp.endSend]
    exact conclude_bare (by exact same) _ _ _ _
  have pushes : a.pushes = b.pushes := pushes_bare same
  have fine : some status ≠ some .locProtErr →
      copyFails (msg.placeCopy env wqe) (List.range msg.fragments) = false := by
    intro differs
    cases fails : copyFails (msg.placeCopy env wqe) (List.range msg.fragments) with
    | false => rfl
    | true =>
        rw [statusDef, Message.sendStatus, if_pos fails] at differs
        exact absurd rfl differs
  rw [RxQp.drain_bare, RxQp.drain_bare (b.endSend s n msg env wqe bytes' written'), ← ends]
  set drained := (a.endSend s n msg env wqe bytes written).bare.drain env
  set wc := s.sendWc msg env wqe (List.range msg.fragments) with wcDef
  have traces : (drained.cloaked (a.endSend s n msg env wqe bytes written).cloak).trace =
      drained.trace ++ (a.report (s.psn n) s.srcQp status (some (wc bytes)) ++ (written ++ past)) := by
    rw [← before, statusDef, wcDef, ← endSend_trace]
    rfl
  have traces' : (drained.cloaked (b.endSend s n msg env wqe bytes' written').cloak).trace =
      drained.trace ++ (b.report (s.psn n) s.srcQp status (some (wc bytes')) ++ (written' ++ past)) := by
    rw [← before', statusDef, wcDef, ← endSend_trace]
    rfl
  refine ⟨rfl, rfl, ?_, ?_, ?_, fun success κ _ layout memory => ?_⟩
  · rw [traces, traces']
    simp only [acks_append, acks_report, acks_copies copies, acks_copies copies', pushes]
    exact .refl _
  · rintro _ ⟨⟩
    rw [traces]
    simp only [acks_append, acks_report]
    exact ⟨a.pushes, by simp⟩
  · refine ⟨completions drained.trace, if a.pushes then some (wc bytes) else none,
      if b.pushes then some (wc bytes') else none, ?_, ?_, ?_, ?_, fun success => ?_⟩
    · rw [traces]
      simp only [completions_append, completions_report, completions_copies copies, List.nil_append, List.append_assoc]
    · rw [traces']
      simp only [completions_append, completions_report, completions_copies copies', List.nil_append, List.append_assoc]
    · rw [pushes]
      cases b.pushes <;> rfl
    · intro pushed member
      split at member <;> cases member
      rfl
    · rw [pushes, (whole (fine success)).1]
  · have same := (whole (fine success)).2 layout
    rw [traces, traces']
    simp only [after_append, after_report, same]

end Send

/-! ## WRITE -/

/-- The direct path answers after the drain and then re-answers the fragments that come too late. -/
theorem agree_write {answers : List Effect} (copies : ∀ effect ∈ written, effect.isCopy = true)
    (copies' : ∀ effect ∈ written', effect.isCopy = true)
    (late : ∀ effect ∈ answers, ∃ status, effect = .reack s.srcQp s.destQp (s.psn n) status)
    (whole : copyFails (msg.writeCopy env) (List.range msg.fragments) = false →
      ∀ {κ : Type} [DecidableEq κ] (layout : Layout κ) (memory : κ → UInt8),
        layout.after memory written = layout.after memory written') (time time' : Nat) :
    Agree (s.psn n) (some (msg.writeStatus env)) q.trace
      ((({ q with trace := written ++ q.trace } : RxQp).conclude (s.psn n) s.srcQp (msg.writeStatus env) none).drain
        (env.timed time))
      { q.endWrite (env.timed time') s n (msg.writeStatus env) written' with
        trace := answers ++ (q.endWrite (env.timed time') s n (msg.writeStatus env) written').trace } := by
  have fine : some (msg.writeStatus env) ≠ some .locProtErr →
      copyFails (msg.writeCopy env) (List.range msg.fragments) = false := by
    intro differs
    cases fails : copyFails (msg.writeCopy env) (List.range msg.fragments) with
    | false => rfl
    | true =>
        rw [Message.writeStatus, if_pos fails] at differs
        exact absurd rfl differs
  set status := msg.writeStatus env
  set consumed := ({ q with trace := written' ++ q.trace } : RxQp).consumePsn (s.psn n) (ackStatus status true)
    with consumedDef
  set drained := consumed.bare.drain env
  set ack : List Effect := [.ack s.srcQp q.qpNum (s.psn n) (ackStatus status true)]
  have acknowledged : acks ack = [(s.psn n, ackStatus status true)] := rfl
  have direct : q.endWrite (env.timed time') s n status written' =
      (drained.cloaked consumed.cloak).sendAck s.srcQp q.qpNum (s.psn n) (ackStatus status true) := by
    rw [RxQp.endWrite, ← consumedDef, RxQp.drain_bare]
  have buffered : (({ q with trace := written ++ q.trace } : RxQp).conclude (s.psn n) s.srcQp status none).drain
      (env.timed time) = drained.cloaked
        (({ q with trace := written ++ q.trace } : RxQp).conclude (s.psn n) s.srcQp status none).cloak :=
    RxQp.drain_bare _ _ _
  set advance : List Effect := [.consumed (s.psn n) (ackStatus status true) true]
  have traces : ((({ q with trace := written ++ q.trace } : RxQp).conclude (s.psn n) s.srcQp status none).drain
      (env.timed time)).trace = drained.trace ++ (ack ++ (advance ++ (written ++ q.trace))) := by
    rw [buffered]
    rfl
  have traces' : answers ++ (q.endWrite (env.timed time') s n status written').trace =
      answers ++ (ack ++ (drained.trace ++ (advance ++ (written' ++ q.trace)))) := by
    rw [direct]
    rfl
  have moved : acks advance = [] := rfl
  have answered : acks answers = [] := List.filterMap_eq_nil_iff.mpr fun effect member => by
    obtain ⟨old, rfl⟩ := late effect member
    rfl
  have unreported : completions answers = [] := List.filterMap_eq_nil_iff.mpr fun effect member => by
    obtain ⟨old, rfl⟩ := late effect member
    rfl
  refine ⟨?_, ?_, ?_, ?_, ?_, fun success κ _ layout memory => ?_⟩
  · rw [buffered, direct]
    rfl
  · rw [buffered, direct]
    rfl
  · rw [traces, traces']
    simp only [acks_append, acknowledged, moved, answered, acks_copies copies, acks_copies copies', List.nil_append]
    exact List.perm_middle
  · rintro _ ⟨⟩
    rw [traces]
    simp only [acks_append, acknowledged]
    exact ⟨true, by simp⟩
  · refine ⟨completions drained.trace, none, none, ?_, ?_, rfl, by simp, fun _ => rfl⟩
    · rw [traces]
      simp only [completions_append, completions_copies copies, Option.map_none, Option.toList_none, List.append_nil]
      rfl
    · rw [traces']
      simp only [completions_append, unreported, completions_copies copies', Option.map_none, Option.toList_none,
        List.append_nil]
      rfl
  · have late : ∀ memory, layout.after memory answers = memory := fun memory =>
      after_quiet layout memory fun effect member => by
        obtain ⟨old, rfl⟩ := late effect member
        rfl
    have still : ∀ memory, layout.after memory ack = memory := fun memory =>
      after_quiet layout memory (by simp [ack, Effect.isCopy])
    have still' : ∀ memory, layout.after memory advance = memory := fun memory =>
      after_quiet layout memory (by simp [advance, Effect.isCopy])
    have same := whole (fine success) layout
    rw [traces, traces']
    simp only [after_append, late, still, still', same]

/-! ## Both paths -/

/-- The status of the message; one that is refused has none. -/
def RxQp.verdict (q : RxQp) (env : RxEnv) (msg : Message) : Option WcStatus :=
  if msg.op.isWrite then
    if q.remoteWrite = true ∧ msg.payload ≠ [] then some (msg.writeStatus env) else none
  else q.popRecv.map fun popped => msg.sendStatus env popped.1 (List.range msg.fragments)

theorem agree_refused {past answers answers' : List Effect} (expected : a.rxExpectedPsn = b.rxExpectedPsn)
    (history : a.ackHistory = b.ackHistory) (traces : a.trace = answers ++ past) (traces' : b.trace = answers' ++ past)
    (only : ∀ effect ∈ answers ++ answers', effect.completed = none ∧ effect.isCopy = false)
    (same : acks answers = acks answers') : Agree psn none past a b := by
  have nothing : completions answers = [] :=
    List.filterMap_eq_nil_iff.mpr fun effect member => (only effect (List.mem_append_left _ member)).1
  have nothing' : completions answers' = [] :=
    List.filterMap_eq_nil_iff.mpr fun effect member => (only effect (List.mem_append_right _ member)).1
  refine ⟨expected, history, ?_, by simp, ⟨[], none, none, ?_, ?_, rfl, by simp, fun _ => rfl⟩,
    fun _ κ _ layout memory => ?_⟩
  · rw [traces, traces', acks_append, acks_append, same]
  · rw [traces, completions_append, nothing]
    rfl
  · rw [traces', completions_append, nothing']
    rfl
  · rw [traces, traces', after_append, after_append,
      after_quiet layout _ fun effect member => (only effect (List.mem_append_left _ member)).2,
      after_quiet layout _ fun effect member => (only effect (List.mem_append_right _ member)).2]

section Paths

variable {now now' : Nat → Nat} (expecting : Expecting s n q) (room : Room q env msg)
  (unmarked : q.rnrMatches s.srcQp (s.psn n) = false) (arrival : order.Perm (List.range msg.fragments))
include expecting room unmarked arrival

theorem agree_taken (isSend : msg.op.isWrite = false) {q' : RxQp} (popped : q.popRecv = some (wqe, q')) :
    Agree (s.psn n) (q.verdict env msg) q.trace (q.buffered env now s n msg order)
      (q.inOrder env now' s n msg msg.fragments) := by
  have noImm : msg.op ≠ .rdmaWriteImm := fun op => by simp [op, SendOp.isWrite] at isSend
  have admitted : Admitted q msg := fun isWrite => by simp [isSend] at isWrite
  obtain ⟨started, last, run⟩ := buffered_complete now expecting room noImm admitted unmarked arrival
  obtain ⟨bytes, written, drained, copies, whole⟩ := drain_send (env.timed (now last)) expecting started arrival
    isSend popped
  obtain ⟨time, direct⟩ := inOrder_send env now' isSend expecting unmarked popped
  have verdict : q.verdict env msg = some (msg.sendStatus env wqe (List.range msg.fragments)) := by
    simp [RxQp.verdict, isSend, popped]
  have past : q'.trace = q.trace := by
    obtain ⟨rest, -, rfl⟩ := popRecv_spec popped
    rfl
  rw [verdict, run, drained, direct]
  refine agree_send rfl past past copies (placeCopy_copies _ _ _ _) (fun fine => ?_) _ _
  obtain ⟨size, places⟩ := whole ((copyFails_perm _ arrival).trans fine)
  refine ⟨size.trans (copyBytes_perm _ arrival), fun layout memory => ?_⟩
  rw [places]
  exact after_placeCopy layout memory arrival wqe

theorem agree_noRecv (isSend : msg.op.isWrite = false) (popped : q.popRecv = none) :
    Agree (s.psn n) (q.verdict env msg) q.trace (q.buffered env now s n msg order)
      (q.inOrder env now' s n msg msg.fragments) := by
  have noImm : msg.op ≠ .rdmaWriteImm := fun op => by simp [op, SendOp.isWrite] at isSend
  have admitted : Admitted q msg := fun isWrite => by simp [isSend] at isWrite
  have positive := fragments_pos msg
  obtain ⟨started, last, run⟩ := buffered_complete now expecting room noImm admitted unmarked arrival
  have direct := inOrder_refused env now' isSend expecting unmarked popped (j := msg.fragments - 1) (by omega)
  rw [Nat.sub_add_cancel positive] at direct
  have verdict : q.verdict env msg = none := by
    simp [RxQp.verdict, isSend, popped]
  rw [verdict, run, drain_send_refused _ expecting started arrival isSend popped, direct]
  have answer : ∀ effect ∈ [Effect.ack s.srcQp q.qpNum (s.psn n) .rnr] ++ [.ack s.srcQp s.destQp (s.psn n) .rnr],
      effect.completed = none ∧ effect.isCopy = false := by
    simp [Effect.completed, Effect.isCopy]
  refine agree_refused rfl rfl rfl ?_ answer rfl
  simp [RxQp.refuseRnr, RxQp.sendAck, RxQp.note]

theorem agree_write_admitted (counted : q.rxReorderCount = q.rxReorder.length) (op : msg.op = .rdmaWrite)
    (writable : q.remoteWrite = true) (nonempty : msg.payload ≠ []) :
    Agree (s.psn n) (q.verdict env msg) q.trace (q.buffered env now s n msg order)
      (q.inOrder env now' s n msg msg.fragments) := by
  have isWrite : msg.op.isWrite = true := by
    rw [op]
    rfl
  have noImm : msg.op ≠ .rdmaWriteImm := fun imm => by simp [op] at imm
  obtain ⟨started, last, run⟩ := buffered_complete now expecting room noImm (fun _ => ⟨writable, nonempty⟩) unmarked
    arrival
  obtain ⟨written, drained, copies, whole⟩ := drain_write (env.timed (now last)) expecting started arrival op nonempty
  have verdict : q.verdict env msg = some (msg.writeStatus env) := by
    simp [RxQp.verdict, isWrite, writable, nonempty]
  rw [verdict, run, drained]
  cases fails : copyFails (msg.writeCopy env) (List.range msg.fragments) with
  | false =>
      obtain ⟨time, direct⟩ := inOrder_write now' op nonempty expecting writable unmarked fails
      have status : msg.writeStatus env = .success := by
        rw [Message.writeStatus, fails]
        rfl
      have ended : q.inOrder env now' s n msg msg.fragments = _ := direct
      rw [direct, ← status]
      have none : ∀ effect ∈ [], ∃ status, effect = Effect.reack s.srcQp s.destQp (s.psn n) status := by simp
      refine agree_write copies (writeCopy_copies _ _ _) none (fun _ κ _ layout memory => ?_) _ _
      rw [whole ((copyFails_perm _ arrival).trans fails)]
      exact after_writeCopy layout memory arrival
  | true =>
      have few := room.message
      rw [counted] at few
      obtain ⟨time, written', answers, direct, ⟨seen, rfl⟩, late⟩ := inOrder_broken now' op nonempty expecting writable
        unmarked few.le fails
      have status : msg.writeStatus env = .locProtErr := by
        rw [Message.writeStatus, fails]
        rfl
      rw [direct, ← status]
      exact agree_write copies (writeCopy_copies _ _ _) late (fun fine => by rw [fails] at fine; cases fine) _ _

end Paths

/-! ## A WRITE that is refused -/

section Denied

variable {now now' : Nat → Nat} (op : msg.op = .rdmaWrite) (denied : ¬(q.remoteWrite = true ∧ msg.payload ≠ []))
include op denied

def Stream.denial (s : Stream) (n : Nat) : Effect := .ack s.srcQp s.destQp (s.psn n) .error

theorem writeHeaderOk_denied {i : Nat} (bound : i < msg.fragments) :
    (writeHeaderOk (s.header n msg i) && q.remoteWrite) = false := by
  have isWrite : msg.op.isWrite = true := by
    rw [op]
    rfl
  have valid := writeHeaderOk_header s n msg bound isWrite
  cases writable : q.remoteWrite with
  | false => simp
  | true =>
      have empty : msg.payload = [] := by simpa [writable] using denied
      simp [valid, empty, op, SendOp.hasImm]

theorem handleFrame_denied {i : Nat} (bound : i < msg.fragments) :
    q.handleFrame env (s.dataFrame n msg i) = q.note (s.denial n) := by
  have refused := writeHeaderOk_denied op denied (s := s) (n := n) bound
  rw [handleFrame_isWrite (by rw [op]; rfl)]
  simp only [RxQp.handleRdmaWriteFragment, Stream.dataFrame, refused, Bool.not_false, if_true]
  rfl

theorem bufferFrame_denied {i : Nat} (bound : i < msg.fragments) :
    q.bufferFrame env (s.dataFrame n msg i) = q.note (s.denial n) := by
  have refused := writeHeaderOk_denied op denied (s := s) (n := n) bound
  simp only [RxQp.bufferFrame, Stream.dataFrame, header_opcode, op, SendOp.opcode, refused, Bool.not_false, if_true]
  rfl

theorem inOrder_denied {count : Nat} (bound : count ≤ msg.fragments) :
    q.inOrder env now s n msg count = { q with trace := List.replicate count (s.denial n) ++ q.trace } := by
  induction count with
  | zero => rfl
  | succ count ih =>
      set before : RxQp := { q with trace := List.replicate count (s.denial n) ++ q.trace }
      have denied' : ¬(before.remoteWrite = true ∧ msg.payload ≠ []) := denied
      rw [inOrder_succ, ih (by omega), handleFrame_denied op denied' bound]
      rfl

theorem buffered_denied (inside : ∀ i ∈ order, i < msg.fragments) :
    q.buffered env now s n msg order = { q with trace := List.replicate order.length (s.denial n) ++ q.trace } := by
  induction order generalizing q with
  | nil => rfl
  | cons i rest ih =>
      have step : q.buffered env now s n msg (i :: rest) =
          (q.note (s.denial n)).buffered env now s n msg rest := by
        rw [RxQp.buffered, List.foldl_cons, bufferFrame_denied op denied (inside i List.mem_cons_self)]
        rfl
      have denied' : ¬((q.note (s.denial n)).remoteWrite = true ∧ msg.payload ≠ []) := denied
      rw [step, ih denied' fun j member => inside j (List.mem_cons_of_mem i member), List.length_cons,
        List.replicate_succ']
      simp [RxQp.note]

theorem agree_denied (arrival : order.Perm (List.range msg.fragments)) :
    Agree (s.psn n) (q.verdict env msg) q.trace (q.buffered env now s n msg order)
      (q.inOrder env now' s n msg msg.fragments) := by
  have isWrite : msg.op.isWrite = true := by
    rw [op]
    rfl
  have total : order.length = msg.fragments := by rw [arrival.length_eq, List.length_range]
  have verdict : q.verdict env msg = none := by
    rw [RxQp.verdict, if_pos isWrite, if_neg denied]
  rw [verdict, inOrder_denied op denied (Nat.le_refl _), buffered_denied op denied fun i member =>
    List.mem_range.mp (arrival.mem_iff.mp member), total]
  refine agree_refused rfl rfl rfl rfl (fun effect member => ?_) rfl
  rw [← List.replicate_add] at member
  rw [(List.mem_replicate.mp member).2]
  exact ⟨rfl, rfl⟩

end Denied

/-! ## The RNR mark -/

theorem rnrMatches_clearRnr (q : RxQp) (srcQp psn : Nat) : (q.clearRnr srcQp psn).rnrMatches srcQp psn = false := by
  simp only [RxQp.clearRnr]
  split <;> rename_i marked
  · rfl
  · exact Bool.eq_false_iff.mpr marked

theorem clearRnr_remoteWrite (srcQp : Nat) : (q.clearRnr srcQp psn).remoteWrite = q.remoteWrite := by
  obtain ⟨rnr, eq⟩ := clearRnr_eq q srcQp psn
  rw [eq]

theorem clearRnr_striping (srcQp : Nat) (striping : Bool) :
    ({ q with striping } : RxQp).clearRnr srcQp psn = { q.clearRnr srcQp psn with striping } := by
  rw [RxQp.clearRnr, RxQp.clearRnr]
  change (if q.rnrMatches srcQp psn then _ else _) = _
  split <;> rfl

section Mark

variable {i : Nat} (admitted : Admitted q msg)
include admitted

theorem handleFrame_cleared (taken : q.rnrSuppresses (s.header n msg 0) = false) :
    q.handleFrame env (s.dataFrame n msg 0) =
      (q.clearRnr s.srcQp (s.psn n)).handleFrame env (s.dataFrame n msg 0) := by
  have bound := fragments_pos msg
  have cleared := rnrMatches_clearRnr q s.srcQp (s.psn n)
  have taken' : (q.clearRnr s.srcQp (s.psn n)).rnrSuppresses (s.header n msg 0) = false :=
    rnrSuppresses_unmarked (by simpa using cleared)
  have again := clearRnr_unmarked cleared
  cases isWrite : msg.op.isWrite with
  | false =>
      have valid := sendHeaderOk_header s n msg bound isWrite
      rw [handleFrame_isSend isWrite, handleFrame_isSend isWrite]
      simp only [RxQp.handleSendFragment, Stream.dataFrame, valid, taken, taken', header_srcQp, header_psn, s.psn_mod,
        again, Bool.not_true, Bool.false_eq_true, if_false]
  | true =>
      obtain ⟨writable, nonempty⟩ := admitted isWrite
      have valid : writeHeaderOk (s.header n msg 0) = true := by
        rw [writeHeaderOk_header s n msg bound isWrite]
        simp [nonempty]
      rw [handleFrame_isWrite isWrite, handleFrame_isWrite isWrite]
      simp only [RxQp.handleRdmaWriteFragment, Stream.dataFrame, valid, clearRnr_remoteWrite, writable, taken, taken',
        header_srcQp, header_psn, s.psn_mod, again, Bool.and_self, Bool.not_true, Bool.false_eq_true, if_false]

theorem bufferFrame_cleared (bound : i < msg.fragments) :
    q.bufferFrame env (s.dataFrame n msg i) =
      (q.clearRnr s.srcQp (s.psn n)).bufferFrame env (s.dataFrame n msg i) := by
  have again := clearRnr_unmarked (rnrMatches_clearRnr q s.srcQp (s.psn n))
  cases op : msg.op with
  | send | sendImm =>
      have valid := sendHeaderOk_header s n msg bound (by rw [op]; rfl)
      simp only [RxQp.bufferFrame, Stream.dataFrame, header_opcode, op, SendOp.opcode, valid, header_srcQp, header_psn,
        s.psn_mod, again, Bool.not_true, Bool.false_eq_true, if_false]
  | rdmaWrite | rdmaWriteImm =>
      have isWrite : msg.op.isWrite = true := by
        rw [op]
        rfl
      obtain ⟨writable, nonempty⟩ := admitted isWrite
      have valid : writeHeaderOk (s.header n msg i) = true := by
        rw [writeHeaderOk_header s n msg bound isWrite]
        simp [nonempty]
      simp only [RxQp.bufferFrame, Stream.dataFrame, header_opcode, op, SendOp.opcode, valid, writable, header_srcQp,
        header_psn, s.psn_mod, again, clearRnr_remoteWrite, Bool.and_self, Bool.not_true, Bool.false_eq_true, if_false]

variable {now : Nat → Nat}

theorem inOrder_cleared (env : RxEnv) (now : Nat → Nat) (taken : q.rnrSuppresses (s.header n msg 0) = false)
    (count : Nat) :
    q.inOrder env now s n msg (count + 1) =
      (q.clearRnr s.srcQp (s.psn n)).inOrder env now s n msg (count + 1) := by
  induction count with
  | zero => exact handleFrame_cleared admitted taken
  | succ count ih => rw [inOrder_succ (count + 1), ih, ← inOrder_succ]

theorem buffered_cleared (some : order ≠ []) (inside : ∀ i ∈ order, i < msg.fragments) :
    q.buffered env now s n msg order = (q.clearRnr s.srcQp (s.psn n)).buffered env now s n msg order := by
  cases order with
  | nil => exact absurd rfl some
  | cons i rest =>
      rw [RxQp.buffered, RxQp.buffered, List.foldl_cons, List.foldl_cons,
        bufferFrame_cleared admitted (inside i List.mem_cons_self)]

end Mark

/-! ## Every message -/

variable {now now' : Nat → Nat}

theorem verdict_map {f : RxQp → RxQp} (recvq : (f q).recvq = q.recvq) (closing : (f q).closing = q.closing)
    (remoteWrite : (f q).remoteWrite = q.remoteWrite)
    (frame : ∀ rest, ({ f q with recvq := rest } : RxQp) = f { q with recvq := rest }) :
    (f q).verdict env msg = q.verdict env msg := by
  rw [RxQp.verdict, RxQp.verdict, RxQp.popRecv_map recvq closing frame, remoteWrite, Option.map_map]
  rfl

theorem agree_unmarked (expecting : Expecting s n q) (room : Room q env msg)
    (counted : q.rxReorderCount = q.rxReorder.length) (unmarked : q.rnrMatches s.srcQp (s.psn n) = false)
    (noImm : msg.op ≠ .rdmaWriteImm) (admitted : Admitted q msg) (arrival : order.Perm (List.range msg.fragments)) :
    Agree (s.psn n) (q.verdict env msg) q.trace (q.buffered env now s n msg order)
      (q.inOrder env now' s n msg msg.fragments) := by
  cases isWrite : msg.op.isWrite with
  | false =>
      cases popped : q.popRecv with
      | none => exact agree_noRecv expecting room unmarked arrival isWrite popped
      | some taken => exact agree_taken expecting room unmarked arrival isWrite popped
  | true =>
      obtain ⟨writable, nonempty⟩ := admitted isWrite
      have op : msg.op = .rdmaWrite := by
        cases op : msg.op <;> simp_all [SendOp.isWrite]
      exact agree_write_admitted expecting room unmarked arrival counted op writable nonempty

theorem agree_striping (expecting : Expecting s n q) (unmarked : q.rnrMatches s.srcQp (s.psn n) = false)
    (isSend : msg.op.isWrite = false) :
    Agree (s.psn n) (q.verdict env msg) q.trace
      (({ q with striping := true } : RxQp).inOrder env now s n msg msg.fragments)
      (({ q with striping := false } : RxQp).inOrder env now' s n msg msg.fragments) := by
  have positive := fragments_pos msg
  have pop : ∀ striping, ({ q with striping } : RxQp).popRecv =
      q.popRecv.map fun popped => (popped.1, { popped.2 with striping }) := fun striping =>
    RxQp.popRecv_map (q := q) (f := fun q => { q with striping }) rfl rfl fun _ => rfl
  have expecting' : ∀ striping, Expecting s n { q with striping } := fun _ =>
    ⟨expecting.expected, expecting.noMsg, expecting.noWrite, expecting.ahead⟩
  cases popped : q.popRecv with
  | none =>
      have verdict : q.verdict env msg = none := by
        simp [RxQp.verdict, isSend, popped]
      have refused : ∀ striping now, ({ q with striping } : RxQp).inOrder env now s n msg msg.fragments =
          ({ q with striping } : RxQp).refuseRnr (s.header n msg 0) := fun striping now => by
        have first := inOrder_refused (j := msg.fragments - 1) env now isSend (expecting' striping) unmarked
          (by rw [pop, popped]; rfl) (by omega)
        rwa [Nat.sub_add_cancel positive] at first
      have answer : ∀ effect ∈ [Effect.ack s.srcQp s.destQp (s.psn n) .rnr] ++ [.ack s.srcQp s.destQp (s.psn n) .rnr],
          effect.completed = none ∧ effect.isCopy = false := by
        simp [Effect.completed, Effect.isCopy]
      rw [verdict, refused, refused]
      refine agree_refused rfl rfl ?_ ?_ answer rfl
      · simp [RxQp.refuseRnr, RxQp.sendAck, RxQp.note]
      · simp [RxQp.refuseRnr, RxQp.sendAck, RxQp.note]
  | some taken =>
      obtain ⟨wqe, q'⟩ := taken
      have verdict : q.verdict env msg = some (msg.sendStatus env wqe (List.range msg.fragments)) := by
        simp [RxQp.verdict, isSend, popped]
      have past : q'.trace = q.trace := by
        obtain ⟨rest, -, rfl⟩ := popRecv_spec popped
        rfl
      have took : ∀ striping, ({ q with striping } : RxQp).popRecv = some (wqe, { q' with striping }) :=
          fun striping => by
        rw [pop, popped]
        rfl
      obtain ⟨time, striped⟩ := inOrder_send env now isSend (expecting' true) unmarked (took true)
      obtain ⟨time', plain⟩ := inOrder_send env now' isSend (expecting' false) unmarked (took false)
      have copies := placeCopy_copies env wqe msg (List.range msg.fragments)
      rw [verdict, striped, plain]
      exact agree_send (a := { q' with striping := true }) (b := { q' with striping := false }) rfl past past
        copies copies
        (fun _ => ⟨rfl, fun _ _ => rfl⟩) time time'

/-! ## The fragments that the handler buffers -/

/-- Once a fragment of the message is in the buffer, the handler takes the others there. -/
theorem handleFrame_holding {i started : Nat} {seen : List Nat} (expecting : Expecting s n q)
    (unmarked : q.rnrMatches s.srcQp (s.psn n) = false) (noImm : msg.op ≠ .rdmaWriteImm) (admitted : Admitted q msg)
    (bound : i < msg.fragments) :
    (q.holding s n msg started seen).handleFrame env (s.dataFrame n msg i) =
      (q.holding s n msg started seen).bufferFrame env (s.dataFrame n msg i) := by
  set held := q.holding s n msg started seen
  have found : (held.reorderFind (s.psn n)).isSome = true := by
    rw [reorderFind_holding expecting]
    rfl
  have vacant : held.rxMsg = none := expecting.noMsg
  have vacant' : held.rxWrite = none := expecting.noWrite
  have delta : psnDelta (s.psn n) held.rxExpectedPsn = 0 := expecting.delta
  have expected : held.rxExpectedPsn = s.psn n := expecting.expected
  cases isWrite : msg.op.isWrite with
  | false =>
      have shape := rxFragmentShape_header s n msg bound
      rw [handleFrame_send (q := held) isWrite bound unmarked, bufferFrame_send (q := held) unmarked bound isWrite,
        ← bufferFragment_eq isWrite bound]
      split
      · simp [RxQp.handleStripedSend, Stream.dataFrame, isWrite, shape, delta, vacant, found]
      · simp [RxQp.handlePlainSend, Stream.dataFrame, vacant, found]
  | true =>
      obtain ⟨writable, nonempty⟩ := admitted isWrite
      have op : msg.op = .rdmaWrite := by
        cases op : msg.op <;> simp_all [SendOp.isWrite]
      have current : held.isDuplicate (s.psn n) = false := expecting.current
      rw [handleFrame_write (q := held) op nonempty writable unmarked env bound,
        bufferFrame_write (q := held) unmarked bound op nonempty writable, ← bufferWriteFragment_eq op bound, current,
        if_neg (by simp), vacant']
      simp [RxQp.handleIdleWrite, RxQp.deferWrite, Stream.dataFrame, expected, found, op, SendOp.opcode, SendOp.hasImm]

theorem buffered_append (early late : List Nat) :
    q.buffered env now s n msg (early ++ late) =
      (q.buffered env now s n msg early).buffered env now s n msg late := by
  rw [RxQp.buffered, List.foldl_append]
  rfl

theorem handled_of {early late : List Nat}
    (same : ∀ before i, before ++ [i] <+: early ++ late → early <+: before →
      (q.buffered env now s n msg before).handleFrame (env.timed (now i)) (s.dataFrame n msg i) =
        (q.buffered env now s n msg before).bufferFrame (env.timed (now i)) (s.dataFrame n msg i)) :
    (q.buffered env now s n msg early).handled env now s n msg late = q.buffered env now s n msg (early ++ late) := by
  induction late generalizing early with
  | nil =>
      rw [List.append_nil]
      rfl
  | cons i late ih =>
      rw [List.append_cons] at same ⊢
      have taken := same early i (List.prefix_append _ _) (List.prefix_refl early)
      rw [← ih fun before j part after => same before j part ((List.prefix_append early [i]).trans after),
        buffered_append]
      rw [RxQp.handled, List.foldl_cons, taken]
      rfl

theorem handled_eq (expecting : Expecting s n q) (room : Room q env msg)
    (unmarked : q.rnrMatches s.srcQp (s.psn n) = false) (noImm : msg.op ≠ .rdmaWriteImm) (admitted : Admitted q msg)
    {early late : List Nat} (some : early ≠ []) (once : (early ++ late).Nodup)
    (inside : ∀ i ∈ early ++ late, i < msg.fragments) :
    (q.buffered env now s n msg early).handled env now s n msg late = q.buffered env now s n msg (early ++ late) := by
  refine handled_of fun before i part after => ?_
  have first : (before ++ [i]).Nodup := once.sublist part.sublist
  have within : ∀ j ∈ before ++ [i], j < msg.fragments := fun j member => inside j (part.subset member)
  have few := (first.subperm fun j member => List.mem_range.mpr (within j member)).length_le
  rw [List.length_append, List.length_singleton, List.length_range] at few
  have begun : before ≠ [] := by
    rintro rfl
    exact some (List.prefix_nil.mp after)
  obtain ⟨started, waits⟩ := buffered_waits now expecting room noImm admitted unmarked begun
    (List.nodup_append.mp first).1 (fun j member => within j (List.mem_append_left _ member)) (by omega)
  rw [waits]
  exact handleFrame_holding expecting unmarked noImm admitted (within i (by simp))

theorem handled_denied (op : msg.op = .rdmaWrite) (denied : ¬(q.remoteWrite = true ∧ msg.payload ≠ []))
    {early late : List Nat} (inside : ∀ i ∈ early ++ late, i < msg.fragments) :
    (q.buffered env now s n msg early).handled env now s n msg late = q.buffered env now s n msg (early ++ late) := by
  refine handled_of fun before i part _ => ?_
  have within : ∀ j ∈ before ++ [i], j < msg.fragments := fun j member => inside j (part.subset member)
  have bound := within i (by simp)
  have denied' : ¬((q.buffered env now s n msg before).remoteWrite = true ∧ msg.payload ≠ []) := by
    rw [buffered_denied op denied fun j member => within j (List.mem_append_left _ member)]
    exact denied
  rw [handleFrame_denied op denied' bound, bufferFrame_denied op denied' bound]

theorem Inv.expecting {strict : Prop} {sent k clock : Nat} (inv : Inv s strict sent k clock q) (idle : q.idle = true)
    (new : q.reorderFind (s.psn k) = none) : Expecting s k q ∧ q.rxReorderCount = q.rxReorder.length := by
  simp only [RxQp.idle, Bool.and_eq_true, Option.isNone_iff_eq_none] at idle
  refine ⟨⟨inv.base.expected, idle.1, idle.2, fun other member => ?_⟩, inv.base.count⟩
  obtain ⟨n, lower, upper, buffered⟩ := inv.base.entries other member
  have absent := List.find?_eq_none.mp new other member
  rw [decide_eq_true_eq, buffered.psn] at absent
  have near := upper.trans_le (min_le_right _ _)
  have later : n ≠ k := fun same => absent (same ▸ rfl)
  simp only [maxQpWr] at near
  rw [buffered.psn, inv.base.expected, s.psnDelta_psn (by omega) (by omega)]
  omega

/-- The message at the expected PSN has one outcome: through the reorder buffer in any order, in order through the
handler, striped or not. Each fragment may come at any time, and once one is in the buffer the handler itself takes
the others there. -/
theorem buffered_eq_direct (s : Stream) (n : Nat) (msg : Message) (noImm : msg.op ≠ .rdmaWriteImm) (q : RxQp)
    (env : RxEnv) (now now' : Nat → Nat) (order : List Nat) (expecting : Expecting s n q)
    (counted : q.rxReorderCount = q.rxReorder.length) (taken : q.rnrSuppresses (s.header n msg 0) = false)
    (room : Room q env msg) (arrival : order.Perm (List.range msg.fragments)) :
    Agree (s.psn n) (q.verdict env msg) q.trace (q.buffered env now s n msg order)
        (q.inOrder env now' s n msg msg.fragments) ∧
      (msg.op.isWrite = false →
        Agree (s.psn n) (q.verdict env msg) q.trace
          (({ q with striping := true } : RxQp).inOrder env now s n msg msg.fragments)
          (({ q with striping := false } : RxQp).inOrder env now' s n msg msg.fragments)) ∧
      ∀ early late, early ++ late = order → early ≠ [] →
        (q.buffered env now s n msg early).handled env now s n msg late = q.buffered env now s n msg order := by
  have positive := fragments_pos msg
  obtain ⟨rnr, cleared⟩ := clearRnr_eq q s.srcQp (s.psn n)
  have unmarked := rnrMatches_clearRnr q s.srcQp (s.psn n)
  have verdict : ({ q with rnr } : RxQp).verdict env msg = q.verdict env msg :=
    verdict_map (q := q) (f := fun q => { q with rnr }) rfl rfl rfl fun _ => rfl
  rw [cleared] at unmarked
  have expecting' : Expecting s n { q with rnr } :=
    ⟨expecting.expected, expecting.noMsg, expecting.noWrite, expecting.ahead⟩
  have room' : Room { q with rnr } env msg := ⟨room.1, room.2, room.3, room.4⟩
  have some : order ≠ [] := by
    rintro rfl
    have total := arrival.length_eq
    rw [List.length_nil, List.length_range] at total
    omega
  have inside : ∀ i ∈ order, i < msg.fragments := fun i member => List.mem_range.mp (arrival.mem_iff.mp member)
  have isWrite : ¬Admitted q msg → msg.op = .rdmaWrite := fun denied => by
    by_contra op
    refine denied fun isWrite => ?_
    cases kind : msg.op <;> simp_all [SendOp.isWrite]
  refine ⟨?_, fun isSend => ?_, fun early late whole begun => ?_⟩
  · by_cases admitted : Admitted q msg
    · have run := inOrder_cleared admitted env now' taken (msg.fragments - 1)
      rw [Nat.sub_add_cancel positive] at run
      rw [buffered_cleared admitted some inside, run, cleared, ← verdict]
      exact agree_unmarked expecting' room' counted unmarked noImm admitted arrival
    · exact agree_denied (isWrite admitted) (fun writable => admitted fun _ => writable) arrival
  · have clears : ∀ striping now, ({ q with striping } : RxQp).inOrder env now s n msg msg.fragments =
        ({ q with rnr, striping } : RxQp).inOrder env now s n msg msg.fragments := fun striping now => by
      have admitted : Admitted { q with striping } msg := fun isWrite => by simp [isSend] at isWrite
      have run := inOrder_cleared admitted env now taken (msg.fragments - 1)
      rw [Nat.sub_add_cancel positive, clearRnr_striping, cleared] at run
      exact run
    rw [clears, clears, ← verdict]
    exact agree_striping expecting' unmarked isSend
  · subst whole
    by_cases admitted : Admitted q msg
    · rw [buffered_cleared admitted begun fun i member => inside i (List.mem_append_left late member),
        buffered_cleared admitted some inside, cleared]
      exact handled_eq expecting' room' unmarked noImm admitted begun (arrival.nodup_iff.mpr List.nodup_range) inside
    · exact handled_denied (isWrite admitted) (fun writable => admitted fun _ => writable) inside

theorem buffered_eq_direct_twoFragments :
    Agree (twoFragmentSends.psn 0) (some .success) []
      ((postedReceiver false).q.buffered (rxEnv largeRegion) id twoFragmentSends 0 twoFragments [1, 0])
      ((postedReceiver false).q.inOrder (rxEnv largeRegion) id twoFragmentSends 0 twoFragments 2) := by
  have count : twoFragments.fragments = 2 := by
    simp [Message.fragments, fragmentCount, twoFragments, length_longPayload, dataMaxPayload, dataFrameSize,
      dataHdrSize]
  have verdict : (postedReceiver false).q.verdict (rxEnv largeRegion) twoFragments = some .success := by decide +kernel
  have inv : Inv twoFragmentSends False 0 0 0 (postedReceiver false).q :=
    RxQp.Fresh.inv ⟨rfl, rfl, rfl, rfl, rfl, rfl, rfl, rfl, rfl⟩
  obtain ⟨expecting, counted⟩ := inv.expecting rfl rfl
  have room : Room (postedReceiver false).q (rxEnv largeRegion) twoFragments :=
    ⟨by decide, by decide +kernel, rfl, rfl⟩
  have arrival : [1, 0].Perm (List.range twoFragments.fragments) := by
    rw [count]
    decide
  have same := (buffered_eq_direct twoFragmentSends 0 twoFragments (by decide) (postedReceiver false).q
    (rxEnv largeRegion) id id [1, 0] expecting counted rfl room arrival).1
  rwa [verdict, count] at same

end ThunderboltVerbs.Receive
