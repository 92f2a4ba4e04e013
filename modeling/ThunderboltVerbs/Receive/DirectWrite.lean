import ThunderboltVerbs.Receive.Direct

/-!
# A WRITE in order

The first copy that fails ends the WRITE; the fragments after it are duplicates.
-/

namespace ThunderboltVerbs.Receive
open Proto Verbs Lib

variable {s : Stream} {n i j : Nat} {msg : Message} {q : RxQp} {env : RxEnv} {now : Nat → Nat}

def Message.writeStatus (msg : Message) (env : RxEnv) : WcStatus :=
  if copyFails (msg.writeCopy env) (List.range msg.fragments) then .locProtErr else .success

/-- The active WRITE after its first `j` fragments. -/
def Stream.writing (s : Stream) (n : Nat) (msg : Message) (now j : Nat) : RxWrite :=
  { RxWrite.start (s.header n msg 0) {} now with received := min (j * dataMaxPayload) msg.payload.length }

theorem writing_sameWrite (s : Stream) (n : Nat) (msg : Message) (i j started : Nat) :
    (s.writing n msg started j).sameWrite (s.header n msg i) = true := by
  rw [sameWrite_header]
  exact sameWrite_start (s := s) (n := n) (i := 0) msg {} started

theorem writing_received (bound : j < msg.fragments) (started : Nat) :
    (s.writing n msg started j).received = j * dataMaxPayload := by
  have inside := fragment_inside bound
  simp only [Stream.writing]
  omega

theorem writing_start (s : Stream) (n : Nat) (msg : Message) (started : Nat) :
    s.writing n msg started 0 = RxWrite.start (s.header n msg 0) {} started := by
  simp [Stream.writing, RxWrite.start]

/-- Fragment `j` is copied; the last one and a failed copy end the WRITE. -/
def RxQp.takeWrite (q : RxQp) (env : RxEnv) (s : Stream) (n : Nat) (msg : Message) (started j time : Nat) : RxQp :=
  match msg.writeCopy env j with
  | none => q.finishWrite (env.timed time) (s.writing n msg started j) .locProtErr
  | some copy =>
      let copied := { q with trace := copy.1 ++ q.trace }
      if j + 1 = msg.fragments then
        copied.finishWrite (env.timed time) (s.writing n msg started (j + 1)) .success
      else { copied with rxWrite := some (s.writing n msg started (j + 1)) }

/-- The WRITE is over. The acknowledgement goes out after the drain. -/
def RxQp.endWrite (q : RxQp) (env : RxEnv) (s : Stream) (n : Nat) (status : WcStatus) (effects : List Effect) : RxQp :=
  let consumed := ({ q with trace := effects ++ q.trace } : RxQp).consumePsn (s.psn n) (ackStatus status true)
  (consumed.drain env).sendAck s.srcQp q.qpNum (s.psn n) (ackStatus status true)

/-! ## The drain moves on -/

theorem expected_deliver (env : RxEnv) (stored : ReorderMsg) :
    (q.deliver env stored).1.rxExpectedPsn =
      if (q.deliver env stored).2 then psnNext stored.psn else q.rxExpectedPsn := by
  cases kind : stored.kind with
  | write =>
      simp only [RxQp.deliver, kind, RxQp.deliverWrite]
      split <;> rfl
  | readReq =>
      simp only [RxQp.deliver, kind, RxQp.deliverRead, RxQp.queueReadWork]
      split <;> rfl
  | send =>
      simp only [RxQp.deliver, kind, RxQp.deliverSend]
      split <;> rfl

/-- A turn of the drain consumes at most one request. -/
theorem expected_drainLoop (env : RxEnv) (turns : Nat) (expected : q.rxExpectedPsn = s.psn j) :
    ∃ moved ≤ turns, (RxQp.drainLoop env turns q).rxExpectedPsn = s.psn (j + moved) := by
  induction turns generalizing q j with
  | zero => exact ⟨0, le_refl _, expected⟩
  | succ turns ih =>
      have pruned : q.pruneStale.rxExpectedPsn = s.psn j := by
        rw [pruneStale_rxExpectedPsn, expected]
      have stays : ∃ moved ≤ turns + 1, q.pruneStale.rxExpectedPsn = s.psn (j + moved) :=
        ⟨0, Nat.zero_le _, pruned⟩
      simp only [RxQp.drainLoop]
      split
      · exact ⟨0, Nat.zero_le _, expected⟩
      split
      · exact stays
      · rename_i stored found
        have psn := (reorderFind_some found).2.trans pruned
        split
        · exact stays
        · have delivered := expected_deliver (q := q.pruneStale) env stored
          split <;> rename_i result <;> rw [result] at delivered
          · exact ⟨0, Nat.zero_le _, delivered.trans pruned⟩
          · rw [psn, if_pos rfl, s.psnNext_psn] at delivered
            obtain ⟨moved, few, reached⟩ := ih delivered
            exact ⟨moved + 1, by omega, by rw [reached, Nat.add_right_comm, Nat.add_assoc]⟩

theorem endWrite_remoteWrite (status : WcStatus) (effects : List Effect) (time : Nat) :
    (q.endWrite (env.timed time) s n status effects).remoteWrite = q.remoteWrite := by
  rw [RxQp.endWrite, RxQp.drain_bare]
  rfl

theorem endWrite_rnr (status : WcStatus) (effects : List Effect) (time : Nat) :
    (q.endWrite (env.timed time) s n status effects).rnr = q.rnr := by
  rw [RxQp.endWrite, RxQp.drain_bare]
  rfl

theorem endWrite_over (few : q.rxReorder.length ≤ reorderMaxMessages) (status : WcStatus) (effects : List Effect) :
    (q.endWrite env s n status effects).isDuplicate (s.psn n) = true := by
  obtain ⟨moved, le, reached⟩ := expected_drainLoop env (q.rxReorder.length + 1)
    (q := ({ q with trace := effects ++ q.trace } : RxQp).consumePsn (s.psn n) (ackStatus status true))
    (s.psnNext_psn n)
  have limit : reorderMaxMessages = 1024 := rfl
  have expected : (q.endWrite env s n status effects).rxExpectedPsn = s.psn (n + 1 + moved) := reached
  rw [s.isDuplicate_psn expected (by omega) (by omega)]
  exact decide_eq_true (by omega)

section Write

variable (op : msg.op = .rdmaWrite) (nonempty : msg.payload ≠ [])
include op

theorem finishWrite_writing (expected : q.rxExpectedPsn = s.psn n) (noWrite : q.rxWrite = none) (started : Nat)
    (rxWrite : Option RxWrite) (status : WcStatus) (effects : List Effect) :
    ({ q with rxWrite, trace := effects ++ q.trace } : RxQp).finishWrite env (s.writing n msg started j) status =
      q.endWrite env s n status effects := by
  have psn : (s.writing n msg started j).psn = s.psn n := s.psn_mod n
  have imm : (s.writing n msg started j).withImm = false := by
    simp [Stream.writing, RxWrite.start, op, SendOp.opcode]
  have due : ({ q with rxWrite, trace := effects ++ q.trace } : RxQp).rxExpectedPsn =
      (s.writing n msg started j).psn := expected.trans psn.symm
  rw [finishWrite_eq _ due]
  have cleared : q = { q with rxWrite := none } := by
    rw [← noWrite]
  rw [RxQp.endWrite, cleared]
  simp only [RxQp.advanceWrite, imm, psn]
  rfl

include nonempty

theorem recordWrite_writing (bound : j < msg.fragments) (started time : Nat) :
    q.recordWrite (env.timed time) (s.writing n msg started j) (j * dataMaxPayload) (msg.slice j)
      (s.header n msg j).isLast = q.takeWrite env s n msg started j time := by
  have filled := slice_ne_nil msg bound nonempty
  have last := header_isLast s n msg bound
  have size := received_succ bound
  have whole : min (j * dataMaxPayload) msg.payload.length = j * dataMaxPayload := by
    have inside := fragment_inside bound
    omega
  rw [whole] at size
  have copied := copyToRemote_copy (q := q) (env.timed time) msg.rkey msg.remoteAddr (j * dataMaxPayload) filled
  have timeless : Receive.writeCopy (env.timed time) msg.rkey msg.remoteAddr (j * dataMaxPayload) (msg.slice j) =
      msg.writeCopy env j := rfl
  have next : ({ s.writing n msg started j with received := j * dataMaxPayload + (msg.slice j).length } : RxWrite) =
      s.writing n msg started (j + 1) := by
    rw [size]
    rfl
  have rkey : (s.writing n msg started j).rkey = msg.rkey := by simp [Stream.writing, RxWrite.start, op, SendOp.isWrite]
  have remoteAddr : (s.writing n msg started j).remoteAddr = msg.remoteAddr := by
    simp [Stream.writing, RxWrite.start, op, SendOp.isWrite]
  simp only [RxQp.recordWrite, if_neg filled, next, RxQp.takeWrite, last, decide_eq_true_eq]
  rw [rkey, remoteAddr, copied, timeless]
  cases msg.writeCopy env j with
  | none => rfl
  | some copy => rfl

/-! ## The handler -/

omit op nonempty in
theorem handleFrame_isWrite (isWrite : msg.op.isWrite = true) :
    q.handleFrame env (s.dataFrame n msg i) = q.handleRdmaWriteFragment env (s.dataFrame n msg i) := by
  cases op : msg.op with
  | send | sendImm => simp [op, SendOp.isWrite] at isWrite
  | rdmaWrite | rdmaWriteImm => simp [RxQp.handleFrame, Stream.dataFrame, op, SendOp.opcode]

variable (writable : q.remoteWrite = true) (unmarked : q.rnrMatches s.srcQp (s.psn n) = false)
include writable unmarked

theorem handleFrame_write (env : RxEnv) (bound : i < msg.fragments) :
    q.handleFrame env (s.dataFrame n msg i) =
      if q.isDuplicate (s.psn n) then q.reackDuplicate s.srcQp s.destQp (s.psn n)
      else
        match q.rxWrite with
        | some write => q.handleActiveWrite env (s.dataFrame n msg i) write
        | none => q.handleIdleWrite env (s.dataFrame n msg i) := by
  have isWrite : msg.op.isWrite = true := by
    rw [op]
    rfl
  have valid := writeHeaderOk_header s n msg bound isWrite
  have taken : q.rnrSuppresses (s.header n msg i) = false := rnrSuppresses_unmarked (by simpa using unmarked)
  rw [handleFrame_isWrite isWrite]
  cases active : q.rxWrite with
  | none | some write =>
      simp only [RxQp.handleRdmaWriteFragment, Stream.dataFrame, valid, nonempty, writable, taken, ne_eq,
        not_false_eq_true, decide_true, Bool.or_true, Bool.and_self, Bool.not_true, Bool.false_eq_true, if_false,
        header_srcQp, header_destQp, header_psn, s.psn_mod, clearRnr_unmarked unmarked, active]

theorem handleFrame_writing (bound : j < msg.fragments) (expected : q.rxExpectedPsn = s.psn n) {started : Nat}
    (active : q.rxWrite = some (s.writing n msg started j)) (time : Nat) :
    q.handleFrame (env.timed time) (s.dataFrame n msg j) = q.takeWrite env s n msg started j time := by
  have current : q.isDuplicate (s.psn n) = false := by
    rw [s.isDuplicate_psn expected (by omega) (by omega)]
    simp
  have same := writing_sameWrite s n msg j j started
  have place := writing_received (s := s) (n := n) bound started
  rw [handleFrame_write op nonempty writable unmarked _ bound, current, if_neg (by simp), active,
    ← recordWrite_writing op nonempty bound]
  simp only [RxQp.handleActiveWrite, Stream.dataFrame, same, place, header_fragOffset, Bool.not_true,
    Bool.false_eq_true, if_false, lt_irrefl, gt_iff_lt]

theorem handleFrame_begins (expecting : Expecting s n q) (time : Nat) :
    q.handleFrame (env.timed time) (s.dataFrame n msg 0) = q.takeWrite env s n msg time 0 time := by
  have bound := fragments_pos msg
  have start := writing_start s n msg time
  rw [handleFrame_write op nonempty writable unmarked _ bound, expecting.current, if_neg (by simp), expecting.noWrite,
    ← recordWrite_writing op nonempty bound, start]
  simp [RxQp.handleIdleWrite, Stream.dataFrame, expecting.expected, expecting.notFound, op, SendOp.opcode, RxEnv.timed]

end Write

/-! ## A WRITE in order -/

section Run

variable (op : msg.op = .rdmaWrite) (nonempty : msg.payload ≠ []) (expecting : Expecting s n q)
include op expecting

theorem takeWrite_fails (started time : Nat) (rxWrite : Option RxWrite) (effects : List Effect)
    (fails : msg.writeCopy env j = none) :
    ({ q with rxWrite, trace := effects ++ q.trace } : RxQp).takeWrite env s n msg started j time =
      q.endWrite (env.timed time) s n .locProtErr effects := by
  simp only [RxQp.takeWrite, fails]
  exact finishWrite_writing op expecting.expected expecting.noWrite started rxWrite _ effects

omit op expecting in
theorem takeWrite_more (started time : Nat) (rxWrite : Option RxWrite) (more : j + 1 ≠ msg.fragments)
    (fine : msg.writeCopy env j ≠ none) :
    ({ q with rxWrite, trace := copyEffects (msg.writeCopy env) (List.range j) ++ q.trace } : RxQp).takeWrite env s n
        msg started j time =
      { q with
        rxWrite := some (s.writing n msg started (j + 1))
        trace := copyEffects (msg.writeCopy env) (List.range (j + 1)) ++ q.trace } := by
  obtain ⟨copy, copied⟩ := Option.ne_none_iff_exists'.mp fine
  simp only [RxQp.takeWrite, copied, if_neg more, List.range_succ, copyEffects_snoc, List.append_assoc]
  rfl

theorem takeWrite_last (started time : Nat) (rxWrite : Option RxWrite) (last : j + 1 = msg.fragments)
    (fine : msg.writeCopy env j ≠ none) :
    ({ q with rxWrite, trace := copyEffects (msg.writeCopy env) (List.range j) ++ q.trace } : RxQp).takeWrite env s n
        msg started j time =
      q.endWrite (env.timed time) s n .success (copyEffects (msg.writeCopy env) (List.range msg.fragments)) := by
  obtain ⟨copy, copied⟩ := Option.ne_none_iff_exists'.mp fine
  rw [← last, List.range_succ, copyEffects_snoc,
    ← finishWrite_writing op expecting.expected expecting.noWrite started rxWrite (j := j + 1)]
  simp only [RxQp.takeWrite, copied, if_pos last, List.append_assoc]
  rfl

variable (writable : q.remoteWrite = true) (unmarked : q.rnrMatches s.srcQp (s.psn n) = false)
include nonempty writable unmarked

variable (now)

theorem inOrder_takeWrite (bound : j < msg.fragments) (fine : copyFails (msg.writeCopy env) (List.range j) = false) :
    ∃ rxWrite, q.inOrder env now s n msg (j + 1) =
      ({ q with rxWrite, trace := copyEffects (msg.writeCopy env) (List.range j) ++ q.trace } : RxQp).takeWrite env s
        n msg (now 0) j (now j) := by
  induction j with
  | zero => exact ⟨q.rxWrite, handleFrame_begins op nonempty writable unmarked expecting (now 0)⟩
  | succ j ih =>
      rw [copyFails_range_succ, Bool.or_eq_false_iff, Option.isNone_eq_false_iff, Option.isSome_iff_ne_none] at fine
      obtain ⟨rxWrite, before⟩ := ih (by omega) fine.1
      refine ⟨some (s.writing n msg (now 0) (j + 1)), ?_⟩
      rw [inOrder_succ, before, takeWrite_more (now 0) (now j) rxWrite (by omega) fine.2]
      set written : RxQp :=
        { q with
          rxWrite := some (s.writing n msg (now 0) (j + 1))
          trace := copyEffects (msg.writeCopy env) (List.range (j + 1)) ++ q.trace }
      exact handleFrame_writing (q := written) op nonempty writable unmarked bound expecting.expected rfl _

theorem inOrder_write (whole : copyFails (msg.writeCopy env) (List.range msg.fragments) = false) :
    ∃ time, q.inOrder env now s n msg msg.fragments =
      q.endWrite (env.timed time) s n .success (copyEffects (msg.writeCopy env) (List.range msg.fragments)) := by
  have positive := fragments_pos msg
  obtain ⟨last, count⟩ : ∃ last, last + 1 = msg.fragments := ⟨msg.fragments - 1, by omega⟩
  have fine := whole
  rw [← count, copyFails_range_succ, Bool.or_eq_false_iff, Option.isNone_eq_false_iff,
    Option.isSome_iff_ne_none] at fine
  obtain ⟨rxWrite, taken⟩ := inOrder_takeWrite now op nonempty expecting writable unmarked (j := last)
    (by omega) fine.1
  rw [count] at taken
  exact ⟨now last, taken.trans (takeWrite_last op expecting _ _ _ count fine.2)⟩

omit expecting writable unmarked in
/-- The fragments after the one that ended the WRITE are answered as duplicates. -/
theorem inOrder_behind {r : RxQp} (ended : q.inOrder env now s n msg (j + 1) = r)
    (behind : r.isDuplicate (s.psn n) = true) (writable : r.remoteWrite = true)
    (unmarked : r.rnrMatches s.srcQp (s.psn n) = false) (count : Nat) (bound : j + 1 + count ≤ msg.fragments) :
    ∃ answers, q.inOrder env now s n msg (j + 1 + count) = { r with trace := answers ++ r.trace } ∧
      ∀ effect ∈ answers, ∃ status, effect = .reack s.srcQp s.destQp (s.psn n) status := by
  induction count with
  | zero => exact ⟨[], ended, by simp⟩
  | succ count ih =>
      obtain ⟨answers, before, each⟩ := ih (by omega)
      set answered : RxQp := { r with trace := answers ++ r.trace }
      have duplicate : answered.isDuplicate (s.psn n) = true := behind
      have answer := handleFrame_write (q := answered) (i := j + 1 + count) op nonempty writable unmarked
        (env.timed (now (j + 1 + count))) (by omega)
      rw [if_pos duplicate] at answer
      rw [← Nat.add_assoc, inOrder_succ, before, answer]
      refine ⟨.reack s.srcQp s.destQp (s.psn n) ((answered.ackHistoryLookup (s.psn n)).getD .ok) :: answers, rfl, ?_⟩
      intro effect member
      rcases List.mem_cons.mp member with rfl | old
      · exact ⟨_, rfl⟩
      · exact each effect old

theorem inOrder_broken (few : q.rxReorder.length ≤ reorderMaxMessages)
    (fails : copyFails (msg.writeCopy env) (List.range msg.fragments) = true) :
    ∃ time written answers, q.inOrder env now s n msg msg.fragments =
        { q.endWrite (env.timed time) s n .locProtErr written with
          trace := answers ++ (q.endWrite (env.timed time) s n .locProtErr written).trace } ∧
      (∃ order, written = copyEffects (msg.writeCopy env) order) ∧
      ∀ effect ∈ answers, ∃ status, effect = .reack s.srcQp s.destQp (s.psn n) status := by
  obtain ⟨j, bound, fine, broken⟩ := copyFails_first fails
  obtain ⟨rxWrite, taken⟩ := inOrder_takeWrite now op nonempty expecting writable unmarked bound fine
  rw [takeWrite_fails op expecting _ _ _ _ broken] at taken
  have clear : (q.endWrite (env.timed (now j)) s n .locProtErr
      (copyEffects (msg.writeCopy env) (List.range j))).rnrMatches s.srcQp (s.psn n) = false := by
    rw [RxQp.rnrMatches, endWrite_rnr]
    exact unmarked
  obtain ⟨answers, run, each⟩ := inOrder_behind now op nonempty taken (endWrite_over few _ _)
    ((endWrite_remoteWrite _ _ _).trans writable) clear (msg.fragments - (j + 1)) (by omega)
  rw [Nat.add_sub_cancel' bound] at run
  exact ⟨now j, _, answers, run, ⟨List.range j, rfl⟩, each⟩

end Run

end ThunderboltVerbs.Receive
