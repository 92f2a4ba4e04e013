import ThunderboltVerbs.Driver.Qp

/-!
# What a flush reports

`tbv_qp_flush_error` and `tbv_destroy_qp` empty `apple_sq`, `pending_sends` and `pending_reads` one after the
other. The contexts of `apple_sq` are on `pending_sends` as well.
-/

namespace ThunderboltVerbs.Driver
open Proto Verbs

/-- `tbv_send_complete` or `tbv_read_complete` on a context. -/
structure Completion where
  addr : Nat
  read : Bool
  wrId : Nat
  signaled : Bool
  status : Option Errno
  deriving DecidableEq, Repr

def sendCompletion (entry : SendEntry) (status : Option Errno) : Completion :=
  { addr := entry.1, read := false, wrId := entry.2.wrId, signaled := entry.2.signaled, status }

def readCompletion (entry : ReadEntry) (status : Option Errno) : Completion :=
  { addr := entry.1, read := true, wrId := entry.2.wrId, signaled := entry.2.signaled, status }

/-- A node is on `pending_sends` once. -/
structure SendSide where
  qp : Qp
  appleSq : List Nat := []
  distinct : (qp.pendingSends.map Prod.fst).Nodup

/-- `tbv_qp_flush_apple_sq`. -/
def flushAppleSq : List Nat → Qp → Qp × List Completion
  | [], qp => (qp, [])
  | addr :: rest, qp =>
      match qp.pendingSends.find? fun entry => entry.1 = addr with
      | none => flushAppleSq rest qp
      | some entry =>
          let (flushed, completions) := flushAppleSq rest (qp.unqueueSend addr).1
          (flushed, sendCompletion entry (some .eCanceled) :: completions)

def flushSends (qp : Qp) : Qp × List Completion :=
  let (flushed, sends) := qp.flushSends
  (flushed, sends.map fun entry => sendCompletion entry entry.2.completionStatus)

def flushReads (qp : Qp) : Qp × List Completion :=
  let (flushed, reads) := qp.flushReads
  (flushed, reads.map fun entry => readCompletion entry (some .eCanceled))

namespace SendSide

def flush (side : SendSide) : Qp × List Completion :=
  let (qp, apples) := flushAppleSq side.appleSq side.qp
  let (qp, sends) := flushSends qp
  let (qp, reads) := flushReads qp
  (qp, apples ++ sends ++ reads)

/-- The send side of `tbv_destroy_qp`. -/
def destroy (side : SendSide) : Qp × List Completion :=
  { side with qp := { side.qp with closing := true } }.flush

end SendSide

/-! ## The outcome of a context -/

def outcome (ready : Bool) (status : Option Errno) : Option Errno := if ready then status else some .eCanceled

def sendOutcome (entry : SendEntry) : Completion :=
  sendCompletion entry (outcome entry.2.ready entry.2.completionStatus)

def readOutcome (entry : ReadEntry) : Completion :=
  readCompletion entry (outcome entry.2.ready entry.2.completionStatus)

def outcomes (qp : Qp) : List Completion := qp.pendingSends.map sendOutcome ++ qp.pendingReads.map readOutcome

theorem outcome_eq_canceled {ready : Bool} {status : Option Errno} :
    outcome ready status = some .eCanceled ↔ (ready = true → status = some .eCanceled) := by
  cases ready <;> simp [outcome]

theorem flushSends_outcomes (qp : Qp) : (flushSends qp).2 = qp.pendingSends.map sendOutcome := by
  simp only [flushSends, Qp.flushSends, List.map_map]
  apply List.map_congr_left
  intro entry _
  cases ready : entry.2.ready <;>
    simp [sendOutcome, sendCompletion, outcome, SendCtx.finish, SendCtx.leave, ready]

theorem flushReads_canceled (qp : Qp) :
    (flushReads qp).2 = qp.pendingReads.map fun entry => readCompletion entry (some .eCanceled) := by
  simp only [flushReads, Qp.flushReads, List.map_map]
  rfl

theorem flushSends_reads (qp : Qp) : (flushSends qp).1.pendingReads = qp.pendingReads := rfl

/-! ## The contexts of `apple_sq` -/

variable {qp : Qp} {addrs : List Nat}

theorem unqueueSend_pending (qp : Qp) (addr : Nat) :
    (qp.unqueueSend addr).1.pendingSends = (qp.pendingSends.eraseP fun entry => entry.1 = addr) ∧
      (qp.unqueueSend addr).1.pendingReads = qp.pendingReads := by
  unfold Qp.unqueueSend
  split
  · rename_i missing
    refine ⟨(List.eraseP_of_forall_not ?_).symm, rfl⟩
    simpa using missing
  · split <;> exact ⟨rfl, rfl⟩

/-- The contexts that `tbv_qp_flush_apple_sq` takes are the pending ones of the list. -/
theorem flushAppleSq_spec (addrs : List Nat) (distinct : (qp.pendingSends.map Prod.fst).Nodup) :
    ∃ taken, qp.pendingSends.Perm (taken ++ (flushAppleSq addrs qp).1.pendingSends) ∧
      (flushAppleSq addrs qp).1.pendingReads = qp.pendingReads ∧
      (flushAppleSq addrs qp).2 = taken.map (fun entry => sendCompletion entry (some .eCanceled)) ∧
      ∀ entry ∈ qp.pendingSends, entry ∈ taken ↔ entry.1 ∈ addrs := by
  induction addrs generalizing qp with
  | nil => exact ⟨[], .refl _, rfl, rfl, by simp⟩
  | cons addr rest ih =>
      simp only [flushAppleSq]
      split
      · rename_i missing
        have absent : ∀ entry ∈ qp.pendingSends, entry.1 ≠ addr := by simpa using missing
        obtain ⟨taken, perm, reads, completions, members⟩ := ih distinct
        refine ⟨taken, perm, reads, completions, fun entry pending => ?_⟩
        rw [members entry pending, List.mem_cons, or_iff_right (absent entry pending)]
      · rename_i found here
        obtain ⟨sends, sameReads⟩ := unqueueSend_pending qp addr
        have split := Lib.perm_eraseP_of_find? here
        have same : found.1 = addr := by simpa using List.find?_some here
        have keys := distinct
        rw [(split.map Prod.fst).nodup_iff, List.map_cons, List.nodup_cons] at keys
        obtain ⟨taken, perm, reads, completions, members⟩ := ih (sends ▸ keys.2)
        refine ⟨found :: taken, ?_, reads.trans sameReads, ?_, fun entry pending => ?_⟩
        · rw [sends] at perm
          exact split.trans (perm.cons found)
        · rw [completions, List.map_cons]
        · rw [List.mem_cons, List.mem_cons]
          rcases List.mem_cons.mp (split.mem_iff.mp pending) with rfl | other
          · simp [same]
          · have different : entry.1 ≠ addr := by
              intro equal
              have key : found.1 = entry.1 := same.trans equal.symm
              exact keys.1 (key ▸ List.mem_map_of_mem other)
            have unequal : entry ≠ found := fun equal => different (equal ▸ same)
            rw [members entry (sends ▸ other), or_iff_right different, or_iff_right unequal]

/-! ## Decided outcomes -/

/-- Every context is completed once, with its recorded status if it is ready and as flushed if not. -/
def Survives (side : SendSide) (completions : List Completion) : Prop := completions.Perm (outcomes side.qp)

theorem map_perm_map_iff_canceled {α : Type} (entries : List α) (completion : α → Option Errno → Completion)
    (status : α → Option Errno) (reads : ∀ entry status, (completion entry status).status = status) :
    (entries.map fun entry => completion entry (some .eCanceled)).Perm
        (entries.map fun entry => completion entry (status entry)) ↔
      ∀ entry ∈ entries, status entry = some .eCanceled := by
  constructor
  · intro perm entry member
    have inside := perm.mem_iff.mpr (List.mem_map_of_mem (f := fun entry => completion entry (status entry)) member)
    obtain ⟨other, -, same⟩ := List.mem_map.mp inside
    have statuses := congrArg Completion.status same
    rw [reads, reads] at statuses
    exact statuses.symm
  · intro canceled
    have equal : (entries.map fun entry => completion entry (some .eCanceled)) =
        entries.map fun entry => completion entry (status entry) := by
      apply List.map_congr_left
      intro entry member
      rw [canceled entry member]
    rw [equal]

theorem perm_append_iff_of_read {sends reads sends' reads' : List Completion}
    (send : ∀ each ∈ sends ++ sends', each.read = false) (read : ∀ each ∈ reads ++ reads', each.read = true) :
    (sends ++ reads).Perm (sends' ++ reads') ↔ sends.Perm sends' ∧ reads.Perm reads' := by
  have onlySends : ∀ part other : List Completion, part ⊆ sends ++ sends' → other ⊆ reads ++ reads' →
      (part ++ other).filter (fun each => !each.read) = part := by
    intro part other inside outside
    rw [List.filter_append, List.filter_eq_self.mpr fun each member => by simp [send each (inside member)],
      List.filter_eq_nil_iff.mpr fun each member => by simp [read each (outside member)], List.append_nil]
  have onlyReads : ∀ part other : List Completion, part ⊆ sends ++ sends' → other ⊆ reads ++ reads' →
      (part ++ other).filter (fun each => each.read) = other := by
    intro part other inside outside
    rw [List.filter_append, List.filter_eq_self.mpr fun each member => read each (outside member),
      List.filter_eq_nil_iff.mpr fun each member => by simp [send each (inside member)], List.nil_append]
  constructor
  · intro perm
    have sendPart := perm.filter fun each => !each.read
    have readPart := perm.filter fun each => each.read
    rw [onlySends _ _ (List.subset_append_left _ _) (List.subset_append_left _ _),
      onlySends _ _ (List.subset_append_right _ _) (List.subset_append_right _ _)] at sendPart
    rw [onlyReads _ _ (List.subset_append_left _ _) (List.subset_append_left _ _),
      onlyReads _ _ (List.subset_append_right _ _) (List.subset_append_right _ _)] at readPart
    exact ⟨sendPart, readPart⟩
  · rintro ⟨sendPart, readPart⟩
    exact sendPart.append readPart

theorem flush_survives_iff (side : SendSide) :
    Survives side side.flush.2 ↔
      (∀ entry ∈ side.qp.pendingReads, entry.2.ready = true → entry.2.completionStatus = some .eCanceled) ∧
        ∀ entry ∈ side.qp.pendingSends, entry.1 ∈ side.appleSq → entry.2.ready = true →
          entry.2.completionStatus = some .eCanceled := by
  obtain ⟨taken, perm, reads, completions, members⟩ := flushAppleSq_spec side.appleSq side.distinct
  have completed : side.flush.2 = (taken.map (fun entry => sendCompletion entry (some .eCanceled)) ++
      (flushAppleSq side.appleSq side.qp).1.pendingSends.map sendOutcome) ++
        side.qp.pendingReads.map fun entry => readCompletion entry (some .eCanceled) := by
    simp only [SendSide.flush]
    rw [flushReads_canceled, flushSends_outcomes, flushSends_reads, completions, reads]
  have wanted : (outcomes side.qp).Perm ((taken.map sendOutcome ++
      (flushAppleSq side.appleSq side.qp).1.pendingSends.map sendOutcome) ++
        side.qp.pendingReads.map readOutcome) := by
    rw [← List.map_append]
    exact (perm.map sendOutcome).append_right _
  have readsCanceled := map_perm_map_iff_canceled side.qp.pendingReads readCompletion
    (fun entry => outcome entry.2.ready entry.2.completionStatus) fun _ _ => rfl
  have sendsCanceled := map_perm_map_iff_canceled taken sendCompletion
    (fun entry => outcome entry.2.ready entry.2.completionStatus) fun _ _ => rfl
  rw [Survives, completed, wanted.congr_right, perm_append_iff_of_read, List.perm_append_right_iff]
  · rw [and_comm]
    refine and_congr (readsCanceled.trans ?_) (sendsCanceled.trans ?_)
    · simp only [outcome_eq_canceled]
    · simp only [outcome_eq_canceled]
      constructor
      · intro canceled entry pending queued
        exact canceled entry ((members entry pending).mpr queued)
      · intro canceled entry queued
        have pending := perm.mem_iff.mpr (List.mem_append_left _ queued)
        exact canceled entry pending ((members entry pending).mp queued)
  · simp only [List.mem_append, List.mem_map]
    rintro each ((⟨entry, -, rfl⟩ | ⟨entry, -, rfl⟩) | ⟨entry, -, rfl⟩ | ⟨entry, -, rfl⟩) <;> rfl
  · simp only [List.mem_append, List.mem_map]
    rintro each (⟨entry, -, rfl⟩ | ⟨entry, -, rfl⟩) <;> rfl

/-- Neither a flush nor the destruction of the queue pair looks at what is recorded for a READ, or for a send
that is still in `apple_sq`. -/
theorem decided_outcomes_survive_iff (side : SendSide) :
    (Survives side side.flush.2 ∧ Survives side side.destroy.2) ↔
      (∀ entry ∈ side.qp.pendingReads, entry.2.ready = true → entry.2.completionStatus = some .eCanceled) ∧
        ∀ entry ∈ side.qp.pendingSends, entry.1 ∈ side.appleSq → entry.2.ready = true →
          entry.2.completionStatus = some .eCanceled := by
  have closed := flush_survives_iff { side with qp := { side.qp with closing := true } }
  constructor
  · rintro ⟨survives, -⟩
    exact (flush_survives_iff side).mp survives
  · intro canceled
    exact ⟨(flush_survives_iff side).mpr canceled, closed.mpr canceled⟩

/-- The second READ has all its data and waits for the first. -/
def finishedBehind : SendSide where
  qp :=
    { state := .rts, refs := 1, qpNum := 5, destQpKnown := true, destQpNum := 6, retryCnt := 7, rnrRetry := 7
      maxSendWr := 4, sendPsn := 2, sendqCount := 2
      pendingReads :=
        [(100, { wrId := 1, psn := 0, totalLen := 8, segs := [], signaled := true, sqCounted := true }),
          (200, { wrId := 2, psn := 1, totalLen := 8, segs := [], signaled := true, sqCounted := true, ready := true
                  received := 8 })] }
  distinct := List.nodup_nil

theorem finished_read_flushed : ¬(Survives finishedBehind finishedBehind.flush.2 ∧
    Survives finishedBehind finishedBehind.destroy.2) := by
  rintro ⟨survives, -⟩
  have canceled := ((flush_survives_iff finishedBehind).mp survives).1
  have recorded := canceled _ (List.mem_cons_of_mem _ List.mem_cons_self) rfl
  exact absurd recorded (by decide)

/-! ## Native queue pairs -/

def Completion.response (completion : Completion) : Response :=
  if completion.read then .readDone completion.wrId completion.status
  else .sendDone completion.wrId completion.status

/-- `tbv_qp_flush_error` on a native queue pair first reports what is pending. -/
theorem flushError_reports (q : NativeQp) (env : Receive.RxEnv)
    (distinct : (q.tx.pendingSends.map Prod.fst).Nodup) :
    ∃ others, (q.flushError env).2 =
      (({ qp := q.tx, distinct } : SendSide).flush.2.filter Completion.signaled).map Completion.response ++
        others := by
  have reports : ∃ others, (q.flushError env).2 = (NativeQp.sendsDone q.tx.flushSends.2 ++
      NativeQp.readsDone q.tx.flushSends.1.flushReads.2 fun _ => some .eCanceled) ++ others :=
    ⟨_, List.append_assoc _ _ _⟩
  obtain ⟨others, same⟩ := reports
  refine ⟨others, same.trans (congrArg (· ++ others) ?_)⟩
  simp only [SendSide.flush, flushAppleSq, List.nil_append]
  rw [List.filter_append, List.map_append]
  congr 1
  · simp only [flushSends, NativeQp.sendsDone, List.filter_map, List.map_map]
    rfl
  · simp only [flushReads, flushSends, NativeQp.readsDone, List.filter_map, List.map_map]
    rfl

end ThunderboltVerbs.Driver
