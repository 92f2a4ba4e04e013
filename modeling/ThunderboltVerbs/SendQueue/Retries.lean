import ThunderboltVerbs.SendQueue.Sections

/-!
# How often a send is posted again (`kernel/ibdev.c`)

`tbv_qp_timeout_work` is one work item, so that its runs follow one another. It chooses the contexts to
retry under the lock of the queue pair, posts the frames of each without the lock, and counts the retry under
the lock again. Acknowledgements, transmit completions, other posts and errors come in between.
-/

namespace ThunderboltVerbs.SendQueue
open Proto Lib Verbs

/-! ## The timeout work -/

/-- What the statements know of a context: the attributes of the queue pair when it was posted, and how often
its frames were posted again with success. -/
structure Tried where
  retryCnt : Nat := 0
  rnrRetry : Nat := 0
  timeouts : Nat := 0
  rnrs : Nat := 0
  deriving DecidableEq, Repr

/-- Where the timeout work is; `rest` are the contexts that are left on `retry_sends`. -/
inductive RetryWork
  | idle
  | retrying (rest : List Nat)
  | posting (addr : Nat) (reason : PostReason) (rest : List Nat)
  | posted (addr : Nat) (reason : PostReason) (ret : Option Errno) (rest : List Nat)
  deriving DecidableEq, Repr

/-- The contexts of which a retry is in progress. -/
def RetryWork.held : RetryWork → List Nat
  | .idle => []
  | .retrying rest => rest
  | .posting addr _ rest | .posted addr _ _ rest => addr :: rest

structure Retrier where
  qp : Qp
  work : RetryWork := .idle
  tried : Nat → Tried := fun _ => {}

def Tried.count (tried : Tried) (reason : PostReason) : Tried :=
  if reason = .retryRnr then { tried with rnrs := tried.rnrs + 1 } else { tried with timeouts := tried.timeouts + 1 }

/-- A queue pair that is closing or in error stays so. -/
inductive RetryAction
  | post (addr : Nat) (op : SendOp) (wr : SendWr) (segs : List Segment) (totalLen : Nat)
  | unqueue (addr : Nat)
  | setAttr (retryCnt rnrRetry : Nat)
  | setState (state : QpState)
  | close
  | setCredits (credits : Nat)
  | enqueue (addr frames : Nat)
  | release (addr frames : Nat)
  | packetDone (addr : Nat) (sent : Bool) (now : Nat)
  | complete (psn : Nat) (status : Option Errno)
  | rnrAck (psn now : Nat)
  | flush
  | timeout (clock : Qp.Clock)
  | check
  | posted (ret : Option Errno)
  | settle (now : Nat)
  | finish
  deriving DecidableEq, Repr

namespace Retrier

def isPending (s : Retrier) (addr : Nat) : Bool := s.qp.pendingSends.any fun entry => entry.1 = addr

def updateSend (s : Retrier) (addr : Nat) (f : SendCtx → SendCtx) : Retrier :=
  { s with qp := s.qp.updateSend (fun entry => entry.1 = addr) f }

def post (s : Retrier) (addr : Nat) (op : SendOp) (wr : SendWr) (segs : List Segment) (totalLen : Nat) : Retrier :=
  let send := newSend s.qp op wr segs totalLen
  { s with
    qp := s.qp.takePsn.1.queueSend addr { send with msg := { send.msg with psn := s.qp.takePsn.2 }, sqCounted := true }
    tried := Function.update s.tried addr { retryCnt := s.qp.retryCnt, rnrRetry := s.qp.rnrRetry } }

/-- `tbv_qp_send_retry_pending` for the next context of `retry_sends`. -/
def check (s : Retrier) (addr : Nat) (rest : List Nat) : Retrier :=
  match s.qp.pendingSends.find? fun entry => entry.1 = addr with
  | none => { s with work := .retrying rest }
  | some (_, send) =>
      if !s.qp.closing && s.qp.state ≠ .err && !send.rnrWaiting && send.txPending = 0 then
        { s with work := .posting addr send.retryReason rest }
      else { s.updateSend addr fun send => { send with retrying := false } with work := .retrying rest }

def step (s : Retrier) : RetryAction → Option Retrier
  | .post addr op wr segs totalLen =>
      if s.isPending addr || s.work.held.contains addr then none else some (s.post addr op wr segs totalLen)
  | .unqueue addr => some { s with qp := (s.qp.unqueueSend addr).1 }
  | .setAttr retryCnt rnrRetry => some { s with qp := { s.qp with retryCnt, rnrRetry } }
  | .setState state => if s.qp.state = .err then none else some { s with qp := { s.qp with state } }
  | .close => some { s with qp := { s.qp with closing := true } }
  | .setCredits credits => some { s with qp := { s.qp with remoteRecvCredits := credits } }
  | .enqueue addr frames => some (s.updateSend addr fun send => { send with txPending := send.txPending + frames })
  | .release addr frames => some (s.updateSend addr fun send => { send with txPending := send.txPending - frames })
  | .packetDone addr sent now => some (s.updateSend addr fun send => send.packetDone sent now)
  | .complete psn status => some { s with qp := (s.qp.completeSendOrdered psn status).1 }
  | .rnrAck psn now => some { s with qp := (s.qp.noteRnrAck psn now).1 }
  | .flush => some { s with qp := s.qp.flushSends.1 }
  | .timeout clock =>
      if s.work = .idle then
        let retries := retrySends (s.qp.reapEnv clock) s.qp.remoteRecvCredits s.qp.pendingSends
        some { s with qp := (s.qp.timeoutReapSends clock).1, work := .retrying (retries.map Prod.fst) }
      else none
  | .check =>
      match s.work with
      | .retrying (addr :: rest) => some (s.check addr rest)
      | _ => none
  | .posted ret =>
      match s.work with
      | .posting addr reason rest =>
          some { s with
            work := .posted addr reason ret rest
            tried := if ret.isNone then Function.update s.tried addr ((s.tried addr).count reason) else s.tried }
      | _ => none
  | .settle now =>
      match s.work with
      | .posted addr reason ret rest =>
          let qp := if s.isPending addr then (s.qp.retried addr reason ret now).1 else s.qp
          some { s with qp, work := .retrying rest }
      | _ => none
  | .finish => if s.work = .retrying [] then some { s with work := .idle } else none

end Retrier

def retrySystem : System Retrier RetryAction where
  init s := s.qp.pendingSends = [] ∧ s.work = .idle ∧ s.tried = fun _ => {}
  step := Retrier.step

/-! ## Budgets -/

/-- The part of a context that decides about its retries. -/
structure Budget where
  addr : Nat
  retries : Nat
  rnrRetries : Nat
  maxRetries : Nat
  maxRnrRetries : Nat
  reason : PostReason

def budget (entry : SendEntry) : Budget where
  addr := entry.1
  retries := entry.2.retries
  rnrRetries := entry.2.rnrRetries
  maxRetries := entry.2.maxRetries
  maxRnrRetries := entry.2.maxRnrRetries
  reason := entry.2.retryReason

def budgets (qp : Qp) : List Budget := qp.pendingSends.map budget

def Tried.maxRetries (tried : Tried) : Nat := min tried.retryCnt maxSendRetries

def Tried.maxRnrRetries (tried : Tried) : Nat :=
  if tried.rnrRetry % 8 = 7 then rnrRetriesInfinite else tried.rnrRetry % 8

/-- The counter of this kind of retry leaves room for one more. -/
structure Budget.Open (b : Budget) : Prop where
  rnr : b.reason = .retryRnr → b.maxRnrRetries ≠ rnrRetriesInfinite → b.rnrRetries < b.maxRnrRetries
  timeout : b.reason ≠ .retryRnr → b.retries < b.maxRetries

structure Tried.Open (tried : Tried) (reason : PostReason) : Prop where
  rnr : reason = .retryRnr → tried.maxRnrRetries ≠ rnrRetriesInfinite → tried.rnrs < tried.maxRnrRetries
  timeout : reason ≠ .retryRnr → tried.timeouts < tried.maxRetries

structure Tried.Bounded (tried : Tried) : Prop where
  timeouts : tried.timeouts ≤ tried.maxRetries
  rnrs : tried.maxRnrRetries ≠ rnrRetriesInfinite → tried.rnrs ≤ tried.maxRnrRetries

/-- The counters of a bounded context do not reach the end of a byte. -/
theorem Tried.Bounded.timeouts_le {tried : Tried} (bounded : tried.Bounded) : tried.timeouts ≤ 255 := by
  have most : tried.maxRetries ≤ 7 := Nat.min_le_right _ _
  exact bounded.timeouts.trans (most.trans (by decide))

theorem Tried.Bounded.rnrs_le {tried : Tried} (bounded : tried.Bounded)
    (finite : tried.maxRnrRetries ≠ rnrRetriesInfinite) : tried.rnrs ≤ 255 := by
  have below := bounded.rnrs finite
  simp only [Tried.maxRnrRetries] at below finite
  split at below
  · exact below
  · omega

structure Budget.Of (b : Budget) (tried : Tried) : Prop where
  maxRetries : b.maxRetries = tried.maxRetries
  maxRnrRetries : b.maxRnrRetries = tried.maxRnrRetries
  retries : b.retries ≤ 255
  rnrRetries : b.rnrRetries ≤ 255

/-- A retry that was posted and is not counted yet. -/
def RetryWork.owes (work : RetryWork) (addr : Nat) (rnr : Bool) : Nat :=
  match work with
  | .posted own reason none _ => if own = addr ∧ decide (reason = .retryRnr) = rnr then 1 else 0
  | _ => 0

theorem owes_of_ne {addr own : Nat} {reason : PostReason} {ret : Option Errno} {rest : List Nat} {rnr : Bool}
    (differs : addr ≠ own) : (RetryWork.posted own reason ret rest).owes addr rnr = 0 := by
  cases ret with
  | none => simp [RetryWork.owes, Ne.symm differs]
  | some error => rfl

structure Budget.Covers (b : Budget) (tried : Tried) (timeout rnr : Nat) : Prop where
  timeouts : tried.timeouts ≤ b.retries + timeout
  rnrs : tried.maxRnrRetries ≠ rnrRetriesInfinite → tried.rnrs ≤ b.rnrRetries + rnr

/-- The contexts that are chosen and not posted yet. -/
def RetryWork.chosen : RetryWork → List Nat
  | .retrying rest | .posting _ _ rest | .posted _ _ _ rest => rest
  | .idle => []

theorem RetryWork.chosen_sublist (work : RetryWork) : work.chosen.Sublist work.held := by
  cases work with
  | idle | retrying => exact List.Sublist.refl _
  | posting | posted => exact List.sublist_cons_self _ _

structure Retrier.Inv (s : Retrier) : Prop where
  distinct : ((budgets s.qp).map Budget.addr).Nodup
  held : s.work.held.Nodup
  bounded : ∀ addr, (s.tried addr).Bounded
  known : ∀ b ∈ budgets s.qp, b.Of (s.tried b.addr)
  covers : s.qp.closing = false → s.qp.state ≠ .err → ∀ b ∈ budgets s.qp,
    b.Covers (s.tried b.addr) (s.work.owes b.addr false) (s.work.owes b.addr true)
  chosen : ∀ b ∈ budgets s.qp, b.addr ∈ s.work.chosen → b.Open
  posting : ∀ addr reason rest, s.work = .posting addr reason rest → (s.tried addr).Open reason

theorem Tried.Open.count {tried : Tried} {reason : PostReason} (room : tried.Open reason) (bounded : tried.Bounded) :
    (tried.count reason).Bounded := by
  simp only [Tried.count]
  split <;> rename_i rnr
  · exact ⟨bounded.timeouts, room.rnr rnr⟩
  · exact ⟨room.timeout rnr, bounded.rnrs⟩

theorem Budget.Covers.count {b : Budget} {tried : Tried} (covers : b.Covers tried 0 0) (reason : PostReason) :
    b.Covers (tried.count reason) (if decide (reason = .retryRnr) = false then 1 else 0)
      (if decide (reason = .retryRnr) = true then 1 else 0) := by
  obtain ⟨timeouts, rnrs⟩ := covers
  simp only [Tried.count]
  by_cases rnr : reason = .retryRnr
  · simp only [rnr, if_true, decide_true, Bool.true_eq_false, if_false]
    exact ⟨timeouts, fun finite => Nat.succ_le_succ (rnrs finite)⟩
  · simp only [rnr, if_false, decide_false, if_true, Bool.false_eq_true]
    exact ⟨Nat.succ_le_succ timeouts, rnrs⟩

/-! ## Steps that leave the budgets alone -/

def Kept (qp qp' : Qp) : Prop := (budgets qp').Sublist (budgets qp)

variable {qp qp' : Qp} {s s' : Retrier}

theorem kept_updateSend {which : SendEntry → Bool} {f : SendCtx → SendCtx}
    (same : ∀ entry : SendEntry, budget (entry.1, f entry.2) = budget entry) :
    Kept qp (qp.updateSend which f) := by
  have equal : budgets (qp.updateSend which f) = budgets qp := map_updateFirst same
  rw [Kept, equal]

theorem Kept.drain (kept : Kept qp qp') : Kept qp qp'.drainReadySends.1 :=
  ((List.dropWhile_sublist _).map budget).trans kept

theorem budget_finish (entry : SendEntry) (status : Option Errno) :
    budget (entry.1, entry.2.finish status) = budget entry := by
  simp only [SendCtx.finish]
  split <;> rfl

theorem kept_completeSendOrdered (psn : Nat) (status : Option Errno) :
    Kept qp (qp.completeSendOrdered psn status).1 := by
  simp only [Qp.completeSendOrdered]
  split
  · exact (kept_updateSend fun entry => budget_finish entry status).drain
  · exact List.Sublist.refl _

theorem kept_noteRnrAck (psn now : Nat) : Kept qp (qp.noteRnrAck psn now).1 := by
  simp only [Qp.noteRnrAck]
  split
  · exact List.Sublist.refl _
  · split
    · exact (kept_updateSend fun entry => budget_finish entry _).drain
    · exact kept_updateSend fun entry => rfl

theorem kept_unqueueSend (addr : Nat) : Kept qp (qp.unqueueSend addr).1 := by
  simp only [Qp.unqueueSend]
  split
  · exact List.Sublist.refl _
  · split <;> exact List.eraseP_sublist.map budget

theorem Retrier.Inv.quiet (inv : s.Inv) (kept : Kept s.qp s'.qp) (work : s'.work = s.work) (tried : s'.tried = s.tried)
    (closing : s'.qp.closing = false → s.qp.closing = false) (state : s'.qp.state ≠ .err → s.qp.state ≠ .err) :
    s'.Inv := by
  refine ⟨inv.distinct.sublist (kept.map _), ?_, ?_, ?_, ?_, ?_, ?_⟩
  · rw [work]
    exact inv.held
  · rw [tried]
    exact inv.bounded
  · rw [tried]
    exact fun b member => inv.known b (kept.subset member)
  · rw [work, tried]
    exact fun open_ live b member => inv.covers (closing open_) (state live) b (kept.subset member)
  · rw [work]
    exact fun b member => inv.chosen b (kept.subset member)
  · rw [work, tried]
    exact inv.posting

/-! ## The walk -/

/-- The budget is another one's, but for the reason of the retry. -/
structure Budget.Counts (b old : Budget) : Prop where
  addr : b.addr = old.addr
  retries : b.retries = old.retries
  rnrRetries : b.rnrRetries = old.rnrRetries
  maxRetries : b.maxRetries = old.maxRetries
  maxRnrRetries : b.maxRnrRetries = old.maxRnrRetries

theorem Budget.Counts.of_eq {b old : Budget} (same : b = old) : b.Counts old := by
  subst same
  exact ⟨rfl, rfl, rfl, rfl, rfl⟩

theorem counts_visitSend (env : ReapEnv) (credits : Nat) (entry : SendEntry) :
    (budget (entry.1, (Qp.visitSend env credits entry.2).1)).Counts (budget entry) := by
  simp only [Qp.visitSend]
  split
  · exact .of_eq rfl
  · exact ⟨rfl, rfl, rfl, rfl, rfl⟩
  · exact ⟨rfl, rfl, rfl, rfl, rfl⟩
  · exact .of_eq (budget_finish entry _)

theorem judge_retryTimeout {env : ReapEnv} {credits : Nat} {send : SendCtx}
    (verdict : judge env credits send = .retryTimeout) : send.retries < send.maxRetries := by
  simp only [judge] at verdict
  split at verdict
  · cases verdict
  split at verdict
  · split at verdict
    · cases verdict
    split at verdict
    · cases verdict
    split at verdict <;> cases verdict
  split at verdict
  · cases verdict
  split at verdict
  · cases verdict
  split at verdict
  · cases verdict
  split at verdict
  · rename_i chosen
    simp only [Bool.and_eq_true, decide_eq_true_eq] at chosen
    exact chosen.1.1.2
  · cases verdict

theorem judge_retryRnr {env : ReapEnv} {credits : Nat} {send : SendCtx} {useCredit : Bool}
    (verdict : judge env credits send = .retryRnr useCredit) : send.rnrRetryAllowed = true := by
  simp only [judge] at verdict
  split at verdict
  · cases verdict
  split at verdict
  · split at verdict
    · cases verdict
    split at verdict
    · cases verdict
    split at verdict
    · rename_i chosen
      simp only [Bool.and_eq_true] at chosen
      exact chosen.1.1.2
    · cases verdict
  split at verdict
  · cases verdict
  split at verdict
  · cases verdict
  split at verdict
  · cases verdict
  split at verdict <;> cases verdict

theorem notMem_retrySends {env : ReapEnv} {credits addr : Nat} {entries : List SendEntry}
    (absent : addr ∉ entries.map Prod.fst) : addr ∉ (retrySends env credits entries).map Prod.fst := fun listed => by
  obtain ⟨retry, inside, rfl⟩ := List.mem_map.mp listed
  exact absent (mem_retrySends inside)

theorem visited_budget {env : ReapEnv} {credits : Nat} {entries : List SendEntry}
    (distinct : (entries.map Prod.fst).Nodup) {b : Budget}
    (member : b ∈ (Qp.visitSends env credits entries).1.map budget) :
    ∃ old ∈ entries.map budget, b.Counts old ∧
      (b.addr ∈ (retrySends env credits entries).map Prod.fst → b.Open) := by
  induction entries generalizing credits with
  | nil => cases member
  | cons entry rest ih =>
      simp only [List.map_cons, List.nodup_cons] at distinct
      simp only [Qp.visitSends, List.map_cons, List.mem_cons] at member
      rcases member with rfl | later
      · refine ⟨budget entry, by simp, counts_visitSend env credits entry, fun listed => ?_⟩
        simp only [retrySends] at listed
        cases verdict : judge env credits entry.2 with
        | skip need | fail status exhausted =>
            simp only [verdict] at listed
            exact absurd listed (notMem_retrySends distinct.1)
        | retryRnr useCredit =>
            have allowed := judge_retryRnr verdict
            simp only [SendCtx.rnrRetryAllowed, Bool.or_eq_true, decide_eq_true_eq] at allowed
            simp only [Qp.visitSend, verdict]
            exact ⟨fun _ finite => allowed.resolve_left finite, fun other => absurd rfl other⟩
        | retryTimeout =>
            simp only [Qp.visitSend, verdict]
            refine ⟨fun other => ?_, fun _ => judge_retryTimeout verdict⟩
            simp [budget] at other
      · obtain ⟨old, inside, counts, opens⟩ := ih distinct.2 later
        refine ⟨old, by simp [inside], counts, fun listed => opens ?_⟩
        have differs : b.addr ≠ entry.1 := fun same => by
          obtain ⟨other, there, rfl⟩ := List.mem_map.mp inside
          exact distinct.1 (List.mem_map.mpr ⟨other, there, counts.addr.symm.trans same⟩)
        simp only [retrySends] at listed
        split at listed
        · exact (List.mem_cons.mp listed).resolve_left differs
        · exact (List.mem_cons.mp listed).resolve_left differs
        · exact listed
        · exact listed

theorem nodup_retrySends {env : ReapEnv} {credits : Nat} {entries : List SendEntry}
    (distinct : (entries.map Prod.fst).Nodup) : ((retrySends env credits entries).map Prod.fst).Nodup := by
  induction entries generalizing credits with
  | nil => exact List.nodup_nil
  | cons entry rest ih =>
      simp only [List.map_cons, List.nodup_cons] at distinct
      simp only [retrySends]
      split
      · exact List.nodup_cons.mpr ⟨notMem_retrySends distinct.1, ih distinct.2⟩
      · exact List.nodup_cons.mpr ⟨notMem_retrySends distinct.1, ih distinct.2⟩
      · exact ih distinct.2
      · exact ih distinct.2

theorem map_fst_pendingSends (qp : Qp) : qp.pendingSends.map Prod.fst = (budgets qp).map Budget.addr := by
  rw [budgets, List.map_map]
  rfl

theorem visited_addrs (env : ReapEnv) (credits : Nat) (entries : List SendEntry) :
    ((Qp.visitSends env credits entries).1.map budget).map Budget.addr = entries.map Prod.fst := by
  induction entries generalizing credits with
  | nil => rfl
  | cons entry rest ih => exact congrArg (entry.1 :: ·) (ih _)

theorem reaped_budgets (qp : Qp) (clock : Qp.Clock) :
    (budgets (qp.timeoutReapSends clock).1).Sublist
      ((Qp.visitSends (qp.reapEnv clock) qp.remoteRecvCredits qp.pendingSends).1.map budget) := by
  simp only [Qp.timeoutReapSends]
  split
  · exact (List.dropWhile_sublist _).map budget
  · exact List.Sublist.refl _

theorem reaped_state (qp : Qp) (clock : Qp.Clock) :
    (qp.timeoutReapSends clock).1.closing = qp.closing ∧ (qp.timeoutReapSends clock).1.state = qp.state := by
  simp only [Qp.timeoutReapSends]
  split <;> exact ⟨rfl, rfl⟩

namespace Retrier.Inv

theorem timeout (inv : s.Inv) (idle : s.work = .idle) (clock : Qp.Clock) :
    Inv { s with
      qp := (s.qp.timeoutReapSends clock).1
      work := .retrying
        ((retrySends (s.qp.reapEnv clock) s.qp.remoteRecvCredits s.qp.pendingSends).map Prod.fst) } := by
  have distinct := inv.distinct
  rw [← map_fst_pendingSends] at distinct
  have sublist := reaped_budgets s.qp clock
  have origin : ∀ b ∈ budgets (s.qp.timeoutReapSends clock).1, ∃ old ∈ budgets s.qp, b.Counts old ∧
      (b.addr ∈ (retrySends (s.qp.reapEnv clock) s.qp.remoteRecvCredits s.qp.pendingSends).map Prod.fst → b.Open) :=
    fun b member => visited_budget distinct (sublist.subset member)
  have owes : ∀ addr rnr, s.work.owes addr rnr = 0 := by simp [idle, RetryWork.owes]
  refine ⟨?_, nodup_retrySends distinct, inv.bounded, fun b member => ?_, fun open_ live b member => ?_,
    fun b member listed => ?_, by simp⟩
  · refine List.Nodup.sublist (sublist.map _) ?_
    rw [visited_addrs]
    exact distinct
  · obtain ⟨old, inside, counts, -⟩ := origin b member
    obtain ⟨maxRetries, maxRnrRetries, retries, rnrRetries⟩ := inv.known old inside
    rw [counts.addr]
    exact ⟨counts.maxRetries.trans maxRetries, counts.maxRnrRetries.trans maxRnrRetries, counts.retries ▸ retries,
      counts.rnrRetries ▸ rnrRetries⟩
  · obtain ⟨old, inside, counts, -⟩ := origin b member
    obtain ⟨timeouts, rnrs⟩ := inv.covers ((reaped_state s.qp clock).1 ▸ open_) ((reaped_state s.qp clock).2 ▸ live) old
      inside
    rw [counts.addr]
    rw [owes] at timeouts rnrs
    exact ⟨counts.retries ▸ timeouts, counts.rnrRetries ▸ rnrs⟩
  · obtain ⟨old, inside, counts, opens⟩ := origin b member
    exact opens listed

theorem post (inv : s.Inv) {addr : Nat} (op : SendOp) (wr : SendWr) (segs : List Segment) (totalLen : Nat)
    (new : addr ∉ (budgets s.qp).map Budget.addr) (free : addr ∉ s.work.held) :
    (s.post addr op wr segs totalLen).Inv := by
  have tried : ∀ other, other ≠ addr → (s.post addr op wr segs totalLen).tried other = s.tried other :=
    fun other differs => Function.update_of_ne differs _ _
  have fresh : (s.post addr op wr segs totalLen).tried addr =
      { retryCnt := s.qp.retryCnt, rnrRetry := s.qp.rnrRetry } :=
    Function.update_self _ _ _
  have old : ∀ b ∈ budgets s.qp, b.addr ≠ addr := fun b member same => new (same ▸ List.mem_map_of_mem member)
  have listed : budgets (s.post addr op wr segs totalLen).qp = budgets s.qp ++
      [{ addr, retries := 0, rnrRetries := 0, maxRetries := s.qp.sendMaxRetries,
         maxRnrRetries := s.qp.sendMaxRnrRetries, reason := .initial }] := by
    simp only [budgets, Retrier.post, Qp.queueSend, List.map_append]
    rfl
  refine ⟨?_, inv.held, fun other => ?_, ?_, fun open_ live => ?_, ?_, fun other reason rest posting => ?_⟩
  · rw [listed, List.map_append, List.nodup_append]
    refine ⟨inv.distinct, by simp, ?_⟩
    rintro _ before _ after rfl
    simp only [List.map_cons, List.map_nil, List.mem_singleton] at after
    exact new (after ▸ before)
  · by_cases own : other = addr
    · subst own
      rw [fresh]
      exact ⟨Nat.zero_le _, fun _ => Nat.zero_le _⟩
    · rw [tried other own]
      exact inv.bounded other
  · rw [listed, List.forall_mem_append]
    refine ⟨fun b member => ?_, ?_⟩
    · rw [tried b.addr (old b member)]
      exact inv.known b member
    · simp only [List.mem_singleton, forall_eq, fresh]
      exact ⟨rfl, rfl, Nat.zero_le _, Nat.zero_le _⟩
  · rw [listed, List.forall_mem_append]
    refine ⟨fun b member => ?_, ?_⟩
    · rw [tried b.addr (old b member)]
      exact inv.covers open_ live b member
    · simp only [List.mem_singleton, forall_eq, fresh]
      exact ⟨Nat.zero_le _, fun _ => Nat.zero_le _⟩
  · rw [listed, List.forall_mem_append]
    refine ⟨inv.chosen, ?_⟩
    simp only [List.mem_singleton, forall_eq]
    exact fun chosen => absurd (s.work.chosen_sublist.subset chosen) free
  · have own : s.work = .posting other reason rest := posting
    have differs : other ≠ addr := fun same => free (by simp [own, RetryWork.held, same])
    rw [tried other differs]
    exact inv.posting other reason rest own

/-- The work goes on; what it owes to a context is counted by then or does not matter any more. -/
theorem move (inv : s.Inv) {work : RetryWork} (held : work.held.Sublist s.work.held)
    (chosen : work.chosen ⊆ s.work.chosen)
    (owes : s.qp.closing = false → s.qp.state ≠ .err → ∀ b ∈ budgets s.qp, ∀ rnr,
      s.work.owes b.addr rnr ≤ work.owes b.addr rnr)
    (posting : ∀ addr reason rest, work = .posting addr reason rest → (s.tried addr).Open reason) :
    Inv { s with work } := by
  refine ⟨inv.distinct, inv.held.sublist held, inv.bounded, inv.known, fun open_ live b member => ?_,
    fun b member listed => inv.chosen b member (chosen listed), posting⟩
  obtain ⟨timeouts, rnrs⟩ := inv.covers open_ live b member
  have timeout := owes open_ live b member false
  have rnr := owes open_ live b member true
  exact ⟨timeouts.trans (Nat.add_le_add_left timeout _), fun finite =>
    (rnrs finite).trans (Nat.add_le_add_left rnr _)⟩

theorem open_of_chosen (inv : s.Inv) {send : SendCtx} {addr : Nat} (open_ : s.qp.closing = false)
    (live : s.qp.state ≠ .err)
    (member : (addr, send) ∈ s.qp.pendingSends) (chosen : addr ∈ s.work.chosen)
    (settled : ∀ rnr, s.work.owes addr rnr = 0) :
    (s.tried addr).Open send.retryReason := by
  have listed : budget (addr, send) ∈ budgets s.qp := List.mem_map_of_mem member
  have room := inv.chosen _ listed chosen
  have known := inv.known _ listed
  have covers := inv.covers open_ live _ listed
  have timeouts := covers.timeouts
  have rnrs := covers.rnrs
  simp only [settled, Nat.add_zero, budget] at timeouts rnrs
  refine ⟨fun reason finite => ?_, fun reason => ?_⟩
  · have below := room.rnr reason (known.maxRnrRetries ▸ finite)
    rw [known.maxRnrRetries] at below
    exact (rnrs finite).trans_lt below
  · have below := room.timeout reason
    rw [known.maxRetries] at below
    exact timeouts.trans_lt below

theorem check (inv : s.Inv) {addr : Nat} {rest : List Nat} (next : s.work = .retrying (addr :: rest)) :
    (s.check addr rest).Inv := by
  have owes : ∀ other rnr, s.work.owes other rnr = 0 := by simp [next, RetryWork.owes]
  have skip : Inv { s with work := .retrying rest } := by
    refine inv.move ?_ ?_ (fun _ _ b _ rnr => by rw [owes]; exact Nat.zero_le _) (by simp)
    · rw [next]
      exact List.sublist_cons_self _ _
    · rw [next]
      exact List.subset_cons_self _ _
  simp only [Retrier.check]
  split <;> rename_i found
  · exact skip
  rename_i own send
  have member := List.mem_of_find?_eq_some found
  obtain rfl : own = addr := by simpa using List.find?_some found
  split <;> rename_i ready
  · simp only [Bool.and_eq_true, Bool.not_eq_true', decide_eq_true_eq] at ready
    refine inv.move ?_ ?_ (fun _ _ b _ rnr => by rw [owes]; exact Nat.zero_le _) ?_
    · rw [next]
      exact List.Sublist.refl _
    · rw [next]
      exact List.subset_cons_self _ _
    · intro other reason later posting
      cases posting
      exact inv.open_of_chosen ready.1.1.1 ready.1.1.2 member (by simp [next, RetryWork.chosen]) (owes own)
  · exact skip.quiet (kept_updateSend fun _ => rfl) rfl rfl id id

theorem posted (inv : s.Inv) {addr : Nat} {reason : PostReason} {rest : List Nat}
    (posting : s.work = .posting addr reason rest) (ret : Option Errno) :
    Inv { s with
      work := .posted addr reason ret rest
      tried := if ret.isNone then Function.update s.tried addr ((s.tried addr).count reason) else s.tried } := by
  have owes : ∀ other rnr, s.work.owes other rnr = 0 := by simp [posting, RetryWork.owes]
  cases ret with
  | some error =>
      refine inv.move ?_ ?_ (fun _ _ b _ rnr => by rw [owes]; exact Nat.zero_le _) (by simp)
      · rw [posting]
        exact List.Sublist.refl _
      · rw [posting]
        exact List.Subset.refl _
  | none =>
      have room := inv.posting addr reason rest posting
      have held := inv.held
      have same : ∀ other, other ≠ addr →
          Function.update s.tried addr ((s.tried addr).count reason) other = s.tried other :=
        fun other differs => Function.update_of_ne differs _ _
      have limits : ∀ other, (Function.update s.tried addr ((s.tried addr).count reason) other).maxRetries =
          (s.tried other).maxRetries ∧
        (Function.update s.tried addr ((s.tried addr).count reason) other).maxRnrRetries =
          (s.tried other).maxRnrRetries := fun other => by
        by_cases own : other = addr
        · subst own
          rw [Function.update_self, Tried.count]
          split <;> exact ⟨rfl, rfl⟩
        · rw [same other own]
          exact ⟨rfl, rfl⟩
      rw [posting] at held
      refine ⟨inv.distinct, held, fun other => ?_, fun b member => ?_, fun open_ live b member => ?_,
        fun b member listed => inv.chosen b member (by rw [posting]; exact listed), by simp⟩
      · by_cases own : other = addr
        · subst own
          simp only [Option.isNone_none, if_true, Function.update_self]
          exact room.count (inv.bounded other)
        · simp only [Option.isNone_none, if_true, same other own]
          exact inv.bounded other
      · obtain ⟨maxRetries, maxRnrRetries, retries, rnrRetries⟩ := inv.known b member
        exact ⟨maxRetries.trans (limits b.addr).1.symm, maxRnrRetries.trans (limits b.addr).2.symm, retries, rnrRetries⟩
      · have covers := inv.covers open_ live b member
        rw [owes, owes] at covers
        by_cases own : b.addr = addr
        · simp only [own, Option.isNone_none, if_true, Function.update_self, RetryWork.owes, true_and] at covers ⊢
          exact covers.count reason
        · simp only [Option.isNone_none, if_true, same b.addr own]
          exact ⟨covers.timeouts.trans (Nat.le_add_right _ _), fun finite =>
            (covers.rnrs finite).trans (Nat.le_add_right _ _)⟩

theorem raise (inv : s.Inv) {addr : Nat} {send : SendCtx} {reason : PostReason} {ret : Option Errno} {rest : List Nat}
    (work : s.work = .posted addr reason ret rest) (member : (addr, send) ∈ s.qp.pendingSends) (f : SendCtx → SendCtx)
    (known : (budget (addr, f send)).Of (s.tried addr))
    (covers : (budget (addr, send)).Covers (s.tried addr) (s.work.owes addr false) (s.work.owes addr true) →
      (budget (addr, f send)).Covers (s.tried addr) 0 0) :
    Inv { s with qp := s.qp.updateSend (fun entry => entry.1 = addr) f, work := .retrying rest } := by
  have distinct := inv.distinct
  rw [← map_fst_pendingSends] at distinct
  have held := inv.held
  simp only [work, RetryWork.held, List.nodup_cons] at held
  have listed : budget (addr, send) ∈ budgets s.qp := List.mem_map_of_mem member
  have replaced : (s.qp.updateSend (fun entry => entry.1 = addr) f).pendingSends =
      replaceKey Prod.fst (addr, f send) s.qp.pendingSends :=
    updateFirst_eq_replaceKey distinct member rfl
  have origin : ∀ b ∈ budgets (s.qp.updateSend (fun entry => entry.1 = addr) f),
      b = budget (addr, f send) ∨ b ∈ budgets s.qp ∧ b.addr ≠ addr := fun b member => by
    obtain ⟨entry, inside, rfl⟩ := List.mem_map.mp member
    rw [replaced] at inside
    rcases mem_replaceKey inside with rfl | ⟨old, differs⟩
    · exact .inl rfl
    · exact .inr ⟨List.mem_map_of_mem old, differs⟩
  refine ⟨?_, held.2, inv.bounded, fun b inside => ?_, fun open_ live b inside => ?_,
    fun b inside chosen => ?_, by simp⟩
  · rw [← map_fst_pendingSends]
    have addrs : (s.qp.updateSend (fun entry => entry.1 = addr) f).pendingSends.map Prod.fst =
        s.qp.pendingSends.map Prod.fst := map_updateFirst fun _ => rfl
    rw [addrs]
    exact distinct
  · rcases origin b inside with rfl | ⟨old, -⟩
    · exact known
    · exact inv.known b old
  · rcases origin b inside with rfl | ⟨old, differs⟩
    · exact covers (inv.covers open_ live _ listed)
    · have kept := inv.covers open_ live b old
      rw [work, owes_of_ne differs, owes_of_ne differs] at kept
      exact kept
  · rcases origin b inside with rfl | ⟨old, -⟩
    · exact absurd chosen held.1
    · refine inv.chosen b old ?_
      rw [work]
      exact chosen

theorem settle (inv : s.Inv) {addr : Nat} {reason : PostReason} {ret : Option Errno} {rest : List Nat}
    (posted : s.work = .posted addr reason ret rest) (now : Nat) :
    Inv { s with
      qp := if s.isPending addr then (s.qp.retried addr reason ret now).1 else s.qp
      work := .retrying rest } := by
  have skip : (s.qp.closing = false → s.qp.state ≠ .err → ∀ b ∈ budgets s.qp, ∀ rnr, s.work.owes b.addr rnr = 0) →
      Inv { s with work := .retrying rest } := fun settled => by
    refine inv.move ?_ ?_ (fun open_ live b member rnr => (settled open_ live b member rnr).le) (by simp)
    · rw [posted]
      exact List.sublist_cons_self _ _
    · rw [posted]
      exact List.Subset.refl _
  by_cases pending : s.isPending addr = true
  swap
  · rw [if_neg pending]
    refine skip fun _ _ b member rnr => ?_
    obtain ⟨entry, inside, rfl⟩ := List.mem_map.mp member
    have differs : entry.1 ≠ addr := fun same =>
      pending (List.any_eq_true.mpr ⟨entry, inside, decide_eq_true same⟩)
    rw [posted]
    exact owes_of_ne differs
  rw [if_pos pending]
  obtain ⟨⟨own, send⟩, member, same⟩ := List.any_eq_true.mp pending
  obtain rfl : own = addr := by simpa using same
  simp only [Qp.retried]
  split
  · rename_i stopped
    refine (skip fun open_ live => ?_).quiet (kept_updateSend fun _ => rfl) rfl rfl id id
    simp [open_, live] at stopped
  have known := inv.known _ (List.mem_map_of_mem member)
  have few := (inv.bounded own).timeouts_le
  have fewRnrs := (inv.bounded own).rnrs_le
  split
  · dsimp only
    refine inv.raise posted member _ ?_ fun covers => ?_
    · split
      · exact ⟨known.maxRetries, known.maxRnrRetries, known.retries, Nat.min_le_right _ _⟩
      · exact ⟨known.maxRetries, known.maxRnrRetries, Nat.min_le_right _ _, known.rnrRetries⟩
    · obtain ⟨timeouts, rnrs⟩ := covers
      simp only [posted, RetryWork.owes, true_and] at timeouts rnrs
      split <;> rename_i reason
      · simp only [reason, decide_true, Bool.true_eq_false, if_false, if_true] at timeouts rnrs
        exact ⟨timeouts, fun finite => le_min (rnrs finite) (fewRnrs finite)⟩
      · simp only [reason, decide_false, if_true, Bool.false_eq_true, if_false] at timeouts rnrs
        exact ⟨le_min timeouts few, rnrs⟩
  · refine (skip fun _ _ b _ rnr => ?_).quiet (kept_updateSend fun _ => rfl) rfl rfl id id
    rw [posted]
    rfl
  · dsimp only
    refine inv.raise posted member _ ?_ fun covers => ?_
    · exact ⟨known.maxRetries, known.maxRnrRetries, Nat.min_le_right _ _, known.rnrRetries⟩
    · obtain ⟨timeouts, rnrs⟩ := covers
      simp only [posted, RetryWork.owes] at timeouts rnrs
      exact ⟨le_min (timeouts.trans (Nat.le_succ _)) few, rnrs⟩
  · refine (skip fun _ _ b _ rnr => ?_).quiet (kept_updateSend fun entry => budget_finish entry _).drain rfl rfl id id
    rw [posted]
    rfl

end Retrier.Inv

/-! ## Every run -/

/-- The steps that neither choose nor count a retry. -/
def RetryAction.plain : RetryAction → Bool
  | .post .. | .timeout _ | .check | .posted _ | .settle _ | .finish => false
  | _ => true

/-- What the steps of the other threads leave of a state. -/
structure Plain (s s' : Retrier) : Prop where
  kept : Kept s.qp s'.qp
  work : s'.work = s.work
  tried : s'.tried = s.tried
  closing : s'.qp.closing = false → s.qp.closing = false
  state : s'.qp.state ≠ .err → s.qp.state ≠ .err

theorem plain_updateSend {addr : Nat} {f : SendCtx → SendCtx}
    (same : ∀ entry : SendEntry, budget (entry.1, f entry.2) = budget entry) : Plain s (s.updateSend addr f) :=
  ⟨kept_updateSend same, rfl, rfl, id, id⟩

theorem completeSendOrdered_state (qp : Qp) (psn : Nat) (status : Option Errno) :
    (qp.completeSendOrdered psn status).1.closing = qp.closing ∧
      (qp.completeSendOrdered psn status).1.state = qp.state := by
  simp only [Qp.completeSendOrdered]
  split <;> exact ⟨rfl, rfl⟩

theorem noteRnrAck_state (qp : Qp) (psn now : Nat) :
    (qp.noteRnrAck psn now).1.closing = qp.closing ∧ (qp.noteRnrAck psn now).1.state = qp.state := by
  simp only [Qp.noteRnrAck]
  split
  · exact ⟨rfl, rfl⟩
  · split <;> exact ⟨rfl, rfl⟩

theorem unqueueSend_state (qp : Qp) (addr : Nat) :
    (qp.unqueueSend addr).1.closing = qp.closing ∧ (qp.unqueueSend addr).1.state = qp.state := by
  simp only [Qp.unqueueSend]
  split
  · exact ⟨rfl, rfl⟩
  · split <;> exact ⟨rfl, rfl⟩

theorem plain_setQp (kept : Kept s.qp qp') (same : qp'.closing = s.qp.closing ∧ qp'.state = s.qp.state) :
    Plain s { s with qp := qp' } :=
  ⟨kept, rfl, rfl, fun open_ => same.1 ▸ open_, fun live => same.2 ▸ live⟩

theorem plain_step {action : RetryAction} (plain : action.plain = true) (stepped : s.step action = some s') :
    Plain s s' := by
  cases action <;> simp only [RetryAction.plain, Bool.false_eq_true] at plain
  all_goals simp only [Retrier.step, Option.some.injEq] at stepped
  case setState state =>
      split at stepped
      · cases stepped
      · cases stepped
        exact ⟨List.Sublist.refl _, rfl, rfl, id, fun _ => by assumption⟩
  all_goals subst stepped
  case unqueue addr => exact plain_setQp (kept_unqueueSend addr) (unqueueSend_state s.qp addr)
  case setAttr | setCredits => exact plain_setQp (List.Sublist.refl _) ⟨rfl, rfl⟩
  case close => exact ⟨List.Sublist.refl _, rfl, rfl, fun open_ => absurd open_ (by simp), id⟩
  case enqueue | release | packetDone => exact plain_updateSend fun _ => rfl
  case complete psn status =>
      exact plain_setQp (kept_completeSendOrdered psn status) (completeSendOrdered_state s.qp psn status)
  case rnrAck psn now => exact plain_setQp (kept_noteRnrAck psn now) (noteRnrAck_state s.qp psn now)
  case flush => exact plain_setQp (List.nil_sublist _) ⟨rfl, rfl⟩

theorem post_fresh {addr : Nat} (free : ¬(s.isPending addr || s.work.held.contains addr) = true) :
    addr ∉ (budgets s.qp).map Budget.addr ∧ addr ∉ s.work.held := by
  simp only [Retrier.isPending, Bool.or_eq_true, not_or, List.any_eq_true, decide_eq_true_eq, not_exists, not_and,
    List.contains_iff_mem] at free
  refine ⟨fun listed => ?_, free.2⟩
  rw [← map_fst_pendingSends] at listed
  obtain ⟨entry, inside, same⟩ := List.mem_map.mp listed
  exact free.1 entry inside same

theorem Retrier.Inv.step (inv : s.Inv) {action : RetryAction} (stepped : s.step action = some s') : s'.Inv := by
  by_cases plain : action.plain = true
  · obtain ⟨kept, work, tried, closing, state⟩ := plain_step plain stepped
    exact inv.quiet kept work tried closing state
  cases action <;> simp only [RetryAction.plain, not_true_eq_false] at plain
  all_goals simp only [Retrier.step] at stepped
  case post addr op wr segs totalLen =>
      split at stepped <;> rename_i free
      · cases stepped
      · cases stepped
        exact inv.post op wr segs totalLen (post_fresh free).1 (post_fresh free).2
  case timeout clock =>
      split at stepped <;> rename_i idle
      · cases stepped
        exact inv.timeout idle clock
      · cases stepped
  case check =>
      split at stepped <;> rename_i next
      · cases stepped
        exact inv.check next
      · cases stepped
  case posted ret =>
      split at stepped <;> rename_i posting
      · cases stepped
        exact inv.posted posting ret
      · cases stepped
  case settle now =>
      split at stepped <;> rename_i posted
      · cases stepped
        exact inv.settle posted now
      · cases stepped
  case finish =>
      split at stepped <;> rename_i finished
      · cases stepped
        refine inv.move (List.nil_sublist _) (List.nil_subset _) (fun _ _ b _ rnr => ?_) (by simp)
        rw [finished]
        exact Nat.zero_le _
      · cases stepped

theorem inv_reachable (reachable : retrySystem.Reachable s) : s.Inv := by
  refine reachable.invariant (fun s start => ?_) fun s action s' inv _ stepped => inv.step stepped
  obtain ⟨none, idle, untried⟩ := start
  have empty : budgets s.qp = [] := by rw [budgets, none, List.map_nil]
  refine ⟨?_, ?_, fun addr => ?_, ?_, ?_, ?_, ?_⟩
  · simp [empty]
  · simp [idle, RetryWork.held]
  · rw [untried]
    exact ⟨Nat.zero_le _, fun _ => Nat.zero_le _⟩
  · simp [empty]
  · simp [empty]
  · simp [empty]
  · simp [idle]

/-! ## The counters do not wrap -/

/-- A context that was listed before has counted no less. -/
def Grown (qp qp' : Qp) : Prop :=
  ∀ b ∈ budgets qp', b.addr ∈ (budgets qp).map Budget.addr →
    ∃ old ∈ budgets qp, old.addr = b.addr ∧ old.retries ≤ b.retries ∧ old.rnrRetries ≤ b.rnrRetries

theorem Kept.grown (kept : Kept qp qp') : Grown qp qp' := fun b member _ =>
  ⟨b, kept.subset member, rfl, Nat.le_refl _, Nat.le_refl _⟩

theorem grown_updateSend {which : SendEntry → Bool} {f : SendCtx → SendCtx}
    (grows : ∀ entry ∈ qp.pendingSends, entry.2.retries ≤ (f entry.2).retries ∧
      entry.2.rnrRetries ≤ (f entry.2).rnrRetries) : Grown qp (qp.updateSend which f) := fun b member _ => by
  obtain ⟨entry, inside, rfl⟩ := List.mem_map.mp member
  rcases mem_updateFirst inside with old | ⟨old, listed, -, rfl⟩
  · exact ⟨budget entry, List.mem_map_of_mem old, rfl, Nat.le_refl _, Nat.le_refl _⟩
  · exact ⟨budget old, List.mem_map_of_mem listed, rfl, grows old listed⟩

theorem grown_retried {addr now : Nat} {reason : PostReason} {ret : Option Errno}
    (bytes : ∀ b ∈ budgets qp, b.retries ≤ 255 ∧ b.rnrRetries ≤ 255) :
    Grown qp (qp.retried addr reason ret now).1 := by
  have counts : ∀ entry ∈ qp.pendingSends, entry.2.retries ≤ 255 ∧ entry.2.rnrRetries ≤ 255 :=
    fun entry member => bytes (budget entry) (List.mem_map_of_mem member)
  simp only [Qp.retried]
  split
  · exact (kept_updateSend fun _ => rfl).grown
  split
  · refine grown_updateSend fun entry member => ?_
    split
    · exact ⟨Nat.le_refl _, le_min (Nat.le_succ _) (counts entry member).2⟩
    · exact ⟨le_min (Nat.le_succ _) (counts entry member).1, Nat.le_refl _⟩
  · exact (kept_updateSend fun _ => rfl).grown
  · exact grown_updateSend fun entry member => ⟨le_min (Nat.le_succ _) (counts entry member).1, Nat.le_refl _⟩
  · exact (kept_updateSend fun entry => budget_finish entry _).drain.grown

theorem grown_step (inv : s.Inv) {action : RetryAction} (stepped : s.step action = some s') : Grown s.qp s'.qp := by
  by_cases plain : action.plain = true
  · exact (plain_step plain stepped).kept.grown
  have refl : Grown s.qp s.qp := Kept.grown (List.Sublist.refl _)
  cases action <;> simp only [RetryAction.plain, not_true_eq_false] at plain
  all_goals simp only [Retrier.step] at stepped
  case post addr op wr segs totalLen =>
      split at stepped <;> rename_i free
      · cases stepped
      cases stepped
      intro b member known
      simp only [Retrier.post, budgets, Qp.queueSend, List.map_append, List.mem_append] at member
      rcases member with old | new
      · exact refl b old known
      · obtain rfl := List.mem_singleton.mp new
        exact absurd known (post_fresh free).1
  case timeout clock =>
      split at stepped
      · cases stepped
        intro b member _
        have distinct := inv.distinct
        rw [← map_fst_pendingSends] at distinct
        obtain ⟨old, inside, counts, -⟩ := visited_budget distinct ((reaped_budgets s.qp clock).subset member)
        exact ⟨old, inside, counts.addr.symm, counts.retries.ge, counts.rnrRetries.ge⟩
      · cases stepped
  case check =>
      split at stepped
      · cases stepped
        simp only [Retrier.check]
        split
        · exact refl
        split
        · exact refl
        · exact (kept_updateSend fun _ => rfl).grown
      · cases stepped
  case posted ret =>
      split at stepped
      · cases stepped
        exact refl
      · cases stepped
  case settle now =>
      split at stepped
      · cases stepped
        dsimp only
        split
        · exact grown_retried fun b member => ⟨(inv.known b member).retries, (inv.known b member).rnrRetries⟩
        · exact refl
      · cases stepped
  case finish =>
      split at stepped
      · cases stepped
        exact refl
      · cases stepped

theorem retries_bounded (reachable : retrySystem.Reachable s) :
    (∀ addr, (s.tried addr).timeouts ≤ min (s.tried addr).retryCnt 7 ∧
      ((s.tried addr).rnrRetry % 8 ≠ 7 → (s.tried addr).rnrs ≤ (s.tried addr).rnrRetry % 8)) ∧
    (∀ entry ∈ s.qp.pendingSends, entry.2.retries ≤ 255 ∧ entry.2.rnrRetries ≤ 255 ∧
      entry.2.maxRetries = min (s.tried entry.1).retryCnt 7 ∧
      ∀ action s', s.step action = some s' → ∀ send, (entry.1, send) ∈ s'.qp.pendingSends →
        entry.2.retries ≤ send.retries ∧ entry.2.rnrRetries ≤ send.rnrRetries) ∧
    s.work.held.Nodup := by
  have inv := inv_reachable reachable
  refine ⟨fun addr => ⟨(inv.bounded addr).timeouts, fun finite => ?_⟩, fun entry member => ?_, inv.held⟩
  · have bound := (inv.bounded addr).rnrs
    simp only [Tried.maxRnrRetries, if_neg finite] at bound
    refine bound ?_
    rw [rnrRetriesInfinite]
    omega
  · have listed : budget entry ∈ budgets s.qp := List.mem_map_of_mem member
    have known := inv.known _ listed
    refine ⟨known.retries, known.rnrRetries, known.maxRetries, fun action s' stepped send later => ?_⟩
    obtain ⟨old, inside, same, retries, rnrRetries⟩ := grown_step inv stepped (budget (entry.1, send))
      (List.mem_map_of_mem later) (List.mem_map.mpr ⟨budget entry, listed, rfl⟩)
    obtain rfl : old = budget entry := List.inj_on_of_nodup_map inv.distinct inside listed same
    exact ⟨retries, rnrRetries⟩

def lateClock : Qp.Clock := { now := 500, timeout := 100, rnrTimeout := 10 }

/-- A send with one retry is posted, transmitted and not acknowledged; it is posted again once. -/
def retriedOnce : List RetryAction :=
  [.post 1 .send { wrId := 7, opcode := .send, sgList := [] } [] 0, .enqueue 1 1, .packetDone 1 true 10,
    .timeout lateClock, .check, .enqueue 1 1, .posted none, .settle 500, .finish]

def quietRetrier : Retrier where
  qp :=
    { state := .rts, refs := 1, qpNum := 2, destQpKnown := true, destQpNum := 3, retryCnt := 1, rnrRetry := 0
      maxSendWr := 4, sendPsn := 5 }

theorem retries_bounded_retriedOnce :
    ∃ s, retrySystem.Reachable s ∧ (s.tried 1).retryCnt = 1 ∧ (s.tried 1).timeouts = 1 ∧
      (s.tried 1).timeouts ≤ min (s.tried 1).retryCnt 7 := by
  have start : retrySystem.init quietRetrier := ⟨rfl, rfl, rfl⟩
  obtain ⟨s, reachable, passed⟩ := System.exists_reachableVia retrySystem (fun _ _ => True) retriedOnce
    (fun s => (s.tried 1).retryCnt = 1 && (s.tried 1).timeouts = 1) start (by decide +kernel)
  simp only [Bool.and_eq_true, decide_eq_true_eq] at passed
  exact ⟨s, reachable, passed.1, passed.2, ((retries_bounded reachable).1 1).1⟩

end ThunderboltVerbs.SendQueue
