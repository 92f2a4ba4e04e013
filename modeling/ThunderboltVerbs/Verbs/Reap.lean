import ThunderboltVerbs.Verbs.Send
import ThunderboltVerbs.Lib.LinkedList
import Mathlib.Data.List.TakeWhile

/-!
# The timeout walk over the pending sends (`tbv_qp_timeout_reap_tx`)

`pending_sends` and `completed_sends` are linked lists in one memory; the heads are no contexts. The
walk saves the successor of the context it looks at, and draining may move that successor to the other
list.
-/

namespace ThunderboltVerbs.Verbs
open Proto Lib

def maxJiffyOffset : Nat := 2 ^ 62 - 2

/-- `time_after_eq` on 64-bit jiffies. -/
def timeAfterEq (a b : Nat) : Bool := (a + 2 ^ 64 - b % 2 ^ 64) % 2 ^ 64 < 2 ^ 63

def entryExpired (queued now timeout : Nat) : Bool :=
  timeout ≠ 0 && queued ≠ 0 && timeAfterEq now (queued + timeout)

def sendRetryJiffies (timeout : Nat) : Nat := min timeout maxJiffyOffset

structure ReapEnv where
  now : Nat
  timeout : Nat
  rnrTimeout : Nat
  closing : Bool
  state : QpState
  pendingHead : Nat
  completedHead : Nat
  deriving DecidableEq, Repr

namespace SendCtx

def rnrRetryAllowed (send : SendCtx) : Bool :=
  send.maxRnrRetries = rnrRetriesInfinite || send.rnrRetries < send.maxRnrRetries

def rnrWaitsForRecvCredit (send : SendCtx) : Bool :=
  send.recvCreditRequired && send.maxRnrRetries = rnrRetriesInfinite

def timeout (send : SendCtx) (env : ReapEnv) : Nat :=
  if send.retryable && send.maxRetries ≠ 0 then sendRetryJiffies env.timeout else env.timeout

end SendCtx

inductive Verdict
  | skip (needResched : Bool)
  | retryRnr (useCredit : Bool)
  | retryTimeout
  | fail (status : Errno) (exhausted : Bool)
  deriving DecidableEq, Repr

def judge (env : ReapEnv) (remoteRecvCredits : Nat) (send : SendCtx) : Verdict :=
  if send.ready then .skip true
  else if send.rnrWaiting then
    let creditReady := send.recvCreditRequired && remoteRecvCredits ≠ 0
    if send.rnrWaitsForRecvCredit && !creditReady then .skip false
    else if !creditReady && !entryExpired send.queuedJiffies env.now env.rnrTimeout then .skip true
    else if send.retryable && !send.retrying && send.txPending = 0 && send.rnrRetryAllowed &&
        !env.closing && env.state ≠ .err then .retryRnr creditReady
    else .fail .eAgain false
  else if !entryExpired send.queuedJiffies env.now (send.timeout env) then .skip false
  else if send.retryable && send.txPending ≠ 0 then .skip true
  else if send.retryable && send.maxRetries ≠ 0 && send.retrying &&
      !entryExpired send.queuedJiffies env.now env.timeout then .skip true
  else if send.retryable && !send.retrying && send.txPending = 0 && send.retries < send.maxRetries &&
      !env.closing && env.state ≠ .err then .retryTimeout
  else .fail .eTimedOut (send.retryable && send.maxRetries ≤ send.retries)

structure TxReap where
  links : Links Nat
  entry : Nat → Option SendCtx
  remoteRecvCredits : Nat
  sendqCount : Nat
  retrySends : List Nat := []
  retryExhausted : Nat := 0
  needResched : Bool := false
  txFailed : Bool := false

namespace TxReap

def store (reap : TxReap) (node : Nat) (send : SendCtx) : TxReap :=
  { reap with entry := Function.update reap.entry node (some send) }

def complete (reap : TxReap) (env : ReapEnv) (node : Nat) (send : SendCtx) : TxReap :=
  { reap.store node
      { send with pending := false, retrying := false, rnrWaiting := false, sqCounted := false } with
    links := reap.links.moveTail node env.completedHead
    sendqCount := if send.sqCounted then reap.sendqCount - 1 else reap.sendqCount }

/-- `tbv_qp_drain_ready_sends_locked`, for at most `fuel` contexts. -/
def drainReadySends (env : ReapEnv) : Nat → TxReap → TxReap
  | 0, reap => reap
  | fuel + 1, reap =>
      let node := reap.links.next env.pendingHead
      if node = env.pendingHead then reap
      else
        match reap.entry node with
        | none => reap
        | some send =>
            if !send.ready then reap else drainReadySends env fuel (reap.complete env node send)

def queueRetry (reap : TxReap) (node : Nat) (send : SendCtx) (useCredit : Bool) : TxReap :=
  { reap.store node send with
    remoteRecvCredits := reap.remoteRecvCredits - useCredit.toNat
    retrySends := reap.retrySends ++ [node] }

def markFailed (reap : TxReap) (node : Nat) (send : SendCtx) (status : Errno) (exhausted : Bool) :
    TxReap :=
  { reap.store node
      { send with ready := true, completionStatus := some status, retrying := false
                  rnrWaiting := false } with
    retryExhausted := reap.retryExhausted + exhausted.toNat
    txFailed := true }

def visit (env : ReapEnv) (fuel node : Nat) (send : SendCtx) (reap : TxReap) : TxReap :=
  match judge env reap.remoteRecvCredits send with
  | .skip needResched => { reap with needResched := reap.needResched || needResched }
  | .retryRnr useCredit =>
      reap.queueRetry node
        { send with retrying := true, rnrWaiting := false, retryReason := .retryRnr } useCredit
  | .retryTimeout =>
      reap.queueRetry node { send with retrying := true, retryReason := .retryTimeout } false
  | .fail status exhausted => (reap.markFailed node send status exhausted).drainReadySends env fuel

end TxReap

inductive WalkEnd
  | atHead
  | stray (node : Nat)
  | unfinished
  deriving DecidableEq, Repr

structure Walk where
  reap : TxReap
  visited : List Nat
  ended : WalkEnd

/-- `list_for_each_entry_safe` with its saved successor `next`; a node that is no context and not
the head of the list ends it astray. -/
def walkFrom (env : ReapEnv) (fuel : Nat) : Nat → Nat → Nat → TxReap → List Nat → Walk
  | 0, _, _, reap, visited => { reap, visited, ended := .unfinished }
  | steps + 1, node, next, reap, visited =>
      if node = env.pendingHead then { reap, visited, ended := .atHead }
      else
        match reap.entry node with
        | none => { reap, visited, ended := .stray node }
        | some send =>
            let after := reap.visit env fuel node send
            walkFrom env fuel steps next (after.links.next next) after (visited ++ [node])

/-- The walk over the pending sends; `fuel` bounds its steps and those of each drain. -/
def reapSends (env : ReapEnv) (fuel : Nat) (reap : TxReap) : Walk :=
  let first := reap.links.next env.pendingHead
  walkFrom env fuel fuel first (reap.links.next first) reap []

def reapReads (env : ReapEnv) : List ReadCtx → List ReadCtx × List ReadCtx × Bool
  | [] => ([], [], false)
  | read :: rest =>
      let (timedOut, kept, needResched) := reapReads env rest
      if read.ready then (timedOut, read :: kept, true)
      else if entryExpired read.queuedJiffies env.now env.timeout then (read :: timedOut, kept, needResched)
      else (timedOut, read :: kept, needResched)

structure TxReaped where
  walk : Walk
  timedOutReads : List ReadCtx
  pendingReads : List ReadCtx
  sendqCount : Nat
  needResched : Bool

def timeoutReapTx (env : ReapEnv) (fuel : Nat) (reap : TxReap) (reads : List ReadCtx) : TxReaped :=
  let walk := reapSends env fuel reap
  let (timedOut, kept, waiting) := reapReads env reads
  { walk := walk
    timedOutReads := timedOut.map fun read => { read with sqCounted := false }
    pendingReads := kept
    sendqCount := walk.reap.sendqCount - timedOut.countP fun read => read.sqCounted
    needResched := walk.reap.needResched || waiting ||
      (!env.closing && (walk.reap.retrySends ≠ [] ||
        walk.reap.links.next env.pendingHead ≠ env.pendingHead || kept ≠ [])) }

/-! ## The contexts that the walk loses -/

/-- Some context that the walk fails is followed by a ready one, while every context before it is
ready or failed as well; `front` says that the latter holds so far. -/
def strays (env : ReapEnv) : Nat → Bool → List SendCtx → Bool
  | _, _, [] => false
  | credits, front, send :: rest =>
      match judge env credits send with
      | .skip _ => strays env credits (front && send.ready) rest
      | .retryRnr useCredit => strays env (credits - useCredit.toNat) false rest
      | .retryTimeout => strays env credits false rest
      | .fail _ _ => (front && rest.head?.any fun next => next.ready) || strays env credits front rest

theorem judge_ready {env : ReapEnv} {credits : Nat} {send : SendCtx} (ready : send.ready = true) :
    judge env credits send = .skip true := by
  simp [judge, ready]

theorem ready_of_judge {env : ReapEnv} {credits : Nat} {send : SendCtx}
    (other : judge env credits send ≠ .skip true) : send.ready = false := by
  by_contra ready
  exact other (judge_ready (by simpa using ready))

/-! ## Draining -/

namespace TxReap

def isReady (reap : TxReap) (node : Nat) : Bool := (reap.entry node).any fun send => send.ready

structure Drained (env : ReapEnv) (pending completed : List Nat) (reap after : TxReap) : Prop where
  pair : after.links.Pair env.pendingHead (pending.dropWhile reap.isReady) env.completedHead
    (completed ++ pending.takeWhile reap.isReady)
  ready : after.isReady = reap.isReady
  entry : ∀ node, node ∉ pending.takeWhile reap.isReady → after.entry node = reap.entry node
  credits : after.remoteRecvCredits = reap.remoteRecvCredits

theorem complete_ready (env : ReapEnv) {node : Nat} {reap : TxReap} {send : SendCtx}
    (found : reap.entry node = some send) :
    (reap.complete env node send).isReady = reap.isReady := by
  funext waiting
  by_cases same : waiting = node
  · subst same
    simp [isReady, complete, store, found]
  · simp [isReady, complete, store, same]

theorem complete_entry {env : ReapEnv} {node waiting : Nat} {reap : TxReap} {send : SendCtx}
    (away : waiting ≠ node) : (reap.complete env node send).entry waiting = reap.entry waiting := by
  simp [complete, store, away]

theorem drained {env : ReapEnv} {fuel : Nat} {reap : TxReap} {pending completed : List Nat}
    (pair : reap.links.Pair env.pendingHead pending env.completedHead completed)
    (present : ∀ node ∈ pending, (reap.entry node).isSome = true) (enough : pending.length ≤ fuel) :
    Drained env pending completed reap (reap.drainReadySends env fuel) := by
  induction pending generalizing fuel reap completed with
  | nil =>
      have empty : reap.links.next env.pendingHead = env.pendingHead := pair.first.1
      have same : reap.drainReadySends env fuel = reap := by
        cases fuel <;> simp [drainReadySends, empty]
      rw [same]
      exact ⟨by simpa using pair, rfl, fun _ _ => rfl, rfl⟩
  | cons node rest ih =>
      have next : reap.links.next env.pendingHead = node := pair.first.1
      have other : node ≠ env.pendingHead := by
        have := pair.nodup
        simp only [List.cons_append, List.nodup_cons, List.mem_cons, not_or] at this
        exact fun same => this.1.1 same.symm
      obtain ⟨send, found⟩ := Option.isSome_iff_exists.mp (present node (by simp))
      obtain ⟨fuel, rfl⟩ : ∃ less, fuel = less + 1 := ⟨fuel - 1, by simp at enough; omega⟩
      cases ready : send.ready with
      | false =>
          have waits : reap.isReady node = false := by simp [isReady, found, ready]
          have same : reap.drainReadySends env (fuel + 1) = reap := by
            simp [drainReadySends, next, other, found, ready]
          rw [same]
          exact ⟨by simpa [waits] using pair, rfl, fun _ _ => rfl, rfl⟩
      | true =>
          have goes : reap.isReady node = true := by simp [isReady, found, ready]
          have same := complete_ready env found
          have rest : Drained env rest (completed ++ [node]) (reap.complete env node send)
              ((reap.complete env node send).drainReadySends env fuel) := by
            refine ih pair.moveTail (fun waiting member => ?_) (by simp at enough; omega)
            have kept : waiting ≠ node := by
              rintro rfl
              exact (List.nodup_cons.mp (List.nodup_append.mp pair.nodup).1.of_cons).1 member
            rw [complete_entry kept]
            exact present waiting (List.mem_cons_of_mem _ member)
          have unfolded : reap.drainReadySends env (fuel + 1) =
              (reap.complete env node send).drainReadySends env fuel := by
            simp [drainReadySends, next, other, found, ready]
          rw [unfolded]
          constructor
          · simpa [goes, same] using rest.pair
          · rw [rest.ready, same]
          · intro waiting away
            simp only [goes, List.takeWhile_cons_of_pos, List.mem_cons, not_or] at away
            rw [rest.entry waiting (same ▸ away.2), complete_entry away.1]
          · exact rest.credits

end TxReap

/-! ## The walk -/

section
variable {env : ReapEnv} {fuel : Nat}

/-- Once the walk is on the completed sends, it never comes back to the pending head. -/
theorem walkFrom_astray (fuel : Nat) (reap : TxReap) {pending before after : List Nat} (steps : Nat)
    (visited : List Nat)
    (pair : reap.links.Pair env.pendingHead pending env.completedHead (before ++ after))
    (ready : ∀ node ∈ after, reap.isReady node = true) (head : reap.entry env.completedHead = none) :
    (walkFrom env fuel steps (after.headD env.completedHead)
      (reap.links.next (after.headD env.completedHead)) reap visited).ended ≠ .atHead := by
  induction after generalizing before steps visited reap with
  | nil =>
      have other : env.completedHead ≠ env.pendingHead := by
        intro same
        have := pair.nodup
        simp [same] at this
      cases steps with
      | zero => simp [walkFrom]
      | succ steps => simp [walkFrom, other, head]
  | cons node rest ih =>
      have other : node ≠ env.pendingHead := by
        rintro rfl
        have := pair.nodup
        simp at this
      have isReady := ready node (by simp)
      simp only [TxReap.isReady, Option.any_eq_true] at isReady
      obtain ⟨send, found, sendReady⟩ := isReady
      have next := (Links.Chain.append.mp pair.second).2.next_eq
      cases steps with
      | zero => simp [walkFrom]
      | succ steps =>
          simp only [List.headD_cons, walkFrom, other, if_false, found, next, TxReap.visit,
            judge_ready sendReady]
          have passed : reap.links.Pair env.pendingHead pending env.completedHead
              (before ++ [node] ++ rest) := by
            simpa using pair
          exact ih { reap with needResched := reap.needResched || true } steps (visited ++ [node]) passed
            (fun waiting member => ready waiting (List.mem_cons_of_mem _ member)) head

/-- The walk stands at `rest`; of the contexts it has passed, `kept` are still pending and `front`
says that all of these are ready. -/
structure WalkInv (env : ReapEnv) (completed kept : List Nat) (rest : List (Nat × SendCtx))
    (front : Bool) (reap : TxReap) : Prop where
  pair : reap.links.Pair env.pendingHead (kept ++ rest.map Prod.fst) env.completedHead completed
  entry : ∀ send ∈ rest, reap.entry send.1 = some send.2
  present : ∀ node ∈ kept, (reap.entry node).isSome = true
  front : front = kept.all reap.isReady
  head : reap.entry env.completedHead = none

variable {reap : TxReap} {completed kept : List Nat} {node : Nat} {send : SendCtx}
  {rest : List (Nat × SendCtx)} {front : Bool}

theorem WalkInv.nodup (inv : WalkInv env completed kept ((node, send) :: rest) front reap) :
    node ∉ kept ∧ node ∉ rest.map Prod.fst ∧ node ≠ env.pendingHead ∧ node ≠ env.completedHead := by
  have nodup := inv.pair.nodup
  simp only [List.map_cons, List.cons_append, List.append_assoc, List.nodup_cons, List.nodup_append,
    List.mem_append, List.mem_cons, not_or] at nodup
  grind

theorem WalkInv.keep (inv : WalkInv env completed kept ((node, send) :: rest) front reap)
    (after : TxReap) (links : after.links = reap.links)
    (entry : ∀ waiting, waiting ≠ node → after.entry waiting = reap.entry waiting)
    (present : (after.entry node).isSome = true) :
    WalkInv env completed (kept ++ [node]) rest (front && after.isReady node) after := by
  obtain ⟨notKept, notRest, -, notHead⟩ := inv.nodup
  have ready : ∀ waiting ∈ kept, after.isReady waiting = reap.isReady waiting := by
    intro waiting member
    have away : waiting ≠ node := by
      rintro rfl
      exact notKept member
    simp only [TxReap.isReady, entry waiting away]
  constructor
  · rw [links]
    simpa using inv.pair
  · intro next member
    have away : next.1 ≠ node := by
      rintro rfl
      exact notRest (List.mem_map_of_mem member)
    rw [entry next.1 away]
    exact inv.entry next (List.mem_cons_of_mem _ member)
  · intro waiting member
    rcases List.mem_append.mp member with old | new
    · have away : waiting ≠ node := by
        rintro rfl
        exact notKept old
      rw [entry waiting away]
      exact inv.present waiting old
    · rw [List.mem_singleton.mp new]
      exact present
  · rw [List.all_append, inv.front]
    simp only [List.all_cons, List.all_nil, Bool.and_true]
    congr 1
    rw [Bool.eq_iff_iff, List.all_eq_true, List.all_eq_true]
    exact forall₂_congr fun waiting member => by rw [ready waiting member]
  · rw [entry _ (Ne.symm notHead)]
    exact inv.head

theorem WalkInv.ready_rest (inv : WalkInv env completed kept rest front reap) {next : Nat × SendCtx}
    (member : next ∈ rest) : reap.isReady next.1 = next.2.ready := by
  simp [TxReap.isReady, inv.entry next member]

theorem WalkInv.drain {after : TxReap} {moved left : List Nat}
    (inv : WalkInv env completed kept rest front reap) (split : kept = moved ++ left)
    (drained : TxReap.Drained env (kept ++ rest.map Prod.fst) completed reap after)
    (taken : (kept ++ rest.map Prod.fst).takeWhile reap.isReady = moved) :
    WalkInv env (completed ++ moved) left rest (left.all reap.isReady) after := by
  have rests : (kept ++ rest.map Prod.fst).dropWhile reap.isReady = left ++ rest.map Prod.fst := by
    have whole := List.takeWhile_append_dropWhile (p := reap.isReady) (l := kept ++ rest.map Prod.fst)
    rw [taken] at whole
    refine List.append_cancel_left (whole.trans ?_)
    rw [split, List.append_assoc]
  have pair := drained.pair
  rw [rests, taken] at pair
  have apart : ∀ waiting ∈ left ++ rest.map Prod.fst, waiting ∉ moved := by
    intro waiting member found
    have nodup := inv.pair.nodup
    rw [split] at nodup
    simp only [List.append_assoc, List.cons_append, List.nodup_cons, List.nodup_append] at nodup
    grind
  constructor
  · exact pair
  · intro next member
    rw [drained.entry next.1 (taken ▸ apart next.1 (by simp; exact .inr ⟨_, member⟩))]
    exact inv.entry next member
  · intro waiting member
    rw [drained.entry waiting (taken ▸ apart waiting (by simp [member]))]
    exact inv.present waiting (by simp [split, member])
  · rw [drained.ready]
  · rw [drained.entry]
    · exact inv.head
    · rw [taken]
      intro found
      have nodup := inv.pair.nodup
      rw [split] at nodup
      simp only [List.append_assoc, List.cons_append, List.nodup_cons, List.nodup_append] at nodup
      grind

theorem WalkInv.drain_behind {after : TxReap} (inv : WalkInv env completed kept rest false reap)
    (drained : TxReap.Drained env (kept ++ rest.map Prod.fst) completed reap after) :
    ∃ moved left, kept = moved ++ left ∧ WalkInv env (completed ++ moved) left rest false after := by
  have waits : (kept.find? fun waiting => !reap.isReady waiting).isSome = true := by
    have some_waits := inv.front.symm
    simpa using some_waits
  obtain ⟨waiting, found⟩ := Option.isSome_iff_exists.mp waits
  obtain ⟨notReady, moved, behind, split, ready⟩ := List.find?_eq_some_iff_append.mp found
  simp only [Bool.not_eq_true'] at notReady
  simp only [Bool.not_not] at ready
  refine ⟨moved, waiting :: behind, split, ?_⟩
  have taken : (kept ++ rest.map Prod.fst).takeWhile reap.isReady = moved := by
    rw [split, List.append_assoc, List.takeWhile_append_of_pos ready]
    simp [notReady]
  simpa [notReady] using inv.drain split drained taken

theorem WalkInv.drain_front {after : TxReap} (inv : WalkInv env completed kept rest true reap)
    (drained : TxReap.Drained env (kept ++ rest.map Prod.fst) completed reap after)
    (waits : (rest.head?.any fun next => next.2.ready) = false) :
    WalkInv env (completed ++ kept) [] rest true after := by
  have ready : ∀ waiting ∈ kept, reap.isReady waiting = true := by
    simpa using inv.front.symm
  have taken : (kept ++ rest.map Prod.fst).takeWhile reap.isReady = kept := by
    rw [List.takeWhile_append_of_pos ready]
    cases rest with
    | nil => simp
    | cons next rest =>
        have notReady : reap.isReady next.1 = next.2.ready := inv.ready_rest (by simp)
        simp only [List.head?_cons, Option.any_some] at waits
        simp [notReady, waits]
  exact inv.drain (by simp) drained taken

theorem WalkInv.drain_astray {after : TxReap} (inv : WalkInv env completed kept rest true reap)
    (drained : TxReap.Drained env (kept ++ rest.map Prod.fst) completed reap after)
    (ready : (rest.head?.any fun next => next.2.ready) = true) (steps : Nat) (visited : List Nat) :
    (walkFrom env fuel steps ((rest.map Prod.fst).headD env.pendingHead)
      (after.links.next ((rest.map Prod.fst).headD env.pendingHead)) after visited).ended ≠ .atHead := by
  have keptReady : ∀ waiting ∈ kept, reap.isReady waiting = true := by
    simpa using inv.front.symm
  cases rest with
  | nil => simp at ready
  | cons next rest =>
      have nextReady : reap.isReady next.1 = true := by
        rw [inv.ready_rest (by simp)]
        simpa using ready
      have pair := drained.pair
      rw [List.takeWhile_append_of_pos keptReady, ← List.append_assoc] at pair
      have movedReady : ∀ waiting ∈ ((next :: rest).map Prod.fst).takeWhile reap.isReady,
          after.isReady waiting = true := by
        intro waiting member
        rw [drained.ready]
        exact List.mem_takeWhile_imp member
      have head : after.entry env.completedHead = none := by
        rw [drained.entry]
        · exact inv.head
        · intro found
          have member := List.takeWhile_subset _ found
          have nodup := inv.pair.nodup
          simp only [List.append_assoc, List.cons_append, List.nodup_cons, List.nodup_append] at nodup
          grind
      have astray := walkFrom_astray fuel after steps visited pair movedReady head
      simpa [nextReady] using astray

def GoesOn (env : ReapEnv) (completed passed : List Nat) (rest : List (Nat × SendCtx)) (lost : Bool)
    (after : TxReap) : Prop :=
  ∃ moved left front, passed = moved ++ left ∧ WalkInv env (completed ++ moved) left rest front after ∧
    lost = strays env after.remoteRecvCredits front (rest.map Prod.snd)

def GoesAstray (env : ReapEnv) (fuel : Nat) (rest : List (Nat × SendCtx)) (after : TxReap) : Prop :=
  ∀ steps visited, (walkFrom env fuel steps ((rest.map Prod.fst).headD env.pendingHead)
    (after.links.next ((rest.map Prod.fst).headD env.pendingHead)) after visited).ended ≠ .atHead

theorem WalkInv.goesOn (inv : WalkInv env completed kept ((node, send) :: rest) front reap)
    (after : TxReap) (links : after.links = reap.links)
    (entry : ∀ waiting, waiting ≠ node → after.entry waiting = reap.entry waiting) {stored : SendCtx}
    (found : after.entry node = some stored) :
    GoesOn env completed (kept ++ [node]) rest
      (strays env after.remoteRecvCredits (front && stored.ready) (rest.map Prod.snd)) after := by
  have kept := inv.keep after links entry (by simp [found])
  refine ⟨[], _, _, rfl, by simpa using kept, ?_⟩
  simp [TxReap.isReady, found]

theorem WalkInv.retried {stored : SendCtx}
    (inv : WalkInv env completed kept ((node, send) :: rest) front reap) (useCredit : Bool)
    (waits : stored.ready = false) :
    GoesOn env completed (kept ++ [node]) rest
      (strays env (reap.remoteRecvCredits - useCredit.toNat) false (rest.map Prod.snd))
      (reap.queueRetry node stored useCredit) := by
  have found : (reap.queueRetry node stored useCredit).entry node = some stored := by
    simp [TxReap.queueRetry, TxReap.store]
  have on := inv.goesOn (reap.queueRetry node stored useCredit) rfl (fun waiting away => by
    simp [TxReap.queueRetry, TxReap.store, away]) found
  rw [waits, Bool.and_false] at on
  exact on

theorem WalkInv.failed (inv : WalkInv env completed kept ((node, send) :: rest) front reap)
    (status : Errno) (exhausted : Bool) (fuelled : (kept ++ [node]).length + rest.length ≤ fuel) :
    let after := (reap.markFailed node send status exhausted).drainReadySends env fuel
    let next := rest.head?.any fun next => next.2.ready
    (front && next) = false ∧ GoesOn env completed (kept ++ [node]) rest
        (strays env reap.remoteRecvCredits front (rest.map Prod.snd)) after ∨
      (front && next) = true ∧ GoesAstray env fuel rest after := by
  have marked : WalkInv env completed (kept ++ [node]) rest front
      (reap.markFailed node send status exhausted) := by
    have stored : ((reap.markFailed node send status exhausted).entry node).any
        (fun failed => failed.ready) = true := by
      simp [TxReap.markFailed, TxReap.store]
    have kept := inv.keep (reap.markFailed node send status exhausted) rfl
      (fun waiting away => by simp [TxReap.markFailed, TxReap.store, away])
      (by simp [TxReap.markFailed, TxReap.store])
    simpa [TxReap.isReady, stored] using kept
  have present : ∀ waiting ∈ kept ++ [node] ++ rest.map Prod.fst,
      ((reap.markFailed node send status exhausted).entry waiting).isSome = true := by
    intro waiting member
    rcases List.mem_append.mp member with old | later
    · exact marked.present waiting old
    · obtain ⟨next, found, rfl⟩ := List.mem_map.mp later
      simp [marked.entry next found]
  have enough : (kept ++ [node] ++ rest.map Prod.fst).length ≤ fuel := by
    simp only [List.length_append, List.length_map, List.length_cons, List.length_nil] at fuelled ⊢
    omega
  have drained := TxReap.drained marked.pair present enough
  have credits := drained.credits
  intro after next
  cases front with
  | false =>
      obtain ⟨moved, left, split, inv⟩ := marked.drain_behind drained
      exact .inl ⟨rfl, moved, left, false, split, inv, by rw [credits]; rfl⟩
  | true =>
      cases ready : next with
      | false =>
          have inv := marked.drain_front drained ready
          exact .inl ⟨rfl, kept ++ [node], [], true, by simp, inv, by rw [credits]; rfl⟩
      | true => exact .inr ⟨rfl, marked.drain_astray drained ready⟩

theorem WalkInv.visit (inv : WalkInv env completed kept ((node, send) :: rest) front reap)
    (fuelled : (kept ++ [node]).length + rest.length ≤ fuel) :
    GoesOn env completed (kept ++ [node]) rest
        (strays env reap.remoteRecvCredits front (send :: rest.map Prod.snd))
        (reap.visit env fuel node send) ∨
      strays env reap.remoteRecvCredits front (send :: rest.map Prod.snd) = true ∧
        GoesAstray env fuel rest (reap.visit env fuel node send) := by
  have found : reap.entry node = some send := inv.entry (node, send) (by simp)
  cases verdict : judge env reap.remoteRecvCredits send with
  | skip needResched =>
      left
      simp only [TxReap.visit, strays, verdict]
      exact inv.goesOn { reap with needResched := reap.needResched || needResched } rfl
        (fun _ _ => rfl) found
  | retryRnr useCredit =>
      have waits : send.ready = false := ready_of_judge (by rw [verdict]; simp)
      left
      simp only [TxReap.visit, strays, verdict]
      exact inv.retried useCredit waits
  | retryTimeout =>
      have waits : send.ready = false := ready_of_judge (by rw [verdict]; simp)
      left
      simp only [TxReap.visit, strays, verdict]
      exact inv.retried false waits
  | fail status exhausted =>
      have heads : ((rest.map Prod.snd).head?.any fun next => next.ready) =
          rest.head?.any fun next => next.2.ready := by
        cases rest <;> rfl
      simp only [TxReap.visit, strays, verdict, heads]
      rcases inv.failed status exhausted fuelled with ⟨calm, on⟩ | ⟨lost, astray⟩
      · left
        rw [calm, Bool.false_or]
        exact on
      · right
        rw [lost, Bool.true_or]
        exact ⟨rfl, astray⟩

/-- What a walk that stays on its list has done. -/
structure Stayed (env : ReapEnv) (completed sends : List Nat) (walk : Walk) : Prop where
  ended : walk.ended = .atHead
  visited : walk.visited = sends
  lists : ∃ moved left, sends = moved ++ left ∧
    walk.reap.links.Pair env.pendingHead left env.completedHead (completed ++ moved)

/-- The walk over `rest` stays on the list or never comes to its end. -/
theorem walkFrom_stayed_or_not (fuel : Nat) {start : List Nat} (steps : Nat) (visited moved : List Nat)
    (inv : WalkInv env (start ++ moved) kept rest front reap) (passed : visited = moved ++ kept)
    (enough : rest.length < steps) (fuelled : kept.length + rest.length ≤ fuel) :
    let walk := walkFrom env fuel steps ((rest.map Prod.fst).headD env.pendingHead)
      (reap.links.next ((rest.map Prod.fst).headD env.pendingHead)) reap visited
    if strays env reap.remoteRecvCredits front (rest.map Prod.snd) then walk.ended ≠ .atHead
    else Stayed env start (visited ++ rest.map Prod.fst) walk := by
  induction rest generalizing steps visited moved kept front reap with
  | nil =>
      obtain ⟨steps, rfl⟩ : ∃ less, steps = less + 1 := ⟨steps - 1, by simp at enough; omega⟩
      simp only [List.map_nil, List.headD_nil, strays, Bool.false_eq_true, if_false, walkFrom, if_true,
        List.append_nil]
      exact ⟨rfl, rfl, moved, kept, passed, by simpa using inv.pair⟩
  | cons entry rest ih =>
      obtain ⟨node, send⟩ := entry
      obtain ⟨steps, rfl⟩ : ∃ less, steps = less + 1 := ⟨steps - 1, by simp at enough; omega⟩
      obtain ⟨-, -, notHead, -⟩ := inv.nodup
      have found : reap.entry node = some send := inv.entry (node, send) (by simp)
      have next := (Links.Chain.append.mp (by simpa using inv.pair.first)).2.next_eq
      have room : (kept ++ [node]).length + rest.length ≤ fuel := by
        simp at fuelled ⊢
        omega
      simp only [List.map_cons, List.headD_cons, walkFrom, notHead, if_false, found, next]
      rcases inv.visit room with ⟨gone, left, front', split, inv', lost⟩ | ⟨lost, astray⟩
      · have later := ih steps (visited ++ [node]) (moved ++ gone) (by simpa using inv')
          (by simp [passed, ← split]) (by simpa using enough)
          (by
            have := congrArg List.length split
            simp at this room
            omega)
        rw [lost]
        simpa using later
      · rw [lost]
        exact astray steps (visited ++ [node])

end

/-- The lists in memory before the walk: the pending sends with their contexts, and the nodes that
are already on the completed list. -/
structure ReapStart (env : ReapEnv) (reap : TxReap) (sends : List (Nat × SendCtx))
    (completed : List Nat) : Prop where
  pair : reap.links.Pair env.pendingHead (sends.map Prod.fst) env.completedHead completed
  entry : ∀ send ∈ sends, reap.entry send.1 = some send.2
  head : reap.entry env.completedHead = none

/-- The walk visits the pending sends in order, ends at their head and moves a front part of them to
the completed list, exactly when it loses no saved successor. -/
theorem timeout_walk_stays_iff (env : ReapEnv) (fuel : Nat) (reap : TxReap)
    (sends : List (Nat × SendCtx)) (completed : List Nat) (start : ReapStart env reap sends completed)
    (enough : sends.length < fuel) :
    Stayed env completed (sends.map Prod.fst) (reapSends env fuel reap) ↔
      strays env reap.remoteRecvCredits true (sends.map Prod.snd) = false := by
  have inv : WalkInv env (completed ++ []) [] sends true reap :=
    ⟨by simpa using start.pair, start.entry, by simp, rfl, start.head⟩
  have result := walkFrom_stayed_or_not fuel fuel [] [] inv rfl enough (by simp; omega)
  rw [← start.pair.first.next_eq] at result
  cases lost : strays env reap.remoteRecvCredits true (sends.map Prod.snd) with
  | false => simpa [lost, reapSends] using result
  | true =>
      simp only [lost, if_true] at result
      simp only [Bool.true_eq_false, iff_false]
      exact fun stayed => result stayed.ended

def twoSends (first second : SendCtx) : TxReap where
  links := {
    next := fun node => if node = 1 then 3 else if node = 3 then 4 else if node = 4 then 1 else node
    prev := fun node => if node = 1 then 4 else if node = 3 then 1 else if node = 4 then 3 else node }
  entry node := if node = 3 then some first else if node = 4 then some second else none
  remoteRecvCredits := 0
  sendqCount := 2

def lateEnv : ReapEnv :=
  { now := 1000, timeout := 100, rnrTimeout := 10, closing := false, state := .rts
    pendingHead := 1, completedHead := 2 }

def anySend : SendMsg :=
  { op := .send, destQp := 7, srcQp := 5, psn := 0, totalLen := 0, immData := 0, remoteAddr := 0
    rkey := 0, solicited := false }

def timedOutSend : SendCtx := { msg := anySend, queuedJiffies := 1, sqCounted := true }

def freshSend : SendCtx := { msg := { anySend with psn := 1 }, queuedJiffies := 950, sqCounted := true }

def ackedSend : SendCtx := { freshSend with ready := true }

theorem twoSends_start (first second : SendCtx) :
    ReapStart lateEnv (twoSends first second) [(3, first), (4, second)] [] := by
  constructor
  · constructor
    · simp [Links.Chain, twoSends, lateEnv]
    · simp [Links.Chain, twoSends, lateEnv]
    · simp [lateEnv]
  · simp [twoSends]
  · simp [twoSends, lateEnv]

theorem timeout_walk_stays_fresh :
    Stayed lateEnv [] [3, 4] (reapSends lateEnv 3 (twoSends timedOutSend freshSend)) :=
  (timeout_walk_stays_iff lateEnv 3 (twoSends timedOutSend freshSend)
    [(3, timedOutSend), (4, freshSend)] [] (twoSends_start ..) (by decide)).mpr (by decide)

/-- With an acknowledged successor the walk takes the head of the completed list for a context. -/
theorem acked_successor_strays :
    ReapStart lateEnv (twoSends timedOutSend ackedSend) [(3, timedOutSend), (4, ackedSend)] [] ∧
      (reapSends lateEnv 8 (twoSends timedOutSend ackedSend)).ended = .stray 2 :=
  ⟨twoSends_start .., by decide⟩

end ThunderboltVerbs.Verbs
