import ThunderboltVerbs.Receive.Snapshot
import ThunderboltVerbs.Verbs.Reap
import ThunderboltVerbs.Lib.Keyed
import ThunderboltVerbs.Lib.System

/-!
# The READ responses of a queue pair

A response stays on `pending_read_resps` until it is acknowledged; the timeout work sends it again
`TBV_READ_RESP_MAX_RETRIES` times and then drops it. Every function that takes a response off the list marks it
closing, so that a response is closing when it is not listed. Each action is one critical section or one call
between two of them.
-/

namespace ThunderboltVerbs.Verbs
open Proto Lib

def readRespMaxRetries : Nat := 3

structure ReadRespCtx where
  snap : Snapshot
  queuedJiffies : Nat := 0
  retries : Nat := 0
  responseSent : Bool := false
  retrying : Bool := false

abbrev RespEntry := Nat × ReadRespCtx

/-- Where the timeout work is with `retry_read_resps`. `drop` says that `drop_read_resps` is not empty. -/
inductive RespWorker
  | idle
  | retrying (left : List Nat) (drop : Bool)
  | sent (addr : Nat) (wasSent : Bool) (ret : Option Errno) (left : List Nat) (drop : Bool)
  deriving DecidableEq, Repr

/-- `dropped` has the PSNs of the responses that were given up. -/
structure Responder where
  closing : Bool := false
  state : QpState := .rts
  resps : List RespEntry := []
  worker : RespWorker := .idle
  dropped : List Nat := []

inductive RespAction
  | queue (addr : Nat) (snap : Snapshot)
  | noteSent (addr now : Nat)
  | arm (addr now : Nat)
  | ack (psn : Nat) (status : ReadAckStatus) (now timeout : Nat)
  | reap (now timeout : Nat)
  | send (ret : Option Errno)
  | finish (now : Nat)
  | finishWork
  | flush

def ReadRespCtx.psn (ctx : ReadRespCtx) : Nat := ctx.snap.psn

namespace Responder

def update (r : Responder) (which : RespEntry → Bool) (f : ReadRespCtx → ReadRespCtx) : Responder :=
  { r with resps := updateFirst which (fun entry => (entry.1, f entry.2)) r.resps }

/-- `tbv_qp_queue_read_resp`. -/
def queueReadResp (r : Responder) (addr : Nat) (snap : Snapshot) : Responder :=
  { r with resps := r.resps ++ [(addr, { snap })] }

def noteReadRespSent (r : Responder) (addr now : Nat) : Responder :=
  r.update (fun entry => entry.1 = addr) fun ctx => { ctx with responseSent := true, queuedJiffies := now }

def armReadRespTimeout (r : Responder) (addr now : Nat) : Responder :=
  r.update (fun entry => entry.1 = addr) fun ctx =>
    if ctx.queuedJiffies = 0 then { ctx with queuedJiffies := now } else ctx

def takeReadResp (r : Responder) (psn : Nat) : Responder :=
  { r with resps := r.resps.eraseP fun entry => entry.2.psn = psn }

/-- `timeout` is the one of a response, and `jiffies` wraps. -/
def retryReadResp (r : Responder) (psn now timeout : Nat) : Responder :=
  r.update (fun entry => entry.2.psn = psn) fun ctx =>
    { ctx with queuedJiffies := if timeout ≠ 0 then (now + 2 ^ 64 - timeout) % 2 ^ 64 else 1 }

/-- What a READ_ACK does. -/
def readAcked (r : Responder) (psn : Nat) (status : ReadAckStatus) (now timeout : Nat) : Responder :=
  match status with
  | .retry => r.retryReadResp psn now timeout
  | .ok | .error => r.takeReadResp psn

def expires (now timeout : Nat) (entry : RespEntry) : Bool :=
  entryExpired entry.2.queuedJiffies now timeout && !entry.2.retrying

def drops (r : Responder) (now timeout : Nat) (entry : RespEntry) : Bool :=
  expires now timeout entry && (readRespMaxRetries ≤ entry.2.retries || r.closing || r.state = .err)

/-- `tbv_qp_timeout_reap_read_resps`. -/
def timeoutReap (r : Responder) (now timeout : Nat) : Responder :=
  let kept := r.resps.filter fun entry => !r.drops now timeout entry
  { r with
    resps := kept.map fun entry =>
      if expires now timeout entry then (entry.1, { entry.2 with retrying := true, queuedJiffies := now }) else entry
    worker := .retrying ((kept.filter (expires now timeout)).map Prod.fst) (r.resps.any (r.drops now timeout))
    dropped := r.dropped ++ (r.resps.filter (r.drops now timeout)).map fun entry => entry.2.psn }

/-- The second critical section of the retry loop. -/
def retried (wasSent : Bool) (ret : Option Errno) (now : Nat) (ctx : ReadRespCtx) : ReadRespCtx :=
  match ret with
  | none =>
      { ctx with
        retries := if wasSent then min (ctx.retries + 1) 255 else ctx.retries
        responseSent := true, queuedJiffies := now, retrying := false }
  | some .eNoMem => { ctx with queuedJiffies := now, retrying := false }
  | some _ => { ctx with retries := min (ctx.retries + 1) 255, queuedJiffies := now, retrying := false }

/-- `tbv_qp_mark_error` as far as the responses go. -/
def markError (r : Responder) : Responder :=
  if r.closing || r.state = .err then r else { r with state := .err, resps := [] }

def step (r : Responder) : RespAction → Option Responder
  | .queue addr snap =>
      if r.resps.all fun entry => entry.1 ≠ addr then some (r.queueReadResp addr snap) else none
  | .noteSent addr now => some (r.noteReadRespSent addr now)
  | .arm addr now => some (r.armReadRespTimeout addr now)
  | .ack psn status now timeout => some (r.readAcked psn status now timeout)
  | .reap now timeout => if r.worker = .idle then some (r.timeoutReap now timeout) else none
  | .send ret =>
      match r.worker with
      | .retrying (addr :: left) drop =>
          match r.resps.find? fun entry => entry.1 = addr with
          | none => some { r with worker := .retrying left drop }
          | some (_, ctx) => some { r with worker := .sent addr ctx.responseSent ret left drop }
      | _ => none
  | .finish now =>
      match r.worker with
      | .sent addr wasSent ret left drop =>
          some { r.update (fun entry => entry.1 = addr) (retried wasSent ret now) with
            worker := .retrying left drop }
      | _ => none
  | .finishWork =>
      match r.worker with
      | .retrying [] drop => some { if drop then r.markError else r with worker := .idle }
      | _ => none
  | .flush => some r.markError

/-- The runs from `start`. -/
def runs (start : Responder) : System Responder RespAction where
  init := fun r => r = start
  step := step

/-- The step does not queue a new response with that PSN. -/
def Keeps (psn : Nat) (_ : Responder) : RespAction → Prop
  | .queue _ snap => snap.psn ≠ psn
  | _ => True

/-! ## A response that was taken off the list -/

/-- No response with that PSN is listed or was dropped. -/
structure Settled (psn : Nat) (r : Responder) : Prop where
  unlisted : ∀ entry ∈ r.resps, entry.2.psn ≠ psn
  kept : psn ∉ r.dropped

variable {psn : Nat} {r r' : Responder}

theorem Settled.update (settled : Settled psn r) {which : RespEntry → Bool} {f : ReadRespCtx → ReadRespCtx}
    (same : ∀ ctx, (f ctx).psn = ctx.psn) : Settled psn (r.update which f) := by
  refine ⟨fun entry member => ?_, settled.kept⟩
  rcases mem_updateFirst member with old | ⟨old, inside, -, rfl⟩
  · exact settled.unlisted entry old
  · rw [same]
    exact settled.unlisted old inside

theorem Settled.sublist (settled : Settled psn r) {resps : List RespEntry} (part : resps.Sublist r.resps) :
    Settled psn { r with resps } :=
  ⟨fun entry member => settled.unlisted entry (part.mem member), settled.kept⟩

theorem psn_retried (wasSent : Bool) (ret : Option Errno) (now : Nat) (ctx : ReadRespCtx) :
    (retried wasSent ret now ctx).psn = ctx.psn := by
  unfold retried
  split <;> rfl

theorem Settled.markError (settled : Settled psn r) : Settled psn r.markError := by
  rw [Responder.markError]
  split
  · exact settled
  · exact ⟨by simp, settled.kept⟩

theorem Settled.timeoutReap (settled : Settled psn r) (now timeout : Nat) :
    Settled psn (r.timeoutReap now timeout) := by
  constructor
  · intro entry member
    obtain ⟨old, inside, rfl⟩ := List.mem_map.mp member
    have listed := settled.unlisted old (List.mem_of_mem_filter inside)
    split
    · exact listed
    · exact listed
  · rw [Responder.timeoutReap, List.mem_append, not_or]
    refine ⟨settled.kept, fun again => ?_⟩
    obtain ⟨entry, inside, equal⟩ := List.mem_map.mp again
    exact settled.unlisted entry (List.mem_of_mem_filter inside) equal

theorem Settled.step (settled : Settled psn r) {action : RespAction} (keeps : Keeps psn r action)
    (stepped : r.step action = some r') : Settled psn r' := by
  cases action with
  | queue addr snap =>
      simp only [Responder.step, Option.ite_none_right_eq_some, Option.some.injEq] at stepped
      obtain ⟨-, rfl⟩ := stepped
      refine ⟨fun entry member => ?_, settled.kept⟩
      rcases List.mem_append.mp member with old | new
      · exact settled.unlisted entry old
      · rw [List.mem_singleton.mp new]
        exact keeps
  | noteSent addr now =>
      obtain rfl := Option.some.inj stepped
      exact settled.update fun _ => rfl
  | arm addr now =>
      obtain rfl := Option.some.inj stepped
      exact settled.update fun ctx => by split <;> rfl
  | ack other status now timeout =>
      obtain rfl := Option.some.inj stepped
      cases status with
      | ok | error => exact settled.sublist List.eraseP_sublist
      | retry =>
          simp only [Responder.readAcked, Responder.retryReadResp]
          exact settled.update fun _ => rfl
  | reap now timeout =>
      simp only [Responder.step, Option.ite_none_right_eq_some, Option.some.injEq] at stepped
      obtain ⟨-, rfl⟩ := stepped
      exact settled.timeoutReap now timeout
  | send ret =>
      simp only [Responder.step] at stepped
      split at stepped
      · split at stepped <;> obtain rfl := Option.some.inj stepped <;> exact ⟨settled.unlisted, settled.kept⟩
      · cases stepped
  | finish now =>
      simp only [Responder.step] at stepped
      split at stepped
      · rename_i addr wasSent ret left drop _
        obtain rfl := Option.some.inj stepped
        have updated : Settled psn (r.update (fun entry => entry.1 = addr) (retried wasSent ret now)) :=
          settled.update (psn_retried wasSent ret now)
        exact ⟨updated.unlisted, updated.kept⟩
      · cases stepped
  | finishWork =>
      simp only [Responder.step] at stepped
      split at stepped
      · obtain rfl := Option.some.inj stepped
        split
        · exact ⟨settled.markError.unlisted, settled.markError.kept⟩
        · exact ⟨settled.unlisted, settled.kept⟩
      · cases stepped
  | flush =>
      obtain rfl := Option.some.inj stepped
      exact settled.markError

/-- A response that an acknowledgement took off the list is never dropped. -/
theorem acked_never_dropped (distinct : (r.resps.map fun entry => entry.2.psn).Nodup) (pending : psn ∉ r.dropped)
    (reached : (runs (r.takeReadResp psn)).ReachableVia (Keeps psn) r') : psn ∉ r'.dropped := by
  have settled : Settled psn r' := by
    refine reached.invariant ?_ fun r action r' settled keeps stepped => settled.step keeps stepped
    rintro _ rfl
    refine ⟨fun entry left same => ?_, pending⟩
    subst same
    have listed : entry ∈ r.resps := List.mem_of_mem_eraseP left
    exact key_ne_of_mem_eraseP distinct listed left rfl
  exact settled.kept

end Responder

end ThunderboltVerbs.Verbs
