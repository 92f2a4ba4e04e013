import ThunderboltVerbs.Verbs.Reap
import ThunderboltVerbs.Verbs.Post
import ThunderboltVerbs.Lib.Keyed

/-!
# Completing send requests

Every function here is one critical section under the lock of the queue pair, on the contents of the
lists. It returns the queue pair and the contexts that leave the list to be completed, in their order.
-/

namespace ThunderboltVerbs.Verbs
open Proto Lib

abbrev SendEntry := Nat × SendCtx
abbrev ReadEntry := Nat × ReadCtx

namespace SendCtx

def finish (send : SendCtx) (status : Option Errno) : SendCtx :=
  if send.ready then send
  else { send with ready := true, completionStatus := status, retrying := false, rnrWaiting := false }

def leave (send : SendCtx) : SendCtx :=
  { send with pending := false, retrying := false, rnrWaiting := false, sqCounted := false }

def packetDone (send : SendCtx) (sent : Bool) (now : Nat) : SendCtx :=
  { send with
    txPending := send.txPending - 1
    retrying := if send.txPending = 1 then false else send.retrying
    queuedJiffies :=
      if send.txPending = 1 && sent && send.pending && !send.rnrWaiting then now else send.queuedJiffies }

def rnrRetryExhausted (send : SendCtx) : Bool :=
  send.maxRnrRetries ≠ rnrRetriesInfinite && send.maxRnrRetries ≤ send.rnrRetries

end SendCtx

namespace Qp

/-! ## Sends -/

def drainReadySends (qp : Qp) : Qp × List SendEntry :=
  let ready := qp.pendingSends.takeWhile fun entry => entry.2.ready
  ({ qp with
      pendingSends := qp.pendingSends.dropWhile fun entry => entry.2.ready
      sendqCount := qp.sendqCount - ready.countP fun entry => entry.2.sqCounted },
    ready.map fun entry => (entry.1, entry.2.leave))

def updateSend (qp : Qp) (which : SendEntry → Bool) (f : SendCtx → SendCtx) : Qp :=
  { qp with pendingSends := updateFirst which (fun entry => (entry.1, f entry.2)) qp.pendingSends }

def hasPsn (psn : Nat) (entry : SendEntry) : Bool := entry.2.msg.psn = psn % psnMod

def completeSendOrdered (qp : Qp) (psn : Nat) (status : Option Errno) : Qp × List SendEntry :=
  if qp.pendingSends.any (hasPsn psn) then
    (qp.updateSend (hasPsn psn) fun send => send.finish status).drainReadySends
  else (qp, [])

def noteRnrAck (qp : Qp) (psn now : Nat) : Qp × List SendEntry :=
  match qp.pendingSends.find? (hasPsn psn) with
  | none => (qp, [])
  | some (_, send) =>
      if send.rnrRetryExhausted || qp.closing || qp.state = .err then
        (qp.updateSend (hasPsn psn) fun send => send.finish (some .eAgain)).drainReadySends
      else
        (qp.updateSend (hasPsn psn) fun send =>
          { send with rnrWaiting := true, retrying := false, queuedJiffies := now }, [])

def handleSendAck (qp : Qp) (psn : Nat) (status : SendAckStatus) (now : Nat) : Qp × List SendEntry :=
  if qp.closing || qp.state = .err then (qp, [])
  else
    match status with
    | .ok => qp.completeSendOrdered psn none
    | .rnr => qp.noteRnrAck psn now
    | .error => qp.completeSendOrdered psn (some .eIo)

def flushSends (qp : Qp) : Qp × List SendEntry :=
  ({ qp with
      pendingSends := []
      sendqCount := qp.sendqCount - qp.pendingSends.countP fun entry => entry.2.sqCounted },
    qp.pendingSends.map fun entry => (entry.1, (entry.2.finish (some .eCanceled)).leave))

/-! ## The timeout of sends -/

structure Clock where
  now : Nat
  timeout : Nat
  rnrTimeout : Nat
  deriving DecidableEq, Repr

/-- The heads of the lists do not matter to the verdict on a context. -/
def reapEnv (qp : Qp) (clock : Clock) : ReapEnv :=
  { now := clock.now, timeout := clock.timeout, rnrTimeout := clock.rnrTimeout, closing := qp.closing
    state := qp.state, pendingHead := 0, completedHead := 0 }

def visitSend (env : ReapEnv) (credits : Nat) (send : SendCtx) : SendCtx × Nat × Bool :=
  match judge env credits send with
  | .skip _ => (send, credits, false)
  | .retryRnr useCredit =>
      ({ send with retrying := true, rnrWaiting := false, retryReason := .retryRnr },
        credits - useCredit.toNat, false)
  | .retryTimeout => ({ send with retrying := true, retryReason := .retryTimeout }, credits, false)
  | .fail status _ => (send.finish (some status), credits, true)

def visitSends (env : ReapEnv) : Nat → List SendEntry → List SendEntry × Nat × Bool
  | credits, [] => ([], credits, false)
  | credits, entry :: rest =>
      let (send, credits, failed) := visitSend env credits entry.2
      let (rest, credits, others) := visitSends env credits rest
      ((entry.1, send) :: rest, credits, failed || others)

/-- The part of `tbv_qp_timeout_reap_tx` about sends, for a walk that stays on its list. A drain takes the
ready contexts from the front, so that the last one takes all that the earlier ones would. -/
def timeoutReapSends (qp : Qp) (clock : Clock) : Qp × List SendEntry :=
  let (sends, credits, failed) := visitSends (qp.reapEnv clock) qp.remoteRecvCredits qp.pendingSends
  let visited := { qp with pendingSends := sends, remoteRecvCredits := credits }
  if failed then visited.drainReadySends else (visited, [])

/-- What `tbv_qp_timeout_work` does with a context after its frames were posted again with result `ret`. -/
def retried (qp : Qp) (addr : Nat) (reason : PostReason) (ret : Option Errno) (now : Nat) :
    Qp × List SendEntry :=
  let own := fun entry : SendEntry => entry.1 = addr
  if qp.closing || qp.state = .err then (qp.updateSend own fun send => { send with retrying := false }, [])
  else
    match ret with
    | none =>
        (qp.updateSend own fun send =>
          if reason = .retryRnr then { send with rnrRetries := min (send.rnrRetries + 1) 255, queuedJiffies := now }
          else { send with retries := min (send.retries + 1) 255, queuedJiffies := now }, [])
    | some .eNoMem => (qp.updateSend own fun send => { send with queuedJiffies := now, retrying := false }, [])
    | some .eNotConn =>
        (qp.updateSend own fun send =>
          { send with retries := min (send.retries + 1) 255, queuedJiffies := now, retrying := false }, [])
    | some _ => (qp.updateSend own fun send => send.finish (some .eTimedOut)).drainReadySends

def sendTxDone (qp : Qp) (addr psn : Nat) (status : Option Errno) (now : Nat) : Qp × List SendEntry :=
  let counted := qp.updateSend (fun entry => entry.1 = addr) fun send => send.packetDone status.isNone now
  match status with
  | none => (counted, [])
  | some error => counted.completeSendOrdered psn (some error)

/-! ## Reads -/

def updateRead (qp : Qp) (which : ReadEntry → Bool) (f : ReadCtx → ReadCtx) : Qp :=
  { qp with pendingReads := updateFirst which (fun entry => (entry.1, f entry.2)) qp.pendingReads }

def drainReadyReads (qp : Qp) : Qp × List ReadEntry :=
  let ready := qp.pendingReads.takeWhile fun entry => entry.2.ready
  ({ qp with
      pendingReads := qp.pendingReads.dropWhile fun entry => entry.2.ready
      sendqCount := qp.sendqCount - ready.countP fun entry => entry.2.sqCounted },
    ready.map fun entry => (entry.1, { entry.2 with sqCounted := false }))

def completeReadOrdered (qp : Qp) (addr : Nat) (status : Option Errno) : Qp × List ReadEntry :=
  if qp.pendingReads.any fun entry => entry.1 = addr then
    (qp.updateRead (fun entry => entry.1 = addr) fun read =>
      if read.ready then read else { read with ready := true, completionStatus := status }).drainReadyReads
  else (qp, [])

/-- `tbv_qp_find_read_get`, without the reference it takes. -/
def findRead (qp : Qp) (psn : Nat) : Option Nat :=
  (qp.pendingReads.find? fun entry => entry.2.psn = psn).map Prod.fst

def armReadTimeout (qp : Qp) (addr now : Nat) : Qp :=
  qp.updateRead (fun entry => entry.1 = addr) fun read =>
    if read.queuedJiffies = 0 then { read with queuedJiffies := now } else read

def flushReads (qp : Qp) : Qp × List ReadEntry :=
  ({ qp with
      pendingReads := []
      sendqCount := qp.sendqCount - qp.pendingReads.countP fun entry => entry.2.sqCounted },
    qp.pendingReads.map fun entry => (entry.1, { entry.2 with sqCounted := false }))

/-- The part of `tbv_qp_timeout_reap_tx` about reads. -/
def timeoutReapReads (qp : Qp) (clock : Clock) : Qp × List ReadEntry :=
  let expired := fun entry : ReadEntry =>
    !entry.2.ready && entryExpired entry.2.queuedJiffies clock.now clock.timeout
  ({ qp with
      pendingReads := qp.pendingReads.filter fun entry => !expired entry
      sendqCount := qp.sendqCount - (qp.pendingReads.filter expired).countP fun entry => entry.2.sqCounted },
    (qp.pendingReads.filter expired).map fun entry => (entry.1, { entry.2 with sqCounted := false }))

end Qp

/-! ## Only an acknowledgement completes a send with success -/

def SendCtx.Succeeded (send : SendCtx) : Prop := send.ready = true ∧ send.completionStatus = none

/-- The entry is the old one, which succeeded before or has a PSN that is `granted` success. -/
structure SettlesFrom (granted : Nat → Prop) (old new : SendEntry) : Prop where
  addr : new.1 = old.1
  msg : new.2.msg = old.2.msg
  success : new.2.Succeeded → old.2.Succeeded ∨ granted old.2.msg.psn

structure Settles (granted : Nat → Prop) (qp : Qp) (result : Qp × List SendEntry) : Prop where
  pending : ∀ entry ∈ result.1.pendingSends, ∃ old ∈ qp.pendingSends, SettlesFrom granted old entry
  completed : ∀ entry ∈ result.2, ∃ old ∈ qp.pendingSends, SettlesFrom granted old entry
  ready : ∀ entry ∈ result.2, entry.2.ready = true
  sendPsn : result.1.sendPsn = qp.sendPsn

variable {granted : Nat → Prop} {qp qp' : Qp} {old mid new : SendEntry} {psn now : Nat}

theorem SettlesFrom.refl (entry : SendEntry) : SettlesFrom granted entry entry := ⟨rfl, rfl, .inl⟩

theorem SettlesFrom.trans (first : SettlesFrom granted old mid) (second : SettlesFrom granted mid new) :
    SettlesFrom granted old new where
  addr := second.addr.trans first.addr
  msg := second.msg.trans first.msg
  success := fun success => by
    rcases second.success success with earlier | now
    · exact first.success earlier
    · exact .inr (first.msg ▸ now)

theorem settlesFrom_leave (entry : SendEntry) : SettlesFrom granted entry (entry.1, entry.2.leave) :=
  ⟨rfl, rfl, .inl⟩

theorem settlesFrom_finish (entry : SendEntry) {status : Option Errno}
    (right : status = none → granted entry.2.msg.psn) :
    SettlesFrom granted entry (entry.1, entry.2.finish status) := by
  simp only [SendCtx.finish]
  split
  · exact .refl _
  · exact ⟨rfl, rfl, fun success => .inr (right success.2)⟩

theorem settles_updateSend {which : SendEntry → Bool} {f : SendCtx → SendCtx}
    (each : ∀ entry, which entry = true → SettlesFrom granted entry (entry.1, f entry.2)) :
    ∀ entry ∈ (qp.updateSend which f).pendingSends,
      ∃ old ∈ qp.pendingSends, SettlesFrom granted old entry := by
  intro entry member
  rcases mem_updateFirst member with same | ⟨old, inside, test, rfl⟩
  · exact ⟨entry, same, .refl entry⟩
  · exact ⟨old, inside, each old test⟩

theorem settles_stay (sendPsn : qp'.sendPsn = qp.sendPsn)
    (each : ∀ entry ∈ qp'.pendingSends, ∃ old ∈ qp.pendingSends, SettlesFrom granted old entry) :
    Settles granted qp (qp', []) :=
  ⟨each, by simp, by simp, sendPsn⟩

theorem settles_drain (sendPsn : qp'.sendPsn = qp.sendPsn)
    (each : ∀ entry ∈ qp'.pendingSends, ∃ old ∈ qp.pendingSends, SettlesFrom granted old entry) :
    Settles granted qp qp'.drainReadySends := by
  refine ⟨fun entry member => each entry ((List.dropWhile_sublist _).mem member), ?_, ?_, sendPsn⟩
  · intro entry member
    obtain ⟨taken, inside, rfl⟩ := List.mem_map.mp member
    obtain ⟨old, listed, from_⟩ := each taken ((List.takeWhile_sublist _).mem inside)
    exact ⟨old, listed, from_.trans (settlesFrom_leave taken)⟩
  · intro entry member
    obtain ⟨taken, inside, rfl⟩ := List.mem_map.mp member
    have isReady : taken.2.ready = true :=
      List.mem_takeWhile_imp (p := fun entry : SendEntry => entry.2.ready) inside
    exact isReady

theorem settles_completeSendOrdered (psn : Nat) (status : Option Errno)
    (right : status = none → granted (psn % psnMod)) : Settles granted qp (qp.completeSendOrdered psn status) := by
  simp only [Qp.completeSendOrdered]
  split
  · refine settles_drain rfl (settles_updateSend fun entry test => settlesFrom_finish entry fun ok => ?_)
    rw [of_decide_eq_true test]
    exact right ok
  · exact settles_stay rfl fun entry member => ⟨entry, member, .refl entry⟩

theorem settles_noteRnrAck : Settles granted qp (qp.noteRnrAck psn now) := by
  simp only [Qp.noteRnrAck]
  split
  · exact settles_stay rfl fun entry member => ⟨entry, member, .refl entry⟩
  · split
    · exact settles_drain rfl (settles_updateSend fun entry _ => settlesFrom_finish entry nofun)
    · exact settles_stay rfl (settles_updateSend fun entry _ => ⟨rfl, rfl, .inl⟩)

theorem settles_handleSendAck {status : SendAckStatus} :
    Settles (fun other => status = .ok ∧ other = psn % psnMod) qp (qp.handleSendAck psn status now) := by
  simp only [Qp.handleSendAck]
  split
  · exact settles_stay rfl fun entry member => ⟨entry, member, .refl entry⟩
  · cases status with
    | ok => exact settles_completeSendOrdered psn none fun _ => ⟨rfl, rfl⟩
    | rnr => exact settles_noteRnrAck
    | error => exact settles_completeSendOrdered psn _ nofun

theorem settles_flushSends : Settles granted qp qp.flushSends := by
  refine ⟨by simp [Qp.flushSends], ?_, ?_, rfl⟩
  · intro entry member
    obtain ⟨old, inside, rfl⟩ := List.mem_map.mp member
    exact ⟨old, inside, (settlesFrom_finish old nofun).trans (settlesFrom_leave _)⟩
  · intro entry member
    obtain ⟨old, inside, rfl⟩ := List.mem_map.mp member
    simp only [SendCtx.leave, SendCtx.finish]
    split <;> simp_all

theorem settlesFrom_visitSend (env : ReapEnv) (credits : Nat) (entry : SendEntry) :
    SettlesFrom granted entry (entry.1, (Qp.visitSend env credits entry.2).1) := by
  simp only [Qp.visitSend]
  split
  · exact .refl _
  · exact ⟨rfl, rfl, .inl⟩
  · exact ⟨rfl, rfl, .inl⟩
  · exact settlesFrom_finish entry nofun

theorem settles_visitSends (env : ReapEnv) {credits : Nat} {entries : List SendEntry} :
    ∀ entry ∈ (Qp.visitSends env credits entries).1, ∃ old ∈ entries, SettlesFrom granted old entry := by
  induction entries generalizing credits with
  | nil => simp [Qp.visitSends]
  | cons head tail ih =>
      intro entry member
      rcases List.mem_cons.mp member with rfl | later
      · exact ⟨head, by simp, settlesFrom_visitSend env credits head⟩
      · obtain ⟨old, inside, from_⟩ := ih entry later
        exact ⟨old, by simp [inside], from_⟩

theorem settles_timeoutReapSends {clock : Qp.Clock} : Settles granted qp (qp.timeoutReapSends clock) := by
  simp only [Qp.timeoutReapSends]
  split
  · exact settles_drain rfl (settles_visitSends _)
  · exact settles_stay rfl (settles_visitSends _)

theorem settles_retried {addr : Nat} {reason : PostReason} {ret : Option Errno} :
    Settles granted qp (qp.retried addr reason ret now) := by
  simp only [Qp.retried]
  split
  · exact settles_stay rfl (settles_updateSend fun entry _ => ⟨rfl, rfl, .inl⟩)
  · split
    · refine settles_stay rfl (settles_updateSend fun entry _ => ?_)
      split <;> exact ⟨rfl, rfl, .inl⟩
    · exact settles_stay rfl (settles_updateSend fun entry _ => ⟨rfl, rfl, .inl⟩)
    · exact settles_stay rfl (settles_updateSend fun entry _ => ⟨rfl, rfl, .inl⟩)
    · exact settles_drain rfl (settles_updateSend fun entry _ => settlesFrom_finish entry nofun)

theorem Settles.after {result : Qp × List SendEntry} (settles : Settles granted qp' result)
    (each : ∀ entry ∈ qp'.pendingSends, ∃ old ∈ qp.pendingSends, SettlesFrom granted old entry)
    (sendPsn : qp'.sendPsn = qp.sendPsn) : Settles granted qp result := by
  have origin : ∀ entry, (∃ mid ∈ qp'.pendingSends, SettlesFrom granted mid entry) →
      ∃ old ∈ qp.pendingSends, SettlesFrom granted old entry := by
    rintro entry ⟨mid, inside, second⟩
    obtain ⟨old, listed, first⟩ := each mid inside
    exact ⟨old, listed, first.trans second⟩
  exact ⟨fun entry member => origin entry (settles.pending entry member),
    fun entry member => origin entry (settles.completed entry member), settles.ready,
    settles.sendPsn.trans sendPsn⟩

theorem settles_sendTxDone {addr : Nat} {status : Option Errno} :
    Settles granted qp (qp.sendTxDone addr psn status now) := by
  have counted : ∀ sent, ∀ entry ∈ (qp.updateSend (fun entry => entry.1 = addr) fun send =>
      send.packetDone sent now).pendingSends, ∃ old ∈ qp.pendingSends, SettlesFrom granted old entry :=
    fun sent => settles_updateSend fun entry _ => ⟨rfl, rfl, .inl⟩
  cases status with
  | none => exact settles_stay rfl (counted true)
  | some error =>
      have failed : Settles granted (qp.updateSend (fun entry => entry.1 = addr) fun send =>
          send.packetDone false now) _ := settles_completeSendOrdered psn (some error) nofun
      exact failed.after (counted false) rfl

/-! ## Accepting a request -/

theorem takeCredit_eq {op : SendOp} {taken : Bool} (credit : takeCredit qp op = .ok (qp', taken)) :
    ∃ credits, qp' = { qp with remoteRecvCredits := credits } := by
  simp only [takeCredit] at credit
  split at credit
  · cases consume : qp.consumeRemoteRecvCredit with
    | ok left =>
        simp only [consume, Except.ok.injEq, Prod.mk.injEq] at credit
        simp only [Qp.consumeRemoteRecvCredit] at consume
        split at consume
        · cases consume
        · split at consume
          · obtain rfl := Except.ok.inj consume
            exact ⟨_, credit.1.symm⟩
          · cases consume
    | error error =>
        simp only [consume] at credit
        split at credit <;> rename_i shape
        · cases shape
        · simp only [Except.ok.injEq, Prod.mk.injEq] at credit
          exact ⟨qp.remoteRecvCredits, credit.1.symm⟩
        · cases credit
  · simp only [Except.ok.injEq, Prod.mk.injEq] at credit
    exact ⟨qp.remoteRecvCredits, credit.1.symm⟩

theorem reserveSendq_eq (reserve : qp.reserveSendq = .ok qp') :
    qp' = { qp with sendqCount := qp.sendqCount + 1 } := by
  simp only [Qp.reserveSendq] at reserve
  split at reserve
  · cases reserve
  · split at reserve
    · cases reserve
    · exact (Except.ok.inj reserve).symm

theorem unqueueRead_sends (qp : Qp) (addr : Nat) :
    (qp.unqueueRead addr).1.pendingSends = qp.pendingSends ∧ (qp.unqueueRead addr).1.sendPsn = qp.sendPsn := by
  simp only [Qp.unqueueRead]
  split
  · exact ⟨rfl, rfl⟩
  · split <;> exact ⟨rfl, rfl⟩

end ThunderboltVerbs.Verbs
