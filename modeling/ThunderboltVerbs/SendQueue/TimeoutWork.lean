import ThunderboltVerbs.Lib.DelayedWork
import ThunderboltVerbs.SendQueue.Machine
import ThunderboltVerbs.Verbs.ReadResps

/-!
# The timeout work of a queue pair (`kernel/ibdev.c`)

One work item looks after the sends, the reads, the READ responses and the messages that are being received.
Whoever starts the clock of one of them schedules the work, which comes back for as long as something is left.
A step is one critical section, under the lock of the queue pair or under `rx_lock`, in any order.
-/

namespace ThunderboltVerbs.SendQueue
open Proto Lib Verbs

/-! ## Times -/

/-- The conversions of the kernel to jiffies. -/
structure Jiffies where
  ofNsecs : Nat → Nat
  ofUsecs : Nat → Nat
  ofMsecs : Nat → Nat

def ackTimeoutNs (timeout : Nat) : Nat := 4096 <<< min timeout 31

def timeoutWorkIntervalMs : Nat := 1000
def readRespRetryMs : Nat := 100

def rnrTimerUs : List Nat :=
  [655360, 10, 20, 30, 40, 60, 80, 120, 160, 240, 320, 480, 640, 960, 1280, 1920, 2560, 3840, 5120, 7680, 10240,
    15360, 20480, 30720, 40960, 61440, 81920, 122880, 163840, 245760, 327680, 491520]

/-- `delay ? delay : 1`. -/
def orOne (delay : Nat) : Nat := if delay = 0 then 1 else delay

theorem orOne_ne_zero (delay : Nat) : orOne delay ≠ 0 := by
  unfold orOne
  split
  · exact Nat.one_ne_zero
  · assumption

namespace Jiffies

variable (jiffies : Jiffies)

def verbsAckTimeout (timeout : Nat) : Nat := orOne (jiffies.ofNsecs (ackTimeoutNs timeout))

def rnrTimer (minRnrTimer : Nat) : Nat := orOne (jiffies.ofUsecs (rnrTimerUs.getD (min minRnrTimer 31) 0))

def readRespRetry (qpTimeout : Nat) : Nat :=
  if qpTimeout = 0 then 0 else min (orOne (jiffies.ofMsecs readRespRetryMs)) qpTimeout

/-- `tbv_qp_timeout_interval_jiffies_locked`, of the timeout of the queue pair. -/
def interval (timeout : Nat) : Nat :=
  if timeout = 0 then 0
  else
    orOne (min timeout
      (min (orOne (jiffies.ofMsecs timeoutWorkIntervalMs)) (orOne (jiffies.ofMsecs readRespRetryMs))))

end Jiffies

/-- `tbv_qp_rx_timeout_jiffies_locked`. -/
def rxTimeout (txTimeout retryCnt : Nat) : Nat :=
  if txTimeout = 0 then 0
  else if 2 ^ 64 ≤ txTimeout * (retryCnt % 8 + 1) then maxJiffyOffset
  else txTimeout * (retryCnt % 8 + 1)

/-! ## A run of the work -/

inductive PassStage
  | reapTx | reapResps | sends
  | posting (addr : Nat) (reason : PostReason)
  | resps
  | responding (addr : Nat) (wasSent : Bool)
  | reapRx | last
  deriving DecidableEq, Repr

/-- The variables of `tbv_qp_timeout_work`. `failed` is `tx_timed_out`, and `dropped` is `read_resp_dropped`. -/
structure TimeoutPass where
  now : Nat
  timeout : Nat
  rxTimeout : Nat
  respTimeout : Nat
  stage : PassStage := .reapTx
  need : Bool := false
  failed : Bool := false
  dropped : Bool := false
  rxTimedOut : Bool := false
  sends : List (Nat × PostReason) := []
  resps : List Nat := []
  deriving DecidableEq, Repr

/-- `tbv_qp_timeout_reap_tx` leaves a context alone and asks for another run. -/
def asksAgain (env : ReapEnv) : Nat → List SendEntry → Bool
  | _, [] => false
  | credits, entry :: rest =>
      judge env credits entry.2 = .skip true || asksAgain env (Qp.visitSend env credits entry.2).2.1 rest

/-! ## The queue pair -/

/-- `rx` says when each message was begun that is being received or waits in the reorder list; `rxBegun`, that one
was begun and `rx_lock` is held. `creditsNoted` are the handlers of a RECV_CREDIT that have taken the credits and
are to wake the work. `creditReturned` is there for the statements: a post gave its credit back when there was none,
and the work has not looked at the sends since. -/
structure Timed where
  qp : Qp
  rc : Bool := true
  ackTimeoutSet : Bool := false
  attrTimeout : Nat := 0
  minRnrTimer : Nat := 0
  qpTimeoutMs : Nat
  resps : List RespEntry := []
  rx : List Nat := []
  rxBegun : Bool := false
  creditsNoted : Nat := 0
  creditReturned : Bool := false
  work : DelayedWork TimeoutPass := {}

inductive TimedAction
  | queueSend (addr : Nat) (send : SendCtx)
  | unqueueSend (addr : Nat)
  | enqueueFrames (addr frames : Nat)
  | releaseFrames (addr frames : Nat)
  | armSend (addr now : Nat)
  | sendTxDone (addr : Nat) (sent : Bool) (now : Nat)
  | completeSend (psn : Nat) (status : Option Errno)
  | rnrAck (psn now : Nat)
  | queueRead (addr : Nat) (read : ReadCtx)
  | unqueueRead (addr : Nat)
  | armRead (addr now : Nat)
  | completeRead (addr : Nat) (status : Option Errno)
  | consumeCredit
  | returnCredit
  | acceptCredit (credits : Nat)
  | creditWakes
  | queueResp (addr : Nat) (snap : Snapshot)
  | noteRespSent (addr now : Nat)
  | armResp (addr now : Nat)
  | readAck (psn : Nat) (status : ReadAckStatus) (now : Nat)
  | beginRx (now : Nat)
  | scheduleRx
  | endRx (left : List Nat)
  | flushSends
  | flushReads
  | cancelResps
  | modify (state : QpState)
  | setTimeout (timeout : Nat)
  | setMinRnrTimer (timer : Nat)
  | setParam (ms : Nat)
  | markError
  | close
  | cancelWork
  | start
  | enter (now : Nat)
  | reapTx
  | reapResps
  | checkSend
  | posted (ret : Option Errno) (now : Nat)
  | endSends
  | checkResp
  | responded (ret : Option Errno) (now : Nat)
  | endResps
  | reapRx (left : List Nat)
  | rxError
  | finish

namespace Timed

variable (jiffies : Jiffies) (s : Timed)

def hasSend (addr : Nat) : Bool := s.qp.pendingSends.any fun entry => entry.1 = addr

def updateSend (addr : Nat) (f : SendCtx → SendCtx) : Timed :=
  { s with qp := s.qp.updateSend (fun entry => entry.1 = addr) f }

def responder : Responder := { closing := s.qp.closing, state := s.qp.state, resps := s.resps }

/-- `tbv_qp_tx_timeout_jiffies_locked`. -/
def txTimeout : Nat :=
  if s.rc && s.ackTimeoutSet then jiffies.verbsAckTimeout s.attrTimeout
  else if s.qpTimeoutMs = 0 then 0
  else jiffies.ofMsecs s.qpTimeoutMs

/-! ### Scheduling -/

def scheduleDelay (delay : Nat) (replace : Bool) : Timed :=
  if delay = 0 || s.qp.closing then s else { s with work := s.work.arm replace }

def schedule : Timed := s.scheduleDelay (jiffies.interval (s.txTimeout jiffies)) false

def scheduleNow : Timed :=
  if s.txTimeout jiffies = 0 || s.qp.closing then s else { s with work := s.work.rearm }

/-- `tbv_qp_mark_error`, without the flushes. -/
def markError : Timed :=
  if s.qp.closing || s.qp.state = .err then s else { s with qp := { s.qp with state := .err } }

/-! ### Sections that start a clock -/

/-- `tbv_qp_arm_send_timeout`. -/
def armSend (addr now : Nat) : Timed :=
  match s.qp.pendingSends.find? fun entry => entry.1 = addr with
  | none => s
  | some (_, send) =>
      if send.queuedJiffies ≠ 0 then s
      else (s.updateSend addr fun send => { send with queuedJiffies := now }).schedule jiffies

/-- The first section of `tbv_send_tx_done`. -/
def sendTxDone (addr : Nat) (sent : Bool) (now : Nat) : Timed :=
  match s.qp.pendingSends.find? fun entry => entry.1 = addr with
  | none => s
  | some (_, send) =>
      let done := s.updateSend addr fun send => send.packetDone sent now
      if send.txPending = 1 && sent && send.pending && !send.rnrWaiting then done.schedule jiffies else done

/-- `tbv_qp_note_rnr_ack`. -/
def rnrAck (psn now : Nat) : Timed :=
  match s.qp.pendingSends.find? (Qp.hasPsn psn) with
  | none => s
  | some (_, send) =>
      let noted := { s with qp := (s.qp.noteRnrAck psn now).1 }
      if send.rnrRetryExhausted || s.qp.closing || s.qp.state = .err then noted
      else if send.rnrWaitsForRecvCredit then
        if s.qp.remoteRecvCredits ≠ 0 then noted.scheduleNow jiffies else noted
      else noted.scheduleDelay (jiffies.rnrTimer s.minRnrTimer) true

def armRead (addr now : Nat) : Timed :=
  match s.qp.pendingReads.find? fun entry => entry.1 = addr with
  | none => s
  | some (_, read) =>
      if read.queuedJiffies ≠ 0 then s else { s with qp := s.qp.armReadTimeout addr now }.schedule jiffies

def noteRespSent (addr now : Nat) : Timed :=
  if s.resps.any fun entry => entry.1 = addr then
    { s with resps := (s.responder.noteReadRespSent addr now).resps }.schedule jiffies
  else s

def armResp (addr now : Nat) : Timed :=
  match s.resps.find? fun entry => entry.1 = addr with
  | none => s
  | some (_, ctx) =>
      if ctx.queuedJiffies ≠ 0 then s
      else { s with resps := (s.responder.armReadRespTimeout addr now).resps }.schedule jiffies

/-- `tbv_qp_retry_read_resp` on a retry, or `tbv_qp_take_read_resp`. -/
def readAck (psn : Nat) (status : ReadAckStatus) (now : Nat) : Timed :=
  let respTimeout := jiffies.readRespRetry (s.txTimeout jiffies)
  let acked := { s with resps := (s.responder.readAcked psn status now respTimeout).resps }
  match status with
  | .retry => if s.resps.any fun entry => entry.2.psn = psn then acked.scheduleNow jiffies else acked
  | .ok | .error => acked

/-! ### The sections of a run -/

def enter (now : Nat) : Option Timed :=
  let timeout := s.txTimeout jiffies
  let pass : TimeoutPass :=
    { now, timeout, rxTimeout := rxTimeout timeout s.qp.retryCnt, respTimeout := jiffies.readRespRetry timeout }
  (s.work.enter pass).map fun work => { s with work := if timeout = 0 then work.leave else work }

def setPass (pass : TimeoutPass) : Timed := { s with work := s.work.setPass pass }

/-- `tbv_qp_timeout_reap_tx`. -/
def reapTx (pass : TimeoutPass) : Timed :=
  let clock : Qp.Clock := { now := pass.now, timeout := pass.timeout, rnrTimeout := jiffies.rnrTimer s.minRnrTimer }
  let env := s.qp.reapEnv clock
  let credits := s.qp.remoteRecvCredits
  let retries := retrySends env credits s.qp.pendingSends
  let sends := (s.qp.timeoutReapSends clock).1
  let (qp, timedOut) := sends.timeoutReapReads clock
  let failed := (Qp.visitSends env credits s.qp.pendingSends).2.2 || !timedOut.isEmpty
  let need := asksAgain env credits s.qp.pendingSends || s.qp.pendingReads.any (fun entry => entry.2.ready) ||
    (!qp.closing && (!retries.isEmpty || !qp.pendingSends.isEmpty || !qp.pendingReads.isEmpty))
  { s with qp }.setPass
    { pass with need := need && !failed, failed, sends := retries, stage := if failed then .sends else .reapResps }

/-- `tbv_qp_timeout_reap_read_resps`, which asks for another run for every response it keeps. -/
def reapResps (pass : TimeoutPass) : Timed :=
  let reaped := s.responder.timeoutReap pass.now pass.respTimeout
  let (retries, drop) :=
    match reaped.worker with
    | .retrying left drop => (left, drop)
    | .idle | .sent .. => ([], false)
  { s with resps := reaped.resps }.setPass
    { pass with need := pass.need || !reaped.resps.isEmpty, dropped := drop, resps := retries, stage := .sends }

/-- `tbv_qp_send_retry_pending`, for the next context of `retry_sends`. -/
def checkSend (pass : TimeoutPass) : Option Timed :=
  match pass.sends with
  | [] => none
  | (addr, reason) :: rest =>
      match s.qp.pendingSends.find? fun entry => entry.1 = addr with
      | none => some (s.setPass { pass with sends := rest })
      | some (_, send) =>
          if !s.qp.closing && s.qp.state ≠ .err && !send.rnrWaiting && send.txPending = 0 then
            some (s.setPass { pass with sends := rest, stage := .posting addr reason })
          else
            some ((s.updateSend addr fun send => { send with retrying := false }).setPass { pass with sends := rest })

/-- The section after the frames of a context were posted again. -/
def posted (pass : TimeoutPass) (addr : Nat) (reason : PostReason) (ret : Option Errno) (now : Nat) : Timed :=
  let back := { pass with stage := .sends }
  if !s.hasSend addr then s.setPass back
  else
    let after := { s with qp := (s.qp.retried addr reason ret now).1 }
    if s.qp.closing || s.qp.state = .err then after.setPass back
    else
      match ret with
      | none | some .eNoMem | some .eNotConn => (after.schedule jiffies).setPass { back with need := true }
      | some _ => after.setPass { back with failed := true }

def endSends (pass : TimeoutPass) : Timed :=
  let next := { pass with need := pass.need && !pass.failed, failed := false, stage := .resps }
  (if pass.failed then s.markError else s).setPass next

/-- The first section of the loop over `retry_read_resps`. -/
def checkResp (pass : TimeoutPass) : Option Timed :=
  match pass.resps with
  | [] => none
  | addr :: rest =>
      match s.resps.find? fun entry => entry.1 = addr with
      | none => some (s.setPass { pass with resps := rest })
      | some (_, ctx) => some (s.setPass { pass with resps := rest, stage := .responding addr ctx.responseSent })

def responded (pass : TimeoutPass) (addr : Nat) (wasSent : Bool) (ret : Option Errno) (now : Nat) : Timed :=
  let listed := s.resps.any fun entry => entry.1 = addr
  { s with
    resps := (s.responder.update (fun entry => entry.1 = addr) (Responder.retried wasSent ret now)).resps }.setPass
    { pass with need := pass.need || listed, stage := .resps }

def endResps (pass : TimeoutPass) : Timed :=
  (if pass.dropped then s.markError else s).setPass { pass with stage := .reapRx }

/-- `tbv_qp_timeout_reap_rx`. A message that is dropped may let others be delivered, so that not all that are in
time are `left`. -/
def reapRx (pass : TimeoutPass) (left : List Nat) : Option Timed :=
  let expired := fun begun => entryExpired begun pass.now pass.rxTimeout
  if s.rxBegun || !left.isSublist (s.rx.filter fun begun => !expired begun) then none
  else
    some ({ s with rx := left }.setPass
      { pass with need := pass.need || !left.isEmpty, rxTimedOut := s.rx.any expired, stage := .last })

def finish (pass : TimeoutPass) : Timed :=
  let left := { s with work := s.work.leave }
  if pass.need then left.schedule jiffies else left

/-- A section of a run; `f` is for the run that is at that stage. -/
def inside (f : TimeoutPass → Option Timed) : Option Timed :=
  match s.work.run with
  | .inside pass => f pass
  | .idle | .begun => none

def step : TimedAction → Option Timed
  | .queueSend addr send =>
      let fresh := { send with queuedJiffies := 0, retrying := false, rnrWaiting := false, retryReason := .initial }
      some { s with qp := s.qp.queueSend addr fresh }
  | .unqueueSend addr => some { s with qp := (s.qp.unqueueSend addr).1 }
  | .enqueueFrames addr frames =>
      some (s.updateSend addr fun send => { send with txPending := send.txPending + frames })
  | .releaseFrames addr frames =>
      some (s.updateSend addr fun send => { send with txPending := send.txPending - frames })
  | .armSend addr now => some (s.armSend jiffies addr now)
  | .sendTxDone addr sent now => some (s.sendTxDone jiffies addr sent now)
  | .completeSend psn status => some { s with qp := (s.qp.completeSendOrdered psn status).1 }
  | .rnrAck psn now => some (s.rnrAck jiffies psn now)
  | .queueRead addr read => some { s with qp := s.qp.queueRead addr { read with queuedJiffies := 0 } }
  | .unqueueRead addr => some { s with qp := (s.qp.unqueueRead addr).1 }
  | .armRead addr now => some (s.armRead jiffies addr now)
  | .completeRead addr status => some { s with qp := (s.qp.completeReadOrdered addr status).1 }
  | .consumeCredit => s.qp.consumeRemoteRecvCredit.toOption.map fun qp => { s with qp }
  | .returnCredit =>
      some { s with
        qp := s.qp.returnRemoteRecvCredit
        creditReturned := s.creditReturned || s.qp.remoteRecvCredits = 0 }
  | .acceptCredit credits =>
      if s.qp.closing || s.qp.state = .err then none
      else
        let total := s.qp.remoteRecvCredits + credits
        some { s with
          qp := { s.qp with remoteRecvCredits := if 2 ^ 32 ≤ total then s.qp.remoteRecvCredits else total }
          creditsNoted := s.creditsNoted + 1 }
  | .creditWakes =>
      match s.creditsNoted with
      | 0 => none
      | others + 1 => some ({ s with creditsNoted := others }.scheduleNow jiffies)
  | .queueResp addr snap => some { s with resps := (s.responder.queueReadResp addr snap).resps }
  | .noteRespSent addr now => some (s.noteRespSent jiffies addr now)
  | .armResp addr now => some (s.armResp jiffies addr now)
  | .readAck psn status now => some (s.readAck jiffies psn status now)
  | .beginRx now => if s.rxBegun then none else some { s with rx := s.rx ++ [now], rxBegun := true }
  | .scheduleRx => if s.rxBegun then some ({ s with rxBegun := false }.schedule jiffies) else none
  | .endRx left => if s.rxBegun || !left.isSublist s.rx then none else some { s with rx := left }
  | .flushSends => some { s with qp := s.qp.flushSends.1 }
  | .flushReads => some { s with qp := s.qp.flushReads.1 }
  | .cancelResps => some { s with resps := [] }
  | .modify state => if s.qp.state = .err then none else some { s with qp := { s.qp with state } }
  | .setTimeout timeout => some { s with attrTimeout := timeout, ackTimeoutSet := true }
  | .setMinRnrTimer timer => some { s with minRnrTimer := timer }
  | .setParam ms => some { s with qpTimeoutMs := ms }
  | .markError => some s.markError
  | .close => some { s with qp := { s.qp with closing := true } }
  | .cancelWork => if s.qp.closing then s.work.cancel.map fun work => { s with work } else none
  | .start => s.work.start.map fun work => { s with work }
  | .enter now => s.enter jiffies now
  | .reapTx =>
      s.inside fun pass =>
        if pass.stage = .reapTx then some ({ s with creditReturned := false }.reapTx jiffies pass) else none
  | .reapResps => s.inside fun pass => if pass.stage = .reapResps then some (s.reapResps pass) else none
  | .checkSend => s.inside fun pass => if pass.stage = .sends then s.checkSend pass else none
  | .posted ret now =>
      s.inside fun pass =>
        match pass.stage with
        | .posting addr reason => some (s.posted jiffies pass addr reason ret now)
        | _ => none
  | .endSends => s.inside fun pass => if pass.stage = .sends ∧ pass.sends = [] then some (s.endSends pass) else none
  | .checkResp => s.inside fun pass => if pass.stage = .resps then s.checkResp pass else none
  | .responded ret now =>
      s.inside fun pass =>
        match pass.stage with
        | .responding addr wasSent => some (s.responded pass addr wasSent ret now)
        | _ => none
  | .endResps => s.inside fun pass => if pass.stage = .resps ∧ pass.resps = [] then some (s.endResps pass) else none
  | .reapRx left => s.inside fun pass => if pass.stage = .reapRx then s.reapRx pass left else none
  | .rxError =>
      s.inside fun pass =>
        if pass.stage = .last ∧ pass.rxTimedOut then some (s.markError.setPass { pass with rxTimedOut := false })
        else none
  | .finish =>
      s.inside fun pass =>
        if pass.stage = .last ∧ !pass.rxTimedOut then some (s.finish jiffies pass) else none

end Timed

/-- A queue pair that is new has nothing outstanding. -/
structure Timed.Fresh (s : Timed) : Prop where
  sends : s.qp.pendingSends = []
  reads : s.qp.pendingReads = []
  resps : s.resps = []
  rx : s.rx = []
  rxBegun : s.rxBegun = false
  work : s.work = {}

def timeoutSystem (jiffies : Jiffies) : System Timed TimedAction where
  init := Timed.Fresh
  step s action := Timed.step jiffies s action

end ThunderboltVerbs.SendQueue
