import ThunderboltVerbs.SendQueue.TimeoutWork

/-!
# The timeout work comes back

In every run, an operation whose clock runs has the timeout work queued or on its way. What a run of the work has
passed already is covered by `need`, and by the error that a timed out request leads to.
-/

namespace ThunderboltVerbs.SendQueue
open Proto Lib Verbs

/-! ## What the work looks after -/

def waitsForCredit (send : SendCtx) : Bool := send.rnrWaiting && send.rnrWaitsForRecvCredit && !send.ready

/-- The clock of the context runs. A context that waits for a credit has no time to wait for. -/
def sendTicks (send : SendCtx) : Bool :=
  send.queuedJiffies ≠ 0 && !send.ready && !(send.rnrWaiting && send.rnrWaitsForRecvCredit)

def readTicks (read : ReadCtx) : Bool := read.queuedJiffies ≠ 0 && !read.ready

namespace Timed

structure Live (s : Timed) : Prop where
  stays : s.qp.closing = false
  works : s.qp.state ≠ .err

/-- A clock runs, or a send waits for a credit and there is one, nobody is about to wake the work for it, and it is
not one that a post gave back since the work last looked at the sends. -/
inductive TxTicks (s : Timed) : Prop
  | send (entry : SendEntry) (member : entry ∈ s.qp.pendingSends) (ticks : sendTicks entry.2 = true)
  | read (entry : ReadEntry) (member : entry ∈ s.qp.pendingReads) (ticks : readTicks entry.2 = true)
  | credit (entry : SendEntry) (member : entry ∈ s.qp.pendingSends) (waits : waitsForCredit entry.2 = true)
      (credits : s.qp.remoteRecvCredits ≠ 0) (noted : s.creditsNoted = 0) (returned : s.creditReturned = false)

def RespTicks (s : Timed) : Prop := ∃ entry ∈ s.resps, entry.2.queuedJiffies ≠ 0

def RxTicks (s : Timed) : Prop := s.rx ≠ [] ∧ s.rxBegun = false

/-- Something is outstanding that only the timeout work is sure to end. -/
inductive Outstanding (s : Timed) : Prop
  | tx (ticks : s.TxTicks)
  | resp (ticks : s.RespTicks)
  | rx (ticks : s.RxTicks)

end Timed

/-! ## What a run still sees -/

/-- The stages before the error of a request that timed out. -/
def PassStage.sending : PassStage → Bool
  | .sends | .posting .. => true
  | .reapTx | .reapResps | .resps | .responding .. | .reapRx | .last => false

namespace TimeoutPass

def ComesBack (pass : TimeoutPass) : Prop := pass.need = true ∨ (pass.failed = true ∧ pass.stage.sending = true)

def SeesTx (pass : TimeoutPass) : Prop := pass.stage = .reapTx ∨ pass.ComesBack

def SeesResps (pass : TimeoutPass) : Prop := pass.stage = .reapTx ∨ pass.stage = .reapResps ∨ pass.ComesBack

def SeesRx (pass : TimeoutPass) : Prop := pass.stage ≠ .last ∨ pass.ComesBack

variable {pass pass' : TimeoutPass}

theorem ComesBack.mono (back : pass.ComesBack) (need : pass.need = true → pass'.need = true)
    (failed : pass.failed = true → pass.stage.sending = true → pass'.ComesBack) : pass'.ComesBack := by
  rcases back with needed | ⟨timedOut, sending⟩
  · exact .inl (need needed)
  · exact failed timedOut sending

end TimeoutPass

/-- What is outstanding in a queue pair that works is covered by the timeout work. -/
structure Timed.Watched (s : Timed) : Prop where
  sound : s.work.Sound
  tx : s.Live → s.TxTicks → s.work.Covers TimeoutPass.SeesTx
  resps : s.Live → s.RespTicks → s.work.Covers TimeoutPass.SeesResps
  rx : s.Live → s.RxTicks → s.work.Covers TimeoutPass.SeesRx

/-! ## Steps that start no clock -/

/-- Nothing is outstanding after the step that was not before it. -/
structure Timed.Quiet (s t : Timed) : Prop where
  live : t.Live → s.Live
  tx : t.TxTicks → s.TxTicks
  resps : t.RespTicks → s.RespTicks
  rx : t.RxTicks → s.RxTicks

structure Calm (send : SendCtx) : Prop where
  ticks : sendTicks send = false
  waits : waitsForCredit send = false

/-- A context is left with no clock and no wait that it did not have. -/
structure Calmer (old new : SendCtx) : Prop where
  ticks : sendTicks new = true → sendTicks old = true
  waits : waitsForCredit new = true → waitsForCredit old = true

structure CalmerQp (qp qp' : Qp) : Prop where
  stays : qp'.closing = false → qp.closing = false
  works : qp'.state ≠ .err → qp.state ≠ .err
  sends : ∀ entry ∈ qp'.pendingSends, Calm entry.2 ∨ ∃ old ∈ qp.pendingSends, Calmer old.2 entry.2
  reads : ∀ entry ∈ qp'.pendingReads, readTicks entry.2 = true → ∃ old ∈ qp.pendingReads, readTicks old.2 = true
  credits : qp'.remoteRecvCredits ≠ 0 → qp.remoteRecvCredits ≠ 0

section Calm

variable {s t : Timed} {qp qp' : Qp} {send new : SendCtx}

theorem Calmer.refl (send : SendCtx) : Calmer send send := ⟨id, id⟩

theorem calm_of_ready (ready : send.ready = true) : Calm send := by
  constructor
  · simp [sendTicks, ready]
  · simp [waitsForCredit, ready]

theorem Calm.calmer (calm : Calm new) : Calmer send new := by
  constructor
  · intro ticks
    exact absurd (calm.ticks.symm.trans ticks) Bool.false_ne_true
  · intro waits
    exact absurd (calm.waits.symm.trans waits) Bool.false_ne_true

theorem calmer_finish (status : Option Errno) : Calmer send (send.finish status) := by
  unfold SendCtx.finish
  split
  · exact .refl send
  · exact (calm_of_ready rfl).calmer

theorem CalmerQp.refl (qp : Qp) : CalmerQp qp qp :=
  ⟨id, id, fun entry member => .inr ⟨entry, member, .refl _⟩, fun entry member ticks => ⟨entry, member, ticks⟩, id⟩

theorem calmerQp_updateSend {which : SendEntry → Bool} {f : SendCtx → SendCtx}
    (calmer : ∀ entry, qp.pendingSends.find? which = some entry → Calmer entry.2 (f entry.2)) :
    CalmerQp qp (qp.updateSend which f) := by
  refine { CalmerQp.refl qp with sends := ?_ }
  intro entry member
  rcases mem_updateFirst_find? member with same | ⟨old, found, rfl⟩
  · exact .inr ⟨entry, same, .refl _⟩
  · exact .inr ⟨old, List.mem_of_find?_eq_some found, calmer old found⟩

theorem CalmerQp.sends_sublist (calmer : CalmerQp qp qp') {left : List SendEntry}
    (fewer : left.Sublist qp'.pendingSends) (count : Nat) :
    CalmerQp qp { qp' with pendingSends := left, sendqCount := count } :=
  { calmer with sends := fun entry member => calmer.sends entry (fewer.mem member) }

theorem CalmerQp.reads_sublist (calmer : CalmerQp qp qp') {left : List ReadEntry}
    (fewer : left.Sublist qp'.pendingReads) (count : Nat) :
    CalmerQp qp { qp' with pendingReads := left, sendqCount := count } :=
  { calmer with reads := fun entry member => calmer.reads entry (fewer.mem member) }

theorem CalmerQp.drainSends (calmer : CalmerQp qp qp') : CalmerQp qp qp'.drainReadySends.1 :=
  calmer.sends_sublist (List.dropWhile_sublist _) _

theorem calmerQp_completeSendOrdered (psn : Nat) (status : Option Errno) :
    CalmerQp qp (qp.completeSendOrdered psn status).1 := by
  unfold Qp.completeSendOrdered
  split
  · exact (calmerQp_updateSend fun entry _ => calmer_finish status).drainSends
  · exact .refl qp

theorem calmerQp_queueSend (addr : Nat) (calm : Calm { send with pending := true }) :
    CalmerQp qp (qp.queueSend addr send) := by
  refine { CalmerQp.refl qp with sends := ?_ }
  intro entry member
  rcases List.mem_append.mp member with old | own
  · exact .inr ⟨entry, old, .refl _⟩
  · exact .inl (List.mem_singleton.mp own ▸ calm)

theorem calmerQp_queueRead (addr : Nat) {read : ReadCtx} (calm : readTicks read = false) :
    CalmerQp qp (qp.queueRead addr read) := by
  refine { CalmerQp.refl qp with reads := ?_ }
  intro entry member ticks
  rcases List.mem_append.mp member with old | own
  · exact ⟨entry, old, ticks⟩
  · rw [List.mem_singleton.mp own, calm] at ticks
    cases ticks

theorem calmerQp_unqueueSend (addr : Nat) : CalmerQp qp (qp.unqueueSend addr).1 := by
  unfold Qp.unqueueSend
  split
  · exact .refl qp
  · simp only
    split
    · exact (CalmerQp.refl qp).sends_sublist List.eraseP_sublist _
    · exact (CalmerQp.refl qp).sends_sublist List.eraseP_sublist qp.sendqCount

theorem calmerQp_unqueueRead (addr : Nat) : CalmerQp qp (qp.unqueueRead addr).1 := by
  unfold Qp.unqueueRead
  split
  · exact .refl qp
  · simp only
    split
    · exact (CalmerQp.refl qp).reads_sublist List.eraseP_sublist _
    · exact (CalmerQp.refl qp).reads_sublist List.eraseP_sublist qp.sendqCount

theorem calmerQp_completeReadOrdered (addr : Nat) (status : Option Errno) :
    CalmerQp qp (qp.completeReadOrdered addr status).1 := by
  unfold Qp.completeReadOrdered
  split
  · have finished : CalmerQp qp (qp.updateRead (fun entry => entry.1 = addr) fun read =>
        if read.ready then read else { read with ready := true, completionStatus := status }) := by
      refine { CalmerQp.refl qp with reads := ?_ }
      intro entry member ticks
      rcases mem_updateFirst member with same | ⟨old, inside, -, rfl⟩
      · exact ⟨entry, same, ticks⟩
      · refine ⟨old, inside, ?_⟩
        simp only at ticks
        split at ticks
        · exact ticks
        · simp [readTicks] at ticks
    exact finished.reads_sublist (List.dropWhile_sublist _) _
  · exact .refl qp

theorem calmerQp_retried_fatal {addr now : Nat} {reason : PostReason} {error : Errno} (notMem : error ≠ .eNoMem)
    (notConn : error ≠ .eNotConn) : CalmerQp qp (qp.retried addr reason (some error) now).1 := by
  unfold Qp.retried
  simp only
  split
  · dsimp only
    apply calmerQp_updateSend
    intro entry _
    exact ⟨id, id⟩
  · exact (calmerQp_updateSend fun entry _ => calmer_finish _).drainSends

theorem calmerQp_consumeCredit (consumed : qp.consumeRemoteRecvCredit = .ok qp') : CalmerQp qp qp' := by
  unfold Qp.consumeRemoteRecvCredit at consumed
  split at consumed
  · cases consumed
  · split at consumed
    · rename_i some_
      cases consumed
      exact { CalmerQp.refl qp with credits := fun _ => some_ }
    · cases consumed

/-- The other actions start no clock, and leave the work alone. -/
theorem Timed.Quiet.of_qp (calmer : CalmerQp s.qp qp') : s.Quiet { s with qp := qp' } := by
  refine ⟨fun live => ⟨calmer.stays live.stays, calmer.works live.works⟩, ?_, id, id⟩
  intro ticks
  cases ticks with
  | send entry member ticks =>
      rcases calmer.sends entry member with calm | ⟨old, inside, calmer⟩
      · exact absurd (calm.ticks.symm.trans ticks) Bool.false_ne_true
      · exact .send old inside (calmer.ticks ticks)
  | read entry member ticks =>
      obtain ⟨old, inside, ticks'⟩ := calmer.reads entry member ticks
      exact .read old inside ticks'
  | credit entry member waits credits noted returned =>
      rcases calmer.sends entry member with calm | ⟨old, inside, calmer'⟩
      · exact absurd (calm.waits.symm.trans waits) Bool.false_ne_true
      · exact .credit old inside (calmer'.waits waits) (calmer.credits credits) noted returned

theorem Timed.Watched.quiet (watched : s.Watched) (quiet : s.Quiet t) (work : t.work = s.work) : t.Watched := by
  constructor
  · rw [work]
    exact watched.sound
  · intro live ticks
    rw [work]
    exact watched.tx (quiet.live live) (quiet.tx ticks)
  · intro live ticks
    rw [work]
    exact watched.resps (quiet.live live) (quiet.resps ticks)
  · intro live ticks
    rw [work]
    exact watched.rx (quiet.live live) (quiet.rx ticks)

theorem Timed.TxTicks.of_same (ticks : t.TxTicks) (qp : t.qp = s.qp) (noted : t.creditsNoted = s.creditsNoted)
    (returned : t.creditReturned = s.creditReturned) : s.TxTicks := by
  cases ticks with
  | send entry member ticks => exact .send entry (qp ▸ member) ticks
  | read entry member ticks => exact .read entry (qp ▸ member) ticks
  | credit entry member waits credits none returned' =>
      exact .credit entry (qp ▸ member) waits (qp ▸ credits) (noted ▸ none) (returned ▸ returned')

theorem Timed.Quiet.of_same (qp : t.qp = s.qp) (resps : t.resps = s.resps) (rx : t.rx = s.rx)
    (rxBegun : t.rxBegun = s.rxBegun) (noted : t.creditsNoted = s.creditsNoted)
    (returned : t.creditReturned = s.creditReturned) : s.Quiet t := by
  refine ⟨fun live => ⟨qp ▸ live.stays, qp ▸ live.works⟩, ?_, ?_, ?_⟩
  · intro ticks
    exact ticks.of_same qp noted returned
  · rw [RespTicks, RespTicks, resps]
    exact id
  · rw [RxTicks, RxTicks, rx, rxBegun]
    exact id

/-- The responses change and start no clock. -/
theorem Timed.Quiet.of_resps {resps : List RespEntry}
    (calm : ∀ entry ∈ resps, entry.2.queuedJiffies ≠ 0 → entry ∈ s.resps) : s.Quiet { s with resps := resps } := by
  refine ⟨fun live => ⟨live.stays, live.works⟩, fun ticks => ticks.of_same rfl rfl rfl, ?_, id⟩
  rintro ⟨entry, member, ticks⟩
  exact ⟨entry, calm entry member ticks, ticks⟩

theorem Timed.Watched.setQp (watched : s.Watched) (calmer : CalmerQp s.qp qp') : Timed.Watched { s with qp := qp' } :=
  watched.quiet (.of_qp calmer) rfl

/-- In an error, or when it closes, the queue pair has its lists flushed. -/
theorem Timed.watched_of_dead (sound : t.work.Sound) (dead : ¬t.Live) : t.Watched :=
  ⟨sound, fun live _ => absurd live dead, fun live _ => absurd live dead, fun live _ => absurd live dead⟩

theorem Timed.dead_of (ended : (s.qp.closing || decide (s.qp.state = .err)) = true) : ¬s.Live := by
  intro live
  rcases Bool.or_eq_true_iff.mp ended with closing | error
  · exact absurd (live.stays.symm.trans closing) Bool.false_ne_true
  · exact live.works (of_decide_eq_true error)

theorem Timed.work_markError (s : Timed) : s.markError.work = s.work := by
  unfold markError
  split
  · rfl
  · rfl

theorem Timed.dead_markError (s : Timed) : ¬s.markError.Live := by
  intro live
  unfold markError at live
  split at live
  · rename_i ended
    exact dead_of ended live
  · exact live.works rfl

end Calm

/-! ## Steps that schedule the work -/

section Schedule

variable {s t : Timed} {jiffies : Jiffies}

theorem Jiffies.interval_ne_zero {timeout : Nat} (on : timeout ≠ 0) : jiffies.interval timeout ≠ 0 := by
  rw [interval, if_neg on]
  exact orOne_ne_zero _

theorem Timed.watched_of_due (sound : t.work.Sound) (due : t.work.Due) : t.Watched :=
  ⟨sound, fun _ _ => .due due, fun _ _ => .due due, fun _ _ => .due due⟩

theorem Timed.dead_of_closing (closing : t.qp.closing = true) : ¬t.Live :=
  fun live => Bool.false_ne_true (live.stays.symm.trans closing)

theorem Timed.watched_scheduleDelay (sound : t.work.Sound) {delay : Nat} (positive : delay ≠ 0) (replace : Bool) :
    (t.scheduleDelay delay replace).Watched := by
  unfold scheduleDelay
  split
  · rename_i no
    rcases Bool.or_eq_true_iff.mp no with zero | closing
    · exact absurd (of_decide_eq_true zero) positive
    · exact watched_of_dead sound (dead_of_closing closing)
  · exact watched_of_due (sound.arm replace) (sound.due_arm replace)

theorem Timed.watched_schedule (sound : t.work.Sound) (on : t.txTimeout jiffies ≠ 0) : (t.schedule jiffies).Watched :=
  watched_scheduleDelay sound (Jiffies.interval_ne_zero on) false

theorem Timed.watched_scheduleNow (sound : t.work.Sound) (on : t.txTimeout jiffies ≠ 0) :
    (t.scheduleNow jiffies).Watched := by
  unfold scheduleNow
  split
  · rename_i no
    rcases Bool.or_eq_true_iff.mp no with zero | closing
    · exact absurd (of_decide_eq_true zero) on
    · exact watched_of_dead sound (dead_of_closing closing)
  · exact watched_of_due DelayedWork.sound_rearm DelayedWork.due_rearm

theorem calmer_packetDone {send : SendCtx} {sent : Bool} {now : Nat}
    (running : ¬(send.txPending = 1 && sent && send.pending && !send.rnrWaiting) = true) :
    Calmer send (send.packetDone sent now) := by
  constructor
  · intro ticks
    simpa only [sendTicks, SendCtx.rnrWaitsForRecvCredit, SendCtx.packetDone, if_neg running] using ticks
  · exact id

namespace Timed.Watched

theorem armSend (watched : s.Watched) (on : s.txTimeout jiffies ≠ 0) (addr now : Nat) :
    (s.armSend jiffies addr now).Watched := by
  unfold Timed.armSend
  split
  · exact watched
  · split
    · exact watched
    · exact watched_schedule watched.sound on

theorem sendTxDone (watched : s.Watched) (on : s.txTimeout jiffies ≠ 0) (addr : Nat) (sent : Bool) (now : Nat) :
    (s.sendTxDone jiffies addr sent now).Watched := by
  unfold Timed.sendTxDone
  split
  · exact watched
  · rename_i found
    simp only
    split
    · exact watched_schedule watched.sound on
    · rename_i waiting
      apply watched.setQp
      apply calmerQp_updateSend
      intro entry again
      obtain rfl := Option.some.inj (again.symm.trans found)
      exact calmer_packetDone waiting

/-- A send that waits for a credit while there is none is left to whoever brings one. -/
theorem rnrAck_waiting (watched : s.Watched) {which : SendEntry → Bool} {now : Nat}
    (none : s.qp.remoteRecvCredits = 0)
    (waits : ∀ entry, s.qp.pendingSends.find? which = some entry → entry.2.rnrWaitsForRecvCredit = true) :
    Watched { s with qp := s.qp.updateSend which fun send =>
      { send with rnrWaiting := true, retrying := false, queuedJiffies := now } } := by
  refine watched.quiet ⟨fun live => ⟨live.stays, live.works⟩, ?_, id, id⟩ rfl
  intro ticks
  cases ticks with
  | send entry member ticks =>
      rcases mem_updateFirst_find? member with same | ⟨old, found, rfl⟩
      · exact .send entry same ticks
      · have waits : old.2.recvCreditRequired && old.2.maxRnrRetries = rnrRetriesInfinite := waits old found
        simp [sendTicks, SendCtx.rnrWaitsForRecvCredit, waits] at ticks
  | read entry member ticks => exact .read entry member ticks
  | credit entry member _ credits => exact absurd none credits

theorem rnrAck (watched : s.Watched) (on : s.txTimeout jiffies ≠ 0) (psn now : Nat) :
    (s.rnrAck jiffies psn now).Watched := by
  unfold Timed.rnrAck
  split
  · exact watched
  rename_i addr send found
  simp only
  split
  · rename_i ended
    have note : (s.qp.noteRnrAck psn now).1 =
        (s.qp.updateSend (Qp.hasPsn psn) fun send => send.finish (some .eAgain)).drainReadySends.1 := by
      simp only [Qp.noteRnrAck, found, if_pos ended]
    rw [note]
    exact watched.setQp (calmerQp_updateSend fun entry _ => calmer_finish _).drainSends
  rename_i goes
  split
  · rename_i waits
    split
    · exact watched_scheduleNow watched.sound on
    · rename_i credits
      simp only [Qp.noteRnrAck, found, if_neg goes]
      apply watched.rnrAck_waiting (Decidable.not_not.mp credits)
      intro entry again
      obtain rfl := Option.some.inj (again.symm.trans found)
      exact waits
  · apply watched_scheduleDelay _ (orOne_ne_zero _) true
    exact watched.sound

theorem armRead (watched : s.Watched) (on : s.txTimeout jiffies ≠ 0) (addr now : Nat) :
    (s.armRead jiffies addr now).Watched := by
  unfold Timed.armRead
  split
  · exact watched
  · split
    · exact watched
    · exact watched_schedule watched.sound on

theorem noteRespSent (watched : s.Watched) (on : s.txTimeout jiffies ≠ 0) (addr now : Nat) :
    (s.noteRespSent jiffies addr now).Watched := by
  unfold Timed.noteRespSent
  split
  · exact watched_schedule watched.sound on
  · exact watched

theorem armResp (watched : s.Watched) (on : s.txTimeout jiffies ≠ 0) (addr now : Nat) :
    (s.armResp jiffies addr now).Watched := by
  unfold Timed.armResp
  split
  · exact watched
  · split
    · exact watched
    · exact watched_schedule watched.sound on

theorem setResps (watched : s.Watched) {resps : List RespEntry}
    (calm : ∀ entry ∈ resps, entry.2.queuedJiffies ≠ 0 → entry ∈ s.resps) : Watched { s with resps := resps } :=
  watched.quiet (.of_resps calm) rfl

theorem readAck (watched : s.Watched) (on : s.txTimeout jiffies ≠ 0) (psn : Nat) (status : ReadAckStatus)
    (now : Nat) : (s.readAck jiffies psn status now).Watched := by
  cases status with
  | ok | error => exact watched.setResps fun entry member _ => List.mem_of_mem_eraseP member
  | retry =>
      unfold Timed.readAck
      simp only
      split
      · exact watched_scheduleNow watched.sound on
      · rename_i missing
        apply watched.setResps
        intro entry member _
        rcases mem_updateFirst member with same | ⟨old, inside, chosen, -⟩
        · exact same
        · exact absurd (List.any_eq_true.mpr ⟨old, inside, chosen⟩) missing

end Timed.Watched

end Schedule

/-! ## The sections of a run -/

section Pass

variable {s t : Timed} {jiffies : Jiffies} {pass pass' : TimeoutPass}

theorem Timed.run_schedule (t : Timed) : (t.schedule jiffies).work.run = t.work.run := by
  unfold schedule scheduleDelay
  split
  · rfl
  · exact DelayedWork.run_arm _

/-- A run that sees whatever is outstanding now, with nothing asked of before. -/
theorem Timed.watched_sees (sound : t.work.Sound) (run : t.work.run = .inside pass)
    (tx : t.Live → t.TxTicks → pass'.SeesTx) (resps : t.Live → t.RespTicks → pass'.SeesResps)
    (rx : t.Live → t.RxTicks → pass'.SeesRx) : (t.setPass pass').Watched := by
  have quiet : t.Quiet (t.setPass pass') := .of_same rfl rfl rfl rfl rfl rfl
  refine ⟨sound.setPass run, ?_, ?_, ?_⟩
  · intro live ticks
    exact DelayedWork.covers_setPass (tx (quiet.live live) (quiet.tx ticks))
  · intro live ticks
    exact DelayedWork.covers_setPass (resps (quiet.live live) (quiet.resps ticks))
  · intro live ticks
    exact DelayedWork.covers_setPass (rx (quiet.live live) (quiet.rx ticks))

/-- A run that needs another one sees whatever is outstanding. -/
theorem Timed.watched_needed (sound : t.work.Sound) (run : t.work.run = .inside pass) (need : pass'.need = true) :
    (t.setPass pass').Watched := by
  apply watched_sees sound run
  · intro _ _
    exact .inr (.inl need)
  · intro _ _
    exact .inr (.inr (.inl need))
  · intro _ _
    exact .inr (.inl need)

namespace Timed.Watched

/-- A run goes on, and sees what it saw; or it sees whatever is outstanding. -/
theorem setPass (watched : s.Watched) (run : s.work.run = .inside pass) (work : t.work = s.work)
    (tx : t.Live → t.TxTicks → pass'.SeesTx ∨ (s.Live ∧ s.TxTicks ∧ (pass.SeesTx → pass'.SeesTx)))
    (resps : t.Live → t.RespTicks → pass'.SeesResps ∨ (s.Live ∧ s.RespTicks ∧ (pass.SeesResps → pass'.SeesResps)))
    (rx : t.Live → t.RxTicks → pass'.SeesRx ∨ (s.Live ∧ s.RxTicks ∧ (pass.SeesRx → pass'.SeesRx))) :
    (t.setPass pass').Watched := by
  have quiet : t.Quiet (t.setPass pass') := .of_same rfl rfl rfl rfl rfl rfl
  constructor
  · rw [Timed.setPass, work]
    exact watched.sound.setPass run
  · intro live ticks
    rw [Timed.setPass, work]
    rcases tx (quiet.live live) (quiet.tx ticks) with sees | ⟨before, ticked, kept⟩
    · exact DelayedWork.covers_setPass sees
    · exact (watched.tx before ticked).setPass run kept
  · intro live ticks
    rw [Timed.setPass, work]
    rcases resps (quiet.live live) (quiet.resps ticks) with sees | ⟨before, ticked, kept⟩
    · exact DelayedWork.covers_setPass sees
    · exact (watched.resps before ticked).setPass run kept
  · intro live ticks
    rw [Timed.setPass, work]
    rcases rx (quiet.live live) (quiet.rx ticks) with sees | ⟨before, ticked, kept⟩
    · exact DelayedWork.covers_setPass sees
    · exact (watched.rx before ticked).setPass run kept

/-- A section that starts no clock, in a run that goes on. -/
theorem goOn (watched : s.Watched) (run : s.work.run = .inside pass) (quiet : s.Quiet t) (work : t.work = s.work)
    (tx : pass.SeesTx → pass'.SeesTx) (resps : pass.SeesResps → pass'.SeesResps)
    (rx : pass.SeesRx → pass'.SeesRx) : (t.setPass pass').Watched := by
  apply watched.setPass run work
  · intro live ticks
    exact .inr ⟨quiet.live live, quiet.tx ticks, tx⟩
  · intro live ticks
    exact .inr ⟨quiet.live live, quiet.resps ticks, resps⟩
  · intro live ticks
    exact .inr ⟨quiet.live live, quiet.rx ticks, rx⟩

theorem setPass_dead (watched : s.Watched) (run : s.work.run = .inside pass) (work : t.work = s.work)
    (dead : ¬t.Live) : (t.setPass pass').Watched := by
  apply watched.setPass run work
  · intro live
    exact absurd live dead
  · intro live
    exact absurd live dead
  · intro live
    exact absurd live dead

theorem enter (on : s.txTimeout jiffies ≠ 0) {now : Nat}
    (entered : s.enter jiffies now = some t) : t.Watched := by
  unfold Timed.enter at entered
  simp only [if_neg on] at entered
  obtain ⟨work, enters, rfl⟩ := Option.map_eq_some_iff.mp entered
  have run := DelayedWork.run_enter enters
  constructor
  · exact DelayedWork.sound_enter enters
  · intro _ _
    exact .inside _ run (.inl rfl)
  · intro _ _
    exact .inside _ run (.inl rfl)
  · intro _ _
    exact .inside _ run (.inl PassStage.noConfusion)

/-- Whatever the walk leaves on its lists makes it ask for another run, unless a request timed out. -/
theorem reapTx (sound : s.work.Sound) (run : s.work.run = .inside pass) : (s.reapTx jiffies pass).Watched := by
  unfold Timed.reapTx
  simp only
  generalize (Qp.timeoutReapReads _ _ : Qp × List ReadEntry) = reaped
  generalize (retrySends _ _ _ : List (Nat × PostReason)) = retries
  generalize (asksAgain _ _ _ : Bool) = asks
  generalize ((Qp.visitSends _ _ _ : List SendEntry × Nat × Bool).2.2 || !reaped.2.isEmpty) = failed
  cases failed with
  | true =>
      apply watched_sees (t := { s with qp := reaped.1 }) sound run
      · intro _ _
        exact .inr (.inr ⟨rfl, rfl⟩)
      · intro _ _
        exact .inr (.inr (.inr ⟨rfl, rfl⟩))
      · intro _ _
        exact .inl PassStage.noConfusion
  | false =>
      apply watched_sees (t := { s with qp := reaped.1 }) sound run
      · intro live ticks
        refine .inr (.inl ?_)
        have left : reaped.1.pendingSends.isEmpty = false ∨ reaped.1.pendingReads.isEmpty = false := by
          cases ticks with
          | send entry member | credit entry member =>
              exact .inl (List.isEmpty_eq_false_iff.mpr (List.ne_nil_of_mem member))
          | read entry member => exact .inr (List.isEmpty_eq_false_iff.mpr (List.ne_nil_of_mem member))
        have stays : reaped.1.closing = false := live.stays
        rcases left with sends | reads
        · simp [stays, sends]
        · simp [stays, reads]
      · intro _ _
        exact .inr (.inl rfl)
      · intro _ _
        exact .inl PassStage.noConfusion

theorem reapResps (watched : s.Watched) (run : s.work.run = .inside pass) (stage : pass.stage = .reapResps) :
    (s.reapResps pass).Watched := by
  have back (back : pass.ComesBack) : pass.need = true := by
    rcases back with need | ⟨-, sending⟩
    · exact need
    · rw [stage] at sending
      cases sending
  apply watched.setPass run
  case work => rfl
  · intro live ticks
    refine .inr ⟨⟨live.stays, live.works⟩, ticks.of_same rfl rfl rfl, ?_⟩
    rintro (start | comes)
    · rw [stage] at start
      cases start
    · exact .inr (.inl (Bool.or_eq_true_iff.mpr (.inl (back comes))))
  · rintro live ⟨entry, member, -⟩
    have left := List.isEmpty_eq_false_iff.mpr (List.ne_nil_of_mem member)
    refine .inl (.inr (.inr (.inl (Bool.or_eq_true_iff.mpr (.inr ?_)))))
    rw [Bool.not_eq_true']
    exact left
  · intro _ _
    exact .inl (.inl PassStage.noConfusion)

theorem not_sending {stage : PassStage} (sending : stage.sending = true) :
    stage ≠ .reapTx ∧ stage ≠ .reapResps ∧ stage ≠ .last := by
  refine ⟨?_, ?_, ?_⟩ <;> rintro rfl <;> cases sending

/-- A section of the loop over `retry_sends`. -/
theorem goOnSending (watched : s.Watched) (run : s.work.run = .inside pass) (quiet : s.Quiet t)
    (work : t.work = s.work) (sending : pass.stage.sending = true) (still : pass'.stage.sending = true)
    (need : pass.need = true → pass'.need = true) (failed : pass.failed = true → pass'.failed = true) :
    (t.setPass pass').Watched := by
  have comes (back : pass.ComesBack) : pass'.ComesBack := back.mono need fun timedOut _ => .inr ⟨failed timedOut, still⟩
  obtain ⟨notTx, notResps, -⟩ := not_sending sending
  apply watched.goOn run quiet work
  · rintro (start | back)
    · exact absurd start notTx
    · exact .inr (comes back)
  · rintro (start | start | back)
    · exact absurd start notTx
    · exact absurd start notResps
    · exact .inr (.inr (comes back))
  · intro _
    exact .inl (not_sending still).2.2

theorem checkSend (watched : s.Watched) (run : s.work.run = .inside pass) (stage : pass.stage = .sends)
    (checked : s.checkSend pass = some t) : t.Watched := by
  have sending : pass.stage.sending = true := by rw [stage]; rfl
  have same : s.Quiet s := .of_same rfl rfl rfl rfl rfl rfl
  unfold Timed.checkSend at checked
  split at checked
  · cases checked
  · split at checked
    · cases checked
      apply watched.goOnSending run same rfl sending
      case still => exact sending
      all_goals exact id
    · split at checked
      · cases checked
        apply watched.goOnSending run same rfl sending
        case still => rfl
        all_goals exact id
      · cases checked
        apply watched.goOnSending run ?quiet ?work sending
        case still => exact sending
        case need | failed => exact id
        case work => rfl
        case quiet =>
          apply Quiet.of_qp
          apply calmerQp_updateSend
          intro entry _
          exact ⟨id, id⟩

/-- A context whose frames were posted again waits for the next run, or its error does. -/
theorem posted (watched : s.Watched) (on : s.txTimeout jiffies ≠ 0) (run : s.work.run = .inside pass) {addr : Nat}
    {reason : PostReason} (stage : pass.stage = .posting addr reason) (ret : Option Errno) (now : Nat) :
    (s.posted jiffies pass addr reason ret now).Watched := by
  have sending : pass.stage.sending = true := by rw [stage]; rfl
  unfold Timed.posted
  simp only
  split
  · apply watched.goOnSending run (.of_same rfl rfl rfl rfl rfl rfl) rfl sending
    case still => rfl
    all_goals exact id
  split
  · rename_i ended
    apply watched.setPass_dead run
    case work => rfl
    apply dead_of
    simp only [Qp.retried, if_pos ended]
    exact ended
  split
  case h_4 error notMem notConn =>
    apply watched.goOnSending run ?quiet ?work sending
    case still => rfl
    case need => exact id
    case failed => exact fun _ => rfl
    case work => rfl
    case quiet => exact .of_qp (calmerQp_retried_fatal notMem notConn)
  all_goals
    apply watched_needed
    case need => rfl
    case run => exact (run_schedule _).trans run
    case sound =>
      apply Timed.Watched.sound
      apply watched_schedule
      · exact watched.sound
      · exact on

theorem endSends (watched : s.Watched) (run : s.work.run = .inside pass) (stage : pass.stage = .sends) :
    (s.endSends pass).Watched := by
  unfold Timed.endSends
  simp only
  split
  · exact watched.setPass_dead run (work_markError s) (dead_markError s)
  rename_i passed
  have comes (back : pass.ComesBack) : (pass.need && !pass.failed) = true := by
    rw [Bool.not_eq_true] at passed
    rcases back with need | ⟨failed, -⟩
    · rw [need, passed]
      rfl
    · exact absurd (passed.symm.trans failed) Bool.false_ne_true
  apply watched.goOn run (.of_same rfl rfl rfl rfl rfl rfl) rfl
  · rintro (start | back)
    · rw [stage] at start
      cases start
    · exact .inr (.inl (comes back))
  · rintro (start | start | back)
    · rw [stage] at start
      cases start
    · rw [stage] at start
      cases start
    · exact .inr (.inr (.inl (comes back)))
  · intro _
    exact .inl PassStage.noConfusion

/-- The stages behind the sends: what a run sees of sends, reads and responses is what it needs another run for. -/
structure Late (pass : TimeoutPass) : Prop where
  notTx : pass.stage ≠ .reapTx
  notResps : pass.stage ≠ .reapResps
  notSending : pass.stage.sending = false

theorem Late.need (late : Late pass) (back : pass.ComesBack) : pass.need = true := by
  rcases back with need | ⟨-, sending⟩
  · exact need
  · exact absurd (late.notSending.symm.trans sending) Bool.false_ne_true

theorem goOnLate (watched : s.Watched) (run : s.work.run = .inside pass) (quiet : s.Quiet t)
    (work : t.work = s.work) (late : Late pass) (need : pass.need = true → pass'.need = true)
    (rx : pass'.stage ≠ .last ∨ pass.stage = .last) : (t.setPass pass').Watched := by
  have comes (back : pass.ComesBack) : pass'.ComesBack := .inl (need (late.need back))
  apply watched.goOn run quiet work
  · rintro (start | back)
    · exact absurd start late.notTx
    · exact .inr (comes back)
  · rintro (start | start | back)
    · exact absurd start late.notTx
    · exact absurd start late.notResps
    · exact .inr (.inr (comes back))
  · intro sees
    rcases rx with further | last
    · exact .inl further
    · rcases sees with notLast | back
      · exact absurd last notLast
      · exact .inr (comes back)

theorem checkResp (watched : s.Watched) (run : s.work.run = .inside pass) (stage : pass.stage = .resps)
    (checked : s.checkResp pass = some t) : t.Watched := by
  have late : Late pass := by constructor <;> rw [stage] <;> first | exact PassStage.noConfusion | rfl
  have same : s.Quiet s := .of_same rfl rfl rfl rfl rfl rfl
  unfold Timed.checkResp at checked
  split at checked
  · cases checked
  · split at checked
    · cases checked
      apply watched.goOnLate run same rfl late
      case need => exact id
      case rx => exact .inl fun last => PassStage.noConfusion (stage.symm.trans last)
    · cases checked
      apply watched.goOnLate run same rfl late
      case need => exact id
      case rx => exact .inl PassStage.noConfusion

theorem responded (watched : s.Watched) (run : s.work.run = .inside pass) {addr : Nat} {wasSent : Bool}
    (stage : pass.stage = .responding addr wasSent) (ret : Option Errno) (now : Nat) :
    (s.responded pass addr wasSent ret now).Watched := by
  have late : Late pass := by constructor <;> rw [stage] <;> first | exact PassStage.noConfusion | rfl
  unfold Timed.responded
  by_cases listed : (s.resps.any fun entry => entry.1 = addr) = true
  · apply watched_needed
    case sound => exact watched.sound
    case run => exact run
    case need => exact Bool.or_eq_true_iff.mpr (.inr listed)
  · apply watched.goOnLate run ?quiet ?work late
    case work => rfl
    case need => exact fun needed => Bool.or_eq_true_iff.mpr (.inl needed)
    case rx => exact .inl PassStage.noConfusion
    case quiet =>
      apply Quiet.of_resps
      intro entry member _
      rcases mem_updateFirst member with old | ⟨old, inside, chosen, -⟩
      · exact old
      · exact absurd (List.any_eq_true.mpr ⟨old, inside, chosen⟩) listed

theorem endResps (watched : s.Watched) (run : s.work.run = .inside pass) (stage : pass.stage = .resps) :
    (s.endResps pass).Watched := by
  have late : Late pass := by constructor <;> rw [stage] <;> first | exact PassStage.noConfusion | rfl
  unfold Timed.endResps
  split
  · exact watched.setPass_dead run (work_markError s) (dead_markError s)
  · apply watched.goOnLate run (.of_same rfl rfl rfl rfl rfl rfl) rfl late
    case need => exact id
    case rx => exact .inl PassStage.noConfusion

theorem reapRx (watched : s.Watched) (run : s.work.run = .inside pass) (stage : pass.stage = .reapRx)
    {left : List Nat} (reaped : s.reapRx pass left = some t) : t.Watched := by
  have late : Late pass := by constructor <;> rw [stage] <;> first | exact PassStage.noConfusion | rfl
  unfold Timed.reapRx at reaped
  simp only at reaped
  split at reaped
  · cases reaped
  cases reaped
  cases left with
  | cons begun rest =>
      apply watched_needed
      case sound => exact watched.sound
      case run => exact run
      case need => exact Bool.or_true _
  | nil =>
      apply watched.setPass run
      case work => rfl
      · intro live ticks
        refine .inr ⟨⟨live.stays, live.works⟩, ticks.of_same rfl rfl rfl, ?_⟩
        rintro (start | back)
        · exact absurd start late.notTx
        · exact .inr (.inl (Bool.or_eq_true_iff.mpr (.inl (late.need back))))
      · intro live ticks
        refine .inr ⟨⟨live.stays, live.works⟩, ticks, ?_⟩
        rintro (start | start | back)
        · exact absurd start late.notTx
        · exact absurd start late.notResps
        · exact .inr (.inr (.inl (Bool.or_eq_true_iff.mpr (.inl (late.need back)))))
      · intro _ ticks
        exact absurd rfl ticks.1

/-- A run that ends needs no other one, or has it. -/
theorem finish (watched : s.Watched) (on : s.txTimeout jiffies ≠ 0) (run : s.work.run = .inside pass)
    (stage : pass.stage = .last) : (s.finish jiffies pass).Watched := by
  have late : Late pass := by constructor <;> rw [stage] <;> first | exact PassStage.noConfusion | rfl
  have sound := watched.sound.leave run
  unfold Timed.finish
  simp only
  split
  · exact watched_schedule sound on
  rename_i enough
  have quiet : s.Quiet { s with work := s.work.leave } := .of_same rfl rfl rfl rfl rfl rfl
  have blind (back : pass.ComesBack) : False := enough (late.need back)
  refine ⟨sound, ?_, ?_, ?_⟩
  · intro live ticks
    apply (watched.tx (quiet.live live) (quiet.tx ticks)).leave run
    rintro (start | back)
    · exact late.notTx start
    · exact blind back
  · intro live ticks
    apply (watched.resps (quiet.live live) (quiet.resps ticks)).leave run
    rintro (start | start | back)
    · exact late.notTx start
    · exact late.notResps start
    · exact blind back
  · intro live ticks
    apply (watched.rx (quiet.live live) (quiet.rx ticks)).leave run
    rintro (notLast | back)
    · exact notLast stage
    · exact blind back

end Timed.Watched

end Pass

/-! ## Runs -/

section Runs

variable {s s' t : Timed} {jiffies : Jiffies}

theorem Timed.inside_some {f : TimeoutPass → Option Timed} (stepped : s.inside f = some s') :
    ∃ pass, s.work.run = .inside pass ∧ f pass = some s' := by
  unfold inside at stepped
  split at stepped
  · rename_i pass run
    exact ⟨pass, run, stepped⟩
  · cases stepped
  · cases stepped

theorem Timed.quiet_returnCredit (s : Timed) :
    s.Quiet { s with
      qp := s.qp.returnRemoteRecvCredit
      creditReturned := s.creditReturned || s.qp.remoteRecvCredits = 0 } := by
  have same : s.qp.returnRemoteRecvCredit.closing = s.qp.closing ∧
      s.qp.returnRemoteRecvCredit.state = s.qp.state ∧
      s.qp.returnRemoteRecvCredit.pendingSends = s.qp.pendingSends ∧
      s.qp.returnRemoteRecvCredit.pendingReads = s.qp.pendingReads := by
    unfold Qp.returnRemoteRecvCredit
    split <;> exact ⟨rfl, rfl, rfl, rfl⟩
  obtain ⟨closing, state, sends, reads⟩ := same
  refine ⟨fun live => ⟨closing ▸ live.stays, state ▸ live.works⟩, ?_, id, id⟩
  intro ticks
  cases ticks with
  | send entry member ticks => exact .send entry (sends ▸ member) ticks
  | read entry member ticks => exact .read entry (reads ▸ member) ticks
  | credit entry member waits credits noted returned =>
      obtain ⟨before, had⟩ := Bool.or_eq_false_iff.mp returned
      exact .credit entry (sends ▸ member) waits (of_decide_eq_false had) noted before

/-- Credits that were taken are left to the handler that took them. -/
theorem Timed.quiet_acceptCredit (s : Timed) (credits : Nat) :
    s.Quiet { s with
      qp := { s.qp with remoteRecvCredits := credits }
      creditsNoted := s.creditsNoted + 1 } := by
  refine ⟨fun live => ⟨live.stays, live.works⟩, ?_, id, id⟩
  intro ticks
  cases ticks with
  | send entry member ticks => exact .send entry member ticks
  | read entry member ticks => exact .read entry member ticks
  | credit entry member waits credits noted => exact absurd noted (Nat.succ_ne_zero _)

/-- One section, while the timeout of the queue pair is not turned off. -/
theorem Timed.Watched.step (watched : s.Watched) (on : s.txTimeout jiffies ≠ 0) {action : TimedAction}
    (stepped : s.step jiffies action = some s') : s'.Watched := by
  cases action with
  | queueSend addr send =>
      cases stepped
      apply watched.setQp
      apply calmerQp_queueSend
      exact ⟨rfl, rfl⟩
  | unqueueSend addr =>
      cases stepped
      exact watched.setQp (calmerQp_unqueueSend addr)
  | enqueueFrames addr frames =>
      cases stepped
      apply watched.setQp
      apply calmerQp_updateSend
      intro entry _
      exact ⟨id, id⟩
  | releaseFrames addr frames =>
      cases stepped
      apply watched.setQp
      apply calmerQp_updateSend
      intro entry _
      exact ⟨id, id⟩
  | armSend addr now =>
      cases stepped
      exact watched.armSend on addr now
  | sendTxDone addr sent now =>
      cases stepped
      exact watched.sendTxDone on addr sent now
  | completeSend psn status =>
      cases stepped
      exact watched.setQp (calmerQp_completeSendOrdered psn status)
  | rnrAck psn now =>
      cases stepped
      exact watched.rnrAck on psn now
  | queueRead addr read =>
      cases stepped
      apply watched.setQp
      apply calmerQp_queueRead
      rfl
  | unqueueRead addr =>
      cases stepped
      exact watched.setQp (calmerQp_unqueueRead addr)
  | armRead addr now =>
      cases stepped
      exact watched.armRead on addr now
  | completeRead addr status =>
      cases stepped
      exact watched.setQp (calmerQp_completeReadOrdered addr status)
  | consumeCredit =>
      simp only [Timed.step] at stepped
      cases consumed : s.qp.consumeRemoteRecvCredit with
      | error error =>
          rw [consumed] at stepped
          cases stepped
      | ok qp =>
          rw [consumed] at stepped
          cases stepped
          exact watched.setQp (calmerQp_consumeCredit consumed)
  | returnCredit =>
      cases stepped
      exact watched.quiet s.quiet_returnCredit rfl
  | acceptCredit credits =>
      simp only [Timed.step] at stepped
      split at stepped
      · cases stepped
      · cases stepped
        exact watched.quiet (s.quiet_acceptCredit _) rfl
  | creditWakes =>
      simp only [Timed.step] at stepped
      split at stepped
      · cases stepped
      · cases stepped
        exact watched_scheduleNow watched.sound on
  | queueResp addr snap =>
      cases stepped
      apply watched.setResps
      intro entry member ticks
      rcases List.mem_append.mp member with old | own
      · exact old
      · rw [List.mem_singleton.mp own] at ticks
        exact absurd rfl ticks
  | noteRespSent addr now =>
      cases stepped
      exact watched.noteRespSent on addr now
  | armResp addr now =>
      cases stepped
      exact watched.armResp on addr now
  | readAck psn status now =>
      cases stepped
      exact watched.readAck on psn status now
  | beginRx now =>
      simp only [Timed.step] at stepped
      split at stepped
      · cases stepped
      · cases stepped
        refine watched.quiet ⟨fun live => ⟨live.stays, live.works⟩, ?_, id, ?_⟩ rfl
        · intro ticks
          exact ticks.of_same rfl rfl rfl
        · intro ticks
          exact absurd ticks.2 Bool.noConfusion
  | scheduleRx =>
      simp only [Timed.step] at stepped
      split at stepped
      · cases stepped
        exact watched_schedule watched.sound on
      · cases stepped
  | endRx left =>
      simp only [Timed.step] at stepped
      split at stepped
      · cases stepped
      · rename_i fewer
        cases stepped
        simp only [Bool.or_eq_true, not_or, Bool.not_eq_true', Bool.not_eq_false, Bool.not_eq_true,
          List.isSublist_iff_sublist] at fewer
        refine watched.quiet ⟨fun live => ⟨live.stays, live.works⟩, ?_, id, ?_⟩ rfl
        · intro ticks
          exact ticks.of_same rfl rfl rfl
        · rintro ⟨left, -⟩
          refine ⟨fun none => left ?_, fewer.1⟩
          exact List.sublist_nil.mp (none ▸ fewer.2)
  | flushSends =>
      cases stepped
      exact watched.setQp ((CalmerQp.refl s.qp).sends_sublist (List.nil_sublist _) _)
  | flushReads =>
      cases stepped
      exact watched.setQp ((CalmerQp.refl s.qp).reads_sublist (List.nil_sublist _) _)
  | cancelResps =>
      cases stepped
      apply watched.setResps
      intro entry member
      cases member
  | modify state =>
      simp only [Timed.step] at stepped
      split at stepped
      · cases stepped
      · rename_i works
        cases stepped
        exact watched.setQp { CalmerQp.refl s.qp with works := fun _ => works }
  | setTimeout timeout =>
      cases stepped
      exact watched.quiet (.of_same rfl rfl rfl rfl rfl rfl) rfl
  | setMinRnrTimer timer =>
      cases stepped
      exact watched.quiet (.of_same rfl rfl rfl rfl rfl rfl) rfl
  | setParam ms =>
      cases stepped
      exact watched.quiet (.of_same rfl rfl rfl rfl rfl rfl) rfl
  | markError =>
      cases stepped
      apply watched_of_dead
      · rw [work_markError]
        exact watched.sound
      · exact dead_markError s
  | close =>
      cases stepped
      exact watched_of_dead watched.sound (dead_of_closing rfl)
  | cancelWork =>
      simp only [Timed.step] at stepped
      split at stepped
      · rename_i closing
        obtain ⟨work, cancelled, rfl⟩ := Option.map_eq_some_iff.mp stepped
        exact watched_of_dead (DelayedWork.sound_cancel cancelled) (dead_of_closing closing)
      · cases stepped
  | start =>
      obtain ⟨work, started, rfl⟩ := Option.map_eq_some_iff.mp stepped
      exact watched_of_due (DelayedWork.Sound.start started) (DelayedWork.due_start started)
  | enter now => exact Timed.Watched.enter on stepped
  | reapTx =>
      obtain ⟨pass, run, stepped⟩ := inside_some stepped
      obtain ⟨-, same⟩ := Option.ite_none_right_eq_some.mp stepped
      cases same
      exact .reapTx watched.sound run
  | reapResps =>
      obtain ⟨pass, run, stepped⟩ := inside_some stepped
      obtain ⟨stage, same⟩ := Option.ite_none_right_eq_some.mp stepped
      cases same
      exact watched.reapResps run stage
  | checkSend =>
      obtain ⟨pass, run, stepped⟩ := inside_some stepped
      obtain ⟨stage, checked⟩ := Option.ite_none_right_eq_some.mp stepped
      exact watched.checkSend run stage checked
  | posted ret now =>
      obtain ⟨pass, run, stepped⟩ := inside_some stepped
      split at stepped
      · rename_i stage
        cases stepped
        exact watched.posted on run stage ret now
      · cases stepped
  | endSends =>
      obtain ⟨pass, run, stepped⟩ := inside_some stepped
      obtain ⟨stage, same⟩ := Option.ite_none_right_eq_some.mp stepped
      cases same
      exact watched.endSends run stage.1
  | checkResp =>
      obtain ⟨pass, run, stepped⟩ := inside_some stepped
      obtain ⟨stage, checked⟩ := Option.ite_none_right_eq_some.mp stepped
      exact watched.checkResp run stage checked
  | responded ret now =>
      obtain ⟨pass, run, stepped⟩ := inside_some stepped
      split at stepped
      · rename_i stage
        cases stepped
        exact watched.responded run stage ret now
      · cases stepped
  | endResps =>
      obtain ⟨pass, run, stepped⟩ := inside_some stepped
      obtain ⟨stage, same⟩ := Option.ite_none_right_eq_some.mp stepped
      cases same
      exact watched.endResps run stage.1
  | reapRx left =>
      obtain ⟨pass, run, stepped⟩ := inside_some stepped
      obtain ⟨stage, reaped⟩ := Option.ite_none_right_eq_some.mp stepped
      exact watched.reapRx run stage reaped
  | rxError =>
      obtain ⟨pass, run, stepped⟩ := inside_some stepped
      obtain ⟨-, same⟩ := Option.ite_none_right_eq_some.mp stepped
      cases same
      exact watched.setPass_dead run (work_markError s) (dead_markError s)
  | finish =>
      obtain ⟨pass, run, stepped⟩ := inside_some stepped
      obtain ⟨stage, same⟩ := Option.ite_none_right_eq_some.mp stepped
      cases same
      exact watched.finish on run stage.1

theorem Timed.Fresh.watched (fresh : s.Fresh) : s.Watched := by
  constructor
  · rw [fresh.work]
    intro armed
    cases armed
  · intro _ ticks
    cases ticks with
    | send entry member | credit entry member =>
        rw [fresh.sends] at member
        cases member
    | read entry member =>
        rw [fresh.reads] at member
        cases member
  · rintro _ ⟨entry, member, -⟩
    rw [fresh.resps] at member
    cases member
  · rintro _ ⟨begun, -⟩
    exact absurd fresh.rx begun

/-- While the timeout of the queue pair is on, whatever is outstanding has the timeout work queued when no run of
it is on its way. A credit that a post gave back is left out until the work has looked at the sends again: it wakes
nobody. -/
theorem outstanding_is_watched
    (reachable : (timeoutSystem jiffies).ReachableVia (fun s _ => s.txTimeout jiffies ≠ 0) s) (live : s.Live)
    (outstanding : s.Outstanding) (idle : s.work.Idle) : s.work.queued = true := by
  have watched : s.Watched :=
    reachable.invariant (fun _ => Timed.Fresh.watched) fun _ _ _ watched on stepped => watched.step on stepped
  cases outstanding with
  | tx ticks => exact (watched.tx live ticks).queued idle
  | resp ticks => exact (watched.resps live ticks).queued idle
  | rx ticks => exact (watched.rx live ticks).queued idle

end Runs

/-- A jiffy is a millisecond. -/
def thousandHz : Jiffies where
  ofNsecs nsecs := nsecs / 1000000
  ofUsecs usecs := (usecs + 999) / 1000
  ofMsecs msecs := msecs

def quietQp : Timed where
  qp :=
    { state := .rts, refs := 1, qpNum := 2, destQpKnown := true, destQpNum := 3, retryCnt := 1, rnrRetry := 7
      maxSendWr := 4, sendPsn := 5, remoteRecvCredits := 2 }
  qpTimeoutMs := 500

def creditedSend : SendCtx where
  msg :=
    { op := .send, destQp := 3, srcQp := 2, psn := 5, totalLen := 8, immData := 0, remoteAddr := 0, rkey := 0
      solicited := false }
  maxRetries := 1
  maxRnrRetries := rnrRetriesInfinite
  recvCreditRequired := true

/-- The packet of a send is gone, and the work has looked at it once. -/
def watchedRun : List TimedAction :=
  [.queueSend 1 creditedSend, .enqueueFrames 1 1, .sendTxDone 1 true 20, .start, .enter 120, .reapTx, .reapResps,
    .endSends, .endResps, .reapRx [], .finish]

theorem outstanding_is_watched_watchedRun :
    ∃ s, (timeoutSystem thousandHz).ReachableVia (fun s _ => s.txTimeout thousandHz ≠ 0) s ∧ s.Live ∧ s.Outstanding ∧
      s.work.queued = true := by
  have start : (timeoutSystem thousandHz).init quietQp := ⟨rfl, rfl, rfl, rfl, rfl, rfl⟩
  obtain ⟨s, reachable, passed⟩ := System.exists_reachableVia (timeoutSystem thousandHz)
    (fun s _ => s.txTimeout thousandHz ≠ 0) watchedRun
    (fun s => !s.qp.closing && s.qp.state ≠ .err && s.qp.pendingSends.any (fun entry => sendTicks entry.2) &&
      match s.work.run with
      | .idle => true
      | _ => false) start (by decide +kernel)
  simp only [Bool.and_eq_true, Bool.not_eq_true', decide_eq_true_eq, List.any_eq_true] at passed
  obtain ⟨⟨⟨stays, works⟩, entry, member, ticks⟩, idle⟩ := passed
  have none : s.work.Idle := by
    unfold DelayedWork.Idle
    split at idle
    · assumption
    · cases idle
  exact ⟨s, reachable, ⟨stays, works⟩, .tx (.send entry member ticks),
    outstanding_is_watched reachable ⟨stays, works⟩ (.tx (.send entry member ticks)) none⟩

/-- The receiver is not ready before the packet is done, another post has the last credit, and gives it back. -/
def returnedRun : List TimedAction :=
  [.consumeCredit, .queueSend 1 creditedSend, .enqueueFrames 1 1, .consumeCredit, .rnrAck 5 20, .returnCredit,
    .sendTxDone 1 true 21]

/-- A credit that a post gives back wakes nobody: a send goes on waiting for a credit that is there. -/
theorem returned_credit_wakes_nobody :
    ∃ s, (timeoutSystem thousandHz).ReachableVia (fun s _ => s.txTimeout thousandHz ≠ 0) s ∧
      s.qp.remoteRecvCredits = 1 ∧ s.qp.pendingSends.any (fun entry => waitsForCredit entry.2) ∧
      s.creditsNoted = 0 ∧ s.work.queued = false := by
  have start : (timeoutSystem thousandHz).init quietQp := ⟨rfl, rfl, rfl, rfl, rfl, rfl⟩
  obtain ⟨s, reachable, passed⟩ := System.exists_reachableVia (timeoutSystem thousandHz)
    (fun s _ => s.txTimeout thousandHz ≠ 0) returnedRun
    (fun s => s.qp.remoteRecvCredits = 1 && s.qp.pendingSends.any (fun entry => waitsForCredit entry.2) &&
      s.creditsNoted = 0 && !s.work.queued) start (by decide +kernel)
  simp only [Bool.and_eq_true, Bool.not_eq_true', decide_eq_true_eq] at passed
  exact ⟨s, reachable, passed.1.1.1, passed.1.1.2, passed.1.2, passed.2⟩

end ThunderboltVerbs.SendQueue
