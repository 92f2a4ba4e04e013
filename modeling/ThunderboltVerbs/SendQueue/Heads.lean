import ThunderboltVerbs.SendQueue.Slots

/-!
# The heads of the pending lists

A request that is finished leaves its list once nothing is before it: the functions that finish a request
drain its list. `tbv_qp_unqueue_send`, `tbv_qp_unqueue_read` and the timeout of reads take a request off its
list without looking at the ones behind it.
-/

namespace ThunderboltVerbs.SendQueue
open Proto Lib Verbs

/-! ## Lists -/

section Lists

variable {α : Type} {ready : α → Bool} {entries : List (Nat × α)}

def Waits (ready : α → Bool) (entries : List (Nat × α)) : Prop :=
  ∀ entry ∈ entries.head?, ready entry.2 = false

/-- The entry at the head is the one of that address, and the next one is ready. -/
def readyBehind (ready : α → Bool) (addr : Nat) : List (Nat × α) → Bool
  | head :: next :: _ => head.1 = addr && ready next.2
  | _ => false

/-- The entries that leave are at the head, and the first one that stays is ready. -/
def readyBehindAll (ready : α → Bool) (leaves : Nat × α → Bool) (entries : List (Nat × α)) : Bool :=
  entries.head?.any leaves && (entries.find? fun entry => !leaves entry).any fun entry => ready entry.2

theorem waits_nil : Waits ready [] := by simp [Waits]

theorem waits_dropWhile : Waits ready (entries.dropWhile fun entry => ready entry.2) := by
  intro entry head
  have test := List.head?_dropWhile_not (fun entry => ready entry.2) entries
  rw [Option.mem_def.mp head] at test
  exact test

theorem Waits.append {addr : Nat} {a : α} (waits : Waits ready entries) (unready : ready a = false) :
    Waits ready (entries ++ [(addr, a)]) := by
  cases entries with
  | nil =>
      intro entry head
      cases head
      exact unready
  | cons first rest => exact waits

theorem Waits.map {f : Nat × α → Nat × α} (waits : Waits ready entries)
    (same : ∀ entry, ready (f entry).2 = ready entry.2) : Waits ready (entries.map f) := by
  cases entries with
  | nil => exact waits_nil
  | cons first rest =>
      intro entry head
      cases head
      rw [same]
      exact waits first rfl

theorem Waits.updateFirst {which : Nat × α → Bool} {f : Nat × α → Nat × α} (waits : Waits ready entries)
    (same : ∀ entry, ready (f entry).2 = ready entry.2) : Waits ready (updateFirst which f entries) := by
  cases entries with
  | nil => exact waits_nil
  | cons first rest =>
      have head := waits first rfl
      intro entry here
      simp only [Lib.updateFirst] at here
      split at here
      · cases here
        rw [same]
        exact head
      · cases here
        exact head

theorem Waits.eraseP {addr : Nat} (waits : Waits ready entries) (covered : readyBehind ready addr entries = false) :
    Waits ready (entries.eraseP fun entry => entry.1 = addr) := by
  cases entries with
  | nil => exact waits_nil
  | cons first rest =>
      by_cases here : first.1 = addr
      · rw [List.eraseP_cons_of_pos (by simpa using here)]
        cases rest with
        | nil => exact waits_nil
        | cons next later =>
            intro entry head
            cases head
            simpa [readyBehind, here] using covered
      · rw [List.eraseP_cons_of_neg (by simpa using here)]
        exact fun entry head => waits entry head

theorem Waits.filter {leaves : Nat × α → Bool} (waits : Waits ready entries)
    (covered : readyBehindAll ready leaves entries = false) :
    Waits ready (entries.filter fun entry => !leaves entry) := by
  intro entry head
  rw [List.head?_filter] at head
  cases entries with
  | nil => cases head
  | cons first rest =>
      by_cases here : leaves first = true
      · simp only [readyBehindAll, List.head?_cons, Option.any_some, here, Bool.true_and] at covered
        rw [Option.mem_def.mp head] at covered
        exact covered
      · rw [List.find?_cons_of_pos (by simpa using here)] at head
        exact waits entry head

end Lists

/-! ## Critical sections -/

structure HeadsWait (qp : Qp) : Prop where
  sends : Waits SendCtx.ready qp.pendingSends
  reads : Waits ReadCtx.ready qp.pendingReads

variable {qp : Qp} {psn now addr : Nat}

theorem HeadsWait.drainReadySends (waits : HeadsWait qp) (sends : List SendEntry) :
    HeadsWait { qp with pendingSends := sends }.drainReadySends.1 :=
  ⟨waits_dropWhile, waits.reads⟩

theorem HeadsWait.completeSendOrdered (waits : HeadsWait qp) (psn : Nat) (status : Option Errno) :
    HeadsWait (qp.completeSendOrdered psn status).1 := by
  unfold Qp.completeSendOrdered
  split
  · exact waits.drainReadySends _
  · exact waits

theorem HeadsWait.noteRnrAck (waits : HeadsWait qp) : HeadsWait (qp.noteRnrAck psn now).1 := by
  unfold Qp.noteRnrAck
  split
  · exact waits
  · split
    · exact waits.drainReadySends _
    · exact ⟨waits.sends.updateFirst fun _ => rfl, waits.reads⟩

theorem ready_visitSend (env : ReapEnv) (credits : Nat) (send : SendCtx)
    (stays : (Qp.visitSend env credits send).2.2 = false) : (Qp.visitSend env credits send).1.ready = send.ready := by
  unfold Qp.visitSend at stays ⊢
  split at stays
  · simp only
  · simp only
  · simp only
  · cases stays

theorem waits_visitSends {env : ReapEnv} {credits : Nat} {sends : List SendEntry} (waits : Waits SendCtx.ready sends)
    (stays : (Qp.visitSends env credits sends).2.2 = false) :
    Waits SendCtx.ready (Qp.visitSends env credits sends).1 := by
  cases sends with
  | nil => exact waits
  | cons entry rest =>
      simp only [Qp.visitSends, Bool.or_eq_false_iff] at stays ⊢
      intro head here
      cases here
      rw [ready_visitSend env credits entry.2 stays.1]
      exact waits entry rfl

theorem HeadsWait.timeoutReapSends (waits : HeadsWait qp) (clock : Qp.Clock) :
    HeadsWait (qp.timeoutReapSends clock).1 := by
  unfold Qp.timeoutReapSends
  simp only
  split
  · exact ⟨waits_dropWhile, waits.reads⟩
  · rename_i stays
    exact ⟨waits_visitSends waits.sends (by simpa using stays), waits.reads⟩

theorem HeadsWait.retried {reason : PostReason} {ret : Option Errno} (waits : HeadsWait qp) :
    HeadsWait (qp.retried addr reason ret now).1 := by
  unfold Qp.retried
  simp only
  split
  · exact ⟨waits.sends.updateFirst fun _ => rfl, waits.reads⟩
  · split
    · refine ⟨waits.sends.updateFirst fun entry => ?_, waits.reads⟩
      dsimp only
      split <;> rfl
    · exact ⟨waits.sends.updateFirst fun _ => rfl, waits.reads⟩
    · exact ⟨waits.sends.updateFirst fun _ => rfl, waits.reads⟩
    · exact waits.drainReadySends _

theorem HeadsWait.unqueueSend (waits : HeadsWait qp)
    (covered : readyBehind SendCtx.ready addr qp.pendingSends = false) : HeadsWait (qp.unqueueSend addr).1 := by
  have removed := waits.sends.eraseP covered
  unfold Qp.unqueueSend
  split
  · exact waits
  · split <;> exact ⟨removed, waits.reads⟩

theorem HeadsWait.completeReadOrdered (waits : HeadsWait qp) (status : Option Errno) :
    HeadsWait (qp.completeReadOrdered addr status).1 := by
  unfold Qp.completeReadOrdered
  split
  · exact ⟨waits.sends, waits_dropWhile⟩
  · exact waits

theorem HeadsWait.unqueueRead (waits : HeadsWait qp)
    (covered : readyBehind ReadCtx.ready addr qp.pendingReads = false) : HeadsWait (qp.unqueueRead addr).1 := by
  have removed := waits.reads.eraseP covered
  unfold Qp.unqueueRead
  split
  · exact waits
  · split <;> exact ⟨waits.sends, removed⟩

theorem HeadsWait.timeoutReapReads {clock : Qp.Clock} (waits : HeadsWait qp)
    (covered : readyBehindAll ReadCtx.ready (readExpired clock) qp.pendingReads = false) :
    HeadsWait (qp.timeoutReapReads clock).1 :=
  ⟨waits.sends, waits.reads.filter covered⟩

theorem HeadsWait.armReadTimeout (waits : HeadsWait qp) : HeadsWait (qp.armReadTimeout addr now) := by
  refine ⟨waits.sends, waits.reads.updateFirst fun entry => ?_⟩
  simp only
  split <;> rfl

theorem headsWait_giveBack (credit : Bool) (waits : HeadsWait qp) : HeadsWait (giveBack qp credit) := by
  simp only [giveBack, Qp.returnRemoteRecvCredit]
  split
  · split <;> exact ⟨waits.sends, waits.reads⟩
  · exact waits

/-! ## Steps -/

def Job.unfinished : Job → Bool
  | .post _ _ _ (.send ctx _) => !ctx.ready
  | .post _ _ _ (.read ctx) => !ctx.ready
  | _ => true

structure Unexposed (m : Machine) : Prop where
  heads : HeadsWait m.qp
  posts : ∀ job ∈ m.jobs, job.unfinished = true

/-- The step of the job takes no request off the head of its list when a finished one stands behind it. -/
def coveredJob (qp : Qp) : Job → Action → Bool
  | .post .queued addr _ (.send ..), .failed .. => !readyBehind SendCtx.ready addr qp.pendingSends
  | .unqueue addr .., .unqueue _ => !readyBehind ReadCtx.ready addr qp.pendingReads
  | .readTx addr, .readTxDone _ (some _) _ => !readyBehind ReadCtx.ready addr qp.pendingReads
  | _, _ => true

def covered (m : Machine) (action : Action) : Bool :=
  match action with
  | .timeout clock => !readyBehindAll ReadCtx.ready (readExpired clock) m.qp.pendingReads
  | action => (action.job.bind fun i => m.jobs[i]?).all fun job => coveredJob m.qp job action

variable {m m' : Machine} {serial : Nat} {request : Request}

theorem Unexposed.addJobs {jobs : List Job} (unexposed : Unexposed m)
    (fresh : ∀ job ∈ jobs, job.unfinished = true) : Unexposed (m.addJobs jobs) := by
  refine ⟨unexposed.heads, fun job member => ?_⟩
  rcases List.mem_append.mp member with new | old
  · exact fresh job new
  · exact unexposed.posts job old

theorem Unexposed.addJob {job : Job} (unexposed : Unexposed m) (fresh : job.unfinished = true) :
    Unexposed (m.addJobs [job]) :=
  unexposed.addJobs fun _ member => List.mem_singleton.mp member ▸ fresh

theorem Unexposed.setQp (unexposed : Unexposed m) {qp : Qp} (heads : HeadsWait qp) : Unexposed { m with qp } :=
  ⟨heads, unexposed.posts⟩

theorem Unexposed.release (unexposed : Unexposed m) {qp : Qp} (slots : List Nat) (heads : HeadsWait qp) :
    Unexposed (m.release qp slots) := by
  rw [release_eq]
  exact ⟨heads, unexposed.posts⟩

theorem Unexposed.takeSends {result : Qp × List SendEntry} (unexposed : Unexposed m) (heads : HeadsWait result.1) :
    Unexposed (m.takeSends result) :=
  (unexposed.release _ heads).addJob rfl

theorem Unexposed.takeReads {result : Qp × List ReadEntry} {status : ReadCtx → Option Errno}
    (unexposed : Unexposed m) (heads : HeadsWait result.1) : Unexposed (m.takeReads result status) :=
  (unexposed.release _ heads).addJob rfl

theorem Unexposed.transmit {psn more : Nat} (unexposed : Unexposed m) : Unexposed (m.transmit addr psn more) := by
  refine ⟨⟨unexposed.heads.sends.updateFirst fun _ => rfl, unexposed.heads.reads⟩, fun job member => ?_⟩
  rcases List.mem_append.mp member with new | old
  · rw [List.eq_of_mem_replicate new]
    rfl
  · exact unexposed.posts job old

theorem unfinished_setCounted (stage stage' : Stage) (counted : Bool) :
    (Job.post stage' addr serial (request.setCounted counted)).unfinished =
      (Job.post stage addr serial request).unfinished := by
  cases request <;> rfl

theorem unfinished_setPsn (stage stage' : Stage) (psn : Nat) :
    (Job.post stage' addr serial (request.setPsn psn)).unfinished =
      (Job.post stage addr serial request).unfinished := by
  cases request <;> rfl

theorem Unexposed.advance {stage : Stage} (unexposed : Unexposed m)
    (fresh : (Job.post stage addr serial request).unfinished = true)
    (ran : m.advance addr serial request stage = some m') : Unexposed m' := by
  cases stage with
  | allocated =>
      simp only [Machine.advance] at ran
      split at ran
      · rename_i qp reserved
        cases ran
        have heads : HeadsWait qp := by
          obtain rfl := reserveSendq_eq reserved
          exact ⟨unexposed.heads.sends, unexposed.heads.reads⟩
        have marked : Unexposed { m.mark addr .reserved with qp } := ⟨heads, unexposed.posts⟩
        exact marked.addJob ((unfinished_setCounted _ _ _).trans fresh)
      · cases ran
        refine ⟨?_, unexposed.posts⟩
        cases request with
        | send ctx credit => exact headsWait_giveBack credit unexposed.heads
        | read ctx => exact unexposed.heads
  | reserved =>
      cases ran
      have heads : HeadsWait m.qp.takePsn.1 := ⟨unexposed.heads.sends, unexposed.heads.reads⟩
      exact (unexposed.setQp heads).addJob ((unfinished_setPsn _ _ _).trans fresh)
  | numbered =>
      cases request with
      | send ctx credit =>
          cases ran
          have unready : ctx.ready = false := by simpa [Job.unfinished] using fresh
          have heads : HeadsWait (m.qp.queueSend addr ctx) :=
            ⟨unexposed.heads.sends.append unready, unexposed.heads.reads⟩
          exact (unexposed.setQp heads).addJob fresh
      | read ctx =>
          cases ran
          have unready : ctx.ready = false := by simpa [Job.unfinished] using fresh
          have heads : HeadsWait (m.qp.queueRead addr ctx) :=
            ⟨unexposed.heads.sends, unexposed.heads.reads.append unready⟩
          exact (unexposed.setQp heads).addJob fresh
  | linked =>
      cases ran
      exact Unexposed.addJob ⟨unexposed.heads, unexposed.posts⟩ (by cases request <;> exact fresh)
  | queued => cases ran

theorem Unexposed.sent {more : Nat} (unexposed : Unexposed m) : Unexposed (m.sent addr serial more request) := by
  cases request with
  | send ctx credit =>
      have posted : Unexposed (m.transmit addr ctx.msg.psn more) := unexposed.transmit
      exact ⟨posted.heads, posted.posts⟩
  | read ctx =>
      have waiting : Unexposed (m.addJobs [.readTx addr]) := unexposed.addJob rfl
      exact ⟨waiting.heads, waiting.posts⟩

theorem Unexposed.failedSend {ctx : SendCtx} {credit : Bool} {error : Errno} (unexposed : Unexposed m)
    (covered : readyBehind SendCtx.ready addr m.qp.pendingSends = false) :
    Unexposed (m.failed addr serial error (.send ctx credit)) := by
  have heads := unexposed.heads.unqueueSend covered
  simp only [Machine.failed]
  split
  · rename_i qp unqueued
    rw [unqueued] at heads
    have released := unexposed.release (Machine.sendSlots m.qp [addr]) heads
    exact ⟨headsWait_giveBack credit heads, released.posts⟩
  · exact ⟨unexposed.heads, unexposed.posts⟩

theorem Unexposed.unqueue {ctx : ReadCtx} {error : Errno} (unexposed : Unexposed m)
    (covered : readyBehind ReadCtx.ready addr m.qp.pendingReads = false) :
    Unexposed (m.unqueue addr serial ctx error) := by
  have heads := unexposed.heads.unqueueRead covered
  simp only [Machine.unqueue]
  split
  · rename_i qp unqueued
    rw [unqueued] at heads
    exact (unexposed.release _ heads).addJob rfl
  · exact unexposed.addJob rfl

theorem Unexposed.clearCounted (unexposed : Unexposed m) : Unexposed (m.clearCounted addr) := by
  refine ⟨⟨unexposed.heads.sends.map ?_, unexposed.heads.reads.map ?_⟩, fun job member => ?_⟩
  · intro entry
    split <;> rfl
  · intro entry
    split <;> rfl
  · obtain ⟨old, inside, rfl⟩ := List.mem_map.mp member
    have fresh := unexposed.posts old inside
    cases old with
    | post stage own number request =>
        dsimp only
        split
        · exact (unfinished_setCounted _ _ _).trans fresh
        · exact fresh
    | _ => rfl

theorem Unexposed.unwind {ctx : ReadCtx} {error : Errno} (unexposed : Unexposed m) :
    Unexposed (m.unwind addr serial ctx error) := by
  have released : Unexposed
      (if m.countedAt addr then (m.release m.qp.releaseSendq [addr]).clearCounted addr else m) := by
    split
    · have heads : HeadsWait m.qp.releaseSendq := ⟨unexposed.heads.sends, unexposed.heads.reads⟩
      exact (unexposed.release _ heads).clearCounted
    · exact unexposed
  exact ⟨released.heads, released.posts⟩

theorem Unexposed.sendTxDone {psn now : Nat} {status : Option Errno} (unexposed : Unexposed m) :
    Unexposed (m.sendTxDone addr psn status now) := by
  have counted : Unexposed (m.updateSend addr fun send => send.packetDone status.isNone now) :=
    ⟨⟨unexposed.heads.sends.updateFirst fun _ => rfl, unexposed.heads.reads⟩, unexposed.posts⟩
  cases status with
  | none => exact ⟨counted.heads, counted.posts⟩
  | some error => exact counted.addJob rfl

theorem Unexposed.readTxDone {now : Nat} {status : Option Errno} (unexposed : Unexposed m)
    (covered : status.isSome = true → readyBehind ReadCtx.ready addr m.qp.pendingReads = false) :
    Unexposed (m.readTxDone addr status now) := by
  cases status with
  | none => exact ⟨unexposed.heads.armReadTimeout, unexposed.posts⟩
  | some error =>
      simp only [Machine.readTxDone]
      split
      · exact ⟨unexposed.heads, unexposed.posts⟩
      · exact (unexposed.takeReads (unexposed.heads.unqueueRead (covered rfl))).addJob rfl

theorem Unexposed.retryCheck {reason : PostReason} (unexposed : Unexposed m) :
    Unexposed (m.retryCheck addr reason) := by
  simp only [Machine.retryCheck]
  split
  · exact ⟨unexposed.heads, unexposed.posts⟩
  · split
    · exact unexposed.addJob rfl
    · exact ⟨⟨unexposed.heads.sends.updateFirst fun _ => rfl, unexposed.heads.reads⟩, unexposed.posts⟩

theorem Unexposed.repost {psn more now : Nat} {reason : PostReason} {ret : Option Errno} (unexposed : Unexposed m) :
    Unexposed (m.repost addr psn reason ret more now) := by
  have posted : Unexposed (if ret.isNone then m.transmit addr psn more else m) := by
    split
    · exact unexposed.transmit
    · exact unexposed
  simp only [Machine.repost]
  generalize (if ret.isNone then m.transmit addr psn more else m) = sending at posted ⊢
  refine (posted.takeSends ?_).addJob rfl
  split
  · exact posted.heads.retried
  · exact posted.heads

theorem Unexposed.ack {psn now : Nat} {status : SendAckStatus} (unexposed : Unexposed m)
    (handled : m.ack psn status now = some m') : Unexposed m' := by
  obtain ⟨entry, -, rfl⟩ := Option.map_eq_some_iff.mp handled
  have retained : Unexposed (m.retain entry.1) := ⟨unexposed.heads, unexposed.posts⟩
  refine (retained.takeSends ?_).addJob rfl
  cases status with
  | ok => exact unexposed.heads.completeSendOrdered psn none
  | rnr => exact unexposed.heads.noteRnrAck
  | error => exact unexposed.heads.completeSendOrdered psn _

theorem Unexposed.timeout {clock : Qp.Clock} (unexposed : Unexposed m)
    (covered : readyBehindAll ReadCtx.ready (readExpired clock) m.qp.pendingReads = false) :
    Unexposed (m.timeout clock) := by
  have sends := unexposed.heads.timeoutReapSends clock
  have reads : (m.qp.timeoutReapSends clock).1.pendingReads = m.qp.pendingReads :=
    (sendsLeave_timeoutReapSends clock).reads
  unfold Machine.timeout
  refine Unexposed.takeReads (Unexposed.takeSends ⟨unexposed.heads, fun job member => ?_⟩ sends) ?_
  · rcases List.mem_append.mp member with new | old
    · obtain ⟨entry, -, rfl⟩ := List.mem_map.mp new
      rfl
    · exact unexposed.posts job old
  · refine sends.timeoutReapReads ?_
    rw [reads]
    exact covered

theorem Unexposed.finish {due : Due} (unexposed : Unexposed m) : Unexposed (m.finish due) := by
  unfold Machine.finish
  split
  · exact unexposed
  · split
    · exact unexposed
    · exact ⟨unexposed.heads, unexposed.posts⟩

theorem Unexposed.run {job : Job} {action : Action} (unexposed : Unexposed m) (fresh : job.unfinished = true)
    (covered : coveredJob m.qp job action = true) (ran : m.run job action = some m') : Unexposed m' := by
  unfold Machine.run at ran
  split at ran
  case h_1 => exact unexposed.advance fresh ran
  case h_17 => cases ran
  all_goals obtain rfl := Option.some.inj ran
  case h_2 addr _ _ =>
    have heads : HeadsWait m.qp.releaseSendq := ⟨unexposed.heads.sends, unexposed.heads.reads⟩
    have released := unexposed.release [addr] heads
    exact ⟨released.heads, released.posts⟩
  case h_3 => exact unexposed.sent
  case h_4 request =>
    cases request with
    | send ctx credit => exact unexposed.failedSend (by simpa [coveredJob] using covered)
    | read ctx => exact Unexposed.addJob ⟨unexposed.heads, unexposed.posts⟩ rfl
  case h_5 => exact unexposed.unqueue (by simpa [coveredJob] using covered)
  case h_6 => exact unexposed.unwind
  case h_7 => exact unexposed.sendTxDone
  case h_8 psn error => exact (unexposed.takeSends (unexposed.heads.completeSendOrdered psn (some error))).addJob rfl
  case h_9 status _ _ =>
    refine unexposed.readTxDone fun failed => ?_
    cases status with
    | none => cases failed
    | some error => simpa [coveredJob] using covered
  case h_10 status _ => exact (unexposed.takeReads (unexposed.heads.completeReadOrdered status)).addJob rfl
  case h_11 | h_12 => exact ⟨unexposed.heads, unexposed.posts⟩
  case h_13 => exact unexposed.retryCheck
  case h_14 => exact unexposed.repost
  case h_15 => exact unexposed
  case h_16 due rest =>
    have done : Unexposed (m.finish due) := unexposed.finish
    exact Unexposed.addJob ⟨done.heads, done.posts⟩ rfl

theorem Unexposed.allocate (unexposed : Unexposed m)
    (fresh : (Job.post .allocated addr m.serials request).unfinished = true) : Unexposed (m.allocate addr request) := by
  refine ⟨unexposed.heads, fun job member => ?_⟩
  rcases List.mem_cons.mp member with rfl | old
  · exact fresh
  · exact unexposed.posts job old

theorem Unexposed.event {action : Action} (unexposed : Unexposed m) (covered : covered m action = true)
    (happened : m.event action = some m') : Unexposed m' := by
  cases action with
  | postSend addr op wr segs totalLen =>
      simp only [Machine.event] at happened
      split at happened
      · cases happened
      split at happened
      · cases happened
      rename_i qp credit taken
      obtain rfl := Option.some.inj happened
      obtain ⟨credits, rfl⟩ := takeCredit_eq taken
      have started : Unexposed (m.allocate addr (.send (newSend m.qp op wr segs totalLen) credit)) :=
        unexposed.allocate rfl
      exact ⟨⟨started.heads.sends, started.heads.reads⟩, started.posts⟩
  | postRead addr wr segs totalLen =>
      simp only [Machine.event] at happened
      split at happened
      · cases happened
      obtain rfl := Option.some.inj happened
      exact unexposed.allocate rfl
  | ack psn status now => exact unexposed.ack happened
  | readFound psn =>
      obtain ⟨addr, -, rfl⟩ := Option.map_eq_some_iff.mp happened
      exact Unexposed.addJob ⟨unexposed.heads, unexposed.posts⟩ rfl
  | timeout clock =>
      obtain rfl := Option.some.inj happened
      exact unexposed.timeout (by simpa [SendQueue.covered] using covered)
  | flushSends =>
      obtain rfl := Option.some.inj happened
      exact unexposed.takeSends ⟨waits_nil, unexposed.heads.reads⟩
  | flushReads =>
      obtain rfl := Option.some.inj happened
      exact unexposed.takeReads ⟨unexposed.heads.sends, waits_nil⟩
  | setState state | close | setCredits credits =>
      obtain rfl := Option.some.inj happened
      exact ⟨⟨unexposed.heads.sends, unexposed.heads.reads⟩, unexposed.posts⟩
  | _ => cases happened

theorem Unexposed.step {action : Action} (unexposed : Unexposed m) (covered : covered m action = true)
    (stepped : m.step action = some m') : Unexposed m' := by
  unfold Machine.step at stepped
  cases index : action.job with
  | none =>
      rw [index] at stepped
      exact unexposed.event covered stepped
  | some i =>
      rw [index] at stepped
      dsimp only at stepped
      split at stepped
      · cases stepped
      · rename_i job found
        have without : Unexposed { m with jobs := m.jobs.eraseIdx i } :=
          ⟨unexposed.heads, fun other member => unexposed.posts other ((List.eraseIdx_sublist _ _).mem member)⟩
        refine without.run (unexposed.posts job (List.mem_of_getElem? found)) ?_ stepped
        unfold SendQueue.covered at covered
        split at covered
        · cases index
        · simpa [index, found] using covered

theorem unexposed_init (idle : Idle m) : Unexposed m := by
  refine ⟨⟨?_, ?_⟩, ?_⟩
  · rw [idle.sends]
    exact waits_nil
  · rw [idle.reads]
    exact waits_nil
  · simp [idle.jobs]

/-- As long as no request is taken off the head of its list before a finished one, whenever the lock of the
queue pair is free no finished request is at the head of `pending_sends` or `pending_reads`. -/
theorem no_finished_head {m : Machine}
    (reachable : machine.ReachableVia (fun m action => covered m action = true) m) : HeadsWait m.qp := by
  have unexposed : Unexposed m := reachable.invariant (fun _ idle => unexposed_init idle)
    fun _ _ _ unexposed covered stepped => unexposed.step covered stepped
  exact unexposed.heads

def readiness (qp : Qp) : List (Nat × Bool) := qp.pendingReads.map fun entry => (entry.1, entry.2.ready)

/-- Two READs are posted, and the response of the second one comes first. -/
def secondReadFirst : List Action :=
  [.postRead 0 someRead [] 0, .advance 0, .advance 0, .advance 0, .advance 0, .sent 0 0,
    .postRead 1 someRead [] 0, .advance 0, .advance 0, .advance 0, .advance 0, .sent 0 0,
    .readFound 1, .readDone 0 none]

theorem no_finished_head_secondReadFirst :
    ∃ m : Machine, readiness m.qp = [(0, false), (1, true)] ∧ HeadsWait m.qp := by
  obtain ⟨m, reachable, list⟩ := machine.exists_reachableVia (fun m action => covered m action = true)
    secondReadFirst (fun m => readiness m.qp == [(0, false), (1, true)]) idleMachine_idle (by decide +kernel)
  exact ⟨m, beq_iff_eq.mp list, no_finished_head reachable⟩

/-- Then the request of the first one turns out not to have been transmitted. -/
theorem failed_read_exposes_next :
    ∃ m : Machine, machine.Reachable m ∧ m.qp.closing = false ∧ m.qp.state ≠ .err ∧ ¬HeadsWait m.qp := by
  obtain ⟨m, reachable, test⟩ := machine.exists_reachableVia (fun _ _ => True)
    (secondReadFirst ++ [.readTxDone 3 (some .eIo) 1])
    (fun m => !m.qp.closing && m.qp.state ≠ .err && readiness m.qp == [(1, true)]) idleMachine_idle
    (by decide +kernel)
  simp only [Bool.and_eq_true, Bool.not_eq_true', decide_eq_true_eq, beq_iff_eq] at test
  obtain ⟨⟨open_, live⟩, list⟩ := test
  refine ⟨m, reachable, open_, live, fun waits => ?_⟩
  obtain ⟨entry, reads, same⟩ := List.map_eq_singleton_iff.mp list
  have unready := waits.reads entry (by rw [reads]; rfl)
  have finished := congrArg Prod.snd same
  rw [unready] at finished
  cases finished

end ThunderboltVerbs.SendQueue
