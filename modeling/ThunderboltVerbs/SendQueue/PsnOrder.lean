import ThunderboltVerbs.SendQueue.Slots

/-!
# Pending sends and their PSNs

A post takes its PSN in one critical section and links its context in another. The pending list is in PSN
order as long as the posts link in the order in which they took their PSNs and no PSN comes around while
it is in use.
-/

namespace ThunderboltVerbs.SendQueue
open Proto Lib Verbs

/-- How many PSNs were taken after this one. -/
def age (qp : Qp) (psn : Nat) : Nat := (qp.sendPsn % psnMod + psnMod - 1 - psn) % psnMod

def Job.numbered : Job → List Nat
  | .post .numbered _ _ (.send ctx _) => [ctx.msg.psn]
  | _ => []

def psns (qp : Qp) : List Nat := qp.pendingSends.map fun entry => entry.2.msg.psn

def Machine.numbered (m : Machine) : List Nat := m.jobs.flatMap Job.numbered

structure PsnOrdered (m : Machine) : Prop where
  bound : ∀ psn ∈ psns m.qp ++ m.numbered, psn < psnMod
  falling : (psns m.qp).Pairwise fun first second => age m.qp second < age m.qp first
  younger : ∀ first ∈ psns m.qp, ∀ second ∈ m.numbered, age m.qp second < age m.qp first
  distinct : (m.numbered.map (age m.qp)).Nodup

variable {m m' m'' : Machine} {addr serial : Nat} {request : Request}

theorem psns_eq (qp : Qp) : psns qp = (qp.pendingSends.map sendKey).map fun key => key.2.2.1 := by
  rw [List.map_map]
  rfl

/-! ## Steps that take no PSN and link no send -/

structure Shrinks (m m' : Machine) : Prop where
  sendPsn : m'.qp.sendPsn = m.qp.sendPsn
  sends : (psns m'.qp).Sublist (psns m.qp)
  numbered : m'.numbered.Perm m.numbered

theorem Shrinks.refl (m : Machine) : Shrinks m m := ⟨rfl, .refl _, .refl _⟩

theorem Shrinks.trans (first : Shrinks m m') (second : Shrinks m' m'') : Shrinks m m'' where
  sendPsn := second.sendPsn.trans first.sendPsn
  sends := second.sends.trans first.sends
  numbered := second.numbered.trans first.numbered

theorem PsnOrdered.shrink (ordered : PsnOrdered m) (shrinks : Shrinks m m') : PsnOrdered m' := by
  have same : age m'.qp = age m.qp := by
    funext psn
    rw [age, age, shrinks.sendPsn]
  have listed := fun psn inside => shrinks.sends.subset (a := psn) inside
  have waiting := fun psn => shrinks.numbered.mem_iff (a := psn)
  constructor
  case bound =>
    intro psn member
    rcases List.mem_append.mp member with inside | job
    · exact ordered.bound psn (List.mem_append_left _ (listed psn inside))
    · exact ordered.bound psn (List.mem_append_right _ ((waiting psn).mp job))
  case falling =>
    rw [same]
    exact ordered.falling.sublist shrinks.sends
  case younger =>
    rw [same]
    exact fun first inside second job =>
      ordered.younger first (listed first inside) second ((waiting second).mp job)
  case distinct =>
    rw [same]
    exact (shrinks.numbered.map _).nodup_iff.mpr ordered.distinct

theorem shrinks_forget {job : Job} (none : job.numbered = []) : Shrinks (m.addJobs [job]) m := by
  refine ⟨rfl, .refl _, ?_⟩
  simp only [Machine.numbered, Machine.addJobs, List.flatMap_append, List.flatMap_cons, List.flatMap_nil,
    none, List.nil_append]
  exact .refl _

theorem shrinks_addJob {job : Job} (none : job.numbered = []) : Shrinks m (m.addJobs [job]) := by
  refine ⟨rfl, .refl _, ?_⟩
  simp only [Machine.numbered, Machine.addJobs, List.flatMap_append, List.flatMap_cons, List.flatMap_nil,
    none, List.nil_append]
  exact .refl _

theorem shrinks_release {qp : Qp} {slots : List Nat} (sendPsn : qp.sendPsn = m.qp.sendPsn)
    (sends : (psns qp).Sublist (psns m.qp)) : Shrinks m (m.release qp slots) := by
  rw [release_eq]
  exact ⟨sendPsn, sends, .refl _⟩

theorem shrinks_takeSends {result : Qp × List SendEntry} (leave : SendsLeave m.qp result) :
    Shrinks m (m.takeSends result) := by
  obtain ⟨left, keys, -⟩ := leave.front
  refine (shrinks_release leave.sendPsn ?_).trans (shrinks_addJob rfl)
  rw [psns_eq, psns_eq, keys, List.map_append]
  exact List.sublist_append_right _ _

theorem shrinks_takeReads {result : Qp × List ReadEntry} {status : ReadCtx → Option Errno}
    (leave : ReadsLeave m.qp result) : Shrinks m (m.takeReads result status) := by
  refine (shrinks_release leave.sendPsn ?_).trans (shrinks_addJob rfl)
  rw [psns, leave.sends]
  exact .refl _

theorem shrinks_updateSend {f : SendCtx → SendCtx}
    (same : ∀ entry : SendEntry, sendKey (entry.1, f entry.2) = sendKey entry) :
    Shrinks m (m.updateSend addr f) := by
  have stays : SendsStay m.qp (m.qp.updateSend (fun entry => entry.1 = addr) f) := sendsStay_updateSend same
  refine ⟨rfl, ?_, .refl _⟩
  rw [psns_eq, psns_eq, ← stays.sends]
  exact .refl _

theorem shrinks_transmit {psn more : Nat} : Shrinks m (m.transmit addr psn more) := by
  have updated : Shrinks m (m.updateSend addr fun send =>
    { send with txPending := send.txPending + (more + 1) }) := shrinks_updateSend fun _ => rfl
  have none : (List.replicate (more + 1) (Job.sendTx addr psn)).flatMap Job.numbered = [] :=
    List.flatMap_eq_nil_iff.mpr fun job member => by rw [List.eq_of_mem_replicate member]; rfl
  refine ⟨updated.sendPsn, updated.sends, ?_⟩
  simp only [Machine.numbered, Machine.transmit, List.flatMap_append, none, List.nil_append]
  exact .refl _

theorem shrinks_sent {more : Nat} : Shrinks m (m.sent addr serial more request) := by
  cases request with
  | send ctx credit =>
      have posted : Shrinks m (m.transmit addr ctx.msg.psn more) := shrinks_transmit
      exact ⟨posted.sendPsn, posted.sends, posted.numbered⟩
  | read ctx =>
      have waiting : Shrinks m (m.addJobs [.readTx addr]) := shrinks_addJob rfl
      exact ⟨waiting.sendPsn, waiting.sends, waiting.numbered⟩

theorem giveBack_same (qp : Qp) (credit : Bool) :
    (giveBack qp credit).sendPsn = qp.sendPsn ∧ psns (giveBack qp credit) = psns qp := by
  simp only [giveBack, Qp.returnRemoteRecvCredit]
  split
  · split <;> exact ⟨rfl, rfl⟩
  · exact ⟨rfl, rfl⟩

theorem unqueueSend_sublist (qp : Qp) (addr : Nat) :
    (qp.unqueueSend addr).1.sendPsn = qp.sendPsn ∧ (psns (qp.unqueueSend addr).1).Sublist (psns qp) := by
  cases found : qp.pendingSends.find? fun entry => entry.1 = addr with
  | none => simp [Qp.unqueueSend, found]
  | some entry =>
      obtain ⟨qp', unqueued, rest, -, -, sub, -⟩ := unqueueSend_found found
      rw [unqueued, psns_eq, psns_eq]
      exact ⟨rest.sendPsn, sub.map _⟩

theorem shrinks_failed {error : Errno} : Shrinks m (m.failed addr serial error request) := by
  cases request with
  | send ctx credit =>
      obtain ⟨sendPsn, sends⟩ := unqueueSend_sublist m.qp addr
      simp only [Machine.failed]
      split
      · rename_i qp unqueued
        rw [unqueued] at sendPsn sends
        obtain ⟨samePsn, sameSends⟩ := giveBack_same qp credit
        refine ⟨samePsn.trans sendPsn, ?_, ?_⟩
        · change (psns (giveBack qp credit)).Sublist (psns m.qp)
          rw [sameSends]
          exact sends
        · simp only [Machine.numbered, Machine.return_, Machine.drop, Machine.mark, release_eq]
          exact .refl _
      · exact ⟨rfl, .refl _, .refl _⟩
  | read ctx =>
      have waiting : Shrinks m (m.addJobs [.unqueue addr serial ctx error]) := shrinks_addJob rfl
      exact ⟨waiting.sendPsn, waiting.sends, waiting.numbered⟩

theorem shrinks_unqueue {ctx : ReadCtx} {error : Errno} : Shrinks m (m.unqueue addr serial ctx error) := by
  obtain ⟨sends, sendPsn⟩ := unqueueRead_sends m.qp addr
  simp only [Machine.unqueue]
  split
  · rename_i qp unqueued
    rw [unqueued] at sendPsn sends
    refine (shrinks_release sendPsn ?_).trans (shrinks_addJob rfl)
    rw [psns, sends]
    exact .refl _
  · exact shrinks_addJob rfl

theorem shrinks_unwind {ctx : ReadCtx} {error : Errno} : Shrinks m (m.unwind addr serial ctx error) := by
  simp only [Machine.unwind]
  split
  · have cleared : psns ((m.release m.qp.releaseSendq [addr]).clearCounted addr).qp = psns m.qp := by
      simp only [psns, Machine.clearCounted, List.map_map]
      refine List.map_congr_left fun entry _ => ?_
      simp only [Function.comp]
      split <;> rfl
    have jobs : ((m.release m.qp.releaseSendq [addr]).clearCounted addr).numbered = m.numbered := by
      simp only [Machine.numbered, Machine.clearCounted, release_eq, List.flatMap_map]
      refine List.flatMap_congr fun job _ => ?_
      cases job with
      | post stage own number request =>
          change Job.numbered (.post stage own number (if own = addr then request.setCounted false else request)) = _
          split
          · cases request <;> cases stage <;> rfl
          · rfl
      | _ => rfl
    exact ⟨rfl, cleared ▸ .refl _, .of_eq jobs⟩
  · exact ⟨rfl, .refl _, .refl _⟩

theorem shrinks_sendTxDone {psn now : Nat} {status : Option Errno} :
    Shrinks m (m.sendTxDone addr psn status now) := by
  have counted : Shrinks m (m.updateSend addr fun send => send.packetDone status.isNone now) :=
    shrinks_updateSend fun _ => rfl
  cases status with
  | none => exact ⟨counted.sendPsn, counted.sends, counted.numbered⟩
  | some error => exact counted.trans (shrinks_addJob rfl)

theorem shrinks_readTxDone {now : Nat} {status : Option Errno} : Shrinks m (m.readTxDone addr status now) := by
  cases status with
  | none => exact ⟨rfl, .refl _, .refl _⟩
  | some error =>
      simp only [Machine.readTxDone]
      split
      · exact ⟨rfl, .refl _, .refl _⟩
      · rename_i entry found
        exact (shrinks_takeReads (readsLeave_unqueueRead found)).trans (shrinks_addJob rfl)

theorem shrinks_retryCheck {reason : PostReason} : Shrinks m (m.retryCheck addr reason) := by
  simp only [Machine.retryCheck]
  split
  · exact ⟨rfl, .refl _, .refl _⟩
  · split
    · exact shrinks_addJob rfl
    · have updated : Shrinks m (m.updateSend addr fun send => { send with retrying := false }) :=
        shrinks_updateSend fun _ => rfl
      exact ⟨updated.sendPsn, updated.sends, updated.numbered⟩

theorem shrinks_repost {psn more now : Nat} {reason : PostReason} {ret : Option Errno} :
    Shrinks m (m.repost addr psn reason ret more now) := by
  have posted : Shrinks m (if ret.isNone then m.transmit addr psn more else m) := by
    split
    · exact shrinks_transmit
    · exact .refl m
  simp only [Machine.repost]
  generalize (if ret.isNone then m.transmit addr psn more else m) = sending at posted ⊢
  refine posted.trans ((shrinks_takeSends ?_).trans (shrinks_addJob rfl))
  split
  · exact sendsLeave_retried
  · exact (SendsStay.refl _).leave

theorem shrinks_ack {psn now : Nat} {status : SendAckStatus} (handled : m.ack psn status now = some m') :
    Shrinks m m' := by
  obtain ⟨entry, -, rfl⟩ := Option.map_eq_some_iff.mp handled
  have retained : Shrinks m (m.retain entry.1) := ⟨rfl, .refl _, .refl _⟩
  refine retained.trans ((shrinks_takeSends ?_).trans (shrinks_addJob rfl))
  cases status with
  | ok => exact sendsLeave_completeSendOrdered psn none
  | rnr => exact sendsLeave_noteRnrAck
  | error => exact sendsLeave_completeSendOrdered psn _

theorem shrinks_timeout {clock : Qp.Clock} : Shrinks m (m.timeout clock) := by
  have none : ∀ retries : List (Nat × PostReason),
      (retries.map fun entry => Job.retry entry.1 entry.2).flatMap Job.numbered = [] := by
    intro retries
    rw [List.flatMap_map]
    exact List.flatMap_eq_nil_iff.mpr fun _ _ => rfl
  have retried : ∀ (retries : List (Nat × PostReason)) (cells : List Cell),
      Shrinks m { m with cells, jobs := retries.map (fun entry => .retry entry.1 entry.2) ++ m.jobs } := by
    intro retries cells
    refine ⟨rfl, .refl _, ?_⟩
    simp only [Machine.numbered, List.flatMap_append, none, List.nil_append]
    exact .refl _
  unfold Machine.timeout
  refine Shrinks.trans ((retried _ _).trans (shrinks_takeSends ?_)) (shrinks_takeReads ?_)
  · exact sendsLeave_timeoutReapSends clock
  · exact readsLeave_timeoutReapReads clock

theorem shrinks_finish {due : Due} : Shrinks m (m.finish due) := by
  unfold Machine.finish
  split
  · exact .refl m
  · split
    · exact .refl m
    · exact ⟨rfl, .refl _, .refl _⟩

theorem shrinks_run {job : Job} {action : Action} (ran : m.run job action = some m')
    (other : ∀ i, action ≠ .advance i) : Shrinks (m.addJobs [job]) m' := by
  unfold Machine.run at ran
  split at ran
  case h_1 i _ _ _ _ => exact absurd rfl (other i)
  case h_17 => cases ran
  all_goals obtain rfl := Option.some.inj ran
  case h_2 addr _ _ =>
    have released : Shrinks m (m.release m.qp.releaseSendq [addr]) := shrinks_release rfl (.refl _)
    exact (shrinks_forget rfl).trans ⟨released.sendPsn, released.sends, released.numbered⟩
  case h_3 => exact (shrinks_forget rfl).trans shrinks_sent
  case h_4 => exact (shrinks_forget rfl).trans shrinks_failed
  case h_5 => exact (shrinks_forget rfl).trans shrinks_unqueue
  case h_6 => exact (shrinks_forget rfl).trans shrinks_unwind
  case h_7 => exact (shrinks_forget rfl).trans shrinks_sendTxDone
  case h_8 psn error =>
    have taken := shrinks_takeSends (m := m) (sendsLeave_completeSendOrdered psn (some error))
    exact (shrinks_forget rfl).trans (taken.trans (shrinks_addJob rfl))
  case h_9 => exact (shrinks_forget rfl).trans shrinks_readTxDone
  case h_10 =>
    exact (shrinks_forget rfl).trans
      ((shrinks_takeReads readsLeave_completeReadOrdered).trans (shrinks_addJob rfl))
  case h_11 | h_12 => exact (shrinks_forget rfl).trans ⟨rfl, .refl _, .refl _⟩
  case h_13 => exact (shrinks_forget rfl).trans shrinks_retryCheck
  case h_14 => exact (shrinks_forget rfl).trans shrinks_repost
  case h_15 => exact shrinks_forget rfl
  case h_16 due rest =>
    have done : Shrinks m (m.finish due) := shrinks_finish
    have dropped : Shrinks m ((m.finish due).drop due.addr) := ⟨done.sendPsn, done.sends, done.numbered⟩
    exact (shrinks_forget rfl).trans (dropped.trans (shrinks_addJob rfl))

theorem shrinks_event {action : Action} (happened : m.event action = some m') : Shrinks m m' := by
  cases action with
  | postSend addr op wr segs totalLen =>
      simp only [Machine.event] at happened
      split at happened
      · cases happened
      split at happened
      · cases happened
      rename_i qp credit taken
      obtain rfl := Option.some.inj happened
      obtain ⟨credits, rfl⟩ := takeCredit_eq taken
      exact ⟨rfl, .refl _, .refl _⟩
  | postRead addr wr segs totalLen =>
      simp only [Machine.event] at happened
      split at happened
      · cases happened
      obtain rfl := Option.some.inj happened
      exact ⟨rfl, .refl _, .refl _⟩
  | ack psn status now => exact shrinks_ack happened
  | readFound psn =>
      obtain ⟨addr, -, rfl⟩ := Option.map_eq_some_iff.mp happened
      exact ⟨rfl, .refl _, .refl _⟩
  | timeout clock =>
      obtain rfl := Option.some.inj happened
      exact shrinks_timeout
  | flushSends =>
      obtain rfl := Option.some.inj happened
      exact shrinks_takeSends sendsLeave_flushSends
  | flushReads =>
      obtain rfl := Option.some.inj happened
      exact shrinks_takeReads readsLeave_flushReads
  | setState state =>
      obtain rfl := Option.some.inj happened
      exact ⟨rfl, .refl _, .refl _⟩
  | close =>
      obtain rfl := Option.some.inj happened
      exact ⟨rfl, .refl _, .refl _⟩
  | setCredits credits =>
      obtain rfl := Option.some.inj happened
      exact ⟨rfl, .refl _, .refl _⟩
  | _ => cases happened

/-! ## A post takes its PSN and links its context -/

theorem age_takePsn {qp : Qp} {psn : Nat} (bound : psn < psnMod) (other : psn ≠ qp.sendPsn % psnMod) :
    age qp.takePsn.1 psn = age qp psn + 1 := by
  simp only [age, Qp.takePsn, psnNext, psnMod] at *
  omega

theorem age_taken (qp : Qp) : age qp.takePsn.1 (qp.sendPsn % psnMod) = 0 := by
  simp only [age, Qp.takePsn, psnNext, psnMod]
  omega

def psnFree (m : Machine) : Bool := !(psns m.qp ++ m.numbered).contains (m.qp.sendPsn % psnMod)

def Machine.without (m : Machine) (i : Nat) : Machine := { m with jobs := m.jobs.eraseIdx i }

/-- A PSN is not taken again while it is in use, and posts link in the order in which they took their
PSNs. -/
def inTurn (m : Machine) : Action → Bool
  | .advance i =>
      match m.jobs[i]? with
      | some (.post .reserved ..) => psnFree m
      | some (.post .numbered _ _ (.send ctx _)) =>
          (m.without i).numbered.all fun psn => age m.qp psn < age m.qp ctx.msg.psn
      | _ => true
  | _ => true

theorem PsnOrdered.takePsn (ordered : PsnOrdered m) (free : psnFree m = true) :
    PsnOrdered { m with qp := m.qp.takePsn.1 } := by
  have unused : ∀ psn ∈ psns m.qp ++ m.numbered, psn ≠ m.qp.sendPsn % psnMod := by
    simp only [psnFree, Bool.not_eq_true', List.contains_eq_mem, decide_eq_false_iff_not] at free
    exact fun psn member same => free (same ▸ member)
  have older : ∀ psn ∈ psns m.qp ++ m.numbered, age m.qp.takePsn.1 psn = age m.qp psn + 1 :=
    fun psn member => age_takePsn (ordered.bound psn member) (unused psn member)
  have listed : ∀ psn ∈ psns m.qp, age m.qp.takePsn.1 psn = age m.qp psn + 1 :=
    fun psn member => older psn (List.mem_append_left _ member)
  have waiting : ∀ psn ∈ m.numbered, age m.qp.takePsn.1 psn = age m.qp psn + 1 :=
    fun psn member => older psn (List.mem_append_right _ member)
  constructor
  case bound => exact ordered.bound
  case falling =>
    refine ordered.falling.imp_of_mem fun {first second} inFirst inSecond less => ?_
    change age m.qp.takePsn.1 second < age m.qp.takePsn.1 first
    rw [listed first inFirst, listed second inSecond]
    exact Nat.succ_lt_succ less
  case younger =>
    intro first inFirst second inSecond
    change age m.qp.takePsn.1 second < age m.qp.takePsn.1 first
    rw [listed first inFirst, waiting second inSecond]
    exact Nat.succ_lt_succ (ordered.younger first inFirst second inSecond)
  case distinct =>
    change (m.numbered.map (age m.qp.takePsn.1)).Nodup
    rw [List.map_congr_left waiting]
    have succ : m.numbered.map (fun psn => age m.qp psn + 1) = (m.numbered.map (age m.qp)).map Nat.succ := by
      rw [List.map_map]
      rfl
    rw [succ]
    exact ordered.distinct.map Nat.succ_injective

theorem PsnOrdered.number {ctx : SendCtx} {credit : Bool} (ordered : PsnOrdered m) (free : psnFree m = true)
    (psn : ctx.msg.psn = m.qp.takePsn.2) :
    PsnOrdered ({ m with qp := m.qp.takePsn.1 }.addJobs [.post .numbered addr serial (.send ctx credit)]) := by
  have taken := ordered.takePsn free
  have youngest : age m.qp.takePsn.1 ctx.msg.psn = 0 := psn ▸ age_taken m.qp
  have older : ∀ other ∈ psns m.qp ++ m.numbered, 0 < age m.qp.takePsn.1 other := by
    simp only [psnFree, Bool.not_eq_true', List.contains_eq_mem, decide_eq_false_iff_not] at free
    intro other member
    rw [age_takePsn (ordered.bound other member) fun same => free (same ▸ member)]
    exact Nat.succ_pos _
  constructor
  case bound =>
    intro other member
    rcases List.mem_append.mp member with listed | waiting
    · exact ordered.bound other (List.mem_append_left _ listed)
    · rcases List.mem_cons.mp waiting with rfl | old
      · rw [psn]
        exact Nat.mod_lt _ (by decide)
      · exact ordered.bound other (List.mem_append_right _ old)
  case falling => exact taken.falling
  case younger =>
    intro first inFirst second inSecond
    rcases List.mem_cons.mp inSecond with rfl | old
    · change age m.qp.takePsn.1 ctx.msg.psn < age m.qp.takePsn.1 first
      rw [youngest]
      exact older first (List.mem_append_left _ inFirst)
    · exact taken.younger first inFirst second old
  case distinct =>
    change (age m.qp.takePsn.1 ctx.msg.psn :: m.numbered.map (age m.qp.takePsn.1)).Nodup
    refine List.nodup_cons.mpr ⟨fun again => ?_, taken.distinct⟩
    obtain ⟨other, member, same⟩ := List.mem_map.mp again
    have positive := older other (List.mem_append_right _ member)
    rw [same, youngest] at positive
    exact Nat.lt_irrefl 0 positive

theorem PsnOrdered.link {ctx : SendCtx} {credit : Bool}
    (ordered : PsnOrdered (m.addJobs [.post .numbered addr serial (.send ctx credit)]))
    (oldest : ∀ psn ∈ m.numbered, age m.qp psn < age m.qp ctx.msg.psn) :
    PsnOrdered { m with qp := m.qp.queueSend addr ctx } := by
  have listed : psns (m.qp.queueSend addr ctx) = psns m.qp ++ [ctx.msg.psn] := by
    simp [psns, Qp.queueSend]
  have own : ctx.msg.psn ∈ (m.addJobs [.post .numbered addr serial (.send ctx credit)]).numbered :=
    List.mem_cons_self
  constructor
  case bound =>
    intro psn member
    refine ordered.bound psn ?_
    simp only [listed, List.mem_append, List.mem_singleton] at member
    rcases member with (old | rfl) | waiting
    · exact List.mem_append_left _ old
    · exact List.mem_append_right _ own
    · exact List.mem_append_right _ (List.mem_cons_of_mem _ waiting)
  case falling =>
    rw [listed]
    refine List.pairwise_append.mpr ⟨ordered.falling, List.pairwise_singleton .., ?_⟩
    intro first inFirst second inSecond
    obtain rfl := List.mem_singleton.mp inSecond
    exact ordered.younger first inFirst _ own
  case younger =>
    rw [listed]
    intro first inFirst second inSecond
    rcases List.mem_append.mp inFirst with old | new
    · exact ordered.younger first old second (List.mem_cons_of_mem _ inSecond)
    · obtain rfl := List.mem_singleton.mp new
      exact oldest second inSecond
  case distinct => exact (List.nodup_cons.mp ordered.distinct).2

theorem PsnOrdered.advance {stage : Stage}
    (ordered : PsnOrdered (m.addJobs [.post stage addr serial request]))
    (free : stage = .reserved → psnFree (m.addJobs [.post stage addr serial request]) = true)
    (oldest : ∀ ctx credit, stage = .numbered → request = .send ctx credit →
      ∀ psn ∈ m.numbered, age m.qp psn < age m.qp ctx.msg.psn)
    (advanced : m.advance addr serial request stage = some m') : PsnOrdered m' := by
  cases stage with
  | allocated =>
      have alone := ordered.shrink (shrinks_forget rfl)
      simp only [Machine.advance] at advanced
      split at advanced <;> obtain rfl := Option.some.inj advanced
      · rename_i qp reserve
        obtain rfl := reserveSendq_eq reserve
        exact alone.shrink ⟨rfl, .refl _, .refl _⟩
      · refine alone.shrink ?_
        cases request with
        | send ctx credit =>
            obtain ⟨samePsn, sameSends⟩ := giveBack_same m.qp credit
            refine ⟨samePsn, ?_, .refl _⟩
            change (psns (giveBack m.qp credit)).Sublist (psns m.qp)
            rw [sameSends]
        | read ctx => exact ⟨rfl, .refl _, .refl _⟩
  | reserved =>
      obtain rfl := Option.some.inj advanced
      have alone := ordered.shrink (shrinks_forget rfl)
      cases request with
      | send ctx credit => exact alone.number (free rfl) rfl
      | read ctx => exact (alone.takePsn (free rfl)).shrink (shrinks_addJob rfl)
  | numbered =>
      cases request with
      | send ctx credit =>
          obtain rfl := Option.some.inj advanced
          exact (ordered.link (oldest ctx credit rfl rfl)).shrink (shrinks_addJob rfl)
      | read ctx =>
          obtain rfl := Option.some.inj advanced
          exact (ordered.shrink (shrinks_forget rfl)).shrink ⟨rfl, .refl _, .refl _⟩
  | linked =>
      obtain rfl := Option.some.inj advanced
      exact (ordered.shrink (shrinks_forget rfl)).shrink ⟨rfl, .refl _, .refl _⟩
  | queued => cases advanced

/-! ## Runs -/

theorem PsnOrdered.step {action : Action} (ordered : PsnOrdered m) (turn : inTurn m action = true)
    (stepped : m.step action = some m') : PsnOrdered m' := by
  rcases step_cases stepped with happened | ⟨i, job, own, found, ran⟩
  · exact ordered.shrink (shrinks_event happened)
  · have front : Shrinks m ((m.without i).addJobs [job]) :=
      ⟨rfl, .refl _, (perm_eraseIdx found).flatMap_right _⟩
    have focused := ordered.shrink front
    by_cases advance : action = .advance i
    · subst advance
      unfold Machine.run at ran
      split at ran
      case h_1 j stage addr serial request here =>
        obtain rfl : j = i := (Action.advance.inj here).symm
        refine focused.advance ?_ ?_ ran
        · rintro rfl
          simp only [inTurn, found] at turn
          have same := front.numbered.append_left (psns m.qp)
          simp only [psnFree, Bool.not_eq_true', List.contains_eq_mem, decide_eq_false_iff_not] at turn ⊢
          exact fun member => turn (same.mem_iff.mp member)
        · rintro ctx credit rfl rfl
          simp only [inTurn, found, List.all_eq_true, decide_eq_true_eq] at turn
          exact turn
      all_goals contradiction
    · refine focused.shrink (shrinks_run ran fun j again => ?_)
      subst again
      exact advance (congrArg Action.advance (Option.some.inj own))

theorem psnOrdered_init (idle : Idle m) : PsnOrdered m := by
  constructor <;> simp [psns, Machine.numbered, idle.sends, idle.jobs]

theorem PsnOrdered.nodup (ordered : PsnOrdered m) : (psns m.qp).Nodup :=
  ordered.falling.imp fun less same => Nat.ne_of_gt less (congrArg (age m.qp) same)

theorem distance_lt {qp : Qp} {head first second : Nat} (headBound : head < psnMod) (firstBound : first < psnMod)
    (secondBound : second < psnMod) (near : first = head ∨ age qp first < age qp head)
    (less : age qp second < age qp first) :
    (first + psnMod - head) % psnMod < (second + psnMod - head) % psnMod := by
  simp only [age, psnMod] at *
  omega

theorem PsnOrdered.rising (ordered : PsnOrdered m) {head : Nat} {rest : List Nat}
    (list : psns m.qp = head :: rest) :
    ((psns m.qp).map fun psn => (psn + psnMod - head) % psnMod).Pairwise (· < ·) := by
  have bound : ∀ psn ∈ psns m.qp, psn < psnMod := fun psn member =>
    ordered.bound psn (List.mem_append_left _ member)
  have falling := ordered.falling
  have near : ∀ psn ∈ psns m.qp, psn = head ∨ age m.qp psn < age m.qp head := by
    rw [list, List.pairwise_cons] at falling
    rw [list, List.forall_mem_cons]
    exact ⟨.inl rfl, fun psn member => .inr (falling.1 psn member)⟩
  have headBound := bound head (list ▸ List.mem_cons_self)
  rw [List.pairwise_map]
  refine ordered.falling.imp_of_mem fun {first second} inFirst inSecond less => ?_
  exact distance_lt headBound (bound first inFirst) (bound second inSecond) (near first inFirst) less

/-- The pending list is in PSN order, and what an acknowledgement takes off it is its front. -/
theorem pendingSends_in_psn_order
    (reachable : machine.ReachableVia (fun m action => inTurn m action = true) m) :
    (psns m.qp).Nodup ∧
    (∀ head rest, psns m.qp = head :: rest →
      ((psns m.qp).map fun psn => (psn + psnMod - head) % psnMod).Pairwise (· < ·)) ∧
    ∀ psn status, m.qp.pendingSends.map Prod.fst =
      (m.qp.completeSendOrdered psn status).2.map Prod.fst ++
        (m.qp.completeSendOrdered psn status).1.pendingSends.map Prod.fst := by
  have ordered : PsnOrdered m := reachable.invariant (fun _ idle => psnOrdered_init idle)
    fun _ _ _ ordered turn stepped => ordered.step turn stepped
  refine ⟨ordered.nodup, fun head rest list => ordered.rising list, fun psn status => ?_⟩
  exact (sendsLeave_completeSendOrdered psn status).addrs

def twoPosts : List Action :=
  [.postSend 0 .send someSend [] 0, .advance 0, .advance 0, .advance 0, .advance 0,
    .postSend 1 .send someSend [] 0, .advance 0, .advance 0, .advance 0, .advance 0]

theorem pendingSends_in_psn_order_twoPosts :
    ∃ m : Machine, psns m.qp = [0, 1] ∧ (psns m.qp).Nodup ∧
      ((psns m.qp).map fun psn => (psn + psnMod - 0) % psnMod).Pairwise (· < ·) := by
  obtain ⟨m, reachable, list⟩ := machine.exists_reachableVia (fun m action => inTurn m action = true) twoPosts
    (fun m => psns m.qp == [0, 1]) idleMachine_idle (by decide +kernel)
  rw [beq_iff_eq] at list
  have ordered := pendingSends_in_psn_order reachable
  exact ⟨m, list, ordered.1, ordered.2.1 0 [1] list⟩

/-- After a first SEND, two posters take their PSNs one after the other and link their contexts in the other
order. -/
def overtakingPosts : List Action :=
  [.postSend 0 .send someSend [] 0, .advance 0, .advance 0, .advance 0, .advance 0,
    .postSend 1 .send someSend [] 0, .advance 0, .advance 0,
    .postSend 2 .send someSend [] 0, .advance 0, .advance 0, .advance 0, .advance 1]

theorem overtakingPosts_out_of_order :
    ∃ m : Machine, machine.Reachable m ∧ psns m.qp = [0, 2, 1] ∧
      ¬((psns m.qp).map fun psn => (psn + psnMod - 0) % psnMod).Pairwise (· < ·) := by
  obtain ⟨m, reachable, list⟩ := machine.exists_reachableVia (fun _ _ => True) overtakingPosts
    (fun m => psns m.qp == [0, 2, 1]) idleMachine_idle (by decide +kernel)
  rw [beq_iff_eq] at list
  refine ⟨m, reachable, list, ?_⟩
  rw [list]
  decide

end ThunderboltVerbs.SendQueue
