import ThunderboltVerbs.Control.Safety

/-!
# The HELLO exchange of a rail

`tb_xdomain_request` may return the answer to an earlier request, also to one of another rail of the
same XDomain. `tbv_native_control_exchange_once` applies the answer to the rail that it names, and the
work function goes on as if its own rail had been negotiated.
-/

namespace ThunderboltVerbs.Control
open Proto DataPath Lib

structure NegotiatedWith (remote : Hello) (rail : Rail) : Prop where
  negotiated : rail.nativeNegotiated = true
  railId : rail.remoteRailId = remote.railId
  transmitPath : rail.remoteTransmitPath = toInt32 remote.transmitPath
  txHop : rail.remoteTxHop = toInt32 remote.txHop
  rxHop : rail.remoteRxHop = toInt32 remote.rxHop
  window : rail.link.path.txRemoteDataCreditMax = dataCreditWindow remote.rxRingSize

/-- A HELLO_ACK returned to the HELLO of a rail is for that rail. -/
def Net.answersOwn (net : Net) : Action → Bool
  | .work side railId (.reply index) =>
      match (net.host side).work railId, (net.host side.peer).sent[index]? with
      | .helloWait _, some message => message.op ≠ .helloAck || message.hello.railId = railId
      | _, _ => true
  | _ => true

/-- The work function has ended with HELLO attempts left and its rail not negotiated. -/
def Rail.abandoned (rail : Rail) : Bool :=
  rail.queued && !rail.scheduled && !rail.nativeWorkStop && !rail.nativeNegotiated &&
    rail.nativeAttempts < helloRetries

/-! ## What the work function knows of its rail -/

def Rail.running (rail : Rail) : Prop := rail.state = .ringStarted ∨ rail.state = .tunnelEnabled

def WorkTries (railId : Nat) (rail : Rail) : WorkPc → Prop
  | .idle => rail.abandoned = false
  | .helloLock attempt | .helloWait attempt | .helloReturn attempt (some _) =>
      rail.nativeAttempts = attempt
  | .helloApply attempt packet =>
      rail.nativeAttempts = attempt ∧ packet.message.hello.railId = railId
  | .out false => rail.nativeNegotiated = true ∨ helloRetries ≤ rail.nativeAttempts
  | .out true => True
  | _ => rail.nativeNegotiated = true

structure RailTries (host : Host) (railId : Nat) (rail : Rail) : Prop where
  queued : rail.queued = true → host.negotiateNative = true ∧ rail.running
  scheduled : rail.scheduled = true → rail.queued = true
  working : host.work railId ≠ .idle → rail.queued = true
  tries : WorkTries railId rail (host.work railId)

def Net.Tries (net : Net) : Prop :=
  ∀ side railId rail, (net.host side).rails railId = some rail → RailTries (net.host side) railId rail

/-- A change of a rail by any other thread than its work function. -/
structure Benign (rail new : Rail) : Prop where
  queued : new.queued = rail.queued
  attempts : new.nativeAttempts = rail.nativeAttempts
  negotiated : rail.nativeNegotiated = true → new.nativeNegotiated = true
  scheduled : new.scheduled = true → rail.scheduled = true ∨ rail.queued = true
  waiting : new.scheduled = false → new.nativeWorkStop = false →
    rail.scheduled = false ∧ rail.nativeWorkStop = false
  running : rail.running → new.running

theorem Benign.refl (rail : Rail) : Benign rail rail :=
  ⟨rfl, rfl, id, .inl, fun scheduled stop => ⟨scheduled, stop⟩, id⟩

theorem Rail.abandoned_false {rail : Rail} :
    rail.abandoned = false ↔
      (rail.queued = true → rail.scheduled = false → rail.nativeWorkStop = false →
        rail.nativeNegotiated = false → helloRetries ≤ rail.nativeAttempts) := by
  cases queued : rail.queued <;> cases scheduled : rail.scheduled <;>
    cases stop : rail.nativeWorkStop <;> cases negotiated : rail.nativeNegotiated <;>
    simp [Rail.abandoned, queued, scheduled, stop, negotiated]

theorem Benign.abandoned {rail new : Rail} (benign : Benign rail new) (kept : rail.abandoned = false) :
    new.abandoned = false := by
  rw [Rail.abandoned_false] at kept ⊢
  intro queued scheduled stop negotiated
  obtain ⟨wasScheduled, wasStop⟩ := benign.waiting scheduled stop
  rw [benign.attempts]
  refine kept (benign.queued ▸ queued) wasScheduled wasStop ?_
  by_contra known
  simp [benign.negotiated (by simpa using known)] at negotiated

theorem WorkTries.benign {railId : Nat} {rail new : Rail} {pc : WorkPc}
    (tries : WorkTries railId rail pc) (benign : Benign rail new) : WorkTries railId new pc := by
  have same := benign.attempts
  have kept := benign.negotiated
  cases pc with
  | idle => exact benign.abandoned tries
  | helloLock attempt | helloWait attempt => exact same.trans tries
  | helloApply attempt packet => exact ⟨same.trans tries.1, tries.2⟩
  | helloReturn attempt result =>
      cases result with
      | none => exact kept tries
      | some error => exact same.trans tries
  | out retry =>
      cases retry with
      | false => exact tries.imp kept (same ▸ ·)
      | true => trivial
  | _ => exact kept tries

theorem RailTries.benign {host host' : Host} {railId : Nat} {rail new : Rail}
    (tries : RailTries host railId rail) (benign : Benign rail new)
    (work : host'.work railId = host.work railId)
    (negotiate : host'.negotiateNative = host.negotiateNative) : RailTries host' railId new where
  queued queued := by
    obtain ⟨negotiates, running⟩ := tries.queued (benign.queued ▸ queued)
    exact ⟨negotiate.trans negotiates, benign.running running⟩
  scheduled scheduled := by
    rw [benign.queued]
    exact (benign.scheduled scheduled).elim tries.scheduled id
  working busy := by
    rw [benign.queued]
    exact tries.working (work ▸ busy)
  tries := work ▸ tries.tries.benign benign

/-! ## Steps of the threads -/

section
variable {side : Side} {host peer : Host} {railId : Nat} {rail new : Rail} {effect : Effect}

def WritesOnly (effect : Effect) (railId : Nat) (rail new : Rail) : Prop :=
  effect.write = none ∧ new = rail ∨ effect.write = some (railId, new)

def WritesBenign (host : Host) (effect : Effect) : Prop :=
  ∀ id new, effect.write = some (id, new) → ∃ rail, host.rails id = some rail ∧ Benign rail new

theorem Benign.applyRemote (remote : Hello) : Benign rail (rail.applyRemote remote) :=
  ⟨rfl, rfl, fun _ => rfl, .inl, fun scheduled stop => ⟨scheduled, stop⟩, id⟩

theorem WritesBenign.own (present : host.rails railId = some rail)
    (write : effect.write = some (railId, new)) (benign : Benign rail new) : WritesBenign host effect := by
  intro id written wrote
  rw [write] at wrote
  cases wrote
  exact ⟨rail, present, benign⟩

theorem WritesBenign.none (write : effect.write = none) : WritesBenign host effect := by
  intro id written wrote
  rw [write] at wrote
  cases wrote

theorem HandlerMove.writesBenign {pc : HandlerPc} {next : Option HandlerPc}
    (move : HandlerMove side host peer pc next effect) : WritesBenign host effect := by
  cases move with
  | ackApplied ack applied | helloApplied applied =>
      simp only [Host.applyRemote, Option.map_eq_some_iff] at applied
      obtain ⟨rail, present, rfl⟩ := applied
      exact .own present rfl (.applyRemote _)
  | readyMarked present | readyMarkedOnly present | sentMarked present | sentMarkedOnly present =>
      exact .own present rfl { Benign.refl _ with }
  | kicked present allowed =>
      simp only [Rail.canKick, Bool.and_eq_true] at allowed
      exact .own present rfl
        { Benign.refl _ with scheduled := fun _ => .inr allowed.1.1, waiting := by simp }
  | _ => exact .none rfl

/-- The work function on its own rail: it ends without another attempt only when the rail is
negotiated or no attempt is left. -/
theorem WorkMove.tries {pc next : WorkPc} (move : WorkMove side host peer railId rail pc next effect)
    (present : host.rails railId = some rail) (queued : rail.queued = true)
    (negotiates : host.negotiateNative = true) (running : rail.running)
    (own : ∀ attempt packet, next = .helloApply attempt packet → packet.message.hello.railId = railId)
    (tries : WorkTries railId rail pc) :
    ∃ new, WritesOnly effect railId rail new ∧ new.queued = true ∧ new.running ∧
      WorkTries railId new next := by
  cases move with
  | skip runs ends =>
      refine ⟨_, .inr rfl, queued, running, ?_⟩
      rcases ends with stop | ⟨notStarted, notEnabled⟩
      · simp [WorkTries, Rail.abandoned, stop]
      · exact (running.elim notStarted notEnabled).elim
  | startHello | startInvalid => exact ⟨_, .inr rfl, queued, running, rfl⟩
  | startTunnel runs known => exact ⟨_, .inr rfl, queued, running, known negotiates⟩
  | helloSend | helloFailed => exact ⟨rail, .inl ⟨rfl, rfl⟩, queued, running, tries⟩
  | helloUnknown => exact ⟨rail, .inl ⟨rfl, rfl⟩, queued, running, tries.1⟩
  | helloReply packet => exact ⟨rail, .inl ⟨rfl, rfl⟩, queued, running, tries, own _ _ rfl⟩
  | helloApplied applied =>
      obtain ⟨-, named⟩ := tries
      simp only [Host.applyRemote, Option.map_eq_some_iff, named, present, Option.some.injEq] at applied
      obtain ⟨_, rfl, rfl⟩ := applied
      exact ⟨_, .inr rfl, queued, running, rfl⟩
  | helloError =>
      refine ⟨_, .inr rfl, queued, running, ?_⟩
      rename_i attempt error
      have attempts : rail.nativeAttempts = attempt := tries
      by_cases more : attempt < helloRetries
      · simp [more, WorkTries]
      · simp only [more, decide_false, WorkTries]
        exact .inr (by omega)
  | tunnelRefused started missing => exact ⟨_, .inr rfl, queued, running, .inl tries⟩
  | tunnelFailed | readyError =>
      refine ⟨_, .inr rfl, queued, running, ?_⟩
      have negotiated : rail.nativeNegotiated = true := tries
      unfold WorkTries
      split <;> simp_all
  | tunnelEnabled => exact ⟨_, .inr rfl, queued, .inr rfl, tries⟩
  | helloDone | tunnelTry | readyTry | readyMarked | readyMarkedOnly | readyDone | readySent =>
      exact ⟨_, .inr rfl, queued, running, tries⟩
  | tunnelSkip | tunnelLocked | tunnelSeen | tunnelUnseen | tunnelPublished | readySend
  | readyFailed | readyReply | readyPublished | sentSeen =>
      exact ⟨rail, .inl ⟨rfl, rfl⟩, queued, running, tries⟩
  | readySkip | sentUnseen | sentPublished =>
      exact ⟨rail, .inl ⟨rfl, rfl⟩, queued, running, .inl tries⟩
  | again live => exact ⟨_, .inr rfl, queued, running, by simp [WorkTries, Rail.abandoned]⟩
  | done ends =>
      refine ⟨rail, .inl ⟨rfl, rfl⟩, queued, running, ?_⟩
      rename_i retry
      simp only [WorkTries, Rail.abandoned_false]
      intro _ _ live fresh
      cases retry with
      | true => simp [ends rfl] at live
      | false => exact tries.resolve_left (by simp [fresh])

end

/-! ## Whole runs -/

section
variable {net net' : Net} {side : Side} {railId : Nat}

theorem Net.Tries.of_host (tries : net.Tries)
    (others : ∀ other, other ≠ side → net'.host other = net.host other)
    (own : ∀ id rail, (net'.host side).rails id = some rail → RailTries (net'.host side) id rail) :
    net'.Tries := by
  intro other id rail found
  by_cases same : other = side
  · subst same
    exact own id rail found
  · rw [others other same] at found ⊢
    exact tries other id rail found

theorem Net.Tries.updateRail {f : Rail → Option Rail} (tries : net.Tries)
    (updated : net.updateRail side railId f = some net')
    (kept : ∀ rail new, (net.host side).rails railId = some rail → f rail = some new →
      RailTries ((net.host side).write railId new) railId new) :
    net'.Tries := by
  simp only [Net.updateRail, Option.map_eq_some_iff, Option.bind_eq_some_iff] at updated
  obtain ⟨new, ⟨old, present, change⟩, rfl⟩ := updated
  refine tries.of_host (fun _ => Net.setHost_other) fun id rail found => ?_
  rw [Net.setHost_self] at found ⊢
  by_cases target : id = railId
  · subst target
    simp only [Host.write, Function.update_self, Option.some.injEq] at found
    exact found ▸ kept old new present change
  · simp only [Host.write, Function.update_of_ne target] at found
    exact (tries side id rail found).benign (.refl rail) rfl rfl

theorem Net.Tries.updateBenign {f : Rail → Option Rail} (tries : net.Tries)
    (updated : net.updateRail side railId f = some net')
    (benign : ∀ rail new, f rail = some new → Benign rail new) : net'.Tries :=
  tries.updateRail updated fun rail _ present change =>
    (tries side railId rail present).benign (benign rail _ change) rfl rfl

theorem Benign.link {rail : Rail} {link : LinkEnd} (same : link.path.state = rail.state) :
    Benign rail { rail with link := link } :=
  { Benign.refl rail with
    running := fun running => by simpa only [Rail.running, Rail.state, same] using running }

theorem Net.Tries.handle {k : Nat} {pc : HandlerPc} {next : Option HandlerPc} {effect : Effect}
    (tries : net.Tries) (move : HandlerMove side (net.host side) (net.host side.peer) pc next effect) :
    (net.commit side ((net.host side).moveHandler k next) effect).Tries := by
  refine tries.of_host (fun _ => Net.commit_other) fun id rail found => ?_
  rw [Net.commit_self] at found ⊢
  rcases Host.rails_apply found with write | ⟨present, -⟩
  · obtain ⟨old, present, benign⟩ := move.writesBenign id rail write
    exact (tries side id old present).benign benign rfl rfl
  · exact (tries side id rail present).benign (.refl rail) rfl rfl

theorem Net.Tries.work {rail : Rail} {next : WorkPc} {effect : Effect} (tries : net.Tries)
    (present : (net.host side).rails railId = some rail)
    (move : WorkMove side (net.host side) (net.host side.peer) railId rail
      ((net.host side).work railId) next effect)
    (own : ∀ attempt packet, next = .helloApply attempt packet →
      packet.message.hello.railId = railId) :
    (net.commit side ((net.host side).moveWork railId next) effect).Tries := by
  have known := tries side railId rail present
  have queued : rail.queued = true := by
    by_cases idle : (net.host side).work railId = .idle
    · rw [idle] at move
      cases move with
      | skip runs | startHello runs | startInvalid runs | startTunnel runs => exact known.scheduled runs
    · exact known.working idle
  obtain ⟨negotiates, running⟩ := known.queued queued
  obtain ⟨new, writes, stillQueued, stillRunning, nextTries⟩ :=
    move.tries present queued negotiates running own known.tries
  refine tries.of_host (fun _ => Net.commit_other) fun id found held => ?_
  rw [Net.commit_self] at held ⊢
  by_cases target : id = railId
  · subst target
    have same : found = new := by
      rcases Host.rails_apply held with write | ⟨kept, untouched⟩
      · rcases writes with ⟨none, -⟩ | wrote
        · simp [none] at write
        · simpa [wrote] using write.symm
      · rcases writes with ⟨-, rfl⟩ | wrote
        · have kept : (net.host side).rails id = some found := kept
          simpa [present] using kept.symm
        · exact absurd wrote (untouched new)
    subst same
    refine ⟨fun _ => ⟨negotiates, stillRunning⟩, fun _ => stillQueued, fun _ => stillQueued, ?_⟩
    simpa [Host.apply, Host.moveWork] using nextTries
  · have kept : (net.host side).rails id = some found := by
      rcases Host.rails_apply held with write | ⟨kept, -⟩
      · rcases writes with ⟨none, -⟩ | wrote
        · simp [none] at write
        · rw [wrote] at write
          cases write
          exact absurd rfl target
      · exact kept
    exact (tries side id found kept).benign (.refl found)
      (by simp [Host.apply, Host.moveWork, target]) rfl

theorem answersOwn_next {rail : Rail} {outcome : Outcome} {next : WorkPc} {effect : Effect}
    (allowed : net.answersOwn (.work side railId outcome) = true)
    (stepped : workStep side (net.host side) (net.host side.peer) railId rail outcome
      ((net.host side).work railId) = some (next, effect))
    {attempt : Nat} {packet : Packet} (reply : next = .helloApply attempt packet) :
    packet.message.hello.railId = railId := by
  subst reply
  generalize pc : (net.host side).work railId = work at stepped
  have move := workStep_move stepped
  cases move with
  | helloReply _ sent ack =>
      simp only [workStep] at stepped
      cases outcome with
      | proceed => cases stepped
      | failed error => simp at stepped
      | reply index =>
          simp only [Option.map_eq_some_iff] at stepped
          obtain ⟨message, found, answer⟩ := stepped
          split at answer
          · rename_i isAck
            cases answer
            simpa [Net.answersOwn, pc, found, isAck] using allowed
          · cases answer

theorem Net.Tries.step {action : Action} (tries : net.Tries) (allowed : net.answersOwn action = true)
    (moved : net.step action = some net') : net'.Tries := by
  cases action with
  | startRings side railId txHop rxHop transmitPath =>
      refine tries.updateBenign moved fun rail new change => ?_
      split at change
      · cases change
        exact { Benign.refl rail with running := fun _ => .inl rfl }
      · cases change
  | queueRail side railId =>
      refine tries.updateRail moved fun rail new present change => ?_
      split at change
      · rename_i guarded
        simp only [Bool.and_eq_true, decide_eq_true_eq, Bool.not_eq_true'] at guarded
        cases change
        have known := tries side railId rail present
        have idle : (net.host side).work railId = .idle := by
          by_contra busy
          simp [known.working busy] at guarded
        refine ⟨fun _ => ⟨guarded.1.1, .inl guarded.1.2⟩, fun _ => rfl, fun _ => rfl, ?_⟩
        simp [Host.write, idle, WorkTries, Rail.abandoned, Rail.queueRail]
      · cases change
  | markRemoving side railId =>
      refine tries.updateBenign moved fun rail new change => ?_
      cases change
      exact { Benign.refl rail with }
  | stopWork side railId =>
      refine tries.updateBenign moved fun rail new change => ?_
      split at change
      · cases change
        exact { Benign.refl rail with scheduled := by simp, waiting := by simp }
      · cases change
  | receive side index =>
      simp only [Net.step, Option.map_eq_some_iff] at moved
      obtain ⟨message, -, rfl⟩ := moved
      refine tries.of_host (fun _ => Net.setHost_other) fun id rail found => ?_
      rw [Net.setHost_self] at found ⊢
      exact (tries side id rail found).benign (.refl rail) rfl rfl
  | handle side k answered =>
      simp only [Net.step, Option.map_eq_some_iff] at moved
      obtain ⟨pc, -, rfl⟩ := moved
      exact tries.handle (handlerStep_move ..)
  | work side railId outcome =>
      simp only [Net.step, Option.bind_eq_some_iff, Option.map_eq_some_iff] at moved
      obtain ⟨rail, present, ⟨next, effect⟩, stepped, rfl⟩ := moved
      exact tries.work present (workStep_move stepped)
        fun attempt packet reply => answersOwn_next allowed stepped reply
  | data side railId action =>
      refine tries.updateBenign moved fun rail new change => ?_
      split at change
      · rename_i allowed
        obtain ⟨link, stepped, rfl⟩ := Option.map_eq_some_iff.mp change
        have other : action ≠ .enableTunnel := by
          rintro rfl
          simp [Net.dataAllowed] at allowed
        exact .link (LinkEnd.step_state other stepped)
      · cases change
  | dataDeliver side railId i =>
      simp only [Net.step, Option.bind_eq_some_iff] at moved
      obtain ⟨sender, -, flight, -, middle, taken, received⟩ := moved
      refine (tries.updateBenign taken fun rail new change => ?_).updateBenign received
        fun rail new change => ?_
      · cases change
        exact .link rfl
      · cases change
        exact .link (LinkEnd.receive_state ..)

end

theorem netSystem_tries {net : Net}
    (reachable : netSystem.ReachableVia (fun net action => net.answersOwn action = true) net) :
    net.Tries := by
  refine reachable.invariant ?_ fun _ _ _ tries allowed moved => tries.step allowed moved
  rintro start ⟨fresh, -⟩ side railId rail present
  obtain ⟨cfg, rfl⟩ := (fresh side).1 railId rail present
  have idle := (fresh side).2.1 railId
  refine ⟨by simp [Rail.added], by simp [Rail.added], by simp [idle], ?_⟩
  simp [idle, WorkTries, Rail.abandoned, Rail.added]

theorem updateRail_work {net net' : Net} {target side : Side} {id : Nat} {f : Rail → Option Rail}
    (updated : net.updateRail target id f = some net') :
    (net'.host side).work = (net.host side).work := by
  simp only [Net.updateRail, Option.map_eq_some_iff] at updated
  obtain ⟨rail, -, rfl⟩ := updated
  by_cases own : side = target
  · subst own
    rw [Net.setHost_self]
    rfl
  · rw [Net.setHost_other own]

theorem commit_work {net : Net} {target side : Side} {host : Host} {effect : Effect} {railId : Nat}
    (same : side = target → host.work railId = (net.host target).work railId) :
    ((net.commit target host effect).host side).work railId = (net.host side).work railId := by
  by_cases own : side = target
  · subst own
    rw [Net.commit_self]
    exact same rfl
  · rw [Net.commit_other own]

theorem step_work_other {net net' : Net} {action : Action} {side : Side} {railId : Nat}
    (moved : net.step action = some net') (other : ∀ outcome, action ≠ .work side railId outcome) :
    (net'.host side).work railId = (net.host side).work railId := by
  cases action with
  | startRings | queueRail | markRemoving | stopWork | data => rw [updateRail_work moved]
  | dataDeliver target id i =>
      simp only [Net.step, Option.bind_eq_some_iff] at moved
      obtain ⟨sender, -, flight, -, middle, taken, received⟩ := moved
      rw [updateRail_work received, updateRail_work taken]
  | receive target index =>
      simp only [Net.step, Option.map_eq_some_iff] at moved
      obtain ⟨message, -, rfl⟩ := moved
      by_cases own : side = target
      · subst own
        rw [Net.setHost_self]
      · rw [Net.setHost_other own]
  | handle target k answered =>
      simp only [Net.step, Option.map_eq_some_iff] at moved
      obtain ⟨pc, -, rfl⟩ := moved
      exact commit_work fun _ => rfl
  | work target id outcome =>
      simp only [Net.step, Option.bind_eq_some_iff, Option.map_eq_some_iff] at moved
      obtain ⟨rail, -, result, -, rfl⟩ := moved
      refine commit_work fun same => ?_
      subst same
      have away : railId ≠ id := by
        rintro rfl
        exact other outcome rfl
      simp [Host.moveWork, away]

theorem exchange_returns {net net' : Net} {action : Action} {side : Side} {railId attempt : Nat}
    (safe : net.Safe) (tries : net.Tries) (moved : net.step action = some net')
    (before : (net.host side).work railId ≠ .helloReturn attempt none)
    (after : (net'.host side).work railId = .helloReturn attempt none) :
    ∃ packet rail, Sent net side.peer packet ∧ packet.message.op = .helloAck ∧
      packet.message.hello.railId = railId ∧ (net'.host side).rails railId = some rail ∧
      NegotiatedWith packet.message.hello rail := by
  have own : ∃ outcome, action = .work side railId outcome := by
    by_contra other
    rw [step_work_other moved fun outcome is => other ⟨outcome, is⟩] at after
    exact before after
  obtain ⟨outcome, rfl⟩ := own
  simp only [Net.step, Option.bind_eq_some_iff, Option.map_eq_some_iff] at moved
  obtain ⟨rail, present, ⟨next, effect⟩, stepped, rfl⟩ := moved
  have reached : next = .helloReturn attempt none := by
    simpa [Host.apply, Host.moveWork] using after
  subst reached
  have known := (tries side railId rail present).tries
  have carried := safe.work side railId
  generalize pc : (net.host side).work railId = work at *
  cases workStep_move stepped with
  | helloApplied applied =>
      obtain ⟨sent, ack⟩ := carried
      obtain ⟨-, named⟩ := known
      simp only [Host.applyRemote, Option.map_eq_some_iff, named, present, Option.some.injEq] at applied
      obtain ⟨_, rfl, rfl⟩ := applied
      rename_i packet
      refine ⟨packet, rail.applyRemote packet.message.hello, sent, ack, named, by simp [Host.apply], ?_⟩
      exact ⟨rfl, rfl, rfl, rfl, rfl, rfl⟩

/-- In every run in which the HELLO_ACKs returned to the HELLOs of a rail are for that rail, an
exchange that succeeds has negotiated its own rail, and no work function gives up a rail that is not
negotiated while it has attempts left. -/
theorem exchange_negotiates_own (net : Net)
    (reachable : netSystem.ReachableVia (fun net action => net.answersOwn action = true) net) :
    (∀ action net' side railId attempt, net.step action = some net' →
      (net.host side).work railId ≠ .helloReturn attempt none →
      (net'.host side).work railId = .helloReturn attempt none →
      ∃ packet rail, Sent net side.peer packet ∧ packet.message.op = .helloAck ∧
        packet.message.hello.railId = railId ∧ (net'.host side).rails railId = some rail ∧
        NegotiatedWith packet.message.hello rail) ∧
    ∀ side railId rail, (net.host side).rails railId = some rail →
      (net.host side).work railId = .idle → rail.abandoned = false := by
  have tries := netSystem_tries reachable
  have safe := netSystem_safe reachable.reachable
  refine ⟨fun action net' side railId attempt moved before after =>
    exchange_returns safe tries moved before after, ?_⟩
  intro side railId rail present idle
  have known := (tries side railId rail present).tries
  rwa [idle] at known

theorem exchange_negotiates_own_handshake :
    ∃ (net : Net) (rail : Rail), (net.host .left).rails 0 = some rail ∧ rail.queued = true ∧
      rail.nativeNegotiated = true ∧ (net.host .left).work 0 = .idle ∧ rail.abandoned = false := by
  obtain ⟨net, reachable, ended⟩ := System.exists_reachableVia netSystem
    (fun net action => net.answersOwn action = true) handshakeRun
    (fun net => (net.host .left).work 0 = .idle && ((net.host .left).rails 0).any
      fun rail => rail.queued && rail.nativeNegotiated) start_init (by decide +kernel)
  simp only [Bool.and_eq_true, decide_eq_true_eq, Option.any_eq_true] at ended
  obtain ⟨idle, rail, present, queued, negotiated⟩ := ended
  obtain ⟨-, kept⟩ := exchange_negotiates_own net reachable
  exact ⟨net, rail, present, queued, negotiated, idle, kept .left 0 rail present idle⟩

/-- The HELLO of left's rail 0 times out. While the HELLO of rail 1 waits, the late answer for rail 0
arrives and is returned to it. -/
def crossedHelloRun : List Action :=
  bringUp .left 0 8 ++ bringUp .left 1 10 ++ bringUp .right 0 9 ++ works .left 0 2 ++
    [.work .left 0 (.failed .eTimedOut)] ++ works .left 1 2 ++ handles .right 0 4 ++
    [.work .left 1 (.reply 0)] ++ works .left 1 4

/-- Rail 1 got 0 from its exchange, is not negotiated after one attempt, and is not retried. -/
theorem crossed_hello_abandons_rail :
    ∃ (net : Net) (rail : Rail), netSystem.Reachable net ∧ (net.host .left).rails 1 = some rail ∧
      (net.host .left).work 1 = .idle ∧ rail.nativeAttempts = 1 ∧ rail.nativeNegotiated = false ∧
      rail.abandoned = true := by
  obtain ⟨net, reachable, ended⟩ := System.exists_reachableVia netSystem (fun _ _ => True)
    crossedHelloRun
    (fun net => (net.host .left).work 1 = .idle && ((net.host .left).rails 1).any
      fun rail => rail.nativeAttempts = 1 && !rail.nativeNegotiated && rail.abandoned) start_init
    (by decide +kernel)
  simp only [Bool.and_eq_true, decide_eq_true_eq, Option.any_eq_true, Bool.not_eq_true'] at ended
  obtain ⟨idle, rail, present, ⟨attempts, fresh⟩, abandoned⟩ := ended
  exact ⟨net, rail, reachable, present, idle, attempts, fresh, abandoned⟩

end ThunderboltVerbs.Control
