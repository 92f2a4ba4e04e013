import ThunderboltVerbs.Control.Moves

/-!
# Credit windows and traffic

`tbv_native_control_apply_remote` opens a new credit window and forgets the credits of the old one.
A rail carries frames only once one of its ends is data-ready, and stays data-ready from then on, so
a window opened while neither end is data-ready replaces one that nobody has used.
-/

namespace ThunderboltVerbs.DataPath

structure LinkEnd.Quiet (e : LinkEnd) : Prop where
  control : e.path.txControlQueue = []
  data : e.path.txDataQueue = []
  scheduler : e.path.scheduler = .idle ∨ e.path.scheduler = .looping
  wire : e.wire = []
  rx : e.rx = []
  pending : e.path.rxDataCreditPending = 0

namespace LinkEnd

theorem Quiet.held {e : LinkEnd} (quiet : e.Quiet) : e.held = e.path.txRemoteDataCredits := by
  rcases quiet.scheduler with scheduler | scheduler <;>
    simp [LinkEnd.held, quiet.wire, quiet.rx, scheduler, Scheduler.chargedCount, Lib.tally]

theorem Quiet.owed {e : LinkEnd} (quiet : e.Quiet) : e.owed = 0 := by
  rcases quiet.scheduler with scheduler | scheduler <;>
    simp [LinkEnd.owed, quiet.wire, quiet.rx, quiet.pending, quiet.control, scheduler,
      Scheduler.creditCount, Lib.tally]

theorem Quiet.take {e : LinkEnd} (quiet : e.Quiet) (limit : Nat) :
    Quiet { e with path := e.path.scheduleTake limit } := by
  have none : e.path.selectTx = none := by
    simp only [Path.selectTx, quiet.control, quiet.data]
    split
    · rfl
    · split <;> rfl
  simp only [Path.scheduleTake, none]
  exact { quiet with scheduler := .inl rfl }

theorem Quiet.step {e e' : LinkEnd} {action : EndAction} (quiet : e.Quiet)
    (other : ∀ emission alloc, action ≠ .emit emission alloc) (moved : e.step action = some e') :
    e'.Quiet := by
  cases action with
  | enableTunnel =>
      simp only [LinkEnd.step] at moved
      split at moved
      · cases moved
        exact { quiet with }
      · cases moved
  | emit emission alloc => exact absurd rfl (other emission alloc)
  | reserve frames =>
      cases moved
      unfold Path.reserveData
      split
      · exact quiet
      · split
        · exact quiet
        · split
          · exact quiet
          · exact { quiet with }
  | release frames =>
      cases moved
      exact { quiet with }
  | schedule =>
      cases moved
      unfold Path.scheduleEnter
      split
      · exact { quiet with scheduler := .inr rfl }
      · exact quiet
  | take limit =>
      simp only [LinkEnd.step] at moved
      split at moved
      · cases moved
        exact quiet.take limit
      · cases moved
  | post error =>
      rcases quiet.scheduler with scheduler | scheduler <;>
        simp [LinkEnd.step, LinkEnd.post, scheduler] at moved
  | released =>
      rcases quiet.scheduler with scheduler | scheduler <;>
        simp [LinkEnd.step, scheduler] at moved
  | txComplete i =>
      simp only [LinkEnd.step, Path.txComplete, Option.map_eq_some_iff] at moved
      obtain ⟨path, ⟨packet, found, rfl⟩, rfl⟩ := moved
      exact { quiet with }
  | repost i => simp [LinkEnd.step, LinkEnd.repost, quiet.rx] at moved
  | sendCredit i alloc => simp [LinkEnd.step, LinkEnd.sendCredit, quiet.rx] at moved
  | foldBack i => simp [LinkEnd.step, LinkEnd.foldBack, quiet.rx] at moved
  | addCredit i => simp [LinkEnd.step, LinkEnd.addCredit, quiet.rx] at moved

end LinkEnd

end ThunderboltVerbs.DataPath

namespace ThunderboltVerbs.Control
open Proto DataPath Lib

/-! ## The packet that a step applies -/

def WorkPc.applies : WorkPc → Option Packet
  | .helloApply _ packet => some packet
  | _ => none

def HandlerPc.applies : HandlerPc → Option Packet
  | .start packet => if packet.message.op = .helloAck then some packet else none
  | .helloApply packet _ => some packet
  | _ => none

def Net.applies (net : Net) : Action → Option Packet
  | .work side railId _ => ((net.host side).work railId).applies
  | .handle side k _ => (net.host side).handlers[k]?.bind HandlerPc.applies
  | _ => none

def Net.unready (net : Net) (railId : Nat) : Bool :=
  [Side.left, Side.right].all fun side => ((net.host side).rails railId).all fun rail => !rail.dataReady

/-- The step opens no credit window on a rail that is data-ready at one of its ends. -/
def Net.opensUnready (net : Net) (action : Action) : Bool :=
  (net.applies action).all fun packet => net.unready packet.message.hello.railId

def WindowsKept (trace : List Event) : Prop :=
  ∀ side railId packet unreturned pending,
    .applied side railId packet unreturned pending ∈ trace → unreturned = 0 ∧ pending = 0

theorem Net.unready_iff {net : Net} {railId : Nat} :
    net.unready railId = true ↔
      ∀ side rail, (net.host side).rails railId = some rail → rail.dataReady = false := by
  simp only [Net.unready, List.all_cons, List.all_nil, Bool.and_true, Bool.and_eq_true,
    Option.all_eq_true, Bool.not_eq_true']
  constructor
  · rintro ⟨left, right⟩ side
    cases side with
    | left => exact left
    | right => exact right
  · exact fun unready => ⟨unready .left, unready .right⟩

def Opened (host peer : Host) (railId : Nat) (packet : Packet) (unreturned pending : Nat) : Prop :=
  ∃ rail, host.rails railId = some rail ∧ railId = packet.message.hello.railId ∧
    unreturned = peer.unreturned railId rail ∧ pending = rail.link.path.rxDataCreditPending

section
variable {side other : Side} {host peer : Host} {id unreturned pending : Nat} {packet : Packet}
  {effect : Effect}

theorem applyRemote_opened {applied : Packet} {lock : Option Bool}
    (done : host.applyRemote side peer applied = some effect)
    (member : .applied other id packet unreturned pending ∈ Effect.events { effect with lock := lock }) :
    packet = applied ∧ Opened host peer id packet unreturned pending := by
  simp only [Host.applyRemote, Option.map_eq_some_iff] at done
  obtain ⟨rail, present, rfl⟩ := done
  simp only [List.mem_singleton, Event.applied.injEq] at member
  obtain ⟨rfl, rfl, rfl, rfl, rfl⟩ := member
  exact ⟨rfl, rail, present, rfl, rfl, rfl⟩

theorem applied_writeReady {railId : Nat} {old new : Rail} :
    .applied other id packet unreturned pending ∉ (Host.writeReady side railId old new).events := by
  unfold Host.writeReady
  split <;> simp

theorem applied_markRemoteReady {railId : Nat} {marked : Packet} {rail : Rail} :
    .applied other id packet unreturned pending ∉
      (Host.markRemoteReady side railId marked rail).2.events := by
  simp only [Host.markRemoteReady, List.mem_append, List.mem_singleton, reduceCtorEq, or_false]
  exact applied_writeReady

theorem WorkMove.opened {railId : Nat} {rail : Rail} {pc next : WorkPc}
    (move : WorkMove side host peer railId rail pc next effect)
    (member : .applied other id packet unreturned pending ∈ effect.events) :
    pc.applies = some packet ∧ Opened host peer id packet unreturned pending := by
  cases move with
  | helloApplied applied =>
      obtain ⟨rfl, opened⟩ := applyRemote_opened applied member
      exact ⟨rfl, opened⟩
  | tunnelEnabled =>
      simp only [List.mem_append, List.mem_singleton, reduceCtorEq, or_false] at member
      exact absurd member applied_writeReady
  | readyMarked | readyMarkedOnly => exact absurd member applied_markRemoteReady
  | readySent => exact absurd member applied_writeReady
  | _ => simp at member

theorem HandlerMove.opened {pc : HandlerPc} {next : Option HandlerPc}
    (move : HandlerMove side host peer pc next effect)
    (member : .applied other id packet unreturned pending ∈ effect.events) :
    pc.applies = some packet ∧ Opened host peer id packet unreturned pending := by
  cases move with
  | ackApplied ack applied =>
      obtain ⟨rfl, opened⟩ := applyRemote_opened applied member
      exact ⟨by simp [HandlerPc.applies, ack], opened⟩
  | helloApplied applied =>
      obtain ⟨rfl, opened⟩ := applyRemote_opened applied member
      exact ⟨rfl, opened⟩
  | readyMarked | readyMarkedOnly => exact absurd member applied_markRemoteReady
  | sentMarked | sentMarkedOnly => exact absurd member applied_writeReady
  | _ => simp at member

end

/-! ## Data readiness is kept, and so is quiet without it -/

structure Calm (rail new : Rail) : Prop where
  ready : rail.dataReady = true → new.dataReady = true
  quiet : rail.link.Quiet → new.link.Quiet

theorem Calm.flags {rail new : Rail} (ready : rail.dataReady = true → new.dataReady = true)
    (link : new.link = rail.link) : Calm rail new :=
  ⟨ready, fun quiet => link ▸ quiet⟩

def WritesCalm (host : Host) (effect : Effect) : Prop :=
  ∀ railId new, effect.write = some (railId, new) →
    ∃ rail, host.rails railId = some rail ∧ Calm rail new

section
variable {side : Side} {host peer : Host} {railId : Nat} {rail new : Rail} {effect : Effect}

theorem WritesCalm.own (present : host.rails railId = some rail)
    (write : effect.write = some (railId, new)) (calm : Calm rail new) : WritesCalm host effect := by
  intro id written wrote
  rw [write] at wrote
  cases wrote
  exact ⟨rail, present, calm⟩

theorem WritesCalm.none (write : effect.write = none) : WritesCalm host effect := by
  intro id written wrote
  rw [write] at wrote
  cases wrote

theorem WritesCalm.applied {packet : Packet} (applied : host.applyRemote side peer packet = some effect)
    (lock : Option Bool) : WritesCalm host { effect with lock := lock } := by
  simp only [Host.applyRemote, Option.map_eq_some_iff] at applied
  obtain ⟨rail, present, rfl⟩ := applied
  exact .own present rfl ⟨id, fun quiet => { quiet with pending := rfl }⟩

theorem Calm.enableTunnel (started : rail.state = .ringStarted) (hop : Int) (error : Option Errno) :
    Calm rail
      { rail.setPath { rail.link.path with state := .tunnelEnabled } with
        pathRemoteTransmitPath := hop, nativeLastError := error } where
  ready ready := by simp [Rail.dataReady, started] at ready
  quiet quiet := { quiet with }

theorem Calm.markReady (rail : Rail) (remote sent : Bool) (error : Option Errno) :
    Calm rail
      { rail with
        nativeRemoteReady := rail.nativeRemoteReady || remote
        nativeReadySent := rail.nativeReadySent || sent
        nativeLastError := error } := by
  refine .flags ?_ rfl
  simp only [Rail.dataReady, Rail.state, Bool.and_eq_true, Bool.or_eq_true]
  exact fun ready => ⟨⟨ready.1.1, .inl ready.1.2⟩, .inl ready.2⟩

theorem WorkMove.writesCalm {pc next : WorkPc}
    (move : WorkMove side host peer railId rail pc next effect) (present : host.rails railId = some rail) :
    WritesCalm host effect := by
  cases move with
  | helloApplied applied => exact .applied applied _
  | tunnelEnabled started => exact .own present rfl (.enableTunnel started _ _)
  | readyMarked | readyMarkedOnly =>
      exact .own present rfl (by simpa using Calm.markReady rail true false rail.nativeLastError)
  | readySent =>
      exact .own present rfl (by simpa using Calm.markReady rail false true rail.nativeLastError)
  | skip | startHello | startInvalid | startTunnel | helloDone | helloError | tunnelRefused
  | tunnelTry | tunnelFailed | readyTry | readyDone | readyError | again =>
      exact .own present rfl (.flags id rfl)
  | _ => exact .none rfl

theorem HandlerMove.writesCalm {pc : HandlerPc} {next : Option HandlerPc}
    (move : HandlerMove side host peer pc next effect) : WritesCalm host effect := by
  cases move with
  | ackApplied ack applied | helloApplied applied => exact .applied applied _
  | readyMarked present | readyMarkedOnly present =>
      rename_i rail _
      exact .own present rfl (by simpa using Calm.markReady rail true false rail.nativeLastError)
  | sentMarked present | sentMarkedOnly present =>
      rename_i rail _
      exact .own present rfl (by simpa using Calm.markReady rail false true none)
  | kicked present => exact .own present rfl (.flags id rfl)
  | _ => exact .none rfl

end

def Net.QuietRail (net : Net) (railId : Nat) : Prop :=
  ∀ side rail, (net.host side).rails railId = some rail → rail.dataReady = false ∧ rail.link.Quiet

/-- Data-ready rails stay so, and quiet rails do, at least where `assume` holds. -/
structure Net.Evolves (assume : Nat → Prop) (net net' : Net) : Prop where
  ready : ∀ side railId rail, (net.host side).rails railId = some rail → rail.dataReady = true →
    ∃ new, (net'.host side).rails railId = some new ∧ new.dataReady = true
  quiet : ∀ side railId new, (net'.host side).rails railId = some new → assume railId →
    ∃ rail, (net.host side).rails railId = some rail ∧ (rail.link.Quiet → new.link.Quiet)

section
variable {net net' net'' : Net} {side : Side} {railId : Nat} {assume : Nat → Prop}

theorem Net.Evolves.trans (first : Net.Evolves assume net net') (second : Net.Evolves assume net' net'') :
    Net.Evolves assume net net'' where
  ready side railId rail present ready := by
    obtain ⟨middle, found, ready⟩ := first.ready side railId rail present ready
    exact second.ready side railId middle found ready
  quiet side railId new present assumed := by
    obtain ⟨middle, found, after⟩ := second.quiet side railId new present assumed
    obtain ⟨rail, was, before⟩ := first.quiet side railId middle found assumed
    exact ⟨rail, was, after ∘ before⟩

theorem Net.evolves_setHost {host : Host} {old new : Rail}
    (present : (net.host side).rails railId = some old)
    (rails : host.rails = Function.update (net.host side).rails railId (some new))
    (ready : old.dataReady = true → new.dataReady = true)
    (quiet : assume railId → old.link.Quiet → new.link.Quiet) :
    Net.Evolves assume net (net.setHost side host) where
  ready other id rail found was := by
    by_cases own : other = side
    · subst own
      rw [Net.setHost_self, rails]
      by_cases target : id = railId
      · subst target
        rw [present] at found
        cases found
        exact ⟨new, Function.update_self .., ready was⟩
      · exact ⟨rail, by rw [Function.update_of_ne target, found], was⟩
    · exact ⟨rail, by rw [Net.setHost_other own, found], was⟩
  quiet other id rail found assumed := by
    by_cases own : other = side
    · subst own
      rw [Net.setHost_self, rails] at found
      by_cases target : id = railId
      · subst target
        rw [Function.update_self] at found
        cases found
        exact ⟨old, present, quiet assumed⟩
      · exact ⟨rail, by rwa [Function.update_of_ne target] at found, fun kept => kept⟩
    · exact ⟨rail, by rwa [Net.setHost_other own] at found, fun kept => kept⟩

theorem Net.evolves_same {host : Host} (rails : host.rails = (net.host side).rails) :
    Net.Evolves assume net (net.setHost side host) := by
  have same : ∀ other, ((net.setHost side host).host other).rails = (net.host other).rails := by
    intro other
    by_cases own : other = side
    · subst own
      rw [Net.setHost_self, rails]
    · rw [Net.setHost_other own]
  exact ⟨fun other id rail found ready => ⟨rail, by rwa [same], ready⟩,
    fun other id rail found _ => ⟨rail, by rwa [same] at found, fun quiet => quiet⟩⟩

theorem Net.evolves_commit {host : Host} {effect : Effect} (rails : host.rails = (net.host side).rails)
    (calm : WritesCalm (net.host side) effect) :
    Net.Evolves assume net (net.commit side host effect) := by
  have moved : Net.Evolves assume net (net.setHost side (host.apply effect)) := by
    cases write : effect.write with
    | none => exact Net.evolves_same (by simp [Host.apply, write, rails])
    | some pair =>
        obtain ⟨written, new⟩ := pair
        obtain ⟨rail, present, calm⟩ := calm written new write
        exact Net.evolves_setHost present (by simp [Host.apply, write, rails]) calm.ready
          fun _ => calm.quiet
  exact ⟨moved.ready, moved.quiet⟩

theorem Net.evolves_updateRail {f : Rail → Option Rail}
    (updated : net.updateRail side railId f = some net')
    (calm : ∀ rail new, (net.host side).rails railId = some rail → f rail = some new →
      (rail.dataReady = true → new.dataReady = true) ∧
        (assume railId → rail.link.Quiet → new.link.Quiet)) :
    Net.Evolves assume net net' := by
  simp only [Net.updateRail, Option.map_eq_some_iff, Option.bind_eq_some_iff] at updated
  obtain ⟨new, ⟨old, present, change⟩, rfl⟩ := updated
  obtain ⟨ready, quiet⟩ := calm old new present change
  exact Net.evolves_setHost present rfl ready quiet

theorem dataReady_link {rail : Rail} {link : LinkEnd} (same : link.path.state = rail.state) :
    Rail.dataReady { rail with link := link } = rail.dataReady := by
  unfold Rail.dataReady Rail.state at *
  rw [same]

theorem Net.evolves_data {action : EndAction} (moved : net.step (.data side railId action) = some net') :
    Net.Evolves net.QuietRail net net' := by
  refine Net.evolves_updateRail moved fun rail new present change => ?_
  split at change
  · rename_i allowed
    obtain ⟨link, stepped, rfl⟩ := Option.map_eq_some_iff.mp change
    have other : action ≠ .enableTunnel := by
      rintro rfl
      simp [Net.dataAllowed] at allowed
    refine ⟨?_, fun assumed quiet => quiet.step ?_ stepped⟩
    · rw [dataReady_link (LinkEnd.step_state other stepped)]
      exact id
    · -- frames are sent only on a data-ready rail, which is not a quiet one
      rintro emission alloc rfl
      simp [Net.dataAllowed, (assumed side rail present).1] at allowed
  · cases change

theorem Net.evolves_deliver {i : Nat} (moved : net.step (.dataDeliver side railId i) = some net') :
    Net.Evolves net.QuietRail net net' := by
  simp only [Net.step, Option.bind_eq_some_iff] at moved
  obtain ⟨sender, present, flight, found, middle, taken, received⟩ := moved
  have busy : ¬net.QuietRail railId := by
    intro quiet
    simp [(quiet side.peer sender present).2.wire] at found
  refine (Net.evolves_updateRail taken ?_).trans (Net.evolves_updateRail received ?_)
  · intro rail new _ change
    cases change
    exact ⟨id, fun quiet => absurd quiet busy⟩
  · intro rail new _ change
    cases change
    rw [dataReady_link (LinkEnd.receive_state ..)]
    exact ⟨id, fun quiet => absurd quiet busy⟩

theorem Net.evolves_step {action : Action} (moved : net.step action = some net') :
    Net.Evolves net.QuietRail net net' := by
  cases action with
  | startRings side railId txHop rxHop transmitPath =>
      refine Net.evolves_updateRail moved fun rail new _ change => ?_
      split at change
      · rename_i fresh
        cases change
        exact ⟨by simp [Rail.dataReady, fresh], fun _ quiet => { quiet with }⟩
      · cases change
  | queueRail side railId =>
      refine Net.evolves_updateRail moved fun rail new _ change => ?_
      split at change
      · rename_i started
        simp only [Bool.and_eq_true, decide_eq_true_eq] at started
        cases change
        exact ⟨by simp [Rail.dataReady, started.1.2], fun _ => id⟩
      · cases change
  | markRemoving side railId =>
      refine Net.evolves_updateRail moved fun rail new _ change => ?_
      cases change
      exact ⟨id, fun _ => id⟩
  | stopWork side railId =>
      refine Net.evolves_updateRail moved fun rail new _ change => ?_
      split at change
      · cases change
        exact ⟨id, fun _ => id⟩
      · cases change
  | receive side index =>
      simp only [Net.step, Option.map_eq_some_iff] at moved
      obtain ⟨message, -, rfl⟩ := moved
      exact Net.evolves_same rfl
  | handle side k answered =>
      simp only [Net.step, Option.map_eq_some_iff] at moved
      obtain ⟨pc, -, rfl⟩ := moved
      exact Net.evolves_commit rfl (handlerStep_move ..).writesCalm
  | work side railId outcome =>
      simp only [Net.step, Option.bind_eq_some_iff, Option.map_eq_some_iff] at moved
      obtain ⟨rail, present, ⟨next, effect⟩, stepped, rfl⟩ := moved
      exact Net.evolves_commit rfl ((workStep_move stepped).writesCalm present)
  | data side railId action => exact Net.evolves_data moved
  | dataDeliver side railId i => exact Net.evolves_deliver moved

end

/-! ## Whole runs -/

structure Net.Windowed (net : Net) : Prop where
  quiet : ∀ railId, net.unready railId = true → net.QuietRail railId
  kept : WindowsKept net.trace

section
variable {net net' : Net} {side : Side}

theorem Net.Windowed.quiet_step {action : Action} (windowed : net.Windowed)
    (moved : net.step action = some net') (railId : Nat) (unready : net'.unready railId = true) :
    net'.QuietRail railId := by
  have evolves := Net.evolves_step moved
  have notReady := Net.unready_iff.mp unready
  have quiet : net.QuietRail railId := by
    refine windowed.quiet railId (Net.unready_iff.mpr fun side rail present => ?_)
    by_contra ready
    obtain ⟨new, found, still⟩ := evolves.ready side railId rail present (by simpa using ready)
    simp [notReady side new found] at still
  intro side new found
  obtain ⟨rail, present, kept⟩ := evolves.quiet side railId new found quiet
  exact ⟨notReady side new found, kept (quiet side rail present).2⟩

theorem Net.QuietRail.opened {railId unreturned pending : Nat} {packet : Packet}
    (quiet : net.QuietRail railId)
    (opened : Opened (net.host side) (net.host side.peer) railId packet unreturned pending) :
    unreturned = 0 ∧ pending = 0 := by
  obtain ⟨rail, present, -, rfl, rfl⟩ := opened
  have own := (quiet side rail present).2
  refine ⟨?_, own.pending⟩
  simp only [Host.unreturned, own.held, Nat.sub_self, Nat.zero_add]
  split
  · rename_i other found
    exact (quiet side.peer other found).2.owed
  · rfl

theorem Net.Windowed.commit {host : Host} {effect : Effect} {pcApplies : Option Packet}
    (windowed : net.Windowed)
    (opens : ∀ packet, pcApplies = some packet → net.unready packet.message.hello.railId = true)
    (opened : ∀ other id packet unreturned pending,
      .applied other id packet unreturned pending ∈ effect.events → pcApplies = some packet ∧
        Opened (net.host side) (net.host side.peer) id packet unreturned pending) :
    WindowsKept (net.commit side host effect).trace := by
  intro other id packet unreturned pending member
  simp only [Net.commit, Net.log, List.append_assoc, List.mem_append] at member
  rcases member with event | send | old
  · obtain ⟨applies, covers⟩ := opened other id packet unreturned pending event
    have target : id = packet.message.hello.railId := by
      obtain ⟨rail, -, rfl, -⟩ := covers
      rfl
    exact (windowed.quiet id (target ▸ opens packet applies)).opened covers
  · split at send <;> simp at send
  · exact windowed.kept other id packet unreturned pending old

theorem updateRail_trace {railId : Nat} {f : Rail → Option Rail}
    (updated : net.updateRail side railId f = some net') : net'.trace = net.trace := by
  simp only [Net.updateRail, Option.map_eq_some_iff] at updated
  obtain ⟨new, -, rfl⟩ := updated
  rfl

theorem Net.Windowed.kept_step {action : Action} (windowed : net.Windowed)
    (allowed : net.opensUnready action = true) (moved : net.step action = some net') :
    WindowsKept net'.trace := by
  simp only [Net.opensUnready, Option.all_eq_true] at allowed
  cases action with
  | handle side k answered =>
      simp only [Net.step, Option.map_eq_some_iff] at moved
      obtain ⟨pc, running, rfl⟩ := moved
      simp only [Net.applies, running, Option.bind_some] at allowed
      exact windowed.commit allowed fun _ _ _ _ _ member => (handlerStep_move ..).opened member
  | work side railId outcome =>
      simp only [Net.step, Option.bind_eq_some_iff, Option.map_eq_some_iff] at moved
      obtain ⟨rail, -, ⟨next, effect⟩, stepped, rfl⟩ := moved
      exact windowed.commit allowed fun _ _ _ _ _ member => (workStep_move stepped).opened member
  | receive side index =>
      simp only [Net.step, Option.map_eq_some_iff] at moved
      obtain ⟨message, -, rfl⟩ := moved
      exact windowed.kept
  | dataDeliver side railId i =>
      simp only [Net.step, Option.bind_eq_some_iff] at moved
      obtain ⟨sender, -, flight, -, middle, taken, received⟩ := moved
      rw [updateRail_trace received, updateRail_trace taken]
      exact windowed.kept
  | startRings | queueRail | markRemoving | stopWork | data =>
      rw [updateRail_trace moved]
      exact windowed.kept

end

theorem netSystem_windowed {net : Net}
    (reachable : netSystem.ReachableVia (fun net action => net.opensUnready action = true) net) :
    net.Windowed := by
  refine reachable.invariant ?_ fun net action net' windowed allowed moved =>
    ⟨windowed.quiet_step moved, windowed.kept_step allowed moved⟩
  rintro start ⟨fresh, empty⟩
  constructor
  · intro railId _ side rail present
    obtain ⟨cfg, rfl⟩ := (fresh side).1 railId rail present
    exact ⟨by simp [Rail.dataReady, Rail.added, Rail.state], ⟨rfl, rfl, .inl rfl, rfl, rfl, rfl⟩⟩
  · intro side railId packet unreturned pending member
    simp [empty] at member

/-- In every run that opens no credit window on a rail with a data-ready end, every window is opened
with no charge unreturned and no credit pending. -/
theorem window_opened_quiet (net : Net)
    (reachable : netSystem.ReachableVia (fun net action => net.opensUnready action = true) net) :
    WindowsKept net.trace :=
  (netSystem_windowed reachable).kept

/-- A window is opened while the rail still has none: both ends of rail 0 negotiate. -/
theorem window_opened_quiet_negotiated :
    ∃ net : Net, net.trace.countP (fun event => event matches .applied ..) = 3 ∧
      WindowsKept net.trace := by
  obtain ⟨net, reachable, opened⟩ := System.exists_reachableVia netSystem
    (fun net action => net.opensUnready action = true) handshakeRun
    (fun net => net.trace.countP (fun event => event matches .applied ..) = 3) start_init
    (by decide +kernel)
  exact ⟨net, by simpa using opened, window_opened_quiet net reachable⟩

/-- The channel delivers the messages of each direction in order, each at most once, and answers a
request with the message that was delivered last. -/
def Net.inOrder (net : Net) : Action → Bool
  | .receive side index => (net.host side).rxNext ≤ index
  | .work side _ (.reply index) => (net.host side).rxNext = index + 1
  | _ => true

/-- Left's first HELLO times out and a second one is sent; right answers the first, both tunnels come
up, and left becomes data-ready through right's READY while the second HELLO is still on its way. -/
def retriedHelloRun : List Action :=
  bringUp .left 0 8 ++ bringUp .right 0 9 ++ works .left 0 2 ++
    [.work .left 0 (.failed .eTimedOut)] ++ works .left 0 4 ++ handles .right 0 4 ++
    handles .left 0 1 ++ [.work .left 0 (.reply 0)] ++ works .left 0 8 ++ works .right 0 7 ++
    handles .left 1 7

/-- Left sends a READ request; right owes its credit when the second HELLO arrives. -/
def windowResetRun : List Action :=
  retriedHelloRun ++
    [.data .left 0 (.emit (.readRequest 7 5 0 4096 0 99 1) true), .data .left 0 .schedule,
      .data .left 0 (.take 32), .data .left 0 (.post none), .dataDeliver .right 0 0,
      .data .right 0 (.repost 0)] ++
    handles .right 1 2

theorem retried_hello_resets_window :
    ¬∀ net, netSystem.ReachableVia (fun net action => net.inOrder action = true) net →
      WindowsKept net.trace := by
  intro kept
  obtain ⟨net, reachable, opened⟩ := System.exists_reachableVia netSystem
    (fun net action => net.inOrder action = true) windowResetRun
    (fun net => net.trace.any fun event => event matches .applied .right 0 _ 0 1) start_init
    (by decide +kernel)
  obtain ⟨event, member, opens⟩ := List.any_eq_true.mp opened
  split at opens
  · have closed := kept net reachable _ _ _ _ _ member
    simp at closed
  · cases opens

end ThunderboltVerbs.Control
