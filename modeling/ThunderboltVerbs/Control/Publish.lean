import ThunderboltVerbs.Control.Moves

/-!
# No lost publication

A rail that is data-ready and not being removed has been published since its last edge, or some
thread has still to look at it. The thread that raises the last edge is always such a thread.
-/

namespace ThunderboltVerbs.Control
open DataPath

/-- Whether `tbv_ibdev_rail_event(state, rail, true)` was called after the last edge. -/
def publishedSinceEdge (side : Side) (railId : Nat) : List Event → Bool
  | [] => false
  | .railEvent other id :: rest =>
      (other = side ∧ id = railId) || publishedSinceEdge side railId rest
  | .edge other id :: rest =>
      if other = side ∧ id = railId then false else publishedSinceEdge side railId rest
  | _ :: rest => publishedSinceEdge side railId rest

def WorkPc.publishes : WorkPc → Bool
  | .tunnelPublishCheck | .tunnelPublish | .readyPublish _ | .sentPublishCheck | .sentPublish => true
  | _ => false

def HandlerPc.publishes (railId : Nat) : HandlerPc → Bool
  | .readyPublish packet _ => packet.message.hello.railId = railId
  | .sentPublish _ reply => reply.railId = railId
  | _ => false

def Net.Covered (net : Net) (side : Side) (railId : Nat) : Prop :=
  publishedSinceEdge side railId net.trace = true ∨ ((net.host side).work railId).publishes = true ∨
    ∃ pc ∈ (net.host side).handlers, pc.publishes railId = true

def Net.Publishing (net : Net) : Prop :=
  ∀ side railId rail, (net.host side).rails railId = some rail → rail.publishable = true →
    net.Covered side railId

theorem publishedSinceEdge_append {side : Side} {railId : Nat} {events trace : List Event}
    (quiet : .edge side railId ∉ events) (published : publishedSinceEdge side railId trace = true) :
    publishedSinceEdge side railId (events ++ trace) = true := by
  induction events with
  | nil => exact published
  | cons event rest ih =>
      have tail := ih fun member => quiet (List.mem_cons_of_mem _ member)
      cases event with
      | railEvent other id => simp [publishedSinceEdge, tail]
      | edge other id =>
          have different : ¬(other = side ∧ id = railId) := by
            rintro ⟨rfl, rfl⟩
            exact quiet List.mem_cons_self
          simpa [publishedSinceEdge, different] using tail
      | _ => simpa [publishedSinceEdge] using tail

/-- What a step of a thread does for the publication of a rail it leaves publishable: it has just
published it, or has it still to look at, or found it so and raised no edge. -/
def Publication (side : Side) (host : Host) (effect : Effect) (before after : Nat → Bool) : Prop :=
  ∀ railId rail, (host.apply effect).rails railId = some rail → rail.publishable = true →
    effect.events = [.railEvent side railId] ∨ after railId = true ∨
      ((∃ old, host.rails railId = some old ∧ old.publishable = true) ∧
        .edge side railId ∉ effect.events ∧ before railId = false)

/-! ## Effects that leave publication alone -/

theorem Publication.quiet {side : Side} {host : Host} {effect : Effect} {before after : Nat → Bool}
    (same : ∀ railId rail, effect.write = some (railId, rail) →
      ∃ old, host.rails railId = some old ∧ (rail.publishable = true → old.publishable = true))
    (calm : ∀ railId, .edge side railId ∉ effect.events)
    (free : ∀ railId, before railId = true → after railId = true) :
    Publication side host effect before after := by
  intro railId rail found ready
  cases kept : before railId with
  | true => exact .inr (.inl (free railId kept))
  | false =>
      refine .inr (.inr ⟨?_, calm railId, rfl⟩)
      rcases Host.rails_apply found with write | ⟨present, -⟩
      · obtain ⟨old, present, back⟩ := same _ _ write
        exact ⟨old, present, back ready⟩
      · exact ⟨rail, present, ready⟩

theorem Publication.of_write {side : Side} {host : Host} {effect : Effect} {before after : Nat → Bool}
    {railId : Nat} {new : Rail} (write : effect.write = some (railId, new))
    (checked : new.publishable = true → after railId = true)
    (calm : ∀ other, other ≠ railId → .edge side other ∉ effect.events ∧ before other = false) :
    Publication side host effect before after := by
  intro other rail found ready
  rcases Host.rails_apply found with written | ⟨present, untouched⟩
  · rw [write] at written
    cases written
    exact .inr (.inl (checked ready))
  · have different : other ≠ railId := by
      rintro rfl
      exact untouched new write
    exact .inr (.inr ⟨⟨rail, present, ready⟩, calm other different⟩)

theorem Publication.of_event {side : Side} {host : Host} {effect : Effect} {before after : Nat → Bool}
    {railId : Nat} (write : effect.write = none) (events : effect.events = [.railEvent side railId])
    (calm : ∀ other, other ≠ railId → before other = false) :
    Publication side host effect before after := by
  intro other rail found ready
  rcases Host.rails_apply found with written | ⟨present, -⟩
  · rw [write] at written
    cases written
  · by_cases target : other = railId
    · exact .inl (by rw [events, target])
    · exact .inr (.inr ⟨⟨rail, present, ready⟩, by simp [events], calm other target⟩)

@[simp] theorem edge_mem_writeReady {side : Side} {railId other : Nat} {old new : Rail}
    (different : other ≠ railId) : .edge side other ∉ (Host.writeReady side railId old new).events := by
  unfold Host.writeReady
  split <;> simp [different]

theorem applyRemote_quiet {side : Side} {host peer : Host} {packet : Packet} {effect : Effect}
    {before after : Nat → Bool} (applied : host.applyRemote side peer packet = some effect)
    (lock : Option Bool) (free : ∀ railId, before railId = true → after railId = true) :
    Publication side host { effect with lock := lock } before after := by
  simp only [Host.applyRemote, Option.map_eq_some_iff] at applied
  obtain ⟨rail, present, rfl⟩ := applied
  refine Publication.quiet ?_ (by simp) free
  intro railId new write
  cases write
  exact ⟨rail, present, id⟩

theorem Publication.own {side : Side} {host : Host} {effect : Effect} {before after : Nat → Bool}
    {railId : Nat} {rail new : Rail} (present : host.rails railId = some rail)
    (write : effect.write = some (railId, new)) (same : new.publishable = rail.publishable)
    (calm : effect.events = []) (free : ∀ railId, before railId = true → after railId = true) :
    Publication side host effect before after := by
  refine Publication.quiet ?_ (by simp [calm]) free
  intro other written wrote
  rw [write] at wrote
  cases wrote
  exact ⟨rail, present, fun ready => same ▸ ready⟩

theorem Publication.none {side : Side} {host : Host} {effect : Effect} {before after : Nat → Bool}
    (write : effect.write = none) (calm : effect.events = [])
    (free : ∀ railId, before railId = true → after railId = true) :
    Publication side host effect before after :=
  Publication.quiet (by simp [write]) (by simp [calm]) free

theorem Publication.unseen {side : Side} {host : Host} {before after : Nat → Bool} {railId : Nat}
    {rail : Rail} (present : host.rails railId = some rail) (notReady : rail.publishable = false)
    (calm : ∀ other, other ≠ railId → before other = false) :
    Publication side host {} before after := by
  intro other found foundAt ready
  rcases Host.rails_apply foundAt with written | ⟨same, -⟩
  · cases written
  · by_cases target : other = railId
    · subst target
      rw [present] at same
      cases same
      simp [notReady] at ready
    · exact .inr (.inr ⟨⟨found, same, ready⟩, by simp, calm other target⟩)

/-! ## The work function -/

theorem WorkMove.publication {side : Side} {host peer : Host} {railId : Nat} {rail : Rail}
    {pc next : WorkPc} {effect : Effect} (move : WorkMove side host peer railId rail pc next effect)
    (present : host.rails railId = some rail) :
    Publication side host effect (fun id => id = railId && pc.publishes)
      (fun id => id = railId && next.publishes) := by
  cases move with
  | skip | startHello | startInvalid | startTunnel | helloDone | helloError | tunnelRefused
  | tunnelTry | tunnelFailed | readyTry | readyDone | readyError | again =>
      exact .own present rfl rfl rfl (by simp [WorkPc.publishes])
  | helloSend | helloFailed | helloReply | helloUnknown | tunnelSkip | tunnelLocked | readySkip
  | readySend | readyFailed | readyReply | done | tunnelSeen | sentSeen =>
      exact .none rfl rfl (by simp [WorkPc.publishes])
  | helloApplied applied => exact applyRemote_quiet applied _ (by simp [WorkPc.publishes])
  | tunnelEnabled started =>
      exact .of_write rfl (by simp [WorkPc.publishes]) (by simp +contextual [WorkPc.publishes])
  | tunnelUnseen notReady | sentUnseen notReady =>
      exact .unseen present notReady (by simp +contextual)
  | tunnelPublished | readyPublished | sentPublished =>
      exact .of_event rfl rfl (by simp +contextual)
  | readyMarked ready =>
      exact .of_write rfl (by simp [WorkPc.publishes])
        (by simp +contextual [Host.markRemoteReady])
  | readyMarkedOnly notReady =>
      exact .of_write rfl (fun ready => (Bool.false_ne_true (notReady.symm.trans ready)).elim)
        (by simp +contextual [Host.markRemoteReady])
  | readySent =>
      exact .of_write rfl (by simp [WorkPc.publishes]) (by simp +contextual)

/-! ## The packet handler -/

def publishesNext (next : Option HandlerPc) (railId : Nat) : Bool :=
  next.any (·.publishes railId)

theorem HandlerMove.publication {side : Side} {host peer : Host} {pc : HandlerPc}
    {next : Option HandlerPc} {effect : Effect} (move : HandlerMove side host peer pc next effect) :
    Publication side host effect (fun id => pc.publishes id) (publishesNext next) := by
  cases move with
  | ignored | readyFound | helloFound | helloUnknown | helloAnswered | helloUnanswered | readyTunnel
  | readyNoTunnel | readyUnknown | readyAnswered | readyUnanswered | sentUnknown | unkicked =>
      exact .none rfl rfl (by simp [HandlerPc.publishes])
  | ackApplied ack applied | helloApplied applied =>
      exact applyRemote_quiet applied _ (by simp [HandlerPc.publishes])
  | readyMarked present ready =>
      exact .of_write rfl (by simp [publishesNext, HandlerPc.publishes])
        (by simp +contextual [Host.markRemoteReady, HandlerPc.publishes])
  | readyMarkedOnly present notReady =>
      exact .of_write rfl (fun ready => (Bool.false_ne_true (notReady.symm.trans ready)).elim)
        (by simp +contextual [Host.markRemoteReady, HandlerPc.publishes])
  | readyPublished | sentPublished =>
      exact .of_event rfl rfl (by simp +contextual [HandlerPc.publishes, eq_comm])
  | sentMarked present ready =>
      exact .of_write rfl (by simp [publishesNext, HandlerPc.publishes])
        (by simp +contextual [Host.markLocalReadySent, HandlerPc.publishes])
  | sentMarkedOnly present notReady =>
      exact .of_write rfl (fun ready => (Bool.false_ne_true (notReady.symm.trans ready)).elim)
        (by simp +contextual [Host.markLocalReadySent, HandlerPc.publishes])
  | kicked present allowed => exact .own present rfl rfl rfl (by simp [HandlerPc.publishes])

/-! ## Edges are raised at the side of the thread -/

theorem edge_writeReady {side other : Side} {railId id : Nat} {old new : Rail}
    (raised : .edge other id ∈ (Host.writeReady side railId old new).events) : other = side := by
  unfold Host.writeReady at raised
  split at raised
  · simp only [List.mem_singleton, Event.edge.injEq] at raised
    exact raised.1
  · simp at raised

theorem edge_markRemoteReady {side other : Side} {railId id : Nat} {packet : Packet} {rail : Rail}
    (raised : .edge other id ∈ (Host.markRemoteReady side railId packet rail).2.events) :
    other = side := by
  simp only [Host.markRemoteReady, List.mem_append, List.mem_singleton, reduceCtorEq,
    or_false] at raised
  exact edge_writeReady raised

theorem edge_applyRemote {side other : Side} {host peer : Host} {packet : Packet} {id : Nat}
    {effect : Effect} (applied : host.applyRemote side peer packet = some effect) :
    .edge other id ∉ effect.events := by
  simp only [Host.applyRemote, Option.map_eq_some_iff] at applied
  obtain ⟨rail, -, rfl⟩ := applied
  simp

theorem WorkMove.edge_side {side other : Side} {host peer : Host} {railId id : Nat} {rail : Rail}
    {pc next : WorkPc} {effect : Effect} (move : WorkMove side host peer railId rail pc next effect)
    (raised : .edge other id ∈ effect.events) : other = side := by
  cases move with
  | helloApplied applied => exact (edge_applyRemote applied raised).elim
  | tunnelEnabled started =>
      simp only [List.mem_append, List.mem_singleton, reduceCtorEq, or_false] at raised
      exact edge_writeReady raised
  | readyMarked | readyMarkedOnly => exact edge_markRemoteReady raised
  | readySent => exact edge_writeReady raised
  | _ => simp at raised

theorem HandlerMove.edge_side {side other : Side} {host peer : Host} {id : Nat} {pc : HandlerPc}
    {next : Option HandlerPc} {effect : Effect} (move : HandlerMove side host peer pc next effect)
    (raised : .edge other id ∈ effect.events) : other = side := by
  cases move with
  | ackApplied ack applied | helloApplied applied => exact (edge_applyRemote applied raised).elim
  | readyMarked | readyMarkedOnly => exact edge_markRemoteReady raised
  | sentMarked | sentMarkedOnly => exact edge_writeReady raised
  | _ => simp at raised

/-! ## Whole runs -/

theorem edge_notMem_log {side other : Side} {railId : Nat} {host : Host} {effect : Effect}
    (calm : .edge other railId ∉ effect.events) :
    .edge other railId ∉ Net.log side host effect := by
  unfold Net.log
  split <;> simp [calm]

/-- A publication step of one thread keeps the rails covered, if the other threads of the host keep
their program counters. -/
theorem Net.Publishing.commit {net : Net} {side : Side} {host : Host} {effect : Effect}
    {before after : Nat → Bool} (covered : net.Publishing)
    (rails : host.rails = (net.host side).rails)
    (publication : Publication side host effect before after)
    (local_events : ∀ other railId, other ≠ side → .edge other railId ∉ effect.events)
    (now : ∀ railId, after railId = true →
      (host.work railId).publishes = true ∨ ∃ pc ∈ host.handlers, pc.publishes railId = true)
    (later : ∀ railId, before railId = false → net.Covered side railId →
      publishedSinceEdge side railId net.trace = true ∨ (host.work railId).publishes = true ∨
        ∃ pc ∈ host.handlers, pc.publishes railId = true) :
    (net.commit side host effect).Publishing := by
  intro other railId rail found ready
  by_cases own : other = side
  · subst own
    simp only [Net.commit, Function.update_self] at found
    simp only [Net.Covered, Net.commit, Function.update_self]
    rcases publication railId rail found ready with published | checks | ⟨⟨old, present, was⟩, calm, free⟩
    · left
      simp [Net.log, published, publishedSinceEdge]
    · exact .inr (now railId checks)
    · rcases later railId free (covered other railId old (rails ▸ present) was) with published | waiting
      · exact .inl (publishedSinceEdge_append (edge_notMem_log calm) published)
      · exact .inr waiting
  · simp only [Net.commit, Function.update_of_ne own] at found
    rcases covered other railId rail found ready with published | waiting
    · exact .inl (publishedSinceEdge_append
        (edge_notMem_log (local_events other railId own)) published)
    · refine .inr ?_
      simpa only [Net.commit, Function.update_of_ne own] using waiting

theorem Net.Publishing.work {net : Net} {side : Side} {railId : Nat} {rail : Rail} {next : WorkPc}
    {effect : Effect} (covered : net.Publishing) (present : (net.host side).rails railId = some rail)
    (move : WorkMove side (net.host side) (net.host side.peer) railId rail
      ((net.host side).work railId) next effect) :
    (net.commit side ((net.host side).moveWork railId next) effect).Publishing := by
  refine covered.commit rfl (move.publication present)
    (fun other id away raised => away (move.edge_side raised)) ?_ ?_
  · intro id checks
    simp only [Bool.and_eq_true, decide_eq_true_eq] at checks
    obtain ⟨rfl, checks⟩ := checks
    exact .inl (by simpa [Host.moveWork] using checks)
  · intro id free waiting
    rcases waiting with published | working | handling
    · exact .inl published
    · have other : id ≠ railId := by
        rintro rfl
        simp [working] at free
      exact .inr (.inl (by simpa [Host.moveWork, other] using working))
    · exact .inr (.inr handling)

theorem Net.Publishing.handle {net : Net} {side : Side} {k : Nat} {pc : HandlerPc}
    {next : Option HandlerPc} {effect : Effect} (covered : net.Publishing)
    (running : (net.host side).handlers[k]? = some pc)
    (move : HandlerMove side (net.host side) (net.host side.peer) pc next effect) :
    (net.commit side ((net.host side).moveHandler k next) effect).Publishing := by
  refine covered.commit rfl move.publication
    (fun other id away raised => away (move.edge_side raised)) ?_ ?_
  · intro id checks
    simp only [publishesNext, Option.any_eq_true] at checks
    obtain ⟨new, rfl, checks⟩ := checks
    exact .inr ⟨new, by simp [Host.moveHandler], checks⟩
  · intro id free waiting
    rcases waiting with published | working | ⟨other, member, checks⟩
    · exact .inl published
    · exact .inr (.inl working)
    · refine .inr (.inr ⟨other, ?_, checks⟩)
      -- the handler that waits is not the one that moved
      have moved := List.getElem_cons_eraseIdx_perm (List.getElem?_eq_some_iff.mp running).1
      have found := moved.mem_iff.mpr member
      rcases List.mem_cons.mp found with same | kept
      · rw [(List.getElem?_eq_some_iff.mp running).2] at same
        simp [← same, checks] at free
      · exact List.mem_append_right _ kept

theorem Net.Publishing.updateRail {net net' : Net} {side : Side} {railId : Nat}
    {f : Rail → Option Rail} (covered : net.Publishing)
    (updated : net.updateRail side railId f = some net')
    (keeps : ∀ rail new, f rail = some new → new.publishable = true → rail.publishable = true) :
    net'.Publishing := by
  simp only [Net.updateRail, Option.map_eq_some_iff, Option.bind_eq_some_iff] at updated
  obtain ⟨new, ⟨old, present, change⟩, rfl⟩ := updated
  intro other id rail found ready
  by_cases own : other = side
  · subst own
    simp only [Net.setHost, Function.update_self, Host.write] at found
    simp only [Net.Covered, Net.setHost, Function.update_self, Host.write]
    by_cases target : id = railId
    · subst target
      simp only [Function.update_self, Option.some.injEq] at found
      subst found
      exact covered other id old present (keeps old _ change ready)
    · rw [Function.update_of_ne target] at found
      exact covered other id rail found ready
  · simp only [Net.setHost, Function.update_of_ne own] at found
    simpa only [Net.Covered, Net.setHost, Function.update_of_ne own] using
      covered other id rail found ready

theorem publishable_link {rail : Rail} {link : LinkEnd} (same : link.path.state = rail.state) :
    Rail.publishable { rail with link := link } = rail.publishable := by
  unfold Rail.publishable Rail.dataReady Rail.state at *
  rw [same]

theorem Net.Publishing.step {net net' : Net} {action : Action} (covered : net.Publishing)
    (moved : net.step action = some net') : net'.Publishing := by
  cases action with
  | startRings side railId txHop rxHop transmitPath =>
      refine covered.updateRail moved ?_
      intro rail new change ready
      split at change
      · cases change
        simp [Rail.publishable, Rail.dataReady, Rail.state, Rail.startRings, Rail.setPath] at ready
      · cases change
  | queueRail side railId =>
      refine covered.updateRail moved ?_
      intro rail new change ready
      split at change
      · cases change
        simp [Rail.publishable, Rail.dataReady, Rail.queueRail] at ready
      · cases change
  | markRemoving side railId =>
      refine covered.updateRail moved ?_
      intro rail new change ready
      cases change
      simp [Rail.publishable] at ready
  | stopWork side railId =>
      refine covered.updateRail moved ?_
      intro rail new change ready
      split at change
      · cases change
        exact ready
      · cases change
  | receive side index =>
      simp only [Net.step, Option.map_eq_some_iff] at moved
      obtain ⟨message, sent, rfl⟩ := moved
      intro other id rail found ready
      by_cases own : other = side
      · subst own
        simp only [Net.setHost, Function.update_self] at found
        simp only [Net.Covered, Net.setHost, Function.update_self]
        rcases covered other id rail found ready with published | working | ⟨pc, member, checks⟩
        · exact .inl published
        · exact .inr (.inl working)
        · exact .inr (.inr ⟨pc, List.mem_cons_of_mem _ member, checks⟩)
      · simp only [Net.setHost, Function.update_of_ne own] at found
        simpa only [Net.Covered, Net.setHost, Function.update_of_ne own] using
          covered other id rail found ready
  | handle side k answered =>
      simp only [Net.step, Option.map_eq_some_iff] at moved
      obtain ⟨pc, running, rfl⟩ := moved
      exact covered.handle running (handlerStep_move ..)
  | work side railId outcome =>
      simp only [Net.step, Option.bind_eq_some_iff, Option.map_eq_some_iff] at moved
      obtain ⟨rail, present, ⟨next, effect⟩, stepped, rfl⟩ := moved
      exact covered.work present (workStep_move stepped)
  | data side railId action =>
      refine covered.updateRail moved ?_
      intro rail new change ready
      split at change
      · rename_i allowed
        obtain ⟨link, stepped, rfl⟩ := Option.map_eq_some_iff.mp change
        have other : action ≠ .enableTunnel := by
          rintro rfl
          simp [Net.dataAllowed] at allowed
        rwa [publishable_link (LinkEnd.step_state other stepped)] at ready
      · cases change
  | dataDeliver side railId i =>
      simp only [Net.step, Option.bind_eq_some_iff] at moved
      obtain ⟨sender, -, flight, -, middle, taken, received⟩ := moved
      refine (covered.updateRail taken ?_).updateRail received ?_
      · intro rail new change ready
        cases change
        exact ready
      · intro rail new change ready
        cases change
        rwa [publishable_link (LinkEnd.receive_state ..)] at ready

/-- In no reachable quiescent state is a rail data-ready and not being removed without a
publication since the last edge. -/
theorem no_lost_publication (net : Net) (reachable : netSystem.Reachable net) (side : Side)
    (railId : Nat) (rail : Rail) (present : (net.host side).rails railId = some rail)
    (ready : rail.dataReady = true) (live : rail.removing = false)
    (quiescent : (net.host side).handlers = [] ∧ (net.host side).work railId = .idle) :
    publishedSinceEdge side railId net.trace = true := by
  have covered : net.Publishing := by
    refine reachable.invariant ?_ fun _ _ _ covered _ moved => covered.step moved
    rintro start ⟨fresh, -⟩ side railId rail present publishable
    obtain ⟨cfg, rfl⟩ := (fresh side).1 railId rail present
    simp [Rail.publishable, Rail.dataReady, Rail.added, Rail.state] at publishable
  rcases covered side railId rail present (by simp [Rail.publishable, ready, live])
    with published | working | ⟨pc, member, -⟩
  · exact published
  · simp [quiescent.2, WorkPc.publishes] at working
  · simp [quiescent.1] at member

def Net.settled (net : Net) (side : Side) (railId : Nat) : Bool :=
  (net.host side).handlers = [] && (net.host side).work railId = .idle &&
    ((net.host side).rails railId).any fun rail => rail.dataReady && !rail.removing

theorem no_lost_publication_handshake :
    ∃ net : Net, net.settled .left 0 = true ∧ publishedSinceEdge .left 0 net.trace = true := by
  obtain ⟨net, reachable, settled⟩ := Lib.System.exists_reachableVia netSystem (fun _ _ => True)
    handshakeRun (fun net => net.settled .left 0) start_init (by decide +kernel)
  refine ⟨net, settled, ?_⟩
  simp only [Net.settled, Bool.and_eq_true, decide_eq_true_eq, Option.any_eq_true,
    Bool.not_eq_true'] at settled
  obtain ⟨quiescent, rail, present, ready, live⟩ := settled
  exact no_lost_publication net reachable .left 0 rail present ready live quiescent

end ThunderboltVerbs.Control
