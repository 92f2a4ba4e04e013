import ThunderboltVerbs.Control.Moves

/-!
# Handshake safety

Everything a thread carries comes from a message the peer sent, and a READY or READY_ACK is sent
only after the sender's own tunnel was enabled. These facts are stable: traces and histories only
grow.
-/

namespace ThunderboltVerbs.Control
open DataPath

def WireOp.isHello : WireOp → Bool
  | .hello | .helloAck => true
  | .ready | .readyAck => false

def HelloFrom (net : Net) (side : Side) (railId : Nat) (remoteTransmitPath : Int) : Prop :=
  ∃ message ∈ (net.host side.peer).sent, message.op.isHello = true ∧ message.hello.railId = railId ∧
    toInt32 message.hello.transmitPath = remoteTransmitPath

def TunnelSeen (trace : List Event) (side : Side) (railId : Nat) : Prop :=
  ∃ remoteTransmitPath, .tunnelEnabled side railId remoteTransmitPath ∈ trace

/-- This side marked the rail ready on a READY or READY_ACK that the peer sent after its tunnel was
enabled; `trace` is newest first. -/
def ReadySeen (trace : List Event) (side : Side) (railId : Nat) : Prop :=
  ∃ packet middle earlier, (.readyMarked side railId packet :: middle) <:+ trace ∧
    packet.message.op.isHello = false ∧ packet.message.hello.railId = railId ∧
    (.sent side.peer packet :: earlier) <:+ middle ∧ TunnelSeen earlier side.peer railId

def Sent (net : Net) (side : Side) (packet : Packet) : Prop :=
  (net.host side).sent[packet.index]? = some packet.message

/-! ## The invariant -/

structure RailSafe (net : Net) (side : Side) (railId : Nat) (rail : Rail) : Prop where
  enabled : rail.state = .tunnelEnabled →
    TunnelSeen net.trace side railId ∧ HelloFrom net side railId rail.pathRemoteTransmitPath
  negotiated : rail.nativeNegotiated = true → HelloFrom net side railId rail.remoteTransmitPath
  remoteReady : rail.nativeRemoteReady = true → ReadySeen net.trace side railId

def WorkSafe (net : Net) (side : Side) (railId : Nat) : WorkPc → Prop
  | .helloApply _ packet => Sent net side.peer packet ∧ packet.message.op = .helloAck
  | .tunnelLock _ => ∀ rail, (net.host side).rails railId = some rail → rail.nativeNegotiated = true
  | .tunnelEnable _ remoteTransmitPath => HelloFrom net side railId remoteTransmitPath
  | .readyLock _ => TunnelSeen net.trace side railId
  | .readyApply _ packet =>
      Sent net side.peer packet ∧ packet.message.op = .readyAck ∧ packet.message.hello.railId = railId
  | _ => True

def ReplySafe (net : Net) (side : Side) (reply : Option Hello) : Prop :=
  ∀ hello, reply = some hello → TunnelSeen net.trace side hello.railId

def HandlerSafe (net : Net) (side : Side) : HandlerPc → Prop
  | .start packet => Sent net side.peer packet
  | .helloApply packet _ => Sent net side.peer packet ∧ packet.message.op = .hello
  | .readySnapshot packet => Sent net side.peer packet ∧ packet.message.op = .ready
  | .readyMark packet reply =>
      Sent net side.peer packet ∧ packet.message.op = .ready ∧ ReplySafe net side reply
  | .readyPublish _ reply => ReplySafe net side reply
  | .readyRespond _ reply => TunnelSeen net.trace side reply.railId
  | _ => True

structure Net.Safe (net : Net) : Prop where
  rails : ∀ side railId rail, (net.host side).rails railId = some rail →
    RailSafe net side railId rail
  work : ∀ side railId, WorkSafe net side railId ((net.host side).work railId)
  handlers : ∀ side, ∀ pc ∈ (net.host side).handlers, HandlerSafe net side pc
  sent : ∀ side packet, Sent net side packet → ∃ earlier, (.sent side packet :: earlier) <:+ net.trace ∧
    (packet.message.op.isHello = false → TunnelSeen earlier side packet.message.hello.railId)
  tunnels : ∀ side railId path, .tunnelEnabled side railId path ∈ net.trace →
    HelloFrom net side railId path

/-! ## Traces and histories grow -/

structure Net.Before (net net' : Net) : Prop where
  trace : net.trace <:+ net'.trace
  sent : ∀ side, (net.host side).sent <+: (net'.host side).sent
  negotiated : ∀ side railId rail', (net'.host side).rails railId = some rail' →
    ∃ rail, (net.host side).rails railId = some rail ∧
      (rail.nativeNegotiated = true → rail'.nativeNegotiated = true)

section
variable {net net' : Net} {side : Side} {railId : Nat}

theorem TunnelSeen.mono {trace trace' : List Event} (seen : TunnelSeen trace side railId)
    (later : trace <:+ trace') : TunnelSeen trace' side railId := by
  obtain ⟨path, member⟩ := seen
  exact ⟨path, later.subset member⟩

theorem ReadySeen.mono {trace trace' : List Event} (seen : ReadySeen trace side railId)
    (later : trace <:+ trace') : ReadySeen trace' side railId := by
  obtain ⟨packet, middle, earlier, marked, rest⟩ := seen
  exact ⟨packet, middle, earlier, marked.trans later, rest⟩

theorem HelloFrom.mono {path : Int} (hello : HelloFrom net side railId path)
    (before : net.Before net') : HelloFrom net' side railId path := by
  obtain ⟨message, member, rest⟩ := hello
  exact ⟨message, (before.sent side.peer).subset member, rest⟩

theorem Sent.mono {packet : Packet} (sent : Sent net side packet) (before : net.Before net') :
    Sent net' side packet := by
  obtain ⟨more, grown⟩ := before.sent side
  unfold Sent at sent ⊢
  rw [← grown, List.getElem?_append_left (List.getElem?_eq_some_iff.mp sent).1, sent]

theorem Sent.mem {packet : Packet} (sent : Sent net side packet) :
    packet.message ∈ (net.host side).sent :=
  List.mem_of_getElem? sent

theorem RailSafe.mono {rail : Rail} (safe : RailSafe net side railId rail)
    (before : net.Before net') : RailSafe net' side railId rail where
  enabled on := ⟨(safe.enabled on).1.mono before.trace, (safe.enabled on).2.mono before⟩
  negotiated known := (safe.negotiated known).mono before
  remoteReady ready := (safe.remoteReady ready).mono before.trace

theorem WorkSafe.mono {pc : WorkPc} (safe : WorkSafe net side railId pc) (before : net.Before net') :
    WorkSafe net' side railId pc := by
  cases pc with
  | helloApply attempt packet => exact ⟨safe.1.mono before, safe.2⟩
  | tunnelLock attempt =>
      intro rail present
      obtain ⟨old, was, kept⟩ := before.negotiated side railId rail present
      exact kept (safe old was)
  | tunnelEnable attempt path => exact HelloFrom.mono safe before
  | readyLock attempt => exact TunnelSeen.mono safe before.trace
  | readyApply attempt packet => exact ⟨safe.1.mono before, safe.2⟩
  | _ => trivial

theorem ReplySafe.mono {reply : Option Hello} (safe : ReplySafe net side reply)
    (before : net.Before net') : ReplySafe net' side reply :=
  fun hello is => (safe hello is).mono before.trace

theorem HandlerSafe.mono {pc : HandlerPc} (safe : HandlerSafe net side pc)
    (before : net.Before net') : HandlerSafe net' side pc := by
  cases pc with
  | start packet => exact Sent.mono safe before
  | helloApply packet reply => exact ⟨safe.1.mono before, safe.2⟩
  | readySnapshot packet => exact ⟨safe.1.mono before, safe.2⟩
  | readyMark packet reply => exact ⟨safe.1.mono before, safe.2.1, safe.2.2.mono before⟩
  | readyPublish packet reply => exact ReplySafe.mono safe before
  | readyRespond packet reply => exact TunnelSeen.mono safe before.trace
  | _ => trivial

end

/-! ## A step of a thread -/

structure EffectSafe (net net' : Net) (side : Side) (effect : Effect) : Prop where
  write : ∀ railId rail, effect.write = some (railId, rail) → RailSafe net' side railId rail
  negotiated : ∀ railId rail, effect.write = some (railId, rail) →
    ∃ old, (net.host side).rails railId = some old ∧
      (old.nativeNegotiated = true → rail.nativeNegotiated = true)
  send : ∀ message, effect.send = some message → message.op.isHello = false →
    TunnelSeen net.trace side message.hello.railId
  events : ∀ other railId path, .tunnelEnabled other railId path ∈ effect.events →
    HelloFrom net' other railId path

section
variable {net : Net} {side : Side} {host : Host} {effect : Effect}

theorem Net.before_commit (rails : host.rails = (net.host side).rails)
    (sent : host.sent = (net.host side).sent)
    (negotiated : ∀ railId rail, effect.write = some (railId, rail) →
      ∃ old, (net.host side).rails railId = some old ∧
        (old.nativeNegotiated = true → rail.nativeNegotiated = true)) :
    net.Before (net.commit side host effect) where
  trace := ⟨_, rfl⟩
  sent other := by
    by_cases own : other = side
    · subst own
      rw [Net.commit_self, Host.apply, sent]
      exact ⟨_, rfl⟩
    · simp only [Net.commit_other own, List.prefix_rfl]
  negotiated other railId rail present := by
    by_cases own : other = side
    · subst own
      rw [Net.commit_self] at present
      rcases Host.rails_apply present with write | ⟨was, -⟩
      · exact negotiated railId rail write
      · exact ⟨rail, rails ▸ was, id⟩
    · rw [Net.commit_other own] at present
      exact ⟨rail, present, id⟩

theorem sent_commit {packet : Packet} (sent : host.sent = (net.host side).sent)
    (holds : Sent (net.commit side host effect) side packet) :
    Sent net side packet ∨
      effect.send = some packet.message ∧
        (.sent side packet :: net.trace) <:+ (net.commit side host effect).trace := by
  simp only [Sent, Net.commit_self, Host.apply, sent] at holds
  by_cases old : packet.index < (net.host side).sent.length
  · rw [List.getElem?_append_left old] at holds
    exact .inl holds
  · rw [List.getElem?_append_right (by omega)] at holds
    right
    cases send : effect.send with
    | none => simp [send] at holds
    | some message =>
        simp only [send, Option.toList_some, List.getElem?_singleton] at holds
        split at holds
        · rename_i last
          cases holds
          refine ⟨rfl, effect.events, ?_⟩
          have index : packet.index = (net.host side).sent.length := by omega
          simp [Net.commit, Net.log, send, sent, ← index]
        · cases holds

theorem Net.Safe.commit (safe : net.Safe) (rails : host.rails = (net.host side).rails)
    (sent : host.sent = (net.host side).sent)
    (effectSafe : EffectSafe net (net.commit side host effect) side effect)
    (work : ∀ railId, host.work railId = (net.host side).work railId ∨
      WorkSafe (net.commit side host effect) side railId (host.work railId))
    (handlers : ∀ pc ∈ host.handlers, pc ∈ (net.host side).handlers ∨
      HandlerSafe (net.commit side host effect) side pc) :
    (net.commit side host effect).Safe := by
  have before := Net.before_commit rails sent effectSafe.negotiated
  constructor
  · intro other railId rail present
    by_cases own : other = side
    · subst own
      rw [Net.commit_self] at present
      rcases Host.rails_apply present with write | ⟨was, -⟩
      · exact effectSafe.write railId rail write
      · exact (safe.rails other railId rail (rails ▸ was)).mono before
    · rw [Net.commit_other own] at present
      exact (safe.rails other railId rail present).mono before
  · intro other railId
    by_cases own : other = side
    · subst own
      rw [Net.commit_self]
      rcases work railId with same | new
      · have kept := (safe.work other railId).mono before
        rwa [← same] at kept
      · exact new
    · rw [Net.commit_other own]
      exact (safe.work other railId).mono before
  · intro other pc member
    by_cases own : other = side
    · subst own
      rw [Net.commit_self] at member
      rcases handlers pc member with old | new
      · exact (safe.handlers other pc old).mono before
      · exact new
    · rw [Net.commit_other own] at member
      exact (safe.handlers other pc member).mono before
  · intro other packet holds
    by_cases own : other = side
    · subst own
      rcases sent_commit sent holds with old | ⟨send, logged⟩
      · obtain ⟨earlier, seen, tunnel⟩ := safe.sent other packet old
        exact ⟨earlier, seen.trans before.trace, tunnel⟩
      · exact ⟨net.trace, logged, effectSafe.send packet.message send⟩
    · simp only [Sent, Net.commit_other own] at holds
      obtain ⟨earlier, seen, tunnel⟩ := safe.sent other packet holds
      exact ⟨earlier, seen.trans before.trace, tunnel⟩
  · intro other railId path member
    simp only [Net.commit, Net.log, List.append_assoc, List.mem_append] at member
    rcases member with event | send | old
    · exact effectSafe.events other railId path event
    · split at send <;> simp at send
    · exact (safe.tunnels other railId path old).mono before

end

/-! ## What is written -/

section
variable {net net' : Net} {side : Side} {host peer : Host} {railId : Nat} {rail : Rail} {effect : Effect}
  {packet : Packet}

def KeepsNegotiated (host : Host) (effect : Effect) : Prop :=
  ∀ railId rail, effect.write = some (railId, rail) →
    ∃ old, host.rails railId = some old ∧ (old.nativeNegotiated = true → rail.nativeNegotiated = true)

theorem KeepsNegotiated.own {new : Rail} (present : host.rails railId = some rail)
    (write : effect.write = some (railId, new)) (kept : new.nativeNegotiated = rail.nativeNegotiated) :
    KeepsNegotiated host effect := by
  intro id written wrote
  rw [write] at wrote
  cases wrote
  exact ⟨rail, present, fun known => kept ▸ known⟩

theorem KeepsNegotiated.none (write : effect.write = none) : KeepsNegotiated host effect := by
  intro id written wrote
  rw [write] at wrote
  cases wrote

theorem KeepsNegotiated.applied (applied : host.applyRemote side peer packet = some effect)
    (lock : Option Bool) : KeepsNegotiated host { effect with lock := lock } := by
  simp only [Host.applyRemote, Option.map_eq_some_iff] at applied
  obtain ⟨old, present, rfl⟩ := applied
  intro id written wrote
  cases wrote
  exact ⟨old, present, fun _ => rfl⟩

theorem WorkMove.keepsNegotiated {pc next : WorkPc}
    (move : WorkMove side host peer railId rail pc next effect) (present : host.rails railId = some rail) :
    KeepsNegotiated host effect := by
  cases move with
  | helloApplied applied => exact .applied applied _
  | skip | startHello | startInvalid | startTunnel | helloDone | helloError | tunnelRefused
  | tunnelTry | tunnelEnabled | tunnelFailed | readyTry | readyMarked | readyMarkedOnly | readyDone
  | readyError | readySent | again => exact .own present rfl rfl
  | _ => exact .none rfl

theorem HandlerMove.keepsNegotiated {pc : HandlerPc} {next : Option HandlerPc}
    (move : HandlerMove side host peer pc next effect) : KeepsNegotiated host effect := by
  cases move with
  | ackApplied ack applied | helloApplied applied => exact .applied applied _
  | readyMarked present | readyMarkedOnly present | sentMarked present | sentMarkedOnly present
  | kicked present => exact .own present rfl rfl
  | _ => exact .none rfl

theorem RailSafe.applyRemote (safe : RailSafe net side packet.message.hello.railId rail)
    (sent : Sent net side.peer packet) (hello : packet.message.op.isHello = true) :
    RailSafe net side packet.message.hello.railId (rail.applyRemote packet.message.hello) :=
  { safe with negotiated := fun _ => ⟨packet.message, sent.mem, hello, rfl, rfl⟩ }

theorem RailSafe.markRemoteReady (safe : RailSafe net side packet.message.hello.railId rail)
    (whole : net.Safe) (sent : Sent net side.peer packet) (ready : packet.message.op.isHello = false)
    (before : net.Before net')
    (marked : (.readyMarked side packet.message.hello.railId packet :: net.trace) <:+ net'.trace) :
    RailSafe net' side packet.message.hello.railId { rail with nativeRemoteReady := true } := by
  obtain ⟨earlier, seen, tunnel⟩ := whole.sent side.peer packet sent
  exact { safe.mono before with
    remoteReady := fun _ => ⟨packet, net.trace, earlier, marked, ready, rfl, seen, tunnel ready⟩ }

theorem EffectSafe.own {new : Rail} (keeps : KeepsNegotiated (net.host side) effect)
    (write : effect.write = some (railId, new)) (safe : RailSafe net' side railId new)
    (send : effect.send = none)
    (events : ∀ other id path, .tunnelEnabled other id path ∉ effect.events) :
    EffectSafe net net' side effect where
  write id written wrote := by
    rw [write] at wrote
    cases wrote
    exact safe
  negotiated := keeps
  send message sent := by simp [send] at sent
  events other id path member := absurd member (events other id path)

theorem EffectSafe.none (write : effect.write = none)
    (send : ∀ message, effect.send = some message → message.op.isHello = false →
      TunnelSeen net.trace side message.hello.railId)
    (events : ∀ other id path, .tunnelEnabled other id path ∉ effect.events) :
    EffectSafe net net' side effect where
  write id written wrote := by simp [write] at wrote
  negotiated := KeepsNegotiated.none write
  send := send
  events other id path member := absurd member (events other id path)

theorem EffectSafe.applied (safe : net.Safe) (sent : Sent net side.peer packet)
    (hello : packet.message.op.isHello = true) (before : net.Before net')
    (applied : (net.host side).applyRemote side (net.host side.peer) packet = some effect)
    (lock : Option Bool) : EffectSafe net net' side { effect with lock := lock } := by
  have keeps := KeepsNegotiated.applied applied lock
  simp only [Host.applyRemote, Option.map_eq_some_iff] at applied
  obtain ⟨old, present, rfl⟩ := applied
  exact .own keeps rfl
    ((safe.rails side _ old present).applyRemote sent hello |>.mono before) rfl (by simp)

theorem tunnelEnabled_writeReady {old new : Rail} (other : Side) (id : Nat) (path : Int) :
    .tunnelEnabled other id path ∉ (Host.writeReady side railId old new).events := by
  unfold Host.writeReady
  split <;> simp

theorem tunnelEnabled_markRemoteReady (other : Side) (id : Nat) (path : Int) :
    .tunnelEnabled other id path ∉ (Host.markRemoteReady side railId packet rail).2.events := by
  simp only [Host.markRemoteReady, List.mem_append, List.mem_singleton, reduceCtorEq, or_false]
  exact tunnelEnabled_writeReady other id path

theorem readyMarked_suffix {next : Host} {lock : Option Bool} :
    (.readyMarked side railId packet :: net.trace) <:+
      (net.commit side next
        { (Host.markRemoteReady side railId packet rail).2 with lock := lock }).trace :=
  ⟨(Host.writeReady side railId rail { rail with nativeRemoteReady := true }).events, by
    simp [Net.commit, Net.log, Host.markRemoteReady, Host.writeReady]⟩

/-! ## Steps -/

theorem WorkMove.safe {pc next : WorkPc} (safe : net.Safe)
    (present : (net.host side).rails railId = some rail)
    (was : WorkSafe net side railId pc)
    (move : WorkMove side (net.host side) (net.host side.peer) railId rail pc next effect)
    (later : net' = net.commit side ((net.host side).moveWork railId next) effect) :
    EffectSafe net net' side effect ∧ WorkSafe net' side railId next := by
  have railSafe := safe.rails side railId rail present
  have keeps := move.keepsNegotiated present
  have before : net.Before net' := later ▸ Net.before_commit rfl rfl keeps
  have known := railSafe.mono before
  cases move with
  | skip | startHello | startInvalid | startTunnel | helloDone | helloError | tunnelRefused
  | readyDone | readyError | again =>
      exact ⟨.own keeps rfl { known with } rfl (by simp), trivial⟩
  | helloSend free => exact ⟨.none rfl (by simp [WireOp.isHello]) (by simp), trivial⟩
  | helloFailed | helloUnknown | tunnelSkip | tunnelSeen | tunnelUnseen | tunnelPublished | readySkip
  | readyFailed | readyPublished | sentSeen | sentUnseen | sentPublished | done =>
      exact ⟨.none rfl (by simp) (by simp), trivial⟩
  | helloReply packet sent ack =>
      exact ⟨.none rfl (by simp) (by simp), Sent.mono sent before, ack⟩
  | helloApplied applied =>
      exact ⟨.applied safe was.1 (by simp [was.2, WireOp.isHello]) before applied _, trivial⟩
  | tunnelTry negotiated path =>
      refine ⟨.own keeps rfl { known with } rfl (by simp), ?_⟩
      intro new found
      obtain ⟨old, held, kept⟩ := before.negotiated side railId new found
      rw [present] at held
      cases held
      exact kept negotiated
  | tunnelLocked free =>
      exact ⟨.none rfl (by simp) (by simp), known.negotiated (was rail present)⟩
  | @tunnelEnabled attempt path started =>
      have hello : HelloFrom net' side railId path := HelloFrom.mono was before
      have seen : TunnelSeen net'.trace side railId :=
        ⟨path, by rw [later]; simp [Net.commit, Net.log]⟩
      refine ⟨?_, trivial⟩
      constructor
      · intro id written wrote
        cases wrote
        exact { known with enabled := fun _ => ⟨seen, hello⟩ }
      · exact keeps
      · intro message sent
        cases sent
      · intro other id reached member
        simp only [List.mem_append, tunnelEnabled_writeReady, List.mem_singleton, false_or,
          Event.tunnelEnabled.injEq] at member
        obtain ⟨rfl, rfl, rfl⟩ := member
        exact hello
  | tunnelFailed hop error kept =>
      refine ⟨.own keeps rfl { known with enabled := ?_ } rfl (by simp), trivial⟩
      intro on
      rcases kept with rfl | started
      · exact known.enabled on
      · exact absurd (started.symm.trans on) (by decide)
  | readyTry enabled =>
      exact ⟨.own keeps rfl { known with } rfl (by simp), (known.enabled enabled).1⟩
  | readySend free =>
      refine ⟨.none rfl ?_ (by simp), trivial⟩
      intro message sent ready
      cases sent
      exact was
  | readyReply packet sent ack own =>
      exact ⟨.none rfl (by simp) (by simp), Sent.mono sent before, ack, own⟩
  | readyMarked | readyMarkedOnly =>
      obtain ⟨sent, ack, rfl⟩ := was
      have marked := railSafe.markRemoteReady safe sent (by simp [ack, WireOp.isHello]) before
        (by rw [later]; exact readyMarked_suffix)
      exact ⟨.own keeps rfl marked rfl tunnelEnabled_markRemoteReady, trivial⟩
  | readySent =>
      exact ⟨.own keeps rfl { known with } rfl tunnelEnabled_writeReady, trivial⟩

theorem handlerSafe_afterReadyMark {reply : Option Hello} (safe : ReplySafe net side reply) :
    HandlerSafe net side (afterReadyMark packet reply) := by
  cases reply with
  | none => trivial
  | some hello => exact safe hello rfl

theorem HandlerMove.safe {k : Nat} {pc : HandlerPc} {next : Option HandlerPc} (safe : net.Safe)
    (was : HandlerSafe net side pc)
    (move : HandlerMove side (net.host side) (net.host side.peer) pc next effect)
    (later : net' = net.commit side ((net.host side).moveHandler k next) effect) :
    EffectSafe net net' side effect ∧ ∀ new, next = some new → HandlerSafe net' side new := by
  have keeps := move.keepsNegotiated
  have before : net.Before net' := later ▸ Net.before_commit rfl rfl keeps
  cases move with
  | ignored | unkicked => exact ⟨.none rfl (by simp) (by simp), by simp⟩
  | ackApplied ack applied =>
      exact ⟨.applied safe was (by simp [ack, WireOp.isHello]) before applied _, by simp⟩
  | readyFound ready =>
      refine ⟨.none rfl (by simp) (by simp), ?_⟩
      rintro new ⟨⟩
      exact ⟨Sent.mono was before, ready⟩
  | helloFound hello present =>
      refine ⟨.none rfl (by simp) (by simp), ?_⟩
      rintro new ⟨⟩
      exact ⟨Sent.mono was before, hello⟩
  | helloApplied applied =>
      refine ⟨.applied safe was.1 (by simp [was.2, WireOp.isHello]) before applied _, ?_⟩
      rintro new ⟨⟩
      trivial
  | helloUnknown | helloUnanswered | readyUnanswered | sentUnknown | sentPublished =>
      refine ⟨.none rfl (by simp) (by simp), ?_⟩
      rintro new ⟨⟩
      trivial
  | helloAnswered =>
      refine ⟨.none rfl (by simp [WireOp.isHello]) (by simp), ?_⟩
      rintro new ⟨⟩
      trivial
  | @readyTunnel packet rail present enabled =>
      refine ⟨.none rfl (by simp) (by simp), ?_⟩
      rintro new ⟨⟩
      refine ⟨was.1.mono before, was.2, ?_⟩
      rintro hello ⟨⟩
      exact ((safe.rails side _ rail present).mono before).enabled enabled |>.1
  | readyNoTunnel =>
      refine ⟨.none rfl (by simp) (by simp), ?_⟩
      rintro new ⟨⟩
      exact ⟨was.1.mono before, was.2, by simp [ReplySafe]⟩
  | readyUnknown =>
      refine ⟨.none rfl (by simp) (by simp), ?_⟩
      rintro new ⟨⟩
      exact handlerSafe_afterReadyMark (was.2.2.mono before)
  | @readyMarked packet reply rail present ready =>
      obtain ⟨sent, op, reply⟩ := was
      have marked := (safe.rails side _ rail present).markRemoteReady safe sent
        (by simp [op, WireOp.isHello]) before (by rw [later]; exact readyMarked_suffix)
      refine ⟨.own keeps rfl marked rfl tunnelEnabled_markRemoteReady, ?_⟩
      rintro new ⟨⟩
      exact reply.mono before
  | @readyMarkedOnly packet reply rail present notReady =>
      obtain ⟨sent, op, reply⟩ := was
      have marked := (safe.rails side _ rail present).markRemoteReady safe sent
        (by simp [op, WireOp.isHello]) before (by rw [later]; exact readyMarked_suffix)
      refine ⟨.own keeps rfl marked rfl tunnelEnabled_markRemoteReady, ?_⟩
      rintro new ⟨⟩
      exact handlerSafe_afterReadyMark (reply.mono before)
  | readyPublished =>
      refine ⟨.none rfl (by simp) (by simp), ?_⟩
      rintro new ⟨⟩
      exact handlerSafe_afterReadyMark (ReplySafe.mono was before)
  | readyAnswered =>
      refine ⟨.none rfl ?_ (by simp), ?_⟩
      · rintro message ⟨⟩ -
        exact was
      · rintro new ⟨⟩
        trivial
  | @sentMarked packet reply rail present | @sentMarkedOnly packet reply rail present =>
      refine ⟨.own keeps rfl { (safe.rails side _ rail present).mono before with } rfl
        tunnelEnabled_writeReady, ?_⟩
      rintro new ⟨⟩
      trivial
  | @kicked railId rail present =>
      exact ⟨.own keeps rfl { (safe.rails side railId rail present).mono before with } rfl (by simp),
        by simp⟩

end

/-! ## Whole runs -/

/-- A rail written outside the control threads: only its data path, its own hops and the flags of
its removal may change, or it is reset. -/
structure Untouched (rail new : Rail) : Prop where
  state : new.state = .tunnelEnabled → rail.state = .tunnelEnabled
  path : new.pathRemoteTransmitPath = rail.pathRemoteTransmitPath
  negotiated : new.nativeNegotiated = rail.nativeNegotiated
  remoteTransmitPath : new.remoteTransmitPath = rail.remoteTransmitPath
  remoteReady : new.nativeRemoteReady = true → rail.nativeRemoteReady = true

theorem RailSafe.untouched {net : Net} {side : Side} {railId : Nat} {rail new : Rail}
    (safe : RailSafe net side railId rail) (same : Untouched rail new) :
    RailSafe net side railId new where
  enabled on := same.path ▸ safe.enabled (same.state on)
  negotiated known := same.remoteTransmitPath ▸ safe.negotiated (same.negotiated ▸ known)
  remoteReady ready := safe.remoteReady (same.remoteReady ready)

theorem Net.Safe.setHost {net : Net} {side : Side} {host : Host} (safe : net.Safe)
    (sent : host.sent = (net.host side).sent) (work : host.work = (net.host side).work)
    (rails : ∀ railId rail, host.rails railId = some rail →
      ∃ was, (net.host side).rails railId = some was ∧ (rail = was ∨ Untouched was rail))
    (handlers : ∀ pc ∈ host.handlers, pc ∈ (net.host side).handlers ∨ HandlerSafe net side pc) :
    (net.setHost side host).Safe := by
  have present : ∀ other railId rail, ((net.setHost side host).host other).rails railId = some rail →
      ∃ was, (net.host other).rails railId = some was ∧ (rail = was ∨ Untouched was rail) := by
    intro other railId rail found
    by_cases own : other = side
    · subst own
      exact rails railId rail (by simpa using found)
    · rw [Net.setHost_other own] at found
      exact ⟨rail, found, .inl rfl⟩
  have sameSent : ∀ other, ((net.setHost side host).host other).sent = (net.host other).sent := by
    intro other
    by_cases own : other = side
    · subst own
      rw [Net.setHost_self, sent]
    · rw [Net.setHost_other own]
  have before : net.Before (net.setHost side host) := by
    refine ⟨List.suffix_rfl, fun other => ?_, fun other id rail found => ?_⟩
    · simp only [sameSent, List.prefix_rfl]
    · obtain ⟨was, held, rfl | untouched⟩ := present other id rail found
      · exact ⟨rail, held, fun known => known⟩
      · exact ⟨was, held, fun known => untouched.negotiated ▸ known⟩
  constructor
  · intro other id rail found
    obtain ⟨was, held, rfl | untouched⟩ := present other id rail found
    · exact (safe.rails other id rail held).mono before
    · exact ((safe.rails other id was held).untouched untouched).mono before
  · intro other id
    have kept := (safe.work other id).mono before
    by_cases own : other = side
    · subst own
      rwa [Net.setHost_self, work]
    · rwa [Net.setHost_other own]
  · intro other pc member
    by_cases own : other = side
    · subst own
      rw [Net.setHost_self] at member
      rcases handlers pc member with old | new
      · exact (safe.handlers other pc old).mono before
      · exact new.mono before
    · rw [Net.setHost_other own] at member
      exact (safe.handlers other pc member).mono before
  · intro other packet holds
    simp only [Sent, sameSent] at holds
    exact safe.sent other packet holds
  · intro other id path member
    exact (safe.tunnels other id path member).mono before

theorem Net.Safe.updateRail {net net' : Net} {side : Side} {railId : Nat} {f : Rail → Option Rail}
    (safe : net.Safe) (updated : net.updateRail side railId f = some net')
    (same : ∀ rail new, f rail = some new → Untouched rail new) : net'.Safe := by
  simp only [Net.updateRail, Option.map_eq_some_iff, Option.bind_eq_some_iff] at updated
  obtain ⟨new, ⟨old, present, change⟩, rfl⟩ := updated
  refine safe.setHost rfl rfl ?_ fun pc member => .inl member
  intro id rail found
  by_cases target : id = railId
  · subst target
    simp only [Host.write, Function.update_self, Option.some.injEq] at found
    exact ⟨old, present, .inr (found ▸ same old new change)⟩
  · simp only [Host.write, Function.update_of_ne target] at found
    exact ⟨rail, found, .inl rfl⟩

theorem Net.Safe.step {net net' : Net} {action : Action} (safe : net.Safe)
    (moved : net.step action = some net') : net'.Safe := by
  cases action with
  | startRings side railId txHop rxHop transmitPath =>
      refine safe.updateRail moved fun rail new change => ?_
      split at change
      · cases change
        exact ⟨by simp [Rail.state, Rail.startRings, Rail.setPath], rfl, rfl, rfl, id⟩
      · cases change
  | queueRail side railId =>
      refine safe.updateRail moved fun rail new change => ?_
      split at change
      · cases change
        exact ⟨id, rfl, rfl, rfl, by simp [Rail.queueRail]⟩
      · cases change
  | markRemoving side railId =>
      refine safe.updateRail moved fun rail new change => ?_
      cases change
      exact ⟨id, rfl, rfl, rfl, id⟩
  | stopWork side railId =>
      refine safe.updateRail moved fun rail new change => ?_
      split at change
      · cases change
        exact ⟨id, rfl, rfl, rfl, id⟩
      · cases change
  | receive side index =>
      simp only [Net.step, Option.map_eq_some_iff] at moved
      obtain ⟨message, sent, rfl⟩ := moved
      refine safe.setHost rfl rfl (fun id rail found => ⟨rail, found, .inl rfl⟩) ?_
      intro pc member
      rcases List.mem_cons.mp member with rfl | old
      · exact .inr sent
      · exact .inl old
  | handle side k answered =>
      simp only [Net.step, Option.map_eq_some_iff] at moved
      obtain ⟨pc, running, rfl⟩ := moved
      obtain ⟨effectSafe, nextSafe⟩ := HandlerMove.safe safe
        (safe.handlers side pc (List.mem_of_getElem? running))
        (handlerStep_move side (net.host side) (net.host side.peer) answered pc) rfl
      refine safe.commit rfl rfl effectSafe (fun _ => .inl rfl) ?_
      intro new member
      rcases List.mem_append.mp member with moved | old
      · exact .inr (nextSafe new (by simpa using moved))
      · exact .inl (List.eraseIdx_subset old)
  | work side railId outcome =>
      simp only [Net.step, Option.bind_eq_some_iff, Option.map_eq_some_iff] at moved
      obtain ⟨rail, present, ⟨next, effect⟩, stepped, rfl⟩ := moved
      obtain ⟨effectSafe, nextSafe⟩ := WorkMove.safe safe present (safe.work side railId)
        (workStep_move stepped) rfl
      refine safe.commit rfl rfl effectSafe ?_ fun _ member => .inl member
      intro id
      by_cases own : id = railId
      · subst own
        exact .inr (by simpa [Host.moveWork] using nextSafe)
      · exact .inl (by simp [Host.moveWork, own])
  | data side railId action =>
      refine safe.updateRail moved fun rail new change => ?_
      split at change
      · rename_i allowed
        obtain ⟨link, stepped, rfl⟩ := Option.map_eq_some_iff.mp change
        have other : action ≠ .enableTunnel := by
          rintro rfl
          simp [Net.dataAllowed] at allowed
        exact ⟨fun on => (LinkEnd.step_state other stepped).symm.trans on, rfl, rfl, rfl, id⟩
      · cases change
  | dataDeliver side railId i =>
      simp only [Net.step, Option.bind_eq_some_iff] at moved
      obtain ⟨sender, -, flight, -, middle, taken, received⟩ := moved
      refine (safe.updateRail taken fun rail new change => ?_).updateRail received
        fun rail new change => ?_
      · cases change
        exact ⟨id, rfl, rfl, rfl, id⟩
      · cases change
        exact ⟨fun on => (LinkEnd.receive_state ..).symm.trans on, rfl, rfl, rfl, id⟩

theorem netSystem_safe {net : Net} (reachable : netSystem.Reachable net) : net.Safe := by
  refine reachable.invariant ?_ fun _ _ _ safe _ moved => safe.step moved
  rintro start ⟨fresh, empty⟩
  constructor
  · intro side railId rail present
    obtain ⟨cfg, rfl⟩ := (fresh side).1 railId rail present
    exact ⟨by simp [Rail.state, Rail.added], by simp [Rail.added], by simp [Rail.added]⟩
  · intro side railId
    rw [(fresh side).2.1 railId]
    trivial
  · intro side pc member
    simp [(fresh side).2.2.1] at member
  · intro side packet sent
    simp [Sent, (fresh side).2.2.2.2.1] at sent
  · intro side railId path member
    simp [empty] at member

/-- A data-ready rail has its tunnel enabled, and this side has processed a READY or READY_ACK that
the peer sent after its own tunnel was enabled; every tunnel was enabled with the path of a HELLO or
HELLO_ACK of the peer's rail. -/
theorem handshake_safety (net : Net) (reachable : netSystem.Reachable net) :
    (∀ side railId rail, (net.host side).rails railId = some rail → rail.dataReady = true →
      rail.state = .tunnelEnabled ∧ ReadySeen net.trace side railId) ∧
    (∀ side railId rail, (net.host side).rails railId = some rail → rail.state = .tunnelEnabled →
      TunnelSeen net.trace side railId ∧ HelloFrom net side railId rail.pathRemoteTransmitPath) ∧
    ∀ side railId path, .tunnelEnabled side railId path ∈ net.trace →
      HelloFrom net side railId path := by
  have safe := netSystem_safe reachable
  refine ⟨?_, fun side railId rail present => (safe.rails side railId rail present).enabled,
    safe.tunnels⟩
  intro side railId rail present ready
  simp only [Rail.dataReady, Bool.and_eq_true, decide_eq_true_eq] at ready
  exact ⟨ready.1.1, (safe.rails side railId rail present).remoteReady ready.2⟩

theorem handshake_safety_dataReady :
    ∃ (net : Net) (rail : Rail), (net.host .left).rails 0 = some rail ∧ rail.dataReady = true ∧
      ReadySeen net.trace .left 0 ∧ HelloFrom net .left 0 rail.pathRemoteTransmitPath := by
  obtain ⟨net, reachable, ready⟩ := Lib.System.exists_reachableVia netSystem (fun _ _ => True)
    handshakeRun (fun net => ((net.host .left).rails 0).any Rail.dataReady) start_init
    (by decide +kernel)
  simp only [Option.any_eq_true] at ready
  obtain ⟨rail, present, dataReady⟩ := ready
  obtain ⟨readySeen, enabled, -⟩ := handshake_safety net reachable
  obtain ⟨on, seen⟩ := readySeen .left 0 rail present dataReady
  exact ⟨net, rail, present, dataReady, seen, (enabled .left 0 rail present on).2⟩

end ThunderboltVerbs.Control
