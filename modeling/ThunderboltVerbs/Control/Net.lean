import ThunderboltVerbs.Control.Rail

/-!
# Two hosts that bring up their rails

The threads of a host are one work function for each rail and any number of packet handlers. A step
of a thread is one access to shared state: a section under `state->lock`, a message sent or
received, or an unlocked read or write. Packets may be delivered in any order, repeatedly or never,
and `tb_xdomain_request` returns any message of the peer or an error.
-/

namespace ThunderboltVerbs.Control
open Proto DataPath

def helloRetries : Nat := 5
def tunnelRetries : Nat := 20
def readyRetries : Nat := 10

structure Packet where
  index : Nat
  message : Message
  deriving DecidableEq, Repr

inductive WorkPc
  | idle
  | helloLock (attempt : Nat)
  | helloWait (attempt : Nat)
  | helloApply (attempt : Nat) (packet : Packet)
  | helloReturn (attempt : Nat) (result : Option Errno)
  | tunnelCheck
  | tunnelLock (attempt : Nat)
  | tunnelEnable (attempt : Nat) (remoteTransmitPath : Int)
  | tunnelPublishCheck
  | tunnelPublish
  | readyCheck
  | readyLock (attempt : Nat)
  | readyWait (attempt : Nat)
  | readyApply (attempt : Nat) (packet : Packet)
  | readyPublish (attempt : Nat)
  | readyReturn (attempt : Nat) (result : Option Errno)
  | readySent
  | sentPublishCheck
  | sentPublish
  | out (retry : Bool)
  deriving DecidableEq, Repr

inductive HandlerPc
  | start (packet : Packet)
  | helloApply (packet : Packet) (reply : Hello)
  | helloRespond (packet : Packet) (reply : Hello)
  | readySnapshot (packet : Packet)
  | readyMark (packet : Packet) (reply : Option Hello)
  | readyPublish (packet : Packet) (reply : Option Hello)
  | readyRespond (packet : Packet) (reply : Hello)
  | sentMark (packet : Packet) (reply : Hello)
  | sentPublish (packet : Packet) (reply : Hello)
  | kick (railId : Nat)
  deriving DecidableEq, Repr

/-- What happened, for statements about whole runs; the code reads none of it. `applied` records the
charged frames not yet returned and the pending credits that the new window replaced. -/
inductive Event
  | sent (side : Side) (packet : Packet)
  | applied (side : Side) (railId : Nat) (packet : Packet) (unreturned pending : Nat)
  | readyMarked (side : Side) (railId : Nat) (packet : Packet)
  | tunnelEnabled (side : Side) (railId : Nat) (remoteTransmitPath : Int)
  | edge (side : Side) (railId : Nat)
  | railEvent (side : Side) (railId : Nat)
  deriving DecidableEq, Repr

structure Host where
  rails : Nat → Option Rail
  work : Nat → WorkPc
  handlers : List HandlerPc
  controlLock : Bool
  sent : List Message
  rxNext : Nat
  negotiateNative : Bool
  enableTunnels : Bool

structure Net where
  host : Side → Host
  trace : List Event

structure Effect where
  write : Option (Nat × Rail) := none
  lock : Option Bool := none
  send : Option Message := none
  events : List Event := []

namespace Host

def unreturned (peer : Host) (railId : Nat) (rail : Rail) : Nat :=
  rail.link.held - rail.link.path.txRemoteDataCredits +
    match peer.rails railId with
    | some other => other.link.owed
    | none => 0

/-- `tbv_native_control_apply_remote` with a matching rail required. -/
def applyRemote (side : Side) (host peer : Host) (packet : Packet) : Option Effect :=
  (host.rails packet.message.hello.railId).map fun rail =>
    { write := some (packet.message.hello.railId, rail.applyRemote packet.message.hello)
      events := [.applied side packet.message.hello.railId packet
        (peer.unreturned packet.message.hello.railId rail) rail.link.path.rxDataCreditPending] }

def writeReady (side : Side) (railId : Nat) (old new : Rail) : Effect where
  write := some (railId, new)
  events := if !old.dataReady && new.dataReady then [.edge side railId] else []

def markRemoteReady (side : Side) (railId : Nat) (packet : Packet) (rail : Rail) : Rail × Effect :=
  let marked := { rail with nativeRemoteReady := true }
  let effect := writeReady side railId rail marked
  (marked, { effect with events := effect.events ++ [.readyMarked side railId packet] })

def markLocalReadySent (side : Side) (railId : Nat) (rail : Rail) : Rail × Effect :=
  let marked := { rail with nativeReadySent := true, nativeLastError := none }
  (marked, writeReady side railId rail marked)

end Host

/-! ## The work function -/

inductive Outcome
  | proceed
  | reply (index : Nat)
  | failed (error : Errno)
  deriving DecidableEq, Repr

def Outcome.error : Outcome → Option Errno
  | .failed error => some error
  | _ => none

/-- The first checks of `tbv_native_control_work`, up to the first step that others can see. -/
def workStart (host : Host) (railId : Nat) (rail : Rail) : WorkPc × Effect :=
  let started := { rail with scheduled := false }
  if rail.nativeWorkStop || (rail.state ≠ .ringStarted && rail.state ≠ .tunnelEnabled) then
    (.idle, { write := some (railId, started) })
  else if host.negotiateNative && !rail.nativeNegotiated then
    let attempt := rail.nativeAttempts + 1
    let tried := { started with nativeAttempts := attempt }
    if rail.state = .ringStarted then (.helloLock attempt, { write := some (railId, tried) })
    else (.helloReturn attempt (some .eInval), { write := some (railId, tried) })
  else (.tunnelCheck, { write := some (railId, started) })

def workStep (side : Side) (host peer : Host) (railId : Nat) (rail : Rail) (outcome : Outcome) :
    WorkPc → Option (WorkPc × Effect)
  | .idle => if rail.scheduled then some (workStart host railId rail) else none
  | .helloLock attempt =>
      if host.controlLock then none
      else
        some (.helloWait attempt,
          { lock := some true, send := some { op := .hello, hello := rail.fillHello railId } })
  | .helloWait attempt =>
      match outcome with
      | .proceed => none
      | .failed error => some (.helloReturn attempt (some error), { lock := some false })
      | .reply index =>
          peer.sent[index]?.map fun message =>
            if message.op = .helloAck then (.helloApply attempt { index, message }, {})
            else (.helloReturn attempt (some .eProto), { lock := some false })
  | .helloApply attempt packet =>
      match host.applyRemote side peer packet with
      | some effect => some (.helloReturn attempt none, { effect with lock := some false })
      | none => some (.helloReturn attempt (some .eNoEnt), { lock := some false })
  | .helloReturn attempt result =>
      let recorded := { rail with nativeLastError := result }
      match result with
      | none => some (.tunnelCheck, { write := some (railId, recorded) })
      | some _ => some (.out (attempt < helloRetries), { write := some (railId, recorded) })
  | .tunnelCheck =>
      if host.enableTunnels && rail.state = .ringStarted then
        if !rail.nativeNegotiated || rail.remoteTransmitPath < 0 then
          some (.out false, { write := some (railId, { rail with nativeLastError := some .eNotConn }) })
        else
          let attempt := rail.nativeTunnelAttempts + 1
          some (.tunnelLock attempt,
            { write := some (railId, { rail with nativeTunnelAttempts := attempt }) })
      else some (.readyCheck, {})
  | .tunnelLock attempt =>
      if host.controlLock then none
      else some (.tunnelEnable attempt rail.remoteTransmitPath, { lock := some true })
  | .tunnelEnable attempt remoteTransmitPath =>
      let result := rail.enableTunnel remoteTransmitPath outcome.error
      let recorded := { result.1 with nativeLastError := result.2 }
      let effect := Host.writeReady side railId rail recorded
      match result.2 with
      | none =>
          some (.tunnelPublishCheck,
            { effect with
              lock := some false
              events := effect.events ++ [.tunnelEnabled side railId remoteTransmitPath] })
      | some _ => some (.out (attempt < tunnelRetries), { effect with lock := some false })
  | .tunnelPublishCheck => some (if rail.publishable then .tunnelPublish else .readyCheck, {})
  | .tunnelPublish => some (.readyCheck, { events := [.railEvent side railId] })
  | .readyCheck =>
      if host.enableTunnels && rail.state = .tunnelEnabled && !rail.nativeReadySent then
        let attempt := rail.nativeReadyAttempts + 1
        some (.readyLock attempt,
          { write := some (railId, { rail with nativeReadyAttempts := attempt }) })
      else some (.out false, {})
  | .readyLock attempt =>
      if host.controlLock then none
      else
        some (.readyWait attempt,
          { lock := some true, send := some { op := .ready, hello := rail.fillHello railId } })
  | .readyWait attempt =>
      match outcome with
      | .proceed => none
      | .failed error => some (.readyReturn attempt (some error), { lock := some false })
      | .reply index =>
          peer.sent[index]?.map fun message =>
            if message.op = .readyAck ∧ message.hello.railId = railId then
              (.readyApply attempt { index, message }, {})
            else (.readyReturn attempt (some .eProto), { lock := some false })
  | .readyApply attempt packet =>
      let marked := Host.markRemoteReady side railId packet rail
      if marked.1.publishable then some (.readyPublish attempt, marked.2)
      else some (.readyReturn attempt none, { marked.2 with lock := some false })
  | .readyPublish attempt =>
      some (.readyReturn attempt none, { lock := some false, events := [.railEvent side railId] })
  | .readyReturn attempt result =>
      match result with
      | none => some (.readySent, { write := some (railId, { rail with nativeLastError := none }) })
      | some error =>
          if rail.dataReady then
            some (.readySent, { write := some (railId, { rail with nativeLastError := none }) })
          else
            some (.out (attempt < readyRetries),
              { write := some (railId, { rail with nativeLastError := some error }) })
  | .readySent =>
      some (.sentPublishCheck, Host.writeReady side railId rail { rail with nativeReadySent := true })
  | .sentPublishCheck => some (if rail.publishable then .sentPublish else .out false, {})
  | .sentPublish => some (.out false, { events := [.railEvent side railId] })
  | .out retry =>
      some (.idle,
        if retry && !rail.nativeWorkStop then
          { write := some (railId, { rail with scheduled := true }) }
        else {})

/-! ## The packet handler -/

/-- `tbv_native_control_snapshot` with a matching rail required. -/
def Host.snapshot (host : Host) (railId : Nat) (requireTunnelEnabled : Bool) : Option Hello :=
  match host.rails railId with
  | some rail =>
      if requireTunnelEnabled && rail.state ≠ .tunnelEnabled then none
      else some (rail.fillHello railId)
  | none => none

/-- After `mark_remote_ready` the handler answers, or only wakes the work function. -/
def afterReadyMark (packet : Packet) : Option Hello → HandlerPc
  | some reply => .readyRespond packet reply
  | none => .kick packet.message.hello.railId

/-- One step of `tbv_native_control_handle_packet`; `answered` says whether `tb_xdomain_response`
succeeds. The thread ends when no program counter is left. -/
def handlerStep (side : Side) (host peer : Host) (answered : Bool) :
    HandlerPc → Option HandlerPc × Effect
  | .start packet =>
      let railId := packet.message.hello.railId
      match packet.message.op with
      | .helloAck => (none, (host.applyRemote side peer packet).getD {})
      | .readyAck => (none, {})
      | .ready => ((host.snapshot railId false).map fun _ => .readySnapshot packet, {})
      | .hello => ((host.snapshot railId false).map fun reply => .helloApply packet reply, {})
  | .helloApply packet reply =>
      (some (.helloRespond packet reply), (host.applyRemote side peer packet).getD {})
  | .helloRespond packet reply =>
      (some (.kick packet.message.hello.railId),
        if answered then { send := some { op := .helloAck, hello := reply } } else {})
  | .readySnapshot packet =>
      (some (.readyMark packet (host.snapshot packet.message.hello.railId true)), {})
  | .readyMark packet reply =>
      match host.rails packet.message.hello.railId with
      | none => (some (afterReadyMark packet reply), {})
      | some rail =>
          let marked := Host.markRemoteReady side packet.message.hello.railId packet rail
          (some (if marked.1.publishable then .readyPublish packet reply
            else afterReadyMark packet reply), marked.2)
  | .readyPublish packet reply =>
      (some (afterReadyMark packet reply),
        { events := [.railEvent side packet.message.hello.railId] })
  | .readyRespond packet reply =>
      if answered then
        (some (.sentMark packet reply), { send := some { op := .readyAck, hello := reply } })
      else (some (.kick packet.message.hello.railId), {})
  | .sentMark packet reply =>
      match host.rails reply.railId with
      | none => (some (.kick packet.message.hello.railId), {})
      | some rail =>
          let marked := Host.markLocalReadySent side reply.railId rail
          (some (if marked.1.publishable then .sentPublish packet reply
            else .kick packet.message.hello.railId), marked.2)
  | .sentPublish packet reply =>
      (some (.kick packet.message.hello.railId), { events := [.railEvent side reply.railId] })
  | .kick railId =>
      match host.rails railId with
      | some rail =>
          (none, if rail.canKick then { write := some (railId, { rail with scheduled := true }) } else {})
      | none => (none, {})

/-! ## Steps of the whole system -/

inductive Action
  | startRings (side : Side) (railId txHop rxHop transmitPath : Nat)
  | queueRail (side : Side) (railId : Nat)
  | markRemoving (side : Side) (railId : Nat)
  | stopWork (side : Side) (railId : Nat)
  | receive (side : Side) (index : Nat)
  | handle (side : Side) (k : Nat) (answered : Bool)
  | work (side : Side) (railId : Nat) (outcome : Outcome)
  | data (side : Side) (railId : Nat) (action : EndAction)
  | dataDeliver (side : Side) (railId : Nat) (i : Nat)
  deriving DecidableEq, Repr

namespace Host

def write (host : Host) (railId : Nat) (rail : Rail) : Host :=
  { host with rails := Function.update host.rails railId (some rail) }

def apply (host : Host) (effect : Effect) : Host :=
  { host with
    rails := match effect.write with
      | some (railId, rail) => Function.update host.rails railId (some rail)
      | none => host.rails
    controlLock := effect.lock.getD host.controlLock
    sent := host.sent ++ effect.send.toList }

theorem rails_apply {host : Host} {effect : Effect} {railId : Nat} {rail : Rail}
    (found : (host.apply effect).rails railId = some rail) :
    effect.write = some (railId, rail) ∨
      host.rails railId = some rail ∧ ∀ new, effect.write ≠ some (railId, new) := by
  cases write : effect.write with
  | none =>
      simp only [apply, write] at found
      exact .inr ⟨found, by simp⟩
  | some pair =>
      obtain ⟨written, new⟩ := pair
      simp only [apply, write] at found
      by_cases target : railId = written
      · subst target
        simp only [Function.update_self, Option.some.injEq] at found
        exact .inl (by rw [found])
      · rw [Function.update_of_ne target] at found
        refine .inr ⟨found, fun other same => target ?_⟩
        cases same
        rfl

def moveHandler (host : Host) (k : Nat) (next : Option HandlerPc) : Host :=
  { host with handlers := next.toList ++ host.handlers.eraseIdx k }

def moveWork (host : Host) (railId : Nat) (next : WorkPc) : Host :=
  { host with work := Function.update host.work railId next }

end Host

namespace Net

def setHost (net : Net) (side : Side) (host : Host) : Net :=
  { net with host := Function.update net.host side host }

def log (side : Side) (host : Host) (effect : Effect) : List Event :=
  effect.events ++ match effect.send with
    | some message => [.sent side { index := host.sent.length, message }]
    | none => []

def commit (net : Net) (side : Side) (host : Host) (effect : Effect) : Net where
  host := Function.update net.host side (host.apply effect)
  trace := log side host effect ++ net.trace

section
variable {net : Net} {side other : Side} {host : Host} {effect : Effect}

@[simp] theorem setHost_self : (net.setHost side host).host side = host := by
  simp [setHost]

theorem setHost_other (away : other ≠ side) : (net.setHost side host).host other = net.host other := by
  simp [setHost, away]

@[simp] theorem commit_self : (net.commit side host effect).host side = host.apply effect := by
  simp [commit]

theorem commit_other (away : other ≠ side) :
    (net.commit side host effect).host other = net.host other := by
  simp [commit, away]

end

/-- Frames are sent on a rail only while it is data-ready; the tunnel is enabled by the work
function only. -/
def dataAllowed (rail : Rail) : EndAction → Bool
  | .emit _ _ => rail.dataReady
  | .enableTunnel => false
  | _ => true

def updateRail (net : Net) (side : Side) (railId : Nat) (f : Rail → Option Rail) : Option Net :=
  (((net.host side).rails railId).bind f).map fun rail =>
    net.setHost side ((net.host side).write railId rail)

def step (net : Net) : Action → Option Net
  | .startRings side railId txHop rxHop transmitPath =>
      net.updateRail side railId fun rail =>
        if rail.state = .new then some (rail.startRings txHop rxHop transmitPath) else none
  | .queueRail side railId =>
      net.updateRail side railId fun rail =>
        if (net.host side).negotiateNative && rail.state = .ringStarted && !rail.queued then
          some rail.queueRail
        else none
  | .markRemoving side railId =>
      net.updateRail side railId fun rail => some { rail with removing := true }
  | .stopWork side railId =>
      net.updateRail side railId fun rail =>
        if rail.removing then some { rail with nativeWorkStop := true, scheduled := false } else none
  | .receive side index =>
      (net.host side.peer).sent[index]?.map fun message =>
        net.setHost side
          { net.host side with
            handlers := .start { index, message } :: (net.host side).handlers
            rxNext := max (net.host side).rxNext (index + 1) }
  | .handle side k answered =>
      (net.host side).handlers[k]?.map fun pc =>
        let result := handlerStep side (net.host side) (net.host side.peer) answered pc
        net.commit side ((net.host side).moveHandler k result.1) result.2
  | .work side railId outcome =>
      ((net.host side).rails railId).bind fun rail =>
        (workStep side (net.host side) (net.host side.peer) railId rail outcome
          ((net.host side).work railId)).map fun result =>
            net.commit side ((net.host side).moveWork railId result.1) result.2
  | .data side railId action =>
      net.updateRail side railId fun rail =>
        if dataAllowed rail action then (rail.link.step action).map fun link => { rail with link := link }
        else none
  | .dataDeliver side railId i =>
      ((net.host side.peer).rails railId).bind fun sender =>
        sender.link.wire[i]?.bind fun flight =>
          (net.updateRail side.peer railId fun sender =>
            some { sender with link := { sender.link with wire := sender.link.wire.eraseIdx i } }).bind
          fun net =>
            net.updateRail side railId fun receiver =>
              some { receiver with link := receiver.link.receive flight }

end Net

def Host.Fresh (host : Host) : Prop :=
  (∀ railId rail, host.rails railId = some rail → ∃ cfg, rail = Rail.added cfg) ∧
    (∀ railId, host.work railId = .idle) ∧ host.handlers = [] ∧ host.controlLock = false ∧
    host.sent = [] ∧ host.rxNext = 0

def netSystem : Lib.System Net Action where
  init net := (∀ side, (net.host side).Fresh) ∧ net.trace = []
  step := Net.step

/-! ## A complete handshake -/

/-- A host with rails 0 and 1 and the ring sizes of `tbv_path_default_config`. -/
def Host.twoRails : Host where
  rails id := if id < 2 then
      some (Rail.added
        { txRingSize := 1024, rxRingSize := 1024, rx_positive := by decide, rx_u32 := by decide })
    else none
  work _ := .idle
  handlers := []
  controlLock := false
  sent := []
  rxNext := 0
  negotiateNative := true
  enableTunnels := true

def Net.start : Net := { host := fun _ => Host.twoRails, trace := [] }

theorem start_init : netSystem.init Net.start := by
  refine ⟨fun side => ⟨?_, fun _ => rfl, rfl, rfl, rfl, rfl⟩, rfl⟩
  intro railId rail present
  simp only [Net.start, Host.twoRails, Option.ite_none_right_eq_some, Option.some.injEq] at present
  exact ⟨_, present.2.symm⟩

def bringUp (side : Side) (railId transmitPath : Nat) : List Action :=
  [.startRings side railId 1 1 transmitPath, .queueRail side railId]

def works (side : Side) (railId steps : Nat) : List Action :=
  List.replicate steps (.work side railId .proceed)

def handles (side : Side) (index steps : Nat) : List Action :=
  .receive side index :: List.replicate steps (.handle side 0 true)

/-- Left negotiates rail 0 and both sides enable their tunnels; right's own READY is still
unanswered. -/
def negotiateRun : List Action :=
  bringUp .left 0 8 ++ bringUp .right 0 9 ++ works .left 0 2 ++ handles .right 0 4 ++
    handles .left 0 1 ++ [.work .left 0 (.reply 0)] ++ works .left 0 8 ++ works .right 0 7

def handshakeRun : List Action :=
  negotiateRun ++ handles .right 1 7 ++ handles .left 2 1 ++ [.work .left 0 (.reply 2)] ++
    works .left 0 6 ++ [.work .right 0 (.failed .eTimedOut)] ++ works .right 0 5

end ThunderboltVerbs.Control
