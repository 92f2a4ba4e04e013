import ThunderboltVerbs.Control.Net

/-!
# What a step of a control thread can do

`WorkMove` and `HandlerMove` list the transitions of the two threads by name; the invariants are
proved by cases on them.
-/

namespace ThunderboltVerbs.Control
open Proto DataPath

inductive WorkMove (side : Side) (host peer : Host) (railId : Nat) (rail : Rail) :
    WorkPc → WorkPc → Effect → Prop
  | skip (runs : rail.scheduled = true)
      (ends : rail.nativeWorkStop = true ∨ rail.state ≠ .ringStarted ∧ rail.state ≠ .tunnelEnabled) :
      WorkMove side host peer railId rail .idle .idle
        { write := some (railId, { rail with scheduled := false }) }
  | startHello (runs : rail.scheduled = true) (fresh : rail.nativeNegotiated = false)
      (started : rail.state = .ringStarted) :
      WorkMove side host peer railId rail .idle (.helloLock (rail.nativeAttempts + 1))
        { write := some (railId,
            { rail with scheduled := false, nativeAttempts := rail.nativeAttempts + 1 }) }
  | startInvalid (runs : rail.scheduled = true) (fresh : rail.nativeNegotiated = false)
      (enabled : rail.state = .tunnelEnabled) :
      WorkMove side host peer railId rail .idle
        (.helloReturn (rail.nativeAttempts + 1) (some .eInval))
        { write := some (railId,
            { rail with scheduled := false, nativeAttempts := rail.nativeAttempts + 1 }) }
  | startTunnel (runs : rail.scheduled = true)
      (known : host.negotiateNative = true → rail.nativeNegotiated = true) :
      WorkMove side host peer railId rail .idle .tunnelCheck
        { write := some (railId, { rail with scheduled := false }) }
  | helloSend {attempt : Nat} (free : host.controlLock = false) :
      WorkMove side host peer railId rail (.helloLock attempt) (.helloWait attempt)
        { lock := some true, send := some { op := .hello, hello := rail.fillHello railId } }
  | helloFailed {attempt : Nat} (error : Errno) :
      WorkMove side host peer railId rail (.helloWait attempt) (.helloReturn attempt (some error))
        { lock := some false }
  | helloReply {attempt : Nat} (packet : Packet) (sent : peer.sent[packet.index]? = some packet.message)
      (ack : packet.message.op = .helloAck) :
      WorkMove side host peer railId rail (.helloWait attempt) (.helloApply attempt packet) {}
  | helloApplied {attempt : Nat} {packet : Packet} {effect : Effect}
      (applied : host.applyRemote side peer packet = some effect) :
      WorkMove side host peer railId rail (.helloApply attempt packet) (.helloReturn attempt none)
        { effect with lock := some false }
  | helloUnknown {attempt : Nat} {packet : Packet}
      (missing : host.rails packet.message.hello.railId = none) :
      WorkMove side host peer railId rail (.helloApply attempt packet)
        (.helloReturn attempt (some .eNoEnt)) { lock := some false }
  | helloDone {attempt : Nat} :
      WorkMove side host peer railId rail (.helloReturn attempt none) .tunnelCheck
        { write := some (railId, { rail with nativeLastError := none }) }
  | helloError {attempt : Nat} {error : Errno} :
      WorkMove side host peer railId rail (.helloReturn attempt (some error))
        (.out (attempt < helloRetries))
        { write := some (railId, { rail with nativeLastError := some error }) }
  | tunnelRefused (started : rail.state = .ringStarted)
      (missing : rail.nativeNegotiated = false ∨ rail.remoteTransmitPath < 0) :
      WorkMove side host peer railId rail .tunnelCheck (.out false)
        { write := some (railId, { rail with nativeLastError := some .eNotConn }) }
  | tunnelTry (negotiated : rail.nativeNegotiated = true) (path : 0 ≤ rail.remoteTransmitPath) :
      WorkMove side host peer railId rail .tunnelCheck (.tunnelLock (rail.nativeTunnelAttempts + 1))
        { write := some (railId,
            { rail with nativeTunnelAttempts := rail.nativeTunnelAttempts + 1 }) }
  | tunnelSkip :
      WorkMove side host peer railId rail .tunnelCheck .readyCheck {}
  | tunnelLocked {attempt : Nat} (free : host.controlLock = false) :
      WorkMove side host peer railId rail (.tunnelLock attempt)
        (.tunnelEnable attempt rail.remoteTransmitPath) { lock := some true }
  | tunnelEnabled {attempt : Nat} {remoteTransmitPath : Int} (started : rail.state = .ringStarted) :
      WorkMove side host peer railId rail (.tunnelEnable attempt remoteTransmitPath)
        .tunnelPublishCheck
        (let new : Rail :=
          { rail.setPath { rail.link.path with state := .tunnelEnabled } with
            pathRemoteTransmitPath := remoteTransmitPath, nativeLastError := none }
        let effect := Host.writeReady side railId rail new
        { effect with
          lock := some false
          events := effect.events ++ [.tunnelEnabled side railId remoteTransmitPath] })
  | tunnelFailed {attempt : Nat} {remoteTransmitPath : Int} (hop : Int) (error : Errno)
      (kept : hop = rail.pathRemoteTransmitPath ∨ rail.state = .ringStarted) :
      WorkMove side host peer railId rail (.tunnelEnable attempt remoteTransmitPath)
        (.out (attempt < tunnelRetries))
        { write := some (railId,
            { rail with pathRemoteTransmitPath := hop, nativeLastError := some error })
          lock := some false }
  | tunnelSeen (ready : rail.publishable = true) :
      WorkMove side host peer railId rail .tunnelPublishCheck .tunnelPublish {}
  | tunnelUnseen (notReady : rail.publishable = false) :
      WorkMove side host peer railId rail .tunnelPublishCheck .readyCheck {}
  | tunnelPublished :
      WorkMove side host peer railId rail .tunnelPublish .readyCheck
        { events := [.railEvent side railId] }
  | readyTry (enabled : rail.state = .tunnelEnabled) :
      WorkMove side host peer railId rail .readyCheck (.readyLock (rail.nativeReadyAttempts + 1))
        { write := some (railId, { rail with nativeReadyAttempts := rail.nativeReadyAttempts + 1 }) }
  | readySkip :
      WorkMove side host peer railId rail .readyCheck (.out false) {}
  | readySend {attempt : Nat} (free : host.controlLock = false) :
      WorkMove side host peer railId rail (.readyLock attempt) (.readyWait attempt)
        { lock := some true, send := some { op := .ready, hello := rail.fillHello railId } }
  | readyFailed {attempt : Nat} (error : Errno) :
      WorkMove side host peer railId rail (.readyWait attempt) (.readyReturn attempt (some error))
        { lock := some false }
  | readyReply {attempt : Nat} (packet : Packet) (sent : peer.sent[packet.index]? = some packet.message)
      (ack : packet.message.op = .readyAck) (own : packet.message.hello.railId = railId) :
      WorkMove side host peer railId rail (.readyWait attempt) (.readyApply attempt packet) {}
  | readyMarked {attempt : Nat} {packet : Packet}
      (ready : Rail.publishable { rail with nativeRemoteReady := true } = true) :
      WorkMove side host peer railId rail (.readyApply attempt packet) (.readyPublish attempt)
        (Host.markRemoteReady side railId packet rail).2
  | readyMarkedOnly {attempt : Nat} {packet : Packet}
      (notReady : Rail.publishable { rail with nativeRemoteReady := true } = false) :
      WorkMove side host peer railId rail (.readyApply attempt packet) (.readyReturn attempt none)
        { (Host.markRemoteReady side railId packet rail).2 with lock := some false }
  | readyPublished {attempt : Nat} :
      WorkMove side host peer railId rail (.readyPublish attempt) (.readyReturn attempt none)
        { lock := some false, events := [.railEvent side railId] }
  | readyDone {attempt : Nat} {result : Option Errno}
      (sure : result = none ∨ rail.dataReady = true) :
      WorkMove side host peer railId rail (.readyReturn attempt result) .readySent
        { write := some (railId, { rail with nativeLastError := none }) }
  | readyError {attempt : Nat} {error : Errno} :
      WorkMove side host peer railId rail (.readyReturn attempt (some error))
        (.out (attempt < readyRetries))
        { write := some (railId, { rail with nativeLastError := some error }) }
  | readySent :
      WorkMove side host peer railId rail .readySent .sentPublishCheck
        (Host.writeReady side railId rail { rail with nativeReadySent := true })
  | sentSeen (ready : rail.publishable = true) :
      WorkMove side host peer railId rail .sentPublishCheck .sentPublish {}
  | sentUnseen (notReady : rail.publishable = false) :
      WorkMove side host peer railId rail .sentPublishCheck (.out false) {}
  | sentPublished :
      WorkMove side host peer railId rail .sentPublish (.out false)
        { events := [.railEvent side railId] }
  | again (live : rail.nativeWorkStop = false) :
      WorkMove side host peer railId rail (.out true) .idle
        { write := some (railId, { rail with scheduled := true }) }
  | done {retry : Bool} (ends : retry = true → rail.nativeWorkStop = true) :
      WorkMove side host peer railId rail (.out retry) .idle {}

theorem workStart_move {side : Side} {host peer : Host} {railId : Nat} {rail : Rail}
    (runs : rail.scheduled = true) :
    WorkMove side host peer railId rail .idle (workStart host railId rail).1
      (workStart host railId rail).2 := by
  unfold workStart
  extract_lets started attempt tried
  split
  · rename_i ends
    refine .skip runs ?_
    simpa using ends
  · rename_i running
    simp only [Bool.or_eq_true, Bool.and_eq_true, decide_eq_true_eq, not_or, not_and, not_not,
      Bool.not_eq_true] at running
    split
    · rename_i fresh
      simp only [Bool.and_eq_true, Bool.not_eq_true'] at fresh
      split
      · rename_i ringStarted
        exact .startHello runs fresh.2 ringStarted
      · rename_i other
        exact .startInvalid runs fresh.2 (running.2 other)
    · rename_i known
      refine .startTunnel runs fun negotiates => ?_
      simpa [negotiates] using known

theorem writeReady_same {side : Side} {railId : Nat} {old new : Rail}
    (same : new.dataReady = old.dataReady) :
    Host.writeReady side railId old new = { write := some (railId, new) } := by
  simp [Host.writeReady, same]

theorem enableTunnel_cases (rail : Rail) (remoteTransmitPath : Int) (outcome : Option Errno) :
    (∃ hop error, (hop = rail.pathRemoteTransmitPath ∨ rail.state = .ringStarted) ∧
      rail.enableTunnel remoteTransmitPath outcome =
        ({ rail with pathRemoteTransmitPath := hop }, some error)) ∨
    (rail.state = .ringStarted ∧ rail.enableTunnel remoteTransmitPath outcome =
      ({ rail.setPath { rail.link.path with state := .tunnelEnabled } with
          pathRemoteTransmitPath := remoteTransmitPath }, none)) := by
  unfold Rail.enableTunnel
  split
  · exact .inl ⟨rail.pathRemoteTransmitPath, _, .inl rfl, rfl⟩
  · rename_i started
    split
    · exact .inl ⟨rail.pathRemoteTransmitPath, _, .inl rfl, rfl⟩
    · cases outcome with
      | some error => exact .inl ⟨-1, error, .inr (not_not.mp started), rfl⟩
      | none => exact .inr ⟨not_not.mp started, rfl⟩

theorem tunnelEnable_move {side : Side} {host peer : Host} {railId : Nat} {rail : Rail}
    {outcome : Outcome} {attempt : Nat} {remoteTransmitPath : Int} {next : WorkPc} {effect : Effect}
    (moved : workStep side host peer railId rail outcome (.tunnelEnable attempt remoteTransmitPath) =
      some (next, effect)) :
    WorkMove side host peer railId rail (.tunnelEnable attempt remoteTransmitPath) next effect := by
  simp only [workStep] at moved
  rcases enableTunnel_cases rail remoteTransmitPath outcome.error
    with ⟨hop, error, kept, result⟩ | ⟨started, result⟩
  · simp only [result, Option.some.injEq, Prod.mk.injEq] at moved
    obtain ⟨rfl, rfl⟩ := moved
    rw [writeReady_same (by rfl)]
    exact .tunnelFailed hop error kept
  · simp only [result, Option.some.injEq, Prod.mk.injEq] at moved
    obtain ⟨rfl, rfl⟩ := moved
    exact .tunnelEnabled started

theorem workStep_move {side : Side} {host peer : Host} {railId : Nat} {rail : Rail}
    {outcome : Outcome} {pc next : WorkPc} {effect : Effect}
    (moved : workStep side host peer railId rail outcome pc = some (next, effect)) :
    WorkMove side host peer railId rail pc next effect := by
  cases pc with
  | idle =>
      simp only [workStep] at moved
      split at moved
      · rename_i runs
        have move : WorkMove side host peer railId rail .idle (workStart host railId rail).1
          (workStart host railId rail).2 := workStart_move runs
        rw [Option.some.inj moved] at move
        exact move
      · cases moved
  | helloLock attempt =>
      simp only [workStep] at moved
      split at moved
      · cases moved
      · rename_i free
        cases moved
        exact .helloSend (by simpa using free)
  | helloWait attempt =>
      simp only [workStep] at moved
      split at moved
      · cases moved
      · cases moved
        exact .helloFailed _
      · obtain ⟨message, sent, moved⟩ := Option.map_eq_some_iff.mp moved
        split at moved
        · rename_i ack
          cases moved
          exact .helloReply _ sent ack
        · cases moved
          exact .helloFailed _
  | helloApply attempt packet =>
      simp only [workStep] at moved
      split at moved
      · rename_i applied
        cases moved
        exact .helloApplied applied
      · rename_i missing
        cases moved
        exact .helloUnknown (by simpa [Host.applyRemote] using missing)
  | helloReturn attempt result =>
      simp only [workStep] at moved
      cases result with
      | none =>
          cases moved
          exact .helloDone
      | some error =>
          cases moved
          exact .helloError
  | tunnelCheck =>
      simp only [workStep] at moved
      split at moved
      · rename_i started
        simp only [Bool.and_eq_true, decide_eq_true_eq] at started
        split at moved
        · rename_i missing
          cases moved
          exact .tunnelRefused started.2 (by simpa using missing)
        · rename_i known
          cases moved
          simp only [Bool.or_eq_true, Bool.not_eq_true', decide_eq_true_eq, not_or,
            Bool.not_eq_false] at known
          exact .tunnelTry known.1 (Int.not_lt.mp known.2)
      · cases moved
        exact .tunnelSkip
  | tunnelLock attempt =>
      simp only [workStep] at moved
      split at moved
      · cases moved
      · rename_i free
        cases moved
        exact .tunnelLocked (by simpa using free)
  | tunnelEnable attempt remoteTransmitPath => exact tunnelEnable_move moved
  | tunnelPublishCheck =>
      simp only [workStep] at moved
      split at moved
      · rename_i ready
        cases moved
        exact .tunnelSeen ready
      · rename_i notReady
        cases moved
        exact .tunnelUnseen (by simpa using notReady)
  | tunnelPublish =>
      cases moved
      exact .tunnelPublished
  | readyCheck =>
      simp only [workStep] at moved
      split at moved
      · rename_i enabled
        simp only [Bool.and_eq_true, decide_eq_true_eq] at enabled
        cases moved
        exact .readyTry enabled.1.2
      · cases moved
        exact .readySkip
  | readyLock attempt =>
      simp only [workStep] at moved
      split at moved
      · cases moved
      · rename_i free
        cases moved
        exact .readySend (by simpa using free)
  | readyWait attempt =>
      simp only [workStep] at moved
      split at moved
      · cases moved
      · cases moved
        exact .readyFailed _
      · obtain ⟨message, sent, moved⟩ := Option.map_eq_some_iff.mp moved
        split at moved
        · rename_i ack
          cases moved
          exact .readyReply _ sent ack.1 ack.2
        · cases moved
          exact .readyFailed _
  | readyApply attempt packet =>
      simp only [workStep] at moved
      split at moved
      · rename_i ready
        cases moved
        exact .readyMarked ready
      · rename_i notReady
        cases moved
        exact .readyMarkedOnly (Bool.not_eq_true _ ▸ notReady)
  | readyPublish attempt =>
      cases moved
      exact .readyPublished
  | readyReturn attempt result =>
      simp only [workStep] at moved
      cases result with
      | none =>
          cases moved
          exact .readyDone (.inl rfl)
      | some error =>
          simp only at moved
          split at moved
          · rename_i ready
            cases moved
            exact .readyDone (.inr ready)
          · cases moved
            exact .readyError
  | readySent =>
      cases moved
      exact .readySent
  | sentPublishCheck =>
      simp only [workStep] at moved
      split at moved
      · rename_i ready
        cases moved
        exact .sentSeen ready
      · rename_i notReady
        cases moved
        exact .sentUnseen (by simpa using notReady)
  | sentPublish =>
      cases moved
      exact .sentPublished
  | out retry =>
      simp only [workStep] at moved
      split at moved
      · rename_i again
        simp only [Bool.and_eq_true, Bool.not_eq_true'] at again
        obtain ⟨rfl, live⟩ := again
        cases moved
        exact .again live
      · rename_i ends
        cases moved
        exact .done fun retry => by simpa [retry] using ends

/-! ## The packet handler -/

inductive HandlerMove (side : Side) (host peer : Host) :
    HandlerPc → Option HandlerPc → Effect → Prop
  | ignored {packet : Packet} : HandlerMove side host peer (.start packet) none {}
  | ackApplied {packet : Packet} {effect : Effect} (ack : packet.message.op = .helloAck)
      (applied : host.applyRemote side peer packet = some effect) :
      HandlerMove side host peer (.start packet) none effect
  | readyFound {packet : Packet} (ready : packet.message.op = .ready) :
      HandlerMove side host peer (.start packet) (some (.readySnapshot packet)) {}
  | helloFound {packet : Packet} {rail : Rail} (hello : packet.message.op = .hello)
      (present : host.rails packet.message.hello.railId = some rail) :
      HandlerMove side host peer (.start packet)
        (some (.helloApply packet (rail.fillHello packet.message.hello.railId))) {}
  | helloApplied {packet : Packet} {reply : Hello} {effect : Effect}
      (applied : host.applyRemote side peer packet = some effect) :
      HandlerMove side host peer (.helloApply packet reply) (some (.helloRespond packet reply)) effect
  | helloUnknown {packet : Packet} {reply : Hello} :
      HandlerMove side host peer (.helloApply packet reply) (some (.helloRespond packet reply)) {}
  | helloAnswered {packet : Packet} {reply : Hello} :
      HandlerMove side host peer (.helloRespond packet reply)
        (some (.kick packet.message.hello.railId))
        { send := some { op := .helloAck, hello := reply } }
  | helloUnanswered {packet : Packet} {reply : Hello} :
      HandlerMove side host peer (.helloRespond packet reply)
        (some (.kick packet.message.hello.railId)) {}
  | readyTunnel {packet : Packet} {rail : Rail}
      (present : host.rails packet.message.hello.railId = some rail)
      (enabled : rail.state = .tunnelEnabled) :
      HandlerMove side host peer (.readySnapshot packet)
        (some (.readyMark packet (some (rail.fillHello packet.message.hello.railId)))) {}
  | readyNoTunnel {packet : Packet} :
      HandlerMove side host peer (.readySnapshot packet) (some (.readyMark packet none)) {}
  | readyUnknown {packet : Packet} {reply : Option Hello} :
      HandlerMove side host peer (.readyMark packet reply) (some (afterReadyMark packet reply)) {}
  | readyMarked {packet : Packet} {reply : Option Hello} {rail : Rail}
      (present : host.rails packet.message.hello.railId = some rail)
      (ready : Rail.publishable { rail with nativeRemoteReady := true } = true) :
      HandlerMove side host peer (.readyMark packet reply) (some (.readyPublish packet reply))
        (Host.markRemoteReady side packet.message.hello.railId packet rail).2
  | readyMarkedOnly {packet : Packet} {reply : Option Hello} {rail : Rail}
      (present : host.rails packet.message.hello.railId = some rail)
      (notReady : Rail.publishable { rail with nativeRemoteReady := true } = false) :
      HandlerMove side host peer (.readyMark packet reply) (some (afterReadyMark packet reply))
        (Host.markRemoteReady side packet.message.hello.railId packet rail).2
  | readyPublished {packet : Packet} {reply : Option Hello} :
      HandlerMove side host peer (.readyPublish packet reply) (some (afterReadyMark packet reply))
        { events := [.railEvent side packet.message.hello.railId] }
  | readyAnswered {packet : Packet} {reply : Hello} :
      HandlerMove side host peer (.readyRespond packet reply) (some (.sentMark packet reply))
        { send := some { op := .readyAck, hello := reply } }
  | readyUnanswered {packet : Packet} {reply : Hello} :
      HandlerMove side host peer (.readyRespond packet reply)
        (some (.kick packet.message.hello.railId)) {}
  | sentUnknown {packet : Packet} {reply : Hello} :
      HandlerMove side host peer (.sentMark packet reply)
        (some (.kick packet.message.hello.railId)) {}
  | sentMarked {packet : Packet} {reply : Hello} {rail : Rail}
      (present : host.rails reply.railId = some rail)
      (ready : (Host.markLocalReadySent side reply.railId rail).1.publishable = true) :
      HandlerMove side host peer (.sentMark packet reply) (some (.sentPublish packet reply))
        (Host.markLocalReadySent side reply.railId rail).2
  | sentMarkedOnly {packet : Packet} {reply : Hello} {rail : Rail}
      (present : host.rails reply.railId = some rail)
      (notReady : (Host.markLocalReadySent side reply.railId rail).1.publishable = false) :
      HandlerMove side host peer (.sentMark packet reply)
        (some (.kick packet.message.hello.railId))
        (Host.markLocalReadySent side reply.railId rail).2
  | sentPublished {packet : Packet} {reply : Hello} :
      HandlerMove side host peer (.sentPublish packet reply)
        (some (.kick packet.message.hello.railId)) { events := [.railEvent side reply.railId] }
  | kicked {railId : Nat} {rail : Rail} (present : host.rails railId = some rail)
      (allowed : rail.canKick = true) :
      HandlerMove side host peer (.kick railId) none
        { write := some (railId, { rail with scheduled := true }) }
  | unkicked {railId : Nat} : HandlerMove side host peer (.kick railId) none {}

theorem snapshot_cases (host : Host) (railId : Nat) (requireTunnelEnabled : Bool) :
    (∃ rail, host.rails railId = some rail ∧
      (requireTunnelEnabled = true → rail.state = .tunnelEnabled) ∧
      host.snapshot railId requireTunnelEnabled = some (rail.fillHello railId)) ∨
    host.snapshot railId requireTunnelEnabled = none := by
  unfold Host.snapshot
  split
  · rename_i rail present
    split
    · exact .inr rfl
    · rename_i allowed
      refine .inl ⟨rail, present, ?_, rfl⟩
      simpa using allowed
  · exact .inr rfl

theorem handlerStep_move (side : Side) (host peer : Host) (answered : Bool) (pc : HandlerPc) :
    HandlerMove side host peer pc (handlerStep side host peer answered pc).1
      (handlerStep side host peer answered pc).2 := by
  cases pc with
  | start packet =>
      simp only [handlerStep]
      cases op : packet.message.op with
      | helloAck =>
          cases applied : host.applyRemote side peer packet with
          | none => exact .ignored
          | some effect => exact .ackApplied op applied
      | readyAck => exact .ignored
      | ready =>
          rcases snapshot_cases host packet.message.hello.railId false with ⟨rail, -, -, found⟩ | missing
          · simp only [found]
            exact .readyFound op
          · simp only [missing]
            exact .ignored
      | hello =>
          rcases snapshot_cases host packet.message.hello.railId false
            with ⟨rail, present, -, found⟩ | missing
          · simp only [found]
            exact .helloFound op present
          · simp only [missing]
            exact .ignored
  | helloApply packet reply =>
      simp only [handlerStep]
      cases applied : host.applyRemote side peer packet with
      | none => exact .helloUnknown
      | some effect => exact .helloApplied applied
  | helloRespond packet reply =>
      cases answered with
      | false => exact .helloUnanswered
      | true => exact .helloAnswered
  | readySnapshot packet =>
      simp only [handlerStep]
      rcases snapshot_cases host packet.message.hello.railId true
        with ⟨rail, present, enabled, found⟩ | missing
      · rw [found]
        exact .readyTunnel present (enabled rfl)
      · rw [missing]
        exact .readyNoTunnel
  | readyMark packet reply =>
      simp only [handlerStep]
      split
      · exact .readyUnknown
      · rename_i rail present
        split
        · rename_i ready
          exact .readyMarked present ready
        · rename_i notReady
          exact .readyMarkedOnly present (Bool.not_eq_true _ ▸ notReady)
  | readyPublish packet reply => exact .readyPublished
  | readyRespond packet reply =>
      cases answered with
      | false => exact .readyUnanswered
      | true => exact .readyAnswered
  | sentMark packet reply =>
      simp only [handlerStep]
      split
      · exact .sentUnknown
      · rename_i rail present
        split
        · rename_i ready
          exact .sentMarked present ready
        · rename_i notReady
          exact .sentMarkedOnly present (Bool.not_eq_true _ ▸ notReady)
  | sentPublish packet reply => exact .sentPublished
  | kick railId =>
      simp only [handlerStep]
      split
      · rename_i rail present
        split
        · rename_i allowed
          exact .kicked present allowed
        · exact .unkicked
      · exact .unkicked

end ThunderboltVerbs.Control
