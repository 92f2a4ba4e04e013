import ThunderboltVerbs.Tbnet.Session

/-!
# The packet path of a session

The in-HopID of an enabled path is kept only in `remote_transmit_path`, which the next LOGIN may change.
The connected work enables the path that it read, whatever the session has become meanwhile.
-/

namespace ThunderboltVerbs.Tbnet
open Lib

/-- The in-HopID that the work has allocated and not yet handed to the session. -/
def ConnectedWork.hop : ConnectedWork → Multiset Nat
  | .allocated remoteTransmitPath | .enabled remoteTransmitPath => {remoteTransmitPath}
  | _ => 0

def ConnectedWork.tunnel : ConnectedWork → Option Nat
  | .enabled remoteTransmitPath => some remoteTransmitPath
  | _ => none

namespace Session

def heldHops (s : Session) : Multiset Nat :=
  s.connectedWork.hop + if s.pathEnabled then ({s.remoteTransmitPath} : Multiset Nat) else 0

structure Consistent (s : Session) : Prop where
  path : s.pathEnabled = true →
    s.tunnel = some s.remoteTransmitPath ∧ s.loginSent = true ∧ s.loginReceived = true
  hops : Holds s.hops s.heldHops
  teardown : s.pathEnabled = true → ∃ hop, s.tunnel = some hop ∧ s.heldHops = {hop} ∧
    s.teardownPath.hops = .released hop :: s.hops ∧ Holds s.teardownPath.hops 0
  destroyed : s.destroyed = true → ∀ hop, s.hops.count (.obtained hop) = s.hops.count (.released hop)

/-- The connected work finds the session as it read it, and no LOGIN changes the path of an enabled one. -/
def steady (s : Session) : SessionAction → Bool
  | .login transmitPath answered =>
      !s.pathEnabled || !s.takesLogin transmitPath answered || transmitPath = s.remoteTransmitPath
  | .connectedFinish => s.connectedWork = .enabled s.remoteTransmitPath && s.loginSent && s.loginReceived
  | _ => true

structure Inv (s : Session) : Prop where
  path : s.pathEnabled = true →
    s.tunnel = some s.remoteTransmitPath ∧ s.loginSent = true ∧ s.loginReceived = true ∧ s.connectedWork = .idle
  tunnel : s.pathEnabled = false → s.tunnel = s.connectedWork.tunnel
  hops : Holds s.hops s.heldHops
  unregistered : s.worksCancelled = true → s.handlerRegistered = false
  handled : s.handlerRegistered = false → s.handlers = 0
  cancelled : s.worksCancelled = true → s.loginPending = false ∧ s.connectedPending = false ∧
    s.disconnectPending = false ∧ s.loginWork = .idle ∧ s.connectedWork = .idle
  destroyed : s.destroyed = true → s.worksCancelled = true ∧ s.pathEnabled = false

variable {s t : Session}

theorem Inv.login (inv : s.Inv) (registered : s.handlerRegistered = true) {transmitPath : Nat} {answered : Bool}
    (steady : s.steady (.login transmitPath answered) = true) : (s.login transmitPath answered).Inv := by
  have working : s.worksCancelled = true → False := by
    intro cancelled
    rw [inv.unregistered cancelled] at registered
    cases registered
  have handled : s.handlerRegistered = false → False := by
    intro unregistered
    rw [unregistered] at registered
    cases registered
  simp only [Session.login]
  split
  · exact inv
  split
  · exact inv
  rename_i valid answers
  cases removing : s.removing with
  | true =>
      simp only [if_true]
      exact { inv with handled := fun unregistered => (handled unregistered).elim }
  | false =>
      have kept : s.pathEnabled = true → transmitPath = s.remoteTransmitPath := by
        intro enabled
        have takes : s.takesLogin transmitPath answered = true := by
          simp only [Bool.not_eq_true', Bool.not_eq_false] at answers
          simp only [takesLogin, removing, answers]
          simpa using valid
        simpa [Session.steady, enabled, takes] using steady
      simp only [Bool.false_eq_true, if_false]
      refine { inv with path := ?_, hops := ?_, handled := ?_, cancelled := ?_ }
      · intro enabled
        obtain ⟨tunnel, sent, -, idle⟩ := inv.path enabled
        exact ⟨(kept enabled) ▸ tunnel, sent, rfl, idle⟩
      · have held := inv.hops
        simp only [heldHops] at held ⊢
        cases enabled : s.pathEnabled with
        | true => simpa [enabled, kept enabled] using held
        | false => simpa [enabled] using held
      · exact fun unregistered => (handled unregistered).elim
      · exact fun cancelled => (working cancelled).elim

@[simp] theorem teardownPath_pathEnabled (s : Session) : s.teardownPath.pathEnabled = false := by
  cases enabled : s.pathEnabled <;> simp [Session.teardownPath, enabled]

@[simp] theorem teardownPath_worksCancelled (s : Session) : s.teardownPath.worksCancelled = s.worksCancelled := by
  cases enabled : s.pathEnabled <;> simp [Session.teardownPath, enabled]

theorem Inv.teardownPath (inv : s.Inv) : s.teardownPath.Inv := by
  cases enabled : s.pathEnabled with
  | false =>
      simp only [Session.teardownPath]
      rw [if_neg (by simp [enabled])]
      refine { inv with path := ?_ }
      intro still
      have still : s.pathEnabled = true := still
      rw [still] at enabled
      cases enabled
  | true =>
      obtain ⟨tunnel, -, -, idle⟩ := inv.path enabled
      simp only [Session.teardownPath, enabled, if_true]
      refine { inv with path := ?_, tunnel := ?_, hops := ?_, destroyed := ?_ }
      · intro still
        cases still
      · intro disabled
        simp [Session.disablePaths, tunnel, idle, ConnectedWork.tunnel]
      · have held := inv.hops
        simp only [heldHops, idle, ConnectedWork.hop, enabled, if_true, zero_add] at held
        simp only [heldHops, idle, ConnectedWork.hop, Bool.false_eq_true, if_false, zero_add]
        exact .release s.remoteTransmitPath held
      · intro destroyed
        exact ⟨(inv.destroyed destroyed).1, rfl⟩

theorem Inv.working (inv : s.Inv) (busy : s.connectedWork ≠ .idle) :
    s.worksCancelled = false ∧ s.pathEnabled = false := by
  constructor
  · by_contra cancelled
    exact busy (inv.cancelled (by simpa using cancelled)).2.2.2.2
  · by_contra enabled
    exact busy (inv.path (by simpa using enabled)).2.2.2

theorem Inv.moves (inv : s.Inv) (working : s.worksCancelled = false) (disabled : s.pathEnabled = false)
    {connectedPending : Bool} {connectedWork : ConnectedWork} {pathRetries : Nat} {hops : List (Use Nat)}
    {tunnel : Option Nat} (holds : Holds hops connectedWork.hop) (points : tunnel = connectedWork.tunnel) :
    { s with connectedPending, connectedWork, pathRetries, hops, tunnel }.Inv where
  path := by
    intro enabled
    have enabled : s.pathEnabled = true := enabled
    rw [disabled] at enabled
    cases enabled
  tunnel := fun _ => points
  hops := by simpa [heldHops, disabled] using holds
  unregistered := inv.unregistered
  handled := inv.handled
  cancelled := by
    intro cancelled
    have cancelled : s.worksCancelled = true := cancelled
    rw [working] at cancelled
    cases cancelled
  destroyed := inv.destroyed

theorem Inv.held (inv : s.Inv) (disabled : s.pathEnabled = false) : Holds s.hops s.connectedWork.hop := by
  simpa [heldHops, disabled] using inv.hops

theorem Inv.loginWorking (inv : s.Inv) (busy : s.loginWork ≠ .idle) : s.worksCancelled = false := by
  by_contra cancelled
  exact busy (inv.cancelled (by simpa using cancelled)).2.2.2.1

theorem Inv.loginMoves (inv : s.Inv) (working : s.worksCancelled = false)
    {loginSent loginPending connectedPending : Bool} {loginWork : LoginWork} {loginRetries : Nat}
    (sent : s.loginSent = true → loginSent = true) :
    { s with loginSent, loginPending, connectedPending, loginWork, loginRetries }.Inv where
  path := by
    intro enabled
    obtain ⟨tunnel, before, received, idle⟩ := inv.path enabled
    exact ⟨tunnel, sent before, received, idle⟩
  tunnel := inv.tunnel
  hops := inv.hops
  unregistered := inv.unregistered
  handled := inv.handled
  cancelled := by
    intro cancelled
    have cancelled : s.worksCancelled = true := cancelled
    rw [working] at cancelled
    cases cancelled
  destroyed := inv.destroyed

theorem Inv.handlerQueues (inv : s.Inv) (waiting : s.handlers ≠ 0) :
    { s with handlers := s.handlers - 1, connectedPending := true }.Inv := by
  refine { inv with handled := ?_, cancelled := ?_ }
  · intro unregistered
    exact absurd (inv.handled unregistered) waiting
  · intro cancelled
    exact absurd (inv.handled (inv.unregistered cancelled)) waiting

theorem Inv.logout (inv : s.Inv) (registered : s.handlerRegistered = true) :
    { s with disconnectPending := true }.Inv := by
  refine { inv with cancelled := ?_ }
  intro cancelled
  have unregistered := inv.unregistered cancelled
  rw [registered] at unregistered
  cases unregistered

theorem Inv.loginStart (inv : s.Inv) (pending : s.loginPending = true) : s.loginStart.Inv := by
  have working : s.worksCancelled = false := by
    by_contra cancelled
    rw [(inv.cancelled (by simpa using cancelled)).1] at pending
    cases pending
  simp only [Session.loginStart]
  split
  · exact inv.loginMoves working id
  · exact inv.loginMoves working id

theorem Inv.loginRequest (inv : s.Inv) (resetting : s.loginWork = .resetting) : s.loginRequest.Inv := by
  have working := inv.loginWorking (by simp [resetting])
  simp only [Session.loginRequest]
  split
  · exact inv.loginMoves working id
  · exact inv.loginMoves working id

theorem Inv.loginAnswer (inv : s.Inv) (requesting : s.loginWork = .requesting) (ok : Bool) :
    (s.loginAnswer ok).Inv := by
  have working := inv.loginWorking (by simp [requesting])
  simp only [Session.loginAnswer]
  split
  · split
    · exact inv.loginMoves working fun _ => rfl
    split
    · exact inv.loginMoves working fun _ => rfl
    · exact inv.loginMoves working fun _ => rfl
  · split
    · exact inv.loginMoves working id
    · exact inv.loginMoves working id

theorem Inv.connectedStart (inv : s.Inv) (pending : s.connectedPending = true) (idle : s.connectedWork = .idle) :
    s.connectedStart.Inv := by
  have working : s.worksCancelled = false := by
    by_contra cancelled
    rw [(inv.cancelled (by simpa using cancelled)).2.1] at pending
    cases pending
  simp only [Session.connectedStart]
  split
  · exact inv.loginMoves working id
  split
  · rename_i off connected
    have disabled : s.pathEnabled = false := by
      simp only [Bool.or_eq_true, not_or, Bool.not_eq_true] at off
      exact off.1
    have holds := inv.held disabled
    have tunnel := inv.tunnel disabled
    rw [idle] at holds tunnel
    exact inv.moves working disabled holds tunnel
  · exact inv.loginMoves working id

theorem Inv.allocInHopid (inv : s.Inv) {remoteTransmitPath : Nat}
    (chosen : s.connectedWork = .chosen remoteTransmitPath) (answer : Option Nat) :
    (s.allocInHopid remoteTransmitPath answer).Inv := by
  obtain ⟨working, disabled⟩ := inv.working (by simp [chosen])
  have holds := inv.held disabled
  have tunnel := inv.tunnel disabled
  rw [chosen] at holds tunnel
  cases answer with
  | none => exact inv.moves working disabled holds tunnel
  | some hop =>
      simp only [Session.allocInHopid]
      split
      · rename_i same
        exact inv.moves working disabled (same ▸ .obtain hop holds) tunnel
      split
      · exact inv.moves working disabled (.release hop (.obtain hop holds)) tunnel
      · exact inv.moves working disabled holds tunnel

theorem Inv.enablePaths (inv : s.Inv) {remoteTransmitPath : Nat}
    (allocated : s.connectedWork = .allocated remoteTransmitPath) (ok : Bool) :
    (s.enablePaths remoteTransmitPath ok).Inv := by
  obtain ⟨working, disabled⟩ := inv.working (by simp [allocated])
  have holds := inv.held disabled
  have tunnel := inv.tunnel disabled
  rw [allocated] at holds tunnel
  simp only [Session.enablePaths]
  split
  · exact inv.moves working disabled holds rfl
  · exact inv.moves working disabled (.release remoteTransmitPath holds) tunnel

theorem Inv.connectedFinish (inv : s.Inv) (steady : s.steady .connectedFinish = true) : s.connectedFinish.Inv := by
  simp only [Session.steady, Bool.and_eq_true, decide_eq_true_eq] at steady
  obtain ⟨⟨found, sent⟩, received⟩ := steady
  obtain ⟨working, disabled⟩ := inv.working (by simp [found])
  have holds := inv.held disabled
  have tunnel := inv.tunnel disabled
  rw [found] at holds tunnel
  refine { inv with path := ?_, tunnel := ?_, hops := ?_, cancelled := ?_, destroyed := ?_ }
  · exact fun _ => ⟨tunnel, sent, received, rfl⟩
  · intro off
    cases off
  · simpa [heldHops, ConnectedWork.hop, Session.connectedFinish] using holds
  · intro cancelled
    have cancelled : s.worksCancelled = true := cancelled
    rw [working] at cancelled
    cases cancelled
  · intro destroyed
    have cancelled := (inv.destroyed destroyed).1
    rw [working] at cancelled
    cases cancelled

theorem Inv.retryConnected (inv : s.Inv) (retrying : s.connectedWork = .retrying) : s.retryConnected.Inv := by
  obtain ⟨working, disabled⟩ := inv.working (by simp [retrying])
  have holds := inv.held disabled
  have tunnel := inv.tunnel disabled
  rw [retrying] at holds tunnel
  simp only [Session.retryConnected]
  split
  · exact inv.moves working disabled holds tunnel
  · exact inv.moves working disabled holds tunnel

theorem Inv.disconnect (inv : s.Inv) : { s with disconnectPending := false }.teardownPath.Inv := by
  have taken : { s with disconnectPending := false }.Inv := by
    refine { inv with cancelled := ?_ }
    intro cancelled
    obtain ⟨login, connected, -, idle⟩ := inv.cancelled cancelled
    exact ⟨login, connected, rfl, idle⟩
  exact taken.teardownPath

theorem Inv.cancelWorks (inv : s.Inv) (unregistered : s.handlerRegistered = false) (loginIdle : s.loginWork = .idle)
    (connectedIdle : s.connectedWork = .idle) :
    { s with
      loginPending := false
      connectedPending := false
      disconnectPending := false
      worksCancelled := true }.Inv := by
  refine { inv with unregistered := fun _ => unregistered, cancelled := ?_, destroyed := ?_ }
  · intro cancelled
    exact ⟨rfl, rfl, rfl, loginIdle, connectedIdle⟩
  · intro destroyed
    exact ⟨rfl, (inv.destroyed destroyed).2⟩

theorem Inv.destroy (inv : s.Inv) (cancelled : s.worksCancelled = true) :
    { s.teardownPath with destroyed := true }.Inv := by
  refine { inv.teardownPath with destroyed := ?_ }
  intro destroyed
  refine ⟨?_, s.teardownPath_pathEnabled⟩
  rw [← cancelled]
  exact s.teardownPath_worksCancelled

theorem Inv.step (inv : s.Inv) {action : SessionAction} (steady : s.steady action = true)
    (stepped : s.step action = some t) : t.Inv := by
  cases action with
  | login transmitPath answered =>
      simp only [Session.step] at stepped
      split at stepped
      · rename_i registered
        cases stepped
        exact inv.login registered steady
      · cases stepped
  | handlerQueues =>
      simp only [Session.step] at stepped
      split at stepped
      · cases stepped
      · rename_i waiting
        cases stepped
        exact inv.handlerQueues waiting
  | logout =>
      simp only [Session.step] at stepped
      split at stepped
      · rename_i registered
        cases stepped
        exact inv.logout registered
      · cases stepped
  | loginStart =>
      simp only [Session.step] at stepped
      split at stepped
      · rename_i ready
        cases stepped
        exact inv.loginStart ready.1
      · cases stepped
  | loginRequest =>
      simp only [Session.step] at stepped
      split at stepped
      · rename_i resetting
        cases stepped
        exact inv.loginRequest resetting
      · cases stepped
  | loginAnswer ok =>
      simp only [Session.step] at stepped
      split at stepped
      · rename_i requesting
        cases stepped
        exact inv.loginAnswer requesting ok
      · cases stepped
  | loginQueues =>
      simp only [Session.step] at stepped
      split at stepped
      · rename_i retryLater announcing
        cases stepped
        exact inv.loginMoves (inv.loginWorking (by simp [announcing])) id
      · cases stepped
  | connectedStart =>
      simp only [Session.step] at stepped
      split at stepped
      · rename_i ready
        cases stepped
        exact inv.connectedStart ready.1 ready.2
      · cases stepped
  | allocInHopid answer =>
      simp only [Session.step] at stepped
      split at stepped
      · rename_i remoteTransmitPath chosen
        cases stepped
        exact inv.allocInHopid chosen answer
      · cases stepped
  | enablePaths ok =>
      simp only [Session.step] at stepped
      split at stepped
      · rename_i remoteTransmitPath allocated
        cases stepped
        exact inv.enablePaths allocated ok
      · cases stepped
  | connectedFinish =>
      simp only [Session.step] at stepped
      split at stepped
      · cases stepped
        exact inv.connectedFinish steady
      · cases stepped
  | retryConnected =>
      simp only [Session.step] at stepped
      split at stepped
      · rename_i retrying
        cases stepped
        exact inv.retryConnected retrying
      · cases stepped
  | disconnect =>
      simp only [Session.step] at stepped
      split at stepped
      · cases stepped
        exact inv.disconnect
      · cases stepped
  | remove =>
      simp only [Session.step] at stepped
      split at stepped
      · cases stepped
      · cases stepped
        exact { inv with }
  | unregisterHandler =>
      simp only [Session.step] at stepped
      split at stepped
      · rename_i ready
        cases stepped
        exact { inv with unregistered := fun _ => rfl, handled := fun _ => ready.2.2 }
      · cases stepped
  | cancelWorks =>
      simp only [Session.step] at stepped
      split at stepped
      · rename_i ready
        cases stepped
        exact inv.cancelWorks ready.1 ready.2.1 ready.2.2.1
      · cases stepped
  | destroy =>
      simp only [Session.step] at stepped
      split at stepped
      · rename_i ready
        cases stepped
        exact inv.destroy ready.1
      · cases stepped

theorem Inv.consistent (inv : s.Inv) : s.Consistent where
  path := by
    intro enabled
    obtain ⟨tunnel, sent, received, -⟩ := inv.path enabled
    exact ⟨tunnel, sent, received⟩
  hops := inv.hops
  teardown := by
    intro enabled
    obtain ⟨tunnel, -, -, idle⟩ := inv.path enabled
    have torn := inv.teardownPath.held s.teardownPath_pathEnabled
    refine ⟨s.remoteTransmitPath, tunnel, ?_, ?_, ?_⟩
    · simp [heldHops, idle, ConnectedWork.hop, enabled]
    · simp [Session.teardownPath, enabled]
    · have still : s.teardownPath.connectedWork = .idle := by simp [Session.teardownPath, enabled, idle]
      rwa [still] at torn
  destroyed := by
    intro destroyed
    obtain ⟨cancelled, disabled⟩ := inv.destroyed destroyed
    have holds := inv.held disabled
    rw [(inv.cancelled cancelled).2.2.2.2] at holds
    exact holds.released_once

theorem inv_new : ({} : Session).Inv where
  path := by
    intro enabled
    cases enabled
  tunnel := fun _ => rfl
  hops := .nothing
  unregistered := by
    intro cancelled
    cases cancelled
  handled := by
    intro unregistered
    cases unregistered
  cancelled := by
    intro cancelled
    cases cancelled
  destroyed := by
    intro destroyed
    cases destroyed

/-- While the path is enabled the session names its in-HopID and both logins are done; a teardown releases the
HopID that was allocated, and a session that is gone has released each one once. -/
theorem session_consistent (s : Session)
    (reachable : sessionSystem.ReachableVia (fun s action => s.steady action = true) s) : s.Consistent := by
  have inv : s.Inv := by
    refine reachable.invariant ?_ ?_
    · rintro s rfl
      exact inv_new
    · intro s action t inv steady stepped
      exact inv.step steady stepped
  exact inv.consistent

end Session

def connectingRun : List SessionAction :=
  [.loginStart, .loginRequest, .loginAnswer true, .loginQueues, .login 8 true, .handlerQueues, .connectedStart]

theorem session_consistent_connected :
    ∃ s, sessionSystem.Reachable s ∧ s.pathEnabled = true ∧ s.tunnel = some 8 ∧ s.Consistent := by
  obtain ⟨s, reachable, connected⟩ := System.exists_reachableVia sessionSystem
    (fun s action => s.steady action = true)
    (connectingRun ++ [.allocInHopid (some 8), .enablePaths true, .connectedFinish])
    (fun s => s.pathEnabled = true ∧ s.tunnel = some 8) rfl (by decide +kernel)
  simp only [decide_eq_true_eq] at connected
  exact ⟨s, reachable.reachable, connected.1, connected.2, Session.session_consistent s reachable⟩

/-- A LOGIN with another path, or a LOGOUT, comes while the connected work enables the path it read. -/
theorem session_overtaken :
    (∃ s, sessionSystem.Reachable s ∧ s.pathEnabled = true ∧ s.tunnel = some 8 ∧ s.remoteTransmitPath = 9) ∧
    (∃ s, sessionSystem.Reachable s ∧ s.destroyed = true ∧ s.hops = [.released 9, .obtained 8]) ∧
    ∃ s, sessionSystem.Reachable s ∧ s.pathEnabled = true ∧ s.loginSent = false ∧ s.loginReceived = false := by
  refine ⟨?_, ?_, ?_⟩
  · obtain ⟨s, reachable, overtaken⟩ := System.exists_reachableVia sessionSystem (fun _ _ => True)
      (connectingRun ++ [.login 9 true, .allocInHopid (some 8), .enablePaths true, .connectedFinish])
      (fun s => s.pathEnabled = true ∧ s.tunnel = some 8 ∧ s.remoteTransmitPath = 9) rfl (by decide +kernel)
    exact ⟨s, reachable, by simpa using overtaken⟩
  · obtain ⟨s, reachable, leaked⟩ := System.exists_reachableVia sessionSystem (fun _ _ => True)
      (connectingRun ++ [.login 9 true, .allocInHopid (some 8), .enablePaths true, .connectedFinish, .handlerQueues,
        .logout, .disconnect, .remove, .unregisterHandler, .cancelWorks, .destroy])
      (fun s => s.destroyed = true ∧ s.hops = [.released 9, .obtained 8]) rfl (by decide +kernel)
    exact ⟨s, reachable, by simpa using leaked⟩
  · obtain ⟨s, reachable, overtaken⟩ := System.exists_reachableVia sessionSystem (fun _ _ => True)
      (connectingRun ++ [.logout, .disconnect, .allocInHopid (some 8), .enablePaths true, .connectedFinish])
      (fun s => s.pathEnabled = true ∧ s.loginSent = false ∧ s.loginReceived = false) rfl (by decide +kernel)
    exact ⟨s, reachable, by simpa using overtaken⟩

end ThunderboltVerbs.Tbnet
