import ThunderboltVerbs.Lib.Holding
import ThunderboltVerbs.Lib.System

/-!
# A minimal TBnet session (`kernel/tbnet_minimal.c`)

The packet handler and three work items share a session. A step is a section under the session's lock or
what a work item does outside it. `tunnel` is the in-HopID that the enabled packet path uses, and `hops`
has every in-HopID that was allocated or released, the newest first.
-/

namespace ThunderboltVerbs.Tbnet
open Lib

def loginRetryLimit : Nat := 60
def intMax : Nat := 2 ^ 31 - 1

/-- Where `tbv_tbnet_minimal_login_work` is. -/
inductive LoginWork
  | idle
  | resetting
  | requesting
  | announcing (retryLater : Bool)
  deriving DecidableEq, Repr

/-- Where `tbv_tbnet_minimal_connected_work` is, with the path that it has read. -/
inductive ConnectedWork
  | idle
  | chosen (remoteTransmitPath : Nat)
  | allocated (remoteTransmitPath : Nat)
  | enabled (remoteTransmitPath : Nat)
  | retrying
  deriving DecidableEq, Repr

structure Session where
  removing : Bool := false
  handlerRegistered : Bool := true
  pathEnabled : Bool := false
  ringsStarted : Bool := false
  loginSent : Bool := false
  loginReceived : Bool := false
  remoteTransmitPath : Nat := 0
  loginRetries : Nat := 0
  pathRetries : Nat := 0
  loginPending : Bool := true
  connectedPending : Bool := false
  disconnectPending : Bool := false
  loginWork : LoginWork := .idle
  connectedWork : ConnectedWork := .idle
  /-- Packet handlers that are about to queue the connected work. -/
  handlers : Nat := 0
  worksCancelled : Bool := false
  destroyed : Bool := false
  tunnel : Option Nat := none
  hops : List (Use Nat) := []
  deriving DecidableEq

inductive SessionAction
  | login (transmitPath : Nat) (answered : Bool)
  | handlerQueues
  | logout
  | loginStart
  | loginRequest
  | loginAnswer (ok : Bool)
  | loginQueues
  | connectedStart
  | allocInHopid (answer : Option Nat)
  | enablePaths (ok : Bool)
  | connectedFinish
  | retryConnected
  | disconnect
  | remove
  | unregisterHandler
  | cancelWorks
  | destroy
  deriving DecidableEq, Repr

namespace Session

/-! ## The packet handler -/

def takesLogin (s : Session) (transmitPath : Nat) (answered : Bool) : Bool :=
  transmitPath ≠ 0 && transmitPath ≤ intMax && answered && !s.removing

/-- `answered` says whether the response could be sent. -/
def login (s : Session) (transmitPath : Nat) (answered : Bool) : Session :=
  if transmitPath = 0 ∨ transmitPath > intMax then s
  else if !answered then s
  else
    let s :=
      if s.removing then s
      else
        { s with
          loginReceived := true
          loginRetries := 0
          remoteTransmitPath := transmitPath
          loginPending := s.loginPending || !s.loginSent }
    { s with handlers := s.handlers + 1 }

/-! ## The login work -/

def loginStart (s : Session) : Session :=
  if s.pathEnabled || s.removing then { s with loginPending := false }
  else { s with loginPending := false, loginWork := .resetting }

/-- The session is looked at again after the reset of the peer's state. -/
def loginRequest (s : Session) : Session :=
  if s.pathEnabled || s.removing then { s with loginWork := .idle } else { s with loginWork := .requesting }

def loginAnswer (s : Session) (ok : Bool) : Session :=
  if ok then
    let s := { s with loginSent := true }
    if s.loginReceived then { s with loginRetries := 0, loginWork := .announcing false }
    else if !s.removing then
      { s with
        loginRetries := s.loginRetries + 1
        loginWork := .announcing (decide (s.loginRetries < loginRetryLimit)) }
    else { s with loginWork := .announcing false }
  else if s.removing then { s with loginWork := .idle }
  else
    { s with
      loginRetries := s.loginRetries + 1
      loginPending := s.loginPending || decide (s.loginRetries < loginRetryLimit)
      loginWork := .idle }

/-! ## The connected work -/

def connectedStart (s : Session) : Session :=
  let s := { s with connectedPending := false }
  if s.pathEnabled || s.removing then s
  else if s.loginSent && s.loginReceived then { s with connectedWork := .chosen s.remoteTransmitPath }
  else s

def allocInHopid (s : Session) (remoteTransmitPath : Nat) (answer : Option Nat) : Session :=
  match answer with
  | some hop =>
      if hop = remoteTransmitPath then
        { s with hops := .obtained hop :: s.hops, connectedWork := .allocated remoteTransmitPath }
      else if 0 < hop then
        { s with hops := .released hop :: .obtained hop :: s.hops, connectedWork := .retrying }
      else { s with connectedWork := .retrying }
  | none => { s with connectedWork := .retrying }

def enablePaths (s : Session) (remoteTransmitPath : Nat) (ok : Bool) : Session :=
  if ok then { s with tunnel := some remoteTransmitPath, connectedWork := .enabled remoteTransmitPath }
  else { s with hops := .released remoteTransmitPath :: s.hops, connectedWork := .retrying }

def connectedFinish (s : Session) : Session :=
  { s with ringsStarted := true, pathEnabled := true, pathRetries := 0, connectedWork := .idle }

def retryConnected (s : Session) : Session :=
  if !s.removing && !s.pathEnabled && s.loginSent && s.loginReceived then
    { s with
      pathRetries := s.pathRetries + 1
      connectedPending := s.connectedPending || decide (s.pathRetries < loginRetryLimit)
      connectedWork := .idle }
  else { s with connectedWork := .idle }

/-! ## Teardown -/

def disablePaths (s : Session) : Option Nat :=
  if s.tunnel = some s.remoteTransmitPath then none else s.tunnel

def teardownPath (s : Session) : Session :=
  let s := { s with ringsStarted := false }
  let s :=
    if s.pathEnabled then
      { s with
        tunnel := s.disablePaths
        hops := .released s.remoteTransmitPath :: s.hops
        pathEnabled := false
        remoteTransmitPath := 0 }
    else s
  { s with loginSent := false, loginReceived := false, loginRetries := 0, pathRetries := 0 }

/-! ## Steps -/

def step (s : Session) : SessionAction → Option Session
  | .login transmitPath answered => if s.handlerRegistered then some (s.login transmitPath answered) else none
  | .handlerQueues =>
      if s.handlers = 0 then none
      else some { s with handlers := s.handlers - 1, connectedPending := true }
  | .logout => if s.handlerRegistered then some { s with disconnectPending := true } else none
  | .loginStart => if s.loginPending ∧ s.loginWork = .idle then some s.loginStart else none
  | .loginRequest => if s.loginWork = .resetting then some s.loginRequest else none
  | .loginAnswer ok => if s.loginWork = .requesting then some (s.loginAnswer ok) else none
  | .loginQueues =>
      match s.loginWork with
      | .announcing retryLater =>
          some { s with
            connectedPending := true
            loginPending := s.loginPending || retryLater
            loginWork := .idle }
      | _ => none
  | .connectedStart => if s.connectedPending ∧ s.connectedWork = .idle then some s.connectedStart else none
  | .allocInHopid answer =>
      match s.connectedWork with
      | .chosen remoteTransmitPath => some (s.allocInHopid remoteTransmitPath answer)
      | _ => none
  | .enablePaths ok =>
      match s.connectedWork with
      | .allocated remoteTransmitPath => some (s.enablePaths remoteTransmitPath ok)
      | _ => none
  | .connectedFinish =>
      match s.connectedWork with
      | .enabled _ => some s.connectedFinish
      | _ => none
  | .retryConnected => if s.connectedWork = .retrying then some s.retryConnected else none
  | .disconnect => if s.disconnectPending then some { s with disconnectPending := false }.teardownPath else none
  | .remove => if s.removing then none else some { s with removing := true }
  | .unregisterHandler =>
      if s.removing ∧ s.handlerRegistered ∧ s.handlers = 0 then some { s with handlerRegistered := false } else none
  | .cancelWorks =>
      if s.handlerRegistered = false ∧ s.loginWork = .idle ∧ s.connectedWork = .idle ∧ s.worksCancelled = false then
        some { s with
          loginPending := false
          connectedPending := false
          disconnectPending := false
          worksCancelled := true }
      else none
  | .destroy =>
      if s.worksCancelled ∧ s.destroyed = false then some { s.teardownPath with destroyed := true } else none

end Session

def sessionSystem : System Session SessionAction where
  init s := s = {}
  step := Session.step

end ThunderboltVerbs.Tbnet
