import ThunderboltVerbs.Tbnet.Consistency
import ThunderboltVerbs.Tbnet.Messages

/-!
# Sessions that log in to each other (`kernel/tbnet_minimal.c`)

A fabric is made of cables between hosts, with a session at each end. Whatever was sent may arrive at any
session, at any time and any number of times, with a route that the fabric has written. Packets of others do not
name the two hosts of a session, and its handler passes them on.
-/

namespace ThunderboltVerbs.Tbnet
open Lib

/-- What a session has from its XDomain and for its path. -/
structure Xdomain where
  route : UInt64
  localUuid : Uuid
  remoteUuid : Uuid
  localTransmitPath : UInt32
  mac : Mac

namespace Xdomain

def fillReplyCtrl (xd : Xdomain) (request : TbipControl) : TbipControl where
  route := request.route
  sequence := request.sequence
  initiatorUuid := xd.localUuid
  targetUuid := xd.remoteUuid
  commandId := request.commandId

def ctrlMatches (xd : Xdomain) (ctrl : TbipControl) : Bool :=
  ctrl.route == xd.route && ctrl.initiatorUuid == xd.remoteUuid && ctrl.targetUuid == xd.localUuid

/-- A peer echoes the command id, but may count the sequence numbers on its own. -/
def responseMatches (xd : Xdomain) (request response : TbipControl) : Bool :=
  xd.ctrlMatches response && response.commandId == request.commandId

def requestCtrl (xd : Xdomain) (sequence : UInt8) (commandId : UInt32) : TbipControl where
  route := xd.route
  sequence := sequence
  initiatorUuid := xd.localUuid
  targetUuid := xd.remoteUuid
  commandId := commandId

def login (xd : Xdomain) (ctrl : TbipControl) : TbipMessage :=
  .login { ctrl, transmitPath := xd.localTransmitPath }

def loginResponse (xd : Xdomain) (request : LoginParams) : TbipMessage :=
  .loginResponse { ctrl := xd.fillReplyCtrl request.ctrl, status := 0, receiverMac := xd.mac }

def status (xd : Xdomain) (request : TbipControl) (commandId : UInt32) : TbipMessage :=
  .status { ctrl := { xd.fillReplyCtrl request with commandId }, status := 0 }

end Xdomain

/-- What the packet handler does with a packet. The first two return 0 and 1 and do nothing else. -/
inductive Handled
  | passed
  | taken
  | login (request : LoginParams)
  | logout (request : TbipControl)
  deriving DecidableEq, Repr

/-- `tbv_tbnet_minimal_handle_packet_common` up to its effects; `own` says that no other XDomain is named as the
source. -/
def Xdomain.handlePacket (xd : Xdomain) (own : Bool) (buffer : List UInt8) : Handled :=
  if !own then .passed
  else
    match parseType buffer with
    | .error _ => .passed
    | .ok (type, ctrl) =>
        if !xd.ctrlMatches ctrl then .passed
        else
          match type with
          | .login =>
              match parseLogin buffer with
              | .error _ => .taken
              | .ok request =>
                  if request.transmitPath = 0 ∨ request.transmitPath.toNat > intMax then .taken else .login request
          | .logout => .logout ctrl
          | .loginResponse | .status => .passed

/-- Whether `tbv_tbnet_minimal_login_work` takes what came back for the answer to its LOGIN. The reply buffer has
zeros behind the reply. -/
def Xdomain.loginAccepted (xd : Xdomain) (request : TbipControl) (reply : List UInt8) : Bool :=
  match parseLoginResponse (reply ++ List.replicate (128 - reply.length) 0) with
  | .error _ => false
  | .ok response => xd.responseMatches request response.ctrl && response.status == 0

/-- A message is built in a buffer of 128 bytes, of which the length that the builder returns is sent. -/
def TbipMessage.frame (message : TbipMessage) : Option (List UInt8) :=
  match message.build (List.replicate 128 0) with
  | .ok (length, buffer) => some (buffer.take length)
  | .error _ => none

/-- The route that a packet arrives with. -/
def reroute (route : UInt64) (frame : List UInt8) : List UInt8 :=
  bytes32 (route >>> 32).toUInt32 ++ bytes32 (route &&& 0xffffffff).toUInt32 ++ frame.drop 8

/-! ## The fabric -/

structure Fabric (End : Type) where
  peer : End → End
  peer_peer : ∀ e, peer (peer e) = e
  uuid : End → Uuid
  route : End → UInt64
  path : End → UInt32
  mac : End → Mac
  /-- The handlers are told the XDomain that a packet comes from. -/
  tellsSource : Bool

/-- A session with the LOGIN it waits for and the paths of the LOGINs it has answered and not taken yet. -/
structure Party where
  session : Session := {}
  commandId : UInt32 := 0
  request : Option TbipControl := none
  answering : List Nat := []

/-- `wire` has the frames that were sent, each with its end, the newest first. -/
structure Net (End : Type) where
  party : End → Party := fun _ => {}
  wire : List (End × List UInt8) := []

inductive NetAction (End : Type)
  | packet (e : End) (frame : Nat) (route : UInt64) (answered : Bool)
  | takeLogin (e : End) (path : Nat)
  | resetPeer (e : End) (sequence : UInt8)
  | loginRequest (e : End) (sequence : UInt8)
  | loginAnswer (e : End) (frame : Nat) (route : UInt64)
  | loginTimeout (e : End)
  | shutdownLogout (e : End) (sequence : UInt8)
  | own (e : End) (action : SessionAction)
  deriving DecidableEq

/-- The steps of a session that neither send nor receive. -/
def Party.owns (party : Party) : SessionAction → Bool
  | .login .. | .logout | .loginRequest | .loginAnswer _ => false
  | .unregisterHandler => party.answering.isEmpty
  | _ => true

section Steps

variable {End : Type} [DecidableEq End]

namespace Net

def update (s : Net End) (e : End) (party : Party) : Net End :=
  { s with party := Function.update s.party e party }

def send (s : Net End) (e : End) (message : TbipMessage) : Net End :=
  match message.frame with
  | some frame => { s with wire := (e, frame) :: s.wire }
  | none => s

/-- A step of the session at `e`, where it can be taken. -/
def act (s : Net End) (e : End) (action : SessionAction) : Option (Net End) :=
  ((s.party e).session.step action).map fun session => s.update e { s.party e with session }

end Net

namespace Fabric

variable (fabric : Fabric End)

def xd (e : End) : Xdomain where
  route := fabric.route e
  localUuid := fabric.uuid e
  remoteUuid := fabric.uuid (fabric.peer e)
  localTransmitPath := fabric.path e
  mac := fabric.mac e

def nextCommand (s : Net End) (e : End) : UInt32 := (s.party e).commandId + 1

/-- `tbv_tbnet_minimal_send_logout_request`; the answer changes nothing. -/
def sendLogout (s : Net End) (e : End) (sequence : UInt8) : Net End :=
  let commandId := nextCommand s e
  (s.update e { s.party e with commandId }).send e (.logout ((fabric.xd e).requestCtrl sequence commandId))

def packet (s : Net End) (e : End) (own : Bool) (buffer : List UInt8) (answered : Bool) : Option (Net End) :=
  if (s.party e).session.handlerRegistered then
    match (fabric.xd e).handlePacket own buffer with
    | .passed | .taken => some s
    | .login request =>
        if answered then
          let answering := request.transmitPath.toNat :: (s.party e).answering
          some ((s.update e { s.party e with answering }).send e ((fabric.xd e).loginResponse request))
        else some s
    | .logout request =>
        let commandId := nextCommand s e
        let s := s.update e { s.party e with commandId }
        let s := if answered then s.send e ((fabric.xd e).status request commandId) else s
        s.act e .logout
  else none

/-- The section of the packet handler that follows its answer. -/
def takeLogin (s : Net End) (e : End) (path : Nat) : Option (Net End) :=
  if path ∈ (s.party e).answering then
    (s.update e { s.party e with answering := (s.party e).answering.erase path }).act e (.login path true)
  else none

def loginRequest (s : Net End) (e : End) (sequence : UInt8) : Option (Net End) :=
  (s.act e .loginRequest).map fun s =>
    if (s.party e).session.loginWork = .requesting then
      let commandId := nextCommand s e
      let ctrl := (fabric.xd e).requestCtrl sequence commandId
      (s.update e { s.party e with commandId, request := some ctrl }).send e ((fabric.xd e).login ctrl)
    else s

/-- What comes back for a request was sent at the other end of the cable. -/
def loginAnswer (s : Net End) (e : End) (frame : Nat) (route : UInt64) : Option (Net End) :=
  match (s.party e).request, s.wire[frame]? with
  | some request, some (g, bytes) =>
      if g = fabric.peer e then
        (s.update e { s.party e with request := none }).act e
          (.loginAnswer ((fabric.xd e).loginAccepted request (reroute route bytes)))
      else none
  | _, _ => none

def step (s : Net End) : NetAction End → Option (Net End)
  | .packet e frame route answered =>
      match s.wire[frame]? with
      | some (g, bytes) =>
          fabric.packet s e (!fabric.tellsSource || e = fabric.peer g) (reroute route bytes) answered
      | none => none
  | .takeLogin e path => takeLogin s e path
  | .resetPeer e sequence =>
      if (s.party e).session.loginWork = .resetting then some (fabric.sendLogout s e sequence) else none
  | .loginRequest e sequence => fabric.loginRequest s e sequence
  | .loginAnswer e frame route => fabric.loginAnswer s e frame route
  | .loginTimeout e => (s.update e { s.party e with request := none }).act e (.loginAnswer false)
  | .shutdownLogout e sequence =>
      if (s.party e).session.worksCancelled && !(s.party e).session.destroyed then
        some (fabric.sendLogout s e sequence)
      else none
  | .own e action => if (s.party e).owns action then s.act e action else none

def system : System (Net End) (NetAction End) where
  init s := s = {}
  step := fabric.step

/-- A host has at most one session for each remote host (`tbv_tbnet_minimal_legacy_session_allowed`). -/
def OneSession : Prop :=
  ∀ a b, fabric.uuid a = fabric.uuid b → fabric.uuid (fabric.peer a) = fabric.uuid (fabric.peer b) → a = b

end Fabric

end Steps

end ThunderboltVerbs.Tbnet
