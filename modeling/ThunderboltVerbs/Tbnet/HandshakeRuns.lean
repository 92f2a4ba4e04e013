import ThunderboltVerbs.Tbnet.Handshake

/-!
# The paths of two sessions meet
-/

namespace ThunderboltVerbs.Tbnet
open Lib

/-! ## Frames -/

def TbipControl.withRoute (ctrl : TbipControl) (route : UInt64) : TbipControl := { ctrl with route }

def TbipMessage.withRoute (route : UInt64) : TbipMessage → TbipMessage
  | login params => .login { params with ctrl := params.ctrl.withRoute route }
  | loginResponse params => .loginResponse { params with ctrl := params.ctrl.withRoute route }
  | logout ctrl => .logout (ctrl.withRoute route)
  | status params => .status { params with ctrl := params.ctrl.withRoute route }

theorem frame_eq (message : TbipMessage) : message.frame = some message.bytes := by
  have long : ¬(List.replicate 128 (0 : UInt8)).length < message.size := by
    rw [List.length_replicate, TbipMessage.size]
    cases message.type <;> decide
  rw [TbipMessage.frame, build_eq, if_neg long]
  simp only
  rw [List.take_left' message.length_bytes]

theorem reroute_bytes (route : UInt64) (message : TbipMessage) :
    reroute route message.bytes = (message.withRoute route).bytes := by
  cases message <;> rfl

/-! ## What a session takes a frame for -/

section Frames

variable {xd : Xdomain} {own : Bool} {buffer : List UInt8}

theorem handlePacket_login {request : LoginParams} (handled : xd.handlePacket own buffer = .login request) :
    own = true ∧ parseLogin buffer = .ok request ∧ xd.ctrlMatches request.ctrl = true := by
  unfold Xdomain.handlePacket at handled
  split at handled
  · cases handled
  rename_i source
  split at handled
  · cases handled
  rename_i type ctrl header
  split at handled
  · cases handled
  rename_i unmatched
  cases type with
  | loginResponse => cases handled
  | logout => cases handled
  | status => cases handled
  | login =>
      simp only at handled
      split at handled
      · cases handled
      rename_i params parsed
      split at handled
      · cases handled
      cases handled
      have same : ctrl = request.ctrl := by
        have equal := header.symm.trans (parseLogin_ok parsed).2.1
        injection equal with equal
        exact (Prod.mk.inj equal).2
      exact ⟨by simpa using source, parsed, by simpa [same] using unmatched⟩

/-- A message that is taken for a LOGIN is one, and it names the two hosts of the session. -/
theorem handlePacket_bytes {message : TbipMessage} {request : LoginParams}
    (handled : xd.handlePacket own message.bytes = .login request) :
    own = true ∧ message.received = .login request ∧ message.ctrl.initiatorUuid = xd.remoteUuid ∧
      message.ctrl.targetUuid = xd.localUuid := by
  obtain ⟨source, parsed, matched⟩ := handlePacket_login handled
  have reads : Reads (message.bytes ++ []) (.login request) := by
    rw [List.append_nil]
    exact parsed
  have received := (reads_bytes_iff message []).mp reads
  have ctrl : request.ctrl = message.ctrl.received := by
    cases message with
    | login params => cases received; rfl
    | loginResponse params => cases received
    | logout ctrl => cases received
    | status params => cases received
  simp only [Xdomain.ctrlMatches, ctrl, Bool.and_eq_true, beq_iff_eq] at matched
  exact ⟨source, received.symm, matched.1.2, matched.2⟩

theorem loginAccepted_bytes {message : TbipMessage} {request : TbipControl}
    (accepted : xd.loginAccepted request message.bytes = true) :
    ∃ response : LoginResponseParams, message = .loginResponse response ∧
      response.ctrl.commandId = request.commandId ∧ response.status = 0 := by
  unfold Xdomain.loginAccepted at accepted
  split at accepted
  · cases accepted
  rename_i result parsed
  have received := (reads_bytes_iff message _).mp (show Reads _ (.loginResponse result) from parsed)
  simp only [Xdomain.responseMatches, Bool.and_eq_true, beq_iff_eq] at accepted
  cases message with
  | login params => cases received
  | logout ctrl => cases received
  | status params => cases received
  | loginResponse params =>
      cases received
      exact ⟨params, rfl, accepted.1.2, accepted.2⟩

end Frames

/-! ## A session and the path it is to face -/

def ConnectedWork.aim : ConnectedWork → Option Nat
  | .chosen remoteTransmitPath | .allocated remoteTransmitPath | .enabled remoteTransmitPath =>
      some remoteTransmitPath
  | .idle | .retrying => none

namespace Session

/-- All paths of the session are `path`. What it has seen of the two logins is so: `answered` of its own,
`greeted` of the peer's. -/
structure Facing (path : Nat) (answered greeted : Prop) (s : Session) : Prop where
  sent : s.loginSent = true → answered
  received : s.loginReceived = true → s.remoteTransmitPath = path ∧ greeted
  aim : ∀ p, s.connectedWork.aim = some p → p = path ∧ answered ∧ greeted
  tunnel : ∀ p, s.tunnel = some p → p = path ∧ answered ∧ greeted

variable {path : Nat} {answered greeted : Prop} {s t : Session}

theorem Facing.mono {answered' greeted' : Prop} (facing : s.Facing path answered greeted)
    (more : answered → answered') (more' : greeted → greeted') : s.Facing path answered' greeted' where
  sent set := more (facing.sent set)
  received set := ⟨(facing.received set).1, more' (facing.received set).2⟩
  aim p aims := ⟨(facing.aim p aims).1, more (facing.aim p aims).2.1, more' (facing.aim p aims).2.2⟩
  tunnel p runs := ⟨(facing.tunnel p runs).1, more (facing.tunnel p runs).2.1, more' (facing.tunnel p runs).2.2⟩

/-- Whatever else a step changes, the flags that are set stay founded and no other path is aimed at. -/
theorem Facing.change (facing : s.Facing path answered greeted)
    (sent : t.loginSent = true → s.loginSent = true ∨ answered)
    (received : t.loginReceived = true →
      (s.loginReceived = true ∧ t.remoteTransmitPath = s.remoteTransmitPath) ∨
        (t.remoteTransmitPath = path ∧ greeted))
    (aim : ∀ p, t.connectedWork.aim = some p → s.connectedWork.aim = some p ∨
      (s.loginSent = true ∧ s.loginReceived = true ∧ s.remoteTransmitPath = p))
    (tunnel : ∀ p, t.tunnel = some p → s.tunnel = some p ∨ s.connectedWork.aim = some p) :
    t.Facing path answered greeted where
  sent set := (sent set).elim facing.sent id
  received set := by
    rcases received set with ⟨before, same⟩ | now
    · rw [same]
      exact facing.received before
    · exact now
  aim p aims := by
    rcases aim p aims with before | ⟨sent, received, rfl⟩
    · exact facing.aim p before
    · exact ⟨(facing.received received).1, facing.sent sent, (facing.received received).2⟩
  tunnel p runs := (tunnel p runs).elim (facing.tunnel p) (facing.aim p)

theorem Facing.same (facing : s.Facing path answered greeted) (sent : t.loginSent = s.loginSent)
    (received : t.loginReceived = s.loginReceived) (remote : t.remoteTransmitPath = s.remoteTransmitPath)
    (aim : t.connectedWork.aim = s.connectedWork.aim ∨ t.connectedWork.aim = none)
    (tunnel : t.tunnel = s.tunnel ∨ t.tunnel = none) : t.Facing path answered greeted := by
  apply facing.change
  case sent => exact fun set => .inl (sent ▸ set)
  case received => exact fun set => .inl ⟨received ▸ set, remote⟩
  case aim =>
    intro p aims
    rcases aim with same | idle
    · exact .inl (same ▸ aims)
    · rw [idle] at aims
      cases aims
  case tunnel =>
    intro p runs
    rcases tunnel with same | down
    · exact .inl (same ▸ runs)
    · rw [down] at runs
      cases runs

theorem Facing.login (facing : s.Facing path answered greeted) (greets : greeted) (taken : Bool) :
    (s.login path taken).Facing path answered greeted := by
  unfold Session.login
  split
  · exact facing
  split
  · exact facing
  simp only
  split
  · exact facing.same rfl rfl rfl (.inl rfl) (.inl rfl)
  · exact facing.change .inl (fun _ => .inr ⟨rfl, greets⟩) (fun p => .inl) (fun p => .inl)

theorem Facing.loginAnswer (facing : s.Facing path answered greeted) (ok : Bool) (answer : ok = true → answered) :
    (s.loginAnswer ok).Facing path answered greeted := by
  unfold Session.loginAnswer
  cases ok with
  | false =>
      simp only [Bool.false_eq_true, if_false]
      split
      · exact facing.same rfl rfl rfl (.inl rfl) (.inl rfl)
      · exact facing.same rfl rfl rfl (.inl rfl) (.inl rfl)
  | true =>
      have founded : { s with loginSent := true }.Facing path answered greeted :=
        facing.change (fun _ => .inr (answer rfl)) (fun set => .inl ⟨set, rfl⟩) (fun p => .inl) (fun p => .inl)
      simp only [if_true]
      split
      · exact founded.same rfl rfl rfl (.inl rfl) (.inl rfl)
      split
      · exact founded.same rfl rfl rfl (.inl rfl) (.inl rfl)
      · exact founded.same rfl rfl rfl (.inl rfl) (.inl rfl)

theorem Facing.connectedStart (facing : s.Facing path answered greeted) :
    s.connectedStart.Facing path answered greeted := by
  unfold Session.connectedStart
  simp only
  split
  · exact facing.same rfl rfl rfl (.inl rfl) (.inl rfl)
  split
  · rename_i both
    simp only [Bool.and_eq_true] at both
    have aim (p : Nat) (aims : some s.remoteTransmitPath = some p) :
        s.loginSent = true ∧ s.loginReceived = true ∧ s.remoteTransmitPath = p :=
      ⟨both.1, both.2, Option.some.inj aims⟩
    exact facing.change .inl (fun set => .inl ⟨set, rfl⟩) (fun p aims => .inr (aim p aims)) (fun p => .inl)
  · exact facing.same rfl rfl rfl (.inl rfl) (.inl rfl)

theorem Facing.teardownPath (facing : s.Facing path answered greeted) :
    s.teardownPath.Facing path answered greeted := by
  have down : s.disablePaths = s.tunnel ∨ s.disablePaths = none := by
    unfold Session.disablePaths
    split
    · exact .inr rfl
    · exact .inl rfl
  unfold Session.teardownPath
  apply facing.change
  case sent => exact fun set => absurd set Bool.false_ne_true
  case received => exact fun set => absurd set Bool.false_ne_true
  case aim =>
    intro p aims
    simp only at aims
    split at aims
    · exact .inl aims
    · exact .inl aims
  case tunnel =>
    intro p runs
    simp only at runs
    split at runs
    · have left : s.disablePaths = some p := runs
      rcases down with same | gone
      · exact .inl (same ▸ left)
      · rw [gone] at left
        cases left
    · exact .inl runs

theorem Facing.allocInHopid (facing : s.Facing path answered greeted) {p : Nat}
    (chosen : s.connectedWork = .chosen p) (answer : Option Nat) :
    (s.allocInHopid p answer).Facing path answered greeted := by
  unfold Session.allocInHopid
  split
  · split
    · exact facing.same rfl rfl rfl (.inl (by rw [chosen]; rfl)) (.inl rfl)
    split
    · exact facing.same rfl rfl rfl (.inr rfl) (.inl rfl)
    · exact facing.same rfl rfl rfl (.inr rfl) (.inl rfl)
  · exact facing.same rfl rfl rfl (.inr rfl) (.inl rfl)

theorem Facing.enablePaths (facing : s.Facing path answered greeted) {p : Nat}
    (allocated : s.connectedWork = .allocated p) (ok : Bool) :
    (s.enablePaths p ok).Facing path answered greeted := by
  unfold Session.enablePaths
  split
  · have aim : s.connectedWork.aim = some p := by
      rw [allocated]
      rfl
    exact facing.change .inl (fun set => .inl ⟨set, rfl⟩) (fun q aims => .inl (aim.trans aims))
      (fun q runs => .inr (aim.trans runs))
  · exact facing.same rfl rfl rfl (.inr rfl) (.inl rfl)

/-- A session keeps to the path if each LOGIN names it and each answer it takes is one. -/
theorem Facing.step (facing : s.Facing path answered greeted) {action : SessionAction}
    (stepped : s.step action = some t) (login : ∀ p taken, action = .login p taken → p = path ∧ greeted)
    (answer : action = .loginAnswer true → answered) : t.Facing path answered greeted := by
  cases action with
  | login p taken =>
      obtain ⟨rfl, greets⟩ := login p taken rfl
      obtain ⟨-, stepped⟩ := Option.ite_none_right_eq_some.mp stepped
      cases stepped
      exact facing.login greets taken
  | handlerQueues =>
      obtain ⟨-, stepped⟩ := Option.ite_none_left_eq_some.mp stepped
      cases stepped
      exact facing.same rfl rfl rfl (.inl rfl) (.inl rfl)
  | logout =>
      obtain ⟨-, stepped⟩ := Option.ite_none_right_eq_some.mp stepped
      cases stepped
      exact facing.same rfl rfl rfl (.inl rfl) (.inl rfl)
  | loginStart =>
      obtain ⟨-, stepped⟩ := Option.ite_none_right_eq_some.mp stepped
      cases stepped
      unfold Session.loginStart
      split
      · exact facing.same rfl rfl rfl (.inl rfl) (.inl rfl)
      · exact facing.same rfl rfl rfl (.inl rfl) (.inl rfl)
  | loginRequest =>
      obtain ⟨-, stepped⟩ := Option.ite_none_right_eq_some.mp stepped
      cases stepped
      unfold Session.loginRequest
      split
      · exact facing.same rfl rfl rfl (.inl rfl) (.inl rfl)
      · exact facing.same rfl rfl rfl (.inl rfl) (.inl rfl)
  | loginAnswer ok =>
      obtain ⟨-, stepped⟩ := Option.ite_none_right_eq_some.mp stepped
      cases stepped
      exact facing.loginAnswer ok fun accepted => answer (accepted ▸ rfl)
  | loginQueues =>
      simp only [Session.step] at stepped
      split at stepped
      · cases stepped
        exact facing.same rfl rfl rfl (.inl rfl) (.inl rfl)
      · cases stepped
  | connectedStart =>
      obtain ⟨-, stepped⟩ := Option.ite_none_right_eq_some.mp stepped
      cases stepped
      exact facing.connectedStart
  | allocInHopid hop =>
      simp only [Session.step] at stepped
      split at stepped
      · rename_i p chosen
        cases stepped
        exact facing.allocInHopid chosen hop
      · cases stepped
  | enablePaths ok =>
      simp only [Session.step] at stepped
      split at stepped
      · rename_i p allocated
        cases stepped
        exact facing.enablePaths allocated ok
      · cases stepped
  | connectedFinish =>
      simp only [Session.step] at stepped
      split at stepped
      · cases stepped
        exact facing.same rfl rfl rfl (.inr rfl) (.inl rfl)
      · cases stepped
  | retryConnected =>
      obtain ⟨-, stepped⟩ := Option.ite_none_right_eq_some.mp stepped
      cases stepped
      unfold Session.retryConnected
      split
      · exact facing.same rfl rfl rfl (.inr rfl) (.inl rfl)
      · exact facing.same rfl rfl rfl (.inr rfl) (.inl rfl)
  | disconnect =>
      obtain ⟨-, stepped⟩ := Option.ite_none_right_eq_some.mp stepped
      cases stepped
      have taken : { s with disconnectPending := false }.Facing path answered greeted :=
        facing.same rfl rfl rfl (.inl rfl) (.inl rfl)
      exact taken.teardownPath
  | remove =>
      obtain ⟨-, stepped⟩ := Option.ite_none_left_eq_some.mp stepped
      cases stepped
      exact facing.same rfl rfl rfl (.inl rfl) (.inl rfl)
  | unregisterHandler =>
      obtain ⟨-, stepped⟩ := Option.ite_none_right_eq_some.mp stepped
      cases stepped
      exact facing.same rfl rfl rfl (.inl rfl) (.inl rfl)
  | cancelWorks =>
      obtain ⟨-, stepped⟩ := Option.ite_none_right_eq_some.mp stepped
      cases stepped
      exact facing.same rfl rfl rfl (.inl rfl) (.inl rfl)
  | destroy =>
      obtain ⟨-, stepped⟩ := Option.ite_none_right_eq_some.mp stepped
      cases stepped
      exact facing.teardownPath.same rfl rfl rfl (.inl rfl) (.inl rfl)

end Session

/-! ## The fabric -/

section Fabric

variable {End : Type}

/-- A message as the session at `g` sends it. -/
structure Fabric.Names (fabric : Fabric End) (g : End) (message : TbipMessage) : Prop where
  initiator : message.ctrl.initiatorUuid = fabric.uuid g
  target : message.ctrl.targetUuid = fabric.uuid (fabric.peer g)
  path : ∀ login, message = .login login → login.transmitPath = fabric.path g

/-- A LOGIN of the session at `g` was answered, with success, by the session at the other end of its cable. -/
def Fabric.LoggedIn (fabric : Fabric End) (wire : List (End × List UInt8)) (g : End) : Prop :=
  ∃ (login : LoginParams) (response : LoginResponseParams),
    (g, (TbipMessage.login login).bytes) ∈ wire ∧
      (fabric.peer g, (TbipMessage.loginResponse response).bytes) ∈ wire ∧
      login.transmitPath = fabric.path g ∧ response.ctrl.commandId = login.ctrl.commandId ∧ response.status = 0

structure Party.Sound (fabric : Fabric End) (wire : List (End × List UInt8)) (e : End) (party : Party) : Prop where
  request : ∀ ctrl, party.request = some ctrl →
    (e, (TbipMessage.login { ctrl, transmitPath := fabric.path e }).bytes) ∈ wire
  answering : ∀ p ∈ party.answering,
    p = (fabric.path (fabric.peer e)).toNat ∧ fabric.LoggedIn wire (fabric.peer e)
  facing : party.session.Facing (fabric.path (fabric.peer e)).toNat (fabric.LoggedIn wire e)
    (fabric.LoggedIn wire (fabric.peer e))

structure Net.Sound (fabric : Fabric End) (s : Net End) : Prop where
  sent : ∀ entry ∈ s.wire, ∃ message : TbipMessage, entry.2 = message.bytes ∧ fabric.Names entry.1 message
  party : ∀ e, (s.party e).Sound fabric s.wire e

variable {fabric : Fabric End} {s s' : Net End} {e : End}

theorem Fabric.LoggedIn.mono {wire wire' : List (End × List UInt8)} (more : wire ⊆ wire') {g : End}
    (loggedIn : fabric.LoggedIn wire g) : fabric.LoggedIn wire' g := by
  obtain ⟨login, response, asked, answered, rest⟩ := loggedIn
  exact ⟨login, response, more asked, more answered, rest⟩

theorem Party.Sound.mono {wire wire' : List (End × List UInt8)} (more : wire ⊆ wire') {party : Party}
    (sound : party.Sound fabric wire e) : party.Sound fabric wire' e where
  request ctrl waits := more (sound.request ctrl waits)
  answering p held := ⟨(sound.answering p held).1, (sound.answering p held).2.mono more⟩
  facing := sound.facing.mono (·.mono more) (·.mono more)

theorem send_eq (message : TbipMessage) : s.send e message = { s with wire := (e, message.bytes) :: s.wire } := by
  rw [Net.send, frame_eq]

variable [DecidableEq End]

namespace Net

omit [DecidableEq End] in
theorem Sound.send (sound : s.Sound fabric) {message : TbipMessage} (names : fabric.Names e message) :
    (s.send e message).Sound fabric := by
  rw [send_eq]
  constructor
  · intro entry member
    rcases List.mem_cons.mp member with rfl | before
    · exact ⟨message, rfl, names⟩
    · exact sound.sent entry before
  · intro g
    exact (sound.party g).mono (List.subset_cons_self _ _)

theorem Sound.update (sound : s.Sound fabric) {party : Party} (own : party.Sound fabric s.wire e) :
    (s.update e party).Sound fabric := by
  refine ⟨sound.sent, ?_⟩
  intro g
  simp only [Net.update, Function.update_apply]
  split
  · rename_i same
    exact same ▸ own
  · exact sound.party g

/-- A step of a session, whose LOGINs name the peer's path and whose answers are the peer's. -/
theorem Sound.act (sound : s.Sound fabric) {action : SessionAction} (stepped : s.act e action = some s')
    (login : ∀ p taken, action = .login p taken →
      p = (fabric.path (fabric.peer e)).toNat ∧ fabric.LoggedIn s.wire (fabric.peer e))
    (answer : action = .loginAnswer true → fabric.LoggedIn s.wire e) : s'.Sound fabric := by
  obtain ⟨session, moved, rfl⟩ := Option.map_eq_some_iff.mp stepped
  have own := sound.party e
  exact sound.update ⟨own.request, own.answering, own.facing.step moved login answer⟩

theorem Sound.plain (sound : s.Sound fabric) {action : SessionAction} (stepped : s.act e action = some s')
    (silent : ∀ p taken, action ≠ .login p taken) (unanswered : action ≠ .loginAnswer true) : s'.Sound fabric :=
  sound.act stepped (fun p taken is => absurd is (silent p taken)) fun is => absurd is unanswered

theorem Sound.count (sound : s.Sound fabric) (commandId : UInt32) :
    (s.update e { s.party e with commandId }).Sound fabric :=
  sound.update ⟨(sound.party e).request, (sound.party e).answering, (sound.party e).facing⟩

theorem Sound.sendLogout (sound : s.Sound fabric) (sequence : UInt8) :
    (fabric.sendLogout s e sequence).Sound fabric := by
  have names : fabric.Names e (.logout ((fabric.xd e).requestCtrl sequence (Fabric.nextCommand s e))) := by
    constructor
    case initiator => rfl
    case target => rfl
    case path =>
      intro login is
      cases is
  have counted := sound.count (Fabric.nextCommand s e) (e := e)
  unfold Fabric.sendLogout
  exact counted.send names

/-- A LOGIN that the session at `e` takes was sent at the other end of its cable. -/
theorem Sound.login_of_packet (sound : s.Sound fabric) (apart : fabric.tellsSource = true ∨ fabric.OneSession)
    {g : End} {bytes : List UInt8} (sent : (g, bytes) ∈ s.wire) {route : UInt64} {request : LoginParams}
    (handled : (fabric.xd e).handlePacket (!fabric.tellsSource || decide (e = fabric.peer g)) (reroute route bytes) =
      .login request) :
    ∃ login : LoginParams, (fabric.peer e, (TbipMessage.login login).bytes) ∈ s.wire ∧
      login.transmitPath = fabric.path (fabric.peer e) ∧ request.transmitPath = login.transmitPath ∧
      request.ctrl.commandId = login.ctrl.commandId := by
  obtain ⟨message, same, names⟩ := sound.sent _ sent
  simp only at same names
  rw [same, reroute_bytes] at handled
  obtain ⟨own, received, initiator, target⟩ := handlePacket_bytes handled
  have ends : g = fabric.peer e := by
    have initiator : fabric.uuid g = fabric.uuid (fabric.peer e) := by
      rw [← names.initiator]
      cases message <;> exact initiator
    have target : fabric.uuid (fabric.peer g) = fabric.uuid (fabric.peer (fabric.peer e)) := by
      rw [← names.target, fabric.peer_peer]
      cases message <;> exact target
    rcases apart with tells | single
    · have here : e = fabric.peer g := by simpa [tells] using own
      rw [here, fabric.peer_peer]
    · exact single g (fabric.peer e) initiator target
  subst ends
  cases message with
  | loginResponse params => cases received
  | logout ctrl => cases received
  | status params => cases received
  | login login =>
      cases received
      exact ⟨login, same ▸ sent, names.path login rfl, rfl, rfl⟩

theorem Sound.packet (sound : s.Sound fabric) (apart : fabric.tellsSource = true ∨ fabric.OneSession)
    {g : End} {bytes : List UInt8} (sent : (g, bytes) ∈ s.wire) {route : UInt64} {answered : Bool}
    (stepped : fabric.packet s e (!fabric.tellsSource || decide (e = fabric.peer g)) (reroute route bytes) answered =
      some s') : s'.Sound fabric := by
  unfold Fabric.packet at stepped
  split at stepped
  rotate_left
  · cases stepped
  split at stepped
  · cases stepped
    exact sound
  · cases stepped
    exact sound
  · rename_i request handled
    split at stepped
    rotate_left
    · cases stepped
      exact sound
    obtain rfl := Option.some.inj stepped
    obtain ⟨login, asked, path, takes, command⟩ := sound.login_of_packet apart sent handled
    have names : fabric.Names e ((fabric.xd e).loginResponse request) := by
      constructor
      case initiator => rfl
      case target => rfl
      case path =>
        intro login is
        cases is
    have answers := sound.send names
    rw [send_eq] at answers ⊢
    have greeted : fabric.LoggedIn ((e, ((fabric.xd e).loginResponse request).bytes) :: s.wire) (fabric.peer e) := by
      refine ⟨login, { ctrl := (fabric.xd e).fillReplyCtrl request.ctrl, status := 0, receiverMac := fabric.mac e },
        List.mem_cons_of_mem _ asked, ?_, path, command, rfl⟩
      rw [fabric.peer_peer]
      exact List.mem_cons_self
    have own := answers.party e
    have answering : ∀ p ∈ request.transmitPath.toNat :: (s.party e).answering,
        p = (fabric.path (fabric.peer e)).toNat ∧
          fabric.LoggedIn ((e, ((fabric.xd e).loginResponse request).bytes) :: s.wire) (fabric.peer e) := by
      intro p held
      rcases List.mem_cons.mp held with rfl | before
      · exact ⟨by rw [takes, path], greeted⟩
      · exact own.answering p before
    have party : Party.Sound fabric ((e, ((fabric.xd e).loginResponse request).bytes) :: s.wire) e
        { s.party e with answering := request.transmitPath.toNat :: (s.party e).answering } :=
      ⟨own.request, answering, own.facing⟩
    exact answers.update party
  · rename_i request handled
    have counted := sound.count (e := e) (Fabric.nextCommand s e)
    split at stepped
    · have names : fabric.Names e ((fabric.xd e).status request (Fabric.nextCommand s e)) := by
        constructor
        case initiator => rfl
        case target => rfl
        case path =>
          intro login is
          cases is
      exact (counted.send names).plain stepped (by simp) (by simp)
    · exact counted.plain stepped (by simp) (by simp)

theorem Sound.takeLogin (sound : s.Sound fabric) {path : Nat} (stepped : Fabric.takeLogin s e path = some s') :
    s'.Sound fabric := by
  obtain ⟨held, stepped⟩ := Option.ite_none_right_eq_some.mp stepped
  have own := sound.party e
  have fewer : ({ s.party e with answering := (s.party e).answering.erase path } : Party).Sound fabric s.wire e :=
    ⟨own.request, fun p left => own.answering p (List.mem_of_mem_erase left), own.facing⟩
  apply (sound.update fewer).act stepped
  case login =>
    intro p taken is
    cases is
    exact own.answering _ held
  case answer =>
    intro is
    cases is

theorem Sound.loginRequest (sound : s.Sound fabric) {sequence : UInt8}
    (stepped : fabric.loginRequest s e sequence = some s') : s'.Sound fabric := by
  obtain ⟨t, moved, rfl⟩ := Option.map_eq_some_iff.mp stepped
  have kept : t.Sound fabric := sound.plain moved (by simp) (by simp)
  split
  rotate_left
  · exact kept
  have names : fabric.Names e
      ((fabric.xd e).login ((fabric.xd e).requestCtrl sequence (Fabric.nextCommand t e))) := by
    constructor
    case initiator => rfl
    case target => rfl
    case path =>
      intro login is
      cases is
      rfl
  have asks := kept.send names
  rw [send_eq] at asks ⊢
  have own := asks.party e
  refine asks.update ⟨?_, own.answering, own.facing⟩
  intro ctrl waits
  rw [← Option.some.inj waits]
  exact List.mem_cons_self

theorem Sound.forget (sound : s.Sound fabric) : (s.update e { s.party e with request := none }).Sound fabric := by
  have own := sound.party e
  apply sound.update
  refine ⟨?_, own.answering, own.facing⟩
  intro ctrl waits
  cases waits

theorem Sound.loginAnswer (sound : s.Sound fabric) {frame : Nat} {route : UInt64}
    (stepped : fabric.loginAnswer s e frame route = some s') : s'.Sound fabric := by
  unfold Fabric.loginAnswer at stepped
  split at stepped
  · rename_i request g bytes waits found
    split at stepped
    · rename_i ends
      subst ends
      apply sound.forget.act stepped
      case login =>
        intro p taken is
        cases is
      case answer =>
        intro is
        have accepted := SessionAction.loginAnswer.inj is
        have received : (fabric.peer e, bytes) ∈ s.wire := List.mem_of_getElem? found
        obtain ⟨message, same, names⟩ := sound.sent _ received
        simp only at same
        rw [same, reroute_bytes] at accepted
        obtain ⟨response, is, command, status⟩ := loginAccepted_bytes accepted
        have asked := (sound.party e).request request waits
        cases message with
        | login params => cases is
        | logout ctrl => cases is
        | status params => cases is
        | loginResponse params =>
            cases is
            exact ⟨_, params, asked, same ▸ received, rfl, command, status⟩
    · cases stepped
  · cases stepped

theorem Sound.step (sound : s.Sound fabric) (apart : fabric.tellsSource = true ∨ fabric.OneSession)
    {action : NetAction End} (stepped : fabric.step s action = some s') : s'.Sound fabric := by
  cases action with
  | packet e frame route answered =>
      simp only [Fabric.step] at stepped
      split at stepped
      · rename_i g bytes found
        exact sound.packet apart (List.mem_of_getElem? found) stepped
      · cases stepped
  | takeLogin e path => exact sound.takeLogin stepped
  | resetPeer e sequence =>
      obtain ⟨-, stepped⟩ := Option.ite_none_right_eq_some.mp stepped
      obtain rfl := Option.some.inj stepped
      exact sound.sendLogout sequence
  | loginRequest e sequence => exact sound.loginRequest stepped
  | loginAnswer e frame route => exact sound.loginAnswer stepped
  | loginTimeout e => exact sound.forget.plain stepped (by simp) (by simp)
  | shutdownLogout e sequence =>
      obtain ⟨-, stepped⟩ := Option.ite_none_right_eq_some.mp stepped
      obtain rfl := Option.some.inj stepped
      exact sound.sendLogout sequence
  | own e action =>
      obtain ⟨owns, stepped⟩ := Option.ite_none_right_eq_some.mp stepped
      apply sound.plain stepped
      case silent =>
        rintro p taken rfl
        cases owns
      case unanswered =>
        rintro rfl
        cases owns

end Net

theorem sound_of_reachable (apart : fabric.tellsSource = true ∨ fabric.OneSession)
    {ok : Net End → NetAction End → Prop} (reachable : fabric.system.ReachableVia ok s) : s.Sound fabric := by
  have base (s : Net End) (start : s = {}) : s.Sound fabric := by
    subst start
    constructor
    · intro entry member
      cases member
    · intro e
      exact ⟨by simp, by simp, ⟨by simp, by simp, by simp [ConnectedWork.aim], by simp⟩⟩
  exact reachable.invariant base fun s action s' sound _ step => sound.step apart step

/-- Whatever is lost, repeated, delayed or given to another session, a packet path that is up at one end of a
cable receives what the other end transmits, and each session was told of the other's path and had its own LOGIN
answered. A session that counts a login as sent or as received has these facts to go on. -/
theorem tunnels_meet (apart : fabric.tellsSource = true ∨ fabric.OneSession) (reachable : fabric.system.Reachable s)
    (e : End) :
    (∀ p, (s.party e).session.tunnel = some p → p = (fabric.path (fabric.peer e)).toNat ∧
      fabric.LoggedIn s.wire e ∧ fabric.LoggedIn s.wire (fabric.peer e)) ∧
      ((s.party e).session.loginSent = true → fabric.LoggedIn s.wire e) ∧
      ((s.party e).session.loginReceived = true →
        (s.party e).session.remoteTransmitPath = (fabric.path (fabric.peer e)).toNat ∧
          fabric.LoggedIn s.wire (fabric.peer e)) := by
  have facing := ((sound_of_reachable apart reachable).party e).facing
  exact ⟨facing.tunnel, facing.sent, facing.received⟩

/-- One cable; the handlers are not told where a packet comes from. -/
def oneCable : Fabric Bool where
  peer := Bool.not
  peer_peer := Bool.not_not
  uuid e := Vector.replicate 16 (if e then 1 else 2)
  route e := if e then 3 else 1
  path e := if e then 9 else 8
  mac _ := Vector.replicate 6 0
  tellsSource := false

/-- Both ends log in, with routes that come in with the top bit set, and set their paths up. -/
def loginRun : List (NetAction Bool) :=
  [.own false .loginStart, .resetPeer false 0, .loginRequest false 0, .packet true 1 0x8000000000000003 true,
    .own true .disconnect, .packet true 1 0x8000000000000003 true, .takeLogin true 8, .loginAnswer false 0 1,
    .own true .loginStart, .loginRequest true 0, .packet false 0 0x8000000000000001 true, .takeLogin false 9,
    .loginAnswer true 0 3, .own false .loginQueues, .own true .loginQueues, .own false .connectedStart,
    .own true .connectedStart, .own false (.allocInHopid (some 9)), .own true (.allocInHopid (some 8)),
    .own false (.enablePaths true), .own true (.enablePaths true), .own false .connectedFinish,
    .own true .connectedFinish]

theorem tunnels_meet_loginRun :
    ∃ s, oneCable.system.Reachable s ∧
      (s.party false).session.tunnel = some 9 ∧ (s.party true).session.tunnel = some 8 ∧
      oneCable.LoggedIn s.wire false ∧ oneCable.LoggedIn s.wire true := by
  obtain ⟨s, reachable, test⟩ := oneCable.system.exists_reachableVia (fun _ _ => True) loginRun
    (fun s => (s.party false).session.tunnel == some 9 && (s.party true).session.tunnel == some 8) rfl
    (by decide +kernel)
  simp only [Bool.and_eq_true, beq_iff_eq] at test
  have met := (tunnels_meet (.inr (by unfold Fabric.OneSession; decide)) reachable false).1 9 test.1
  exact ⟨s, reachable, test.1, test.2, met.2.1, met.2.2⟩

/-! ## Consistent sessions -/

/-- When the connected work marks the path as enabled, both logins still stand. -/
def Net.loggedIn (s : Net End) : NetAction End → Bool
  | .own e .connectedFinish => (s.party e).session.loginSent && (s.party e).session.loginReceived
  | _ => true

/-- What a step of the fabric is for the session at an end. -/
structure SessionMove (s s' : Net End) (a : NetAction End) (e : End) (action : SessionAction) : Prop where
  moves : (s.party e).session.step action = some (s'.party e).session
  login : ∀ p taken, action = .login p taken → p ∈ (s.party e).answering
  finish : action = .connectedFinish → a = .own e .connectedFinish

def SessionStays (s s' : Net End) (e : End) : Prop := (s'.party e).session = (s.party e).session

namespace Net

theorem stays_update {party : Party} (same : party.session = (s.party e).session) (g : End) :
    SessionStays s (s.update e party) g := by
  simp only [SessionStays, Net.update, Function.update_apply]
  split
  · rename_i here
    rw [same, here]
  · rfl

theorem stays_update_send {party : Party} (message : TbipMessage)
    (same : party.session = (s.party e).session) (g : End) :
    SessionStays s ((s.update e party).send e message) g := by
  rw [send_eq]
  exact stays_update same g

theorem stays_sendLogout (sequence : UInt8) (g : End) : SessionStays s (fabric.sendLogout s e sequence) g := by
  unfold Fabric.sendLogout
  exact stays_update_send _ (by rfl) g

theorem moves_act {t : Net End} {a : NetAction End} {action : SessionAction} (stepped : t.act e action = some s')
    (before : ∀ g, SessionStays s t g) (login : ∀ p taken, action = .login p taken → p ∈ (s.party e).answering)
    (finish : action = .connectedFinish → a = .own e .connectedFinish) (g : End) :
    SessionStays s s' g ∨ ∃ action, SessionMove s s' a g action := by
  obtain ⟨session, moved, rfl⟩ := Option.map_eq_some_iff.mp stepped
  by_cases here : g = e
  · subst here
    refine .inr ⟨action, ?_, login, finish⟩
    rw [← before g, moved]
    simp [Net.update]
  · left
    simp only [SessionStays, Net.update, Function.update_apply, if_neg here]
    exact before g

theorem moves_step {a : NetAction End} (stepped : fabric.step s a = some s') (g : End) :
    SessionStays s s' g ∨ ∃ action, SessionMove s s' a g action := by
  cases a with
  | packet e frame route answered =>
      simp only [Fabric.step] at stepped
      split at stepped
      rotate_left
      · cases stepped
      unfold Fabric.packet at stepped
      split at stepped
      rotate_left
      · cases stepped
      split at stepped
      · cases stepped
        exact .inl rfl
      · cases stepped
        exact .inl rfl
      · split at stepped
        · obtain rfl := Option.some.inj stepped
          exact .inl (stays_update_send _ (by rfl) g)
        · cases stepped
          exact .inl rfl
      · apply moves_act stepped _ (by simp) (by simp)
        intro h
        split
        · exact stays_update_send _ (by rfl) h
        · exact stays_update (by rfl) h
  | takeLogin e path =>
      obtain ⟨held, stepped⟩ := Option.ite_none_right_eq_some.mp stepped
      apply moves_act stepped (stays_update (by rfl))
      case login =>
        intro p taken is
        cases is
        exact held
      case finish =>
        intro is
        cases is
  | resetPeer e sequence =>
      obtain ⟨-, stepped⟩ := Option.ite_none_right_eq_some.mp stepped
      obtain rfl := Option.some.inj stepped
      exact .inl (stays_sendLogout sequence g)
  | loginRequest e sequence =>
      obtain ⟨t, moved, rfl⟩ := Option.map_eq_some_iff.mp stepped
      have same (h : End) : SessionStays t
          (if (t.party e).session.loginWork = .requesting then
            (t.update e { t.party e with
              commandId := Fabric.nextCommand t e
              request := some ((fabric.xd e).requestCtrl sequence (Fabric.nextCommand t e)) }).send e
                ((fabric.xd e).login ((fabric.xd e).requestCtrl sequence (Fabric.nextCommand t e)))
          else t) h := by
        split
        · exact stays_update_send _ (by rfl) h
        · rfl
      rcases moves_act (a := .loginRequest e sequence) moved (fun _ => rfl) (by simp) (by simp) g with
        stays | ⟨action, move⟩
      · exact .inl ((same g).trans stays)
      · exact .inr ⟨action, (same g).symm ▸ move.moves, move.login, move.finish⟩
  | loginAnswer e frame route =>
      unfold Fabric.step Fabric.loginAnswer at stepped
      simp only at stepped
      split at stepped
      · split at stepped
        · exact moves_act stepped (stays_update (by rfl)) (by simp) (by simp) g
        · cases stepped
      · cases stepped
  | loginTimeout e => exact moves_act stepped (stays_update (by rfl)) (by simp) (by simp) g
  | shutdownLogout e sequence =>
      obtain ⟨-, stepped⟩ := Option.ite_none_right_eq_some.mp stepped
      obtain rfl := Option.some.inj stepped
      exact .inl (stays_sendLogout sequence g)
  | own e action =>
      obtain ⟨owns, stepped⟩ := Option.ite_none_right_eq_some.mp stepped
      apply moves_act stepped (fun _ => rfl)
      case login =>
        rintro p taken rfl
        cases owns
      case finish =>
        rintro rfl
        rfl

end Net

/-- Between sessions of the driver only a teardown in the gap of the connected work can break a session: no LOGIN
overwrites the path that is in use. -/
theorem sessions_consistent (apart : fabric.tellsSource = true ∨ fabric.OneSession)
    (reachable : fabric.system.ReachableVia (fun s a => s.loggedIn a = true) s) (e : End) :
    (s.party e).session.Consistent := by
  have base (s : Net End) (start : s = {}) : ∀ e, (s.party e).session.Inv := by
    subst start
    exact fun _ => Session.inv_new
  have next (s : Net End) (a : NetAction End) (s' : Net End) (sound : s.Sound fabric)
      (inv : ∀ e, (s.party e).session.Inv) (allowed : s.loggedIn a = true) (stepped : fabric.step s a = some s') :
      ∀ e, (s'.party e).session.Inv := by
    intro e
    have facing := (sound.party e).facing
    rcases Net.moves_step stepped e with stays | ⟨action, move⟩
    · exact stays ▸ inv e
    apply (inv e).step _ move.moves
    cases action with
    | login p taken =>
        have names := ((sound.party e).answering p (move.login p taken rfl)).1
        cases enabled : (s.party e).session.pathEnabled with
        | false => simp [Session.steady, enabled]
        | true =>
            obtain ⟨-, -, received, -⟩ := (inv e).path enabled
            simp [Session.steady, names, (facing.received received).1]
    | connectedFinish =>
        have here := move.finish rfl
        subst here
        simp only [Net.loggedIn, Bool.and_eq_true] at allowed
        have moves := move.moves
        simp only [Session.step] at moves
        split at moves
        · rename_i p enabled
          have aim := (facing.aim p (by rw [enabled]; rfl)).1
          simp [Session.steady, enabled, allowed, aim, (facing.received allowed.2).1]
        · cases moves
    | _ => rfl
  exact (reachable.invariant_with (fun s found => sound_of_reachable apart found) base next e).consistent

theorem sessions_consistent_loginRun :
    ∃ s, oneCable.system.Reachable s ∧ (s.party false).session.pathEnabled = true ∧
      (s.party false).session.Consistent := by
  obtain ⟨s, reachable, test⟩ := oneCable.system.exists_reachableVia (fun s a => s.loggedIn a = true) loginRun
    (fun s => (s.party false).session.pathEnabled) rfl (by decide +kernel)
  exact ⟨s, reachable.reachable, test, sessions_consistent (.inr (by unfold Fabric.OneSession; decide)) reachable false⟩

end Fabric

end ThunderboltVerbs.Tbnet
