import ThunderboltVerbs.DataPath.Link
import ThunderboltVerbs.Lib.Tally

/-!
# Conservation of the path credits

Seen from the sending end, a credit is either held there (in the window, on a charged frame that has
not been taken off the wire, or in a PATH_CREDIT frame being applied) or owed by the receiving end.
A step of one end keeps what it holds and what it owes; a delivery moves credits across.
-/

namespace ThunderboltVerbs.DataPath
open Proto Lib

def creditOf (frame : WireFrame) : Nat :=
  match frame.header with
  | some header => if header.opcode = .pathCredit then header.immData else 0
  | none => 0

def Scheduler.chargedCount : Scheduler → Nat
  | .posting _ _ charged _ _ => charged.toNat
  | _ => 0

def Scheduler.creditCount : Scheduler → Nat
  | .posting packet _ _ _ _ => creditOf packet.frame
  | _ => 0

def RxThread.chargedCount : RxThread → Nat
  | .reposting charged _ _ => charged.toNat
  | _ => 0

/-- Credits taken out of `rx_data_credit_pending` whose PATH_CREDIT frame is not yet queued. -/
def RxThread.returning : RxThread → Nat
  | .sendingCredit send _ => send
  | .foldingBack send _ => send
  | _ => 0

def RxThread.adding : RxThread → Nat
  | .reposting _ _ addRemoteCredits => addRemoteCredits
  | .sendingCredit _ addRemoteCredits => addRemoteCredits
  | .foldingBack _ addRemoteCredits => addRemoteCredits
  | .addingCredit addRemoteCredits => addRemoteCredits

namespace Link

/-- Frames charged by `side` whose credit the peer has not yet counted as pending. -/
def chargedInFlight (link : Link) (side : Side) : Nat :=
  (link side).path.scheduler.chargedCount +
    tally (fun flight => flight.charged.toNat) (link side).wire +
    tally RxThread.chargedCount (link side.peer).rx

/-- Credits on their way from `side` to its peer in PATH_CREDIT frames. -/
def creditsInFlight (link : Link) (side : Side) : Nat :=
  tally RxThread.returning (link side).rx +
    tally (fun packet => creditOf packet.frame) (link side).path.txControlQueue +
    (link side).path.scheduler.creditCount +
    tally (fun flight => creditOf flight.frame) (link side).wire +
    tally RxThread.adding (link side.peer).rx

def creditSum (link : Link) (side : Side) : Nat :=
  (link side).path.txRemoteDataCredits + link.chargedInFlight side +
    (link side.peer).path.rxDataCreditPending + link.creditsInFlight side.peer

end Link

/-! ## The frames of the two queues -/

def DataFrame (frame : WireFrame) : Prop :=
  frame.len ≤ dataFrameSize ∧
    ∃ header, frame.header = some header ∧ consumesRxCredit header.opcode = true ∧
      header.isRawStream = false

def ControlFrame (frame : WireFrame) : Prop :=
  frame.len ≤ dataFrameSize ∧
    ∃ header, frame.header = some header ∧ consumesRxCredit header.opcode = false ∧
      header.isRawStream = false ∧ (header.opcode = .pathCredit → validPathCredit header = true)

def FrameOk (charged : Bool) (frame : WireFrame) : Prop :=
  if charged then DataFrame frame else ControlFrame frame

def PacketOk (packet : TxPacket) : Prop := FrameOk (!packet.control) packet.frame

def SchedulerOk : Scheduler → Prop
  | .posting packet _ charged _ _ => charged = !packet.control ∧ PacketOk packet
  | _ => True

def ThreadOk : RxThread → Prop
  | .reposting charged returnRxCredits _ => returnRxCredits = charged.toNat
  | .sendingCredit send _ => send ≠ 0
  | _ => True

theorem creditOf_dataFrame {frame : WireFrame} (data : DataFrame frame) : creditOf frame = 0 := by
  obtain ⟨-, header, parsed, consumes, -⟩ := data
  have other : header.opcode ≠ .pathCredit := by
    intro same
    simp [same, consumesRxCredit] at consumes
  simp [creditOf, parsed, other]

namespace LinkEnd

structure Inv (window : Nat) (e : LinkEnd) : Prop where
  data : ∀ packet ∈ e.path.txDataQueue, packet.control = false ∧ PacketOk packet
  control : ∀ packet ∈ e.path.txControlQueue, packet.control = true ∧ PacketOk packet
  scheduler : SchedulerOk e.path.scheduler
  wire : ∀ flight ∈ e.wire, FrameOk flight.charged flight.frame
  rx : ∀ thread ∈ e.rx, ThreadOk thread
  creditMax : e.path.txRemoteDataCreditMax = window
  positive : 0 < window
  raw : e.path.rxRaw.pending = false
  running : e.path.state = .ringStarted ∨ e.path.state = .tunnelEnabled

def held (e : LinkEnd) : Nat :=
  e.path.txRemoteDataCredits + e.path.scheduler.chargedCount +
    tally (fun flight => flight.charged.toNat) e.wire + tally RxThread.adding e.rx

def owed (e : LinkEnd) : Nat :=
  e.path.rxDataCreditPending + tally RxThread.chargedCount e.rx + tally RxThread.returning e.rx +
    tally (fun packet => creditOf packet.frame) e.path.txControlQueue +
    e.path.scheduler.creditCount + tally (fun flight => creditOf flight.frame) e.wire

end LinkEnd

theorem Link.creditSum_eq (link : Link) (side : Side) :
    link.creditSum side = (link side).held + (link side.peer).owed := by
  simp only [Link.creditSum, Link.chargedInFlight, Link.creditsInFlight, LinkEnd.held, LinkEnd.owed,
    Side.peer_peer]
  omega

/-! ## What the driver queues -/

def Queued (p p' : Path) (data control : List TxPacket) : Prop :=
  ∃ controlFree controlQueued dataQueued dataReserved,
    p' = { p with
      txControlFree := controlFree
      txControlQueue := p.txControlQueue ++ control
      txControlQueued := controlQueued
      txDataQueue := p.txDataQueue ++ data
      txDataQueued := dataQueued
      txDataReserved := dataReserved }

theorem enqueueControl_queued {p p' : Path} {frame : WireFrame} {done : Option Nat} {alloc : Bool}
    (queued : p.enqueueControl frame done alloc = .ok p') :
    frame.len ≤ controlFrameSize ∧
      ∃ packet, Queued p p' [] [packet] ∧ packet.control = true ∧ packet.frame = frame := by
  unfold Path.enqueueControl at queued
  split at queued
  · cases queued
  · rename_i short
    split at queued
    · cases queued
    · split at queued
      · cases queued
      · cases queued
        refine ⟨by omega, { frame := frame, done := done, ownerCtx := done, control := true
                            pooled := decide (p.txControlFree ≠ 0) }, ?_, rfl, rfl⟩
        refine ⟨p.txControlFree - 1, p.txControlQueued + 1, p.txDataQueued, p.txDataReserved, ?_⟩
        simp only [List.append_nil]

theorem enqueueData_queued {p p' : Path} {packet : TxPacket}
    (queued : p.enqueueData packet = .ok p') :
    Queued p p' [{ packet with startCreditGroupFrames := 1 }] [] := by
  unfold Path.enqueueData at queued
  split at queued
  · cases queued
  · split at queued
    · cases queued
    · cases queued
      refine ⟨p.txControlFree, p.txControlQueued, p.txDataQueued + 1, p.txDataReserved - 1, ?_⟩
      simp

theorem enqueueReservedDataList_queued {p p' : Path} {packets : List TxPacket}
    (queued : p.enqueueReservedDataList packets packets.length = .ok p') :
    Queued p p' (Path.markGroup packets packets.length) [] := by
  unfold Path.enqueueReservedDataList at queued
  split at queued
  · rename_i empty
    cases queued
    obtain rfl := List.length_eq_zero_iff.mp empty
    exact ⟨p.txControlFree, p.txControlQueued, p.txDataQueued, p.txDataReserved, by
      simp [Path.markGroup]⟩
  · split at queued
    · cases queued
    · split at queued
      · cases queued
      · cases queued
        refine ⟨p.txControlFree, p.txControlQueued, p.txDataQueued + packets.length,
          p.txDataReserved - packets.length, ?_⟩
        simp [Path.spliceData]

theorem buildFrame_ok {header : DataHeader} {frame : WireFrame} (built : buildFrame header = .ok frame)
    (framed : header.isRawStream = false) :
    frame.len ≤ dataFrameSize ∧ frame.header = some header := by
  unfold buildFrame at built
  split at built
  · rename_i allowed
    cases built
    refine ⟨?_, rfl⟩
    simp [lengthAllowed, framed, dataMaxPayload, dataFrameSize, dataHdrSize] at allowed ⊢
    omega
  · cases built

/-- What an emission may add to the queues: data packets of opcodes that consume a credit, or one
control packet that carries no credit. -/
def EmissionQueued (p p' : Path) : Prop :=
  ∃ data control, Queued p p' data control ∧
    (∀ packet ∈ data, packet.control = false ∧ PacketOk packet) ∧
    (∀ packet ∈ control, packet.control = true ∧ PacketOk packet ∧ creditOf packet.frame = 0)

theorem sendControl_queued {p p' : Path} {header : DataHeader} {alloc : Bool}
    (sent : p.sendControl header alloc = .ok p') (framed : header.isRawStream = false)
    (free : consumesRxCredit header.opcode = false) (other : header.opcode ≠ .pathCredit) :
    EmissionQueued p p' := by
  unfold Path.sendControl at sent
  cases built : buildFrame header with
  | error error => simp [built, bind, Except.bind] at sent
  | ok frame =>
      simp only [built, bind, Except.bind] at sent
      obtain ⟨short, parsed⟩ := buildFrame_ok built framed
      obtain ⟨-, packet, queued, control, rfl⟩ := enqueueControl_queued sent
      refine ⟨[], [packet], queued, by simp, ?_⟩
      intro found member
      obtain rfl := List.mem_singleton.mp member
      refine ⟨control, ?_, by simp [creditOf, parsed, other]⟩
      simp only [PacketOk, control, FrameOk]
      exact ⟨short, header, parsed, free, framed, fun same => absurd same other⟩

theorem sendOwned_queued {p p' : Path} {header : DataHeader} {ctx : Option Nat} {alloc : Bool}
    (sent : p.sendOwned header ctx alloc = .ok p') (framed : header.isRawStream = false)
    (consumes : consumesRxCredit header.opcode = true) : EmissionQueued p p' := by
  unfold Path.sendOwned at sent
  cases built : buildFrame header with
  | error error => simp [built, bind, Except.bind] at sent
  | ok frame =>
      simp only [built, bind, Except.bind] at sent
      split at sent
      · obtain ⟨short, parsed⟩ := buildFrame_ok built framed
        refine ⟨_, [], enqueueData_queued sent, ?_, by simp⟩
        intro packet member
        obtain rfl := List.mem_singleton.mp member
        exact ⟨rfl, short, header, parsed, consumes, framed⟩
      · cases sent

theorem preparePackets_ok {msg : SendMsg} {ctx : Nat} {pieces : List (Nat × Nat × Bool)}
    {packets : List TxPacket} (prepared : preparePackets msg ctx pieces = .ok packets) :
    ∀ packet ∈ packets, packet.control = false ∧ PacketOk packet := by
  induction pieces generalizing packets with
  | nil =>
      cases prepared
      simp
  | cons piece rest ih =>
      obtain ⟨offset, payloadLen, last⟩ := piece
      simp only [preparePackets, bind, Except.bind] at prepared
      cases built : buildFrame (msg.nativeHeader offset payloadLen last) with
      | error error => simp [built] at prepared
      | ok frame =>
          cases tail : preparePackets msg ctx rest with
          | error error => simp [built, tail] at prepared
          | ok more =>
              simp only [built, tail] at prepared
              cases prepared
              obtain ⟨short, parsed⟩ := buildFrame_ok built (nativeHeader_isRawStream ..)
              intro packet member
              rcases List.mem_cons.mp member with rfl | member
              · refine ⟨rfl, short, _, parsed, ?_, nativeHeader_isRawStream ..⟩
                simp only [SendMsg.nativeHeader]
                cases msg.op <;> rfl
              · exact ih tail packet member

theorem markGroup_ok {packets : List TxPacket} (count : Nat)
    (ok : ∀ packet ∈ packets, packet.control = false ∧ PacketOk packet) :
    ∀ packet ∈ Path.markGroup packets count, packet.control = false ∧ PacketOk packet := by
  intro packet member
  cases packets with
  | nil => simp [Path.markGroup] at member
  | cons first rest =>
      simp only [Path.markGroup, List.mem_cons, List.mem_map] at member
      rcases member with rfl | ⟨other, member, rfl⟩
      · exact ok first List.mem_cons_self
      · exact ok other (List.mem_cons_of_mem _ member)

def Emission.isReadStatus : Emission → Bool
  | .readStatus .. => true
  | _ => false

theorem emit_queued {p p' : Path} {emission : Emission} {alloc : Bool}
    (sent : p.emit emission alloc = .ok p') (plain : emission.isReadStatus = false) :
    EmissionQueued p p' := by
  cases emission with
  | fragments msg ctx pieces =>
      simp only [Path.emit, bind, Except.bind] at sent
      cases prepared : preparePackets msg ctx pieces with
      | error error => simp [prepared] at sent
      | ok packets =>
          simp only [prepared] at sent
          exact ⟨_, [], enqueueReservedDataList_queued sent,
            markGroup_ok _ (preparePackets_ok prepared), by simp⟩
  | readRequest destQp srcQp psn totalLen remoteAddr rkey ctx =>
      exact sendOwned_queued sent (by simp [DataHeader.isRawStream, readRequestHeader]) rfl
  | readResponse destQp srcQp psn totalLen offset payloadLen last =>
      refine sendOwned_queued sent ?_ rfl
      cases last <;> simp [DataHeader.isRawStream, readResponseHeader]
  | readStatus destQp srcQp psn totalLen failed => simp [Emission.isReadStatus] at plain
  | sendAck destQp srcQp psn status =>
      exact sendControl_queued sent (hasFlag_zero _) rfl DataOp.noConfusion
  | readAck destQp srcQp psn status =>
      exact sendControl_queued sent (hasFlag_zero _) rfl DataOp.noConfusion
  | recvCredit destQp srcQp credits =>
      exact sendControl_queued sent (hasFlag_zero _) rfl DataOp.noConfusion
  | mad payloadLen madSize ctx =>
      exact sendOwned_queued sent (by simp [DataHeader.isRawStream, madHeader]) rfl

/-! ## The path state -/

theorem emit_state {p p' : Path} {emission : Emission} {alloc : Bool}
    (sent : p.emit emission alloc = .ok p') : p'.state = p.state := by
  have queued : ∀ {p p' : Path} {data control}, Queued p p' data control → p'.state = p.state := by
    rintro p p' data control ⟨_, _, _, _, rfl⟩
    rfl
  have controlSent : ∀ {header}, p.sendControl header alloc = .ok p' → p'.state = p.state := by
    intro header sent
    unfold Path.sendControl at sent
    cases built : buildFrame header with
    | error error => simp [built, bind, Except.bind] at sent
    | ok frame =>
        simp only [built, bind, Except.bind] at sent
        obtain ⟨-, packet, added, -⟩ := enqueueControl_queued sent
        exact queued added
  have ownedSent : ∀ {header ctx}, p.sendOwned header ctx alloc = .ok p' → p'.state = p.state := by
    intro header ctx sent
    unfold Path.sendOwned at sent
    cases built : buildFrame header with
    | error error => simp [built, bind, Except.bind] at sent
    | ok frame =>
        simp only [built, bind, Except.bind] at sent
        split at sent
        · exact queued (enqueueData_queued sent)
        · cases sent
  cases emission with
  | fragments msg ctx pieces =>
      simp only [Path.emit, bind, Except.bind] at sent
      split at sent
      · cases sent
      · exact queued (enqueueReservedDataList_queued sent)
  | readRequest | readResponse | mad => exact ownedSent sent
  | readStatus | sendAck | readAck | recvCredit => exact controlSent sent

theorem scheduleTake_state (p : Path) (limit : Nat) : (p.scheduleTake limit).state = p.state := by
  unfold Path.scheduleTake
  split
  · rfl
  · split <;> rfl

theorem postFailed_state (p : Path) (packet : TxPacket) (fromControlQueue charged : Bool)
    (oldRaw : RawStream) (oldStart : Nat) (error : Errno) :
    (p.postFailed packet fromControlQueue charged oldRaw oldStart error).state = p.state := by
  unfold Path.postFailed
  split
  · unfold Path.requeueTx
    split <;> rfl
  · rfl

theorem LinkEnd.step_state {e e' : LinkEnd} {action : EndAction} (other : action ≠ .enableTunnel)
    (moved : e.step action = some e') : e'.path.state = e.path.state := by
  cases action with
  | enableTunnel => exact absurd rfl other
  | emit emission alloc =>
      cases moved
      cases sent : e.path.emit emission alloc with
      | error error => rfl
      | ok path => exact emit_state sent
  | reserve frames =>
      cases moved
      unfold Path.reserveData
      split
      · rfl
      · split
        · rfl
        · split <;> rfl
  | release frames =>
      cases moved
      rfl
  | schedule =>
      cases moved
      unfold Path.scheduleEnter
      split <;> rfl
  | take limit =>
      simp only [LinkEnd.step] at moved
      split at moved
      · cases moved
        exact scheduleTake_state ..
      · cases moved
  | post error =>
      simp only [LinkEnd.step, LinkEnd.post] at moved
      split at moved
      · cases error with
        | none =>
            cases moved
            rfl
        | some error =>
            cases moved
            exact postFailed_state ..
      · cases moved
  | released =>
      simp only [LinkEnd.step] at moved
      split at moved
      · cases moved
        rfl
      · cases moved
  | txComplete i =>
      simp only [LinkEnd.step, Path.txComplete, Option.map_eq_some_iff] at moved
      obtain ⟨path, ⟨packet, found, rfl⟩, rfl⟩ := moved
      rfl
  | repost i =>
      simp only [LinkEnd.step, LinkEnd.repost] at moved
      split at moved
      · split at moved
        · cases moved
          rfl
        · split at moved
          · cases moved
            rfl
          · simp only [Path.returnRxDataCredit] at moved
            split at moved <;> split at moved <;> cases moved <;> rfl
      · cases moved
  | sendCredit i alloc =>
      simp only [LinkEnd.step, LinkEnd.sendCredit] at moved
      split at moved
      · split at moved
        · rename_i sent
          cases moved
          obtain ⟨-, packet, ⟨_, _, _, _, rfl⟩, -⟩ := enqueueControl_queued sent
          rfl
        · cases moved
          rfl
      · cases moved
  | foldBack i =>
      simp only [LinkEnd.step, LinkEnd.foldBack] at moved
      split at moved
      · cases moved
        rfl
      · cases moved
  | addCredit i =>
      simp only [LinkEnd.step, LinkEnd.addCredit] at moved
      split at moved
      · cases moved
        simp only [Path.addRemoteRxCredits]
        split <;> rfl
      · cases moved

theorem LinkEnd.receive_state (e : LinkEnd) (flight : Flight) :
    (e.receive flight).path.state = e.path.state := by
  simp only [LinkEnd.receive, Path.rxComplete]
  split
  · rfl
  · split
    · simp only [Path.rxRawPayload]
      split
      · rfl
      · split <;> rfl
    · split
      · rfl
      · split
        · rfl
        · split
          · split <;> rfl
          · rfl

end ThunderboltVerbs.DataPath
