import ThunderboltVerbs.DataPath.Rx
import ThunderboltVerbs.Proto.Frames
import ThunderboltVerbs.Lib.System

/-!
# Two paths joined by a wire

An end of the link is a path, the frames it has put on the wire and its receive completions that are
still running. A frame on the wire remembers whether it was charged against the credit window; the
code never reads that mark.
-/

namespace ThunderboltVerbs.DataPath
open Proto

inductive Side
  | left | right
  deriving DecidableEq, Repr

def Side.peer : Side → Side
  | .left => .right
  | .right => .left

@[simp] theorem Side.peer_peer (side : Side) : side.peer.peer = side := by
  cases side <;> rfl

@[simp] theorem Side.peer_ne (side : Side) : side.peer ≠ side := by
  cases side <;> decide

structure Flight where
  frame : WireFrame
  charged : Bool
  deriving DecidableEq, Repr

/-- A running `tbv_path_rx_complete`, by the lock section it comes to next. -/
inductive RxThread
  | reposting (charged : Bool) (returnRxCredits addRemoteCredits : Nat)
  | sendingCredit (send addRemoteCredits : Nat)
  | foldingBack (send addRemoteCredits : Nat)
  | addingCredit (addRemoteCredits : Nat)
  deriving DecidableEq, Repr

structure LinkEnd where
  path : Path
  wire : List Flight
  rx : List RxThread
  deriving DecidableEq

inductive Emission
  | fragments (msg : SendMsg) (ctx : Nat) (pieces : List (Nat × Nat × Bool))
  | readRequest (destQp srcQp psn totalLen remoteAddr rkey ctx : Nat)
  | readResponse (destQp srcQp psn totalLen offset payloadLen : Nat) (last : Bool)
  | readStatus (destQp srcQp psn totalLen : Nat) (failed : Bool)
  | sendAck (destQp srcQp psn : Nat) (status : SendAckStatus)
  | readAck (destQp srcQp psn : Nat) (status : ReadAckStatus)
  | recvCredit (destQp srcQp credits : Nat)
  | mad (payloadLen madSize ctx : Nat)
  deriving DecidableEq, Repr

/-- `tbv_native_data_build_header` into a frame of the header and its payload. -/
def buildFrame (header : DataHeader) : Except Errno WireFrame :=
  if lengthAllowed header then .ok { len := dataHdrSize + header.length, header := some header }
  else .error .eMsgSize

/-- `tbv_path_send` with `TBV_PATH_SEND_CONTROL`. -/
def Path.sendControl (p : Path) (header : DataHeader) (alloc : Bool) : Except Errno Path := do
  let frame ← buildFrame header
  p.enqueueControl frame none alloc

def Path.sendOwned (p : Path) (header : DataHeader) (ctx : Option Nat) (alloc : Bool) :
    Except Errno Path := do
  let frame ← buildFrame header
  if alloc then p.enqueueData { frame := frame, done := ctx, ownerCtx := ctx } else .error .eNoMem

/-- `tbv_path_prepare_owned_list`: one packet for each fragment. -/
def preparePackets (msg : SendMsg) (ctx : Nat) :
    List (Nat × Nat × Bool) → Except Errno (List TxPacket)
  | [] => .ok []
  | (offset, payloadLen, last) :: rest => do
      let frame ← buildFrame (msg.nativeHeader offset payloadLen last)
      let packets ← preparePackets msg ctx rest
      return { frame := frame, done := some ctx, ownerCtx := some ctx } :: packets

def Path.emit (p : Path) (emission : Emission) (alloc : Bool) : Except Errno Path :=
  match emission with
  | .fragments msg ctx pieces => do
      let packets ← preparePackets msg ctx pieces
      p.enqueueReservedDataList packets packets.length
  | .readRequest destQp srcQp psn totalLen remoteAddr rkey ctx =>
      p.sendOwned (readRequestHeader destQp srcQp psn totalLen remoteAddr rkey) (some ctx) alloc
  | .readResponse destQp srcQp psn totalLen offset payloadLen last =>
      p.sendOwned (readResponseHeader destQp srcQp psn totalLen offset payloadLen last) none alloc
  | .readStatus destQp srcQp psn totalLen failed =>
      p.sendControl (readStatusHeader destQp srcQp psn totalLen failed) alloc
  | .sendAck destQp srcQp psn status => p.sendControl (sendAckHeader destQp srcQp psn status) alloc
  | .readAck destQp srcQp psn status => p.sendControl (readAckHeader destQp srcQp psn status) alloc
  | .recvCredit destQp srcQp credits => p.sendControl (recvCreditHeader destQp srcQp credits) alloc
  | .mad payloadLen madSize ctx => p.sendOwned (madHeader payloadLen madSize) (some ctx) alloc

/-! ## Steps of one end -/

inductive EndAction
  | enableTunnel
  | emit (emission : Emission) (alloc : Bool)
  | reserve (frames : Nat)
  | release (frames : Nat)
  | schedule
  | take (nativeTxMaxInflight : Nat)
  | post (error : Option Errno)
  | released
  | txComplete (i : Nat)
  | repost (i : Nat)
  | sendCredit (i : Nat) (alloc : Bool)
  | foldBack (i : Nat)
  | addCredit (i : Nat)
  deriving DecidableEq, Repr

namespace LinkEnd

def continueRx (addRemoteCredits : Nat) (rx : List RxThread) : List RxThread :=
  if addRemoteCredits = 0 then rx else .addingCredit addRemoteCredits :: rx

def keep (e : LinkEnd) (result : Except Errno Path) : LinkEnd :=
  match result with
  | .ok path => { e with path := path }
  | .error _ => e

def post (e : LinkEnd) (error : Option Errno) : Option LinkEnd :=
  match e.path.scheduler with
  | .posting packet fromControlQueue charged oldRaw oldStart =>
      match error with
      | none =>
          some { e with
            path := e.path.posted packet
            wire := e.wire ++ [{ frame := packet.frame, charged := charged }] }
      | some error =>
          some { e with
            path := e.path.postFailed packet fromControlQueue charged oldRaw oldStart error }
  | _ => none

def repost (e : LinkEnd) (i : Nat) : Option LinkEnd :=
  match e.rx[i]? with
  | some (.reposting _ returnRxCredits addRemoteCredits) =>
      let rest := e.rx.eraseIdx i
      if e.path.state ≠ .ringStarted ∧ e.path.state ≠ .tunnelEnabled then
        some { e with rx := rest }
      else if returnRxCredits = 0 then some { e with rx := continueRx addRemoteCredits rest }
      else
        let result := e.path.returnRxDataCredit returnRxCredits
        if result.2 = 0 then
          some { e with path := result.1, rx := continueRx addRemoteCredits rest }
        else some { e with path := result.1, rx := .sendingCredit result.2 addRemoteCredits :: rest }
  | _ => none

def sendCredit (e : LinkEnd) (i : Nat) (alloc : Bool) : Option LinkEnd :=
  match e.rx[i]? with
  | some (.sendingCredit send addRemoteCredits) =>
      let rest := e.rx.eraseIdx i
      match e.path.sendRxCredit send alloc with
      | .ok path => some { e with path := path, rx := continueRx addRemoteCredits rest }
      | .error _ => some { e with rx := .foldingBack send addRemoteCredits :: rest }
  | _ => none

def foldBack (e : LinkEnd) (i : Nat) : Option LinkEnd :=
  match e.rx[i]? with
  | some (.foldingBack send addRemoteCredits) =>
      some { e with
        path := e.path.foldBackRxCredit send
        rx := continueRx addRemoteCredits (e.rx.eraseIdx i) }
  | _ => none

def addCredit (e : LinkEnd) (i : Nat) : Option LinkEnd :=
  match e.rx[i]? with
  | some (.addingCredit addRemoteCredits) =>
      some { e with
        path := e.path.addRemoteRxCredits addRemoteCredits
        rx := e.rx.eraseIdx i }
  | _ => none

def step (e : LinkEnd) : EndAction → Option LinkEnd
  | .enableTunnel =>
      if e.path.state = .ringStarted then
        some { e with path := { e.path with state := .tunnelEnabled } }
      else none
  | .emit emission alloc => some (e.keep (e.path.emit emission alloc))
  | .reserve frames => some (e.keep (e.path.reserveData frames))
  | .release frames => some { e with path := e.path.releaseDataReservation frames }
  | .schedule => some { e with path := e.path.scheduleEnter }
  | .take nativeTxMaxInflight =>
      if e.path.scheduler = .looping then
        some { e with path := e.path.scheduleTake nativeTxMaxInflight }
      else none
  | .post error => e.post error
  | .released =>
      if e.path.scheduler = .releasing then
        some { e with path := { e.path with scheduler := .idle } }
      else none
  | .txComplete i => (e.path.txComplete i).map fun path => { e with path := path }
  | .repost i => e.repost i
  | .sendCredit i alloc => e.sendCredit i alloc
  | .foldBack i => e.foldBack i
  | .addCredit i => e.addCredit i

def receive (e : LinkEnd) (flight : Flight) : LinkEnd :=
  let result := e.path.rxComplete flight.frame
  { e with
    path := result.1
    rx := .reposting flight.charged result.2.returnRxCredits result.2.addRemoteCredits :: e.rx }

end LinkEnd

/-! ## The link -/

abbrev Link := Side → LinkEnd

inductive LinkAction
  | local (side : Side) (action : EndAction)
  | deliver (side : Side) (i : Nat)
  deriving DecidableEq, Repr

def Link.step (link : Link) : LinkAction → Option Link
  | .local side action => ((link side).step action).map (Function.update link side)
  | .deliver side i =>
      (link side.peer).wire[i]?.map fun flight =>
        Function.update
          (Function.update link side.peer
            { link side.peer with wire := (link side.peer).wire.eraseIdx i })
          side ((link side).receive flight)

/-- A path after `tbv_path_alloc_rings` and `tbv_path_start_rings`. -/
def Path.started (cfg : PathConfig) : Path where
  state := .ringStarted
  cfg := cfg
  txFrameCount := cfg.txRingSize
  txFree := cfg.txRingSize
  txControlFree := min (max (cfg.txRingSize * 4) 64) 4096
  txControlQueue := []
  txDataQueue := []
  txControlQueued := 0
  txDataQueued := 0
  txDataReserved := 0
  txDataQueueLimit := cfg.txRingSize * 64
  txRemoteDataCredits := 0
  txRemoteDataCreditMax := 0
  rxDataCreditPending := 0
  txInflight := 0
  txRawStream := {}
  txPosted := []
  scheduler := .idle
  rxRaw := {}

/-- Both rails have learned the other's receive ring size; nothing has been sent. -/
def Link.initial (cfg : Side → PathConfig) : Link := fun side =>
  { path := (Path.started (cfg side)).setRemoteRxCapacity (cfg side.peer).rxRingSize
    wire := []
    rx := [] }

def linkSystem (cfg : Side → PathConfig) : Lib.System Link LinkAction where
  init link := link = Link.initial cfg
  step := Link.step

end ThunderboltVerbs.DataPath
