import ThunderboltVerbs.DataPath.Credit

/-!
# Rails and control messages (`kernel/native_control.c`, `proto/native_wire.h`)
-/

namespace ThunderboltVerbs.Control
open Proto DataPath

inductive WireOp
  | hello | helloAck | ready | readyAck
  deriving DecidableEq, Repr

/-- The fields of `tbv_native_wire_hello` that a receiver reads. -/
structure Hello where
  railId : Nat
  txHop : Nat
  rxHop : Nat
  transmitPath : Nat
  rxRingSize : Nat
  deriving DecidableEq, Repr

structure Message where
  op : WireOp
  hello : Hello
  deriving DecidableEq, Repr

def toInt32 (n : Nat) : Int := if n < 2 ^ 31 then n else n - 2 ^ 32

def u32Of : Option Nat → Nat
  | some n => n
  | none => u32Max

structure Rail where
  link : LinkEnd
  txHop : Option Nat := none
  rxHop : Option Nat := none
  localTransmitPath : Option Nat := none
  pathRemoteTransmitPath : Int := -1
  remoteRailId : Nat := 0
  remoteTransmitPath : Int := -1
  remoteTxHop : Int := -1
  remoteRxHop : Int := -1
  nativeAttempts : Nat := 0
  nativeTunnelAttempts : Nat := 0
  nativeReadyAttempts : Nat := 0
  nativeLastError : Option Errno := none
  nativeNegotiated : Bool := false
  nativeReadySent : Bool := false
  nativeRemoteReady : Bool := false
  nativeWorkStop : Bool := false
  removing : Bool := false
  /-- `native_work_state` is set. -/
  queued : Bool := false
  /-- The delayed work is pending. -/
  scheduled : Bool := false
  deriving DecidableEq

namespace Rail

def state (rail : Rail) : PathState := rail.link.path.state

def setPath (rail : Rail) (path : Path) : Rail := { rail with link := { rail.link with path := path } }

/-- `tbv_rail_data_ready` on a native rail. -/
def dataReady (rail : Rail) : Bool :=
  rail.state = .tunnelEnabled && rail.nativeReadySent && rail.nativeRemoteReady

def publishable (rail : Rail) : Bool := rail.dataReady && !rail.removing

def fillHello (rail : Rail) (railId : Nat) : Hello where
  railId := railId
  txHop := u32Of rail.txHop
  rxHop := u32Of rail.rxHop
  transmitPath := u32Of rail.localTransmitPath
  rxRingSize := rail.link.path.cfg.rxRingSize

/-- What `tbv_native_control_apply_remote` writes to the rail it finds. -/
def applyRemote (rail : Rail) (remote : Hello) : Rail :=
  { rail with
    nativeNegotiated := true
    remoteRailId := remote.railId
    remoteTransmitPath := toInt32 remote.transmitPath
    remoteTxHop := toInt32 remote.txHop
    remoteRxHop := toInt32 remote.rxHop
    link := { rail.link with path := rail.link.path.setRemoteRxCapacity remote.rxRingSize } }

/-- `tbv_path_enable_tunnel`; `outcome` is the answer of the HopID allocator and of
`tb_xdomain_enable_paths`. -/
def enableTunnel (rail : Rail) (remoteTransmitPath : Int) (outcome : Option Errno) :
    Rail × Option Errno :=
  if rail.state ≠ .ringStarted then (rail, some .eInval)
  else if 0 ≤ rail.pathRemoteTransmitPath ∧ rail.pathRemoteTransmitPath ≠ remoteTransmitPath then
    (rail, some .eBusy)
  else
    match outcome with
    | some error => ({ rail with pathRemoteTransmitPath := -1 }, some error)
    | none =>
        ({ rail.setPath { rail.link.path with state := .tunnelEnabled } with
            pathRemoteTransmitPath := remoteTransmitPath }, none)

def startRings (rail : Rail) (txHop rxHop transmitPath : Nat) : Rail :=
  { rail.setPath { rail.link.path with state := .ringStarted } with
    txHop := some txHop, rxHop := some rxHop, localTransmitPath := some transmitPath }

def queueRail (rail : Rail) : Rail :=
  { rail with
    queued := true
    nativeWorkStop := false
    nativeAttempts := 0
    nativeTunnelAttempts := 0
    nativeReadyAttempts := 0
    nativeLastError := none
    nativeReadySent := false
    nativeRemoteReady := false
    scheduled := true }

def canKick (rail : Rail) : Bool := rail.queued && !rail.nativeWorkStop && rail.state ≠ .stopped

def added (cfg : PathConfig) : Rail where
  link := { path := { Path.started cfg with state := .new }, wire := [], rx := [] }

end Rail

end ThunderboltVerbs.Control
