import ThunderboltVerbs.DataPath.Link
import ThunderboltVerbs.Lib.Holding

/-!
# The resources of a path (`kernel/path.c`)

`tbv_path_alloc_rings` obtains an in-HopID, two rings, an out-HopID, staging frames and packets; a step that
fails unwinds the steps before it. Functions return 0 or a negative error. `uses` has every HopID and
ring that was obtained or released, the newest first.
-/

namespace ThunderboltVerbs.DataPath
open Lib

def eNoMem : Int := -12
def eBusy : Int := -16
def eInval : Int := -22
def eProbeDefer : Int := -517

def controlQueueMultiplier : Nat := 4
def dataQueueMultiplier : Nat := 64
def dataPacketPoolLimit : Nat := 1024

inductive Resource
  | inHop (hop : Int)
  | outHop (hop : Int)
  | ring (ring : Nat)
  deriving DecidableEq, Repr

structure ResourceConfig where
  txRingSize : Nat
  rxRingSize : Nat
  receivePath : Int := -1
  apple : Bool := false
  deriving DecidableEq, Repr

/-- An array is given by the number of its entries, and an entry by its index. -/
@[ext] structure PathResources where
  cfg : ResourceConfig
  state : PathState := .new
  remoteTransmitPath : Int := -1
  localTransmitPath : Int := -1
  txRing : Option Nat := none
  rxRing : Option Nat := none
  txFrames : Option Nat := none
  rxFrames : Option Nat := none
  txControlPackets : Option Nat := none
  txDataPackets : Option Nat := none
  txFree : List Nat := []
  txControlFree : List Nat := []
  txDataFree : List Nat := []
  uses : List (Use Resource) := []
  deriving DecidableEq

/-- What `tbv_path_alloc_frames` finds; `frame i` is the error of the buffer or the mapping of frame `i`, or 0. -/
structure FrameAnswers where
  dmaReady : Bool
  array : Bool
  frame : Nat → Int

/-- What the calls of `tbv_path_alloc_rings` return. -/
structure AllocAnswers where
  inHop : Int
  txRing : Option Nat
  outHop : Int
  rxRing : Option Nat
  throttling : Int
  txFrames : FrameAnswers
  rxFrames : FrameAnswers
  controlPackets : Bool
  dataPackets : Bool
  dataPacket : Nat → Int

namespace PathResources

/-! ## HopIDs and rings -/

def obtainInHop (p : PathResources) (hop : Int) : PathResources :=
  { p with remoteTransmitPath := hop, uses := .obtained (.inHop hop) :: p.uses }

def releaseInHop (p : PathResources) : PathResources :=
  { p with remoteTransmitPath := -1, uses := .released (.inHop p.remoteTransmitPath) :: p.uses }

def returnInHop (p : PathResources) (hop : Int) : PathResources :=
  if 0 ≤ hop then { p with uses := .released (.inHop hop) :: .obtained (.inHop hop) :: p.uses } else p

def obtainOutHop (p : PathResources) (hop : Int) : PathResources :=
  { p with localTransmitPath := hop, uses := .obtained (.outHop hop) :: p.uses }

def releaseOutHop (p : PathResources) : PathResources :=
  { p with localTransmitPath := -1, uses := .released (.outHop p.localTransmitPath) :: p.uses }

def obtainTxRing (p : PathResources) (ring : Nat) : PathResources :=
  { p with txRing := some ring, uses := .obtained (.ring ring) :: p.uses }

def freeTxRing (p : PathResources) : PathResources :=
  match p.txRing with
  | none => p
  | some ring => { p with txRing := none, uses := .released (.ring ring) :: p.uses }

def obtainRxRing (p : PathResources) (ring : Nat) : PathResources :=
  { p with rxRing := some ring, uses := .obtained (.ring ring) :: p.uses }

def freeRxRing (p : PathResources) : PathResources :=
  match p.rxRing with
  | none => p
  | some ring => { p with rxRing := none, uses := .released (.ring ring) :: p.uses }

/-! ## Frames and packets -/

def setUp (entry : Nat → Int) (i : Nat) : Nat → List Nat × Int
  | 0 => ([], 0)
  | left + 1 =>
      if entry i ≠ 0 then ([], entry i)
      else
        let rest := setUp entry (i + 1) left
        (i :: rest.1, rest.2)

/-- `tbv_path_alloc_frames` for the transmit ring. A frame goes to `tx_free` as soon as it is set up. -/
def allocTxFrames (p : PathResources) (answers : FrameAnswers) : PathResources × Int :=
  if !answers.dmaReady then (p, eProbeDefer)
  else if !answers.array then (p, eNoMem)
  else
    let outcome := setUp answers.frame 0 p.cfg.txRingSize
    let p := { p with txFree := p.txFree ++ outcome.1 }
    if outcome.2 ≠ 0 then (p, outcome.2) else ({ p with txFrames := some p.cfg.txRingSize }, 0)

def allocRxFrames (p : PathResources) (answers : FrameAnswers) : PathResources × Int :=
  if !answers.dmaReady then (p, eProbeDefer)
  else if !answers.array then (p, eNoMem)
  else
    let outcome := setUp answers.frame 0 p.cfg.rxRingSize
    if outcome.2 ≠ 0 then (p, outcome.2) else ({ p with rxFrames := some p.cfg.rxRingSize }, 0)

def freeTxFrames (p : PathResources) : PathResources :=
  if p.txFrames = none ∨ p.txRing = none then p else { p with txFrames := none, txFree := [] }

def freeRxFrames (p : PathResources) : PathResources :=
  if p.rxFrames = none ∨ p.rxRing = none then p else { p with rxFrames := none }

def controlPacketCount (p : PathResources) : Nat := min (max (p.cfg.txRingSize * controlQueueMultiplier) 64) 4096

def allocControlPackets (p : PathResources) (array : Bool) : PathResources × Int :=
  if !array then (p, eNoMem)
  else
    ({ p with
        txControlFree := p.txControlFree ++ List.range p.controlPacketCount
        txControlPackets := some p.controlPacketCount }, 0)

def freeControlPackets (p : PathResources) : PathResources :=
  { p with txControlPackets := none, txControlFree := [] }

def dataPacketCount (p : PathResources) : Nat := min (p.cfg.txRingSize * dataQueueMultiplier) dataPacketPoolLimit

def allocDataPackets (p : PathResources) (array : Bool) (packet : Nat → Int) : PathResources × Int :=
  if !p.cfg.apple then (p, 0)
  else if !array then (p, eNoMem)
  else
    let outcome := setUp packet 0 p.dataPacketCount
    if outcome.2 ≠ 0 then ({ p with txDataFree := [] }, eNoMem)
    else
      ({ p with
          txDataFree := p.txDataFree ++ outcome.1
          txDataPackets := some p.dataPacketCount }, 0)

def freeDataPackets (p : PathResources) : PathResources := { p with txDataPackets := none, txDataFree := [] }

/-! ## `tbv_path_alloc_rings` -/

def errInHop (p : PathResources) : PathResources := if 0 ≤ p.remoteTransmitPath then p.releaseInHop else p
def errTxRing (p : PathResources) : PathResources := p.freeTxRing.errInHop
def errOutHop (p : PathResources) : PathResources := p.releaseOutHop.errTxRing
def errRxRing (p : PathResources) : PathResources := p.freeRxRing.errOutHop
def errTxFrames (p : PathResources) : PathResources := p.freeTxFrames.errRxRing
def errRxFrames (p : PathResources) : PathResources := p.freeRxFrames.errTxFrames
def errControlPackets (p : PathResources) : PathResources := p.freeControlPackets.errRxFrames

def allocBuffers (p : PathResources) (answers : AllocAnswers) : PathResources × Int :=
  if answers.throttling ≠ 0 then (p.errRxRing, answers.throttling)
  else
    let tx := p.allocTxFrames answers.txFrames
    if tx.2 ≠ 0 then (tx.1.errRxRing, tx.2)
    else
      let rx := tx.1.allocRxFrames answers.rxFrames
      if rx.2 ≠ 0 then (rx.1.errTxFrames, rx.2)
      else
        let control := rx.1.allocControlPackets answers.controlPackets
        if control.2 ≠ 0 then (control.1.errRxFrames, control.2)
        else
          let data := control.1.allocDataPackets answers.dataPackets answers.dataPacket
          if data.2 ≠ 0 then (data.1.errControlPackets, data.2)
          else ({ data.1 with state := .ringAllocated }, 0)

def allocQueues (p : PathResources) (answers : AllocAnswers) : PathResources × Int :=
  match answers.txRing with
  | none => (p.errInHop, eNoMem)
  | some ring =>
      let p := p.obtainTxRing ring
      if answers.outHop < 0 then (p.errTxRing, answers.outHop)
      else
        let p := p.obtainOutHop answers.outHop
        match answers.rxRing with
        | none => (p.errOutHop, eNoMem)
        | some ring => (p.obtainRxRing ring).allocBuffers answers

def allocRings (p : PathResources) (answers : AllocAnswers) : PathResources × Int :=
  if p.state ≠ .new ∧ p.state ≠ .stopped then (p, eBusy)
  else if 0 ≤ p.cfg.receivePath then
    if answers.inHop ≠ p.cfg.receivePath then
      (p.returnInHop answers.inHop, if answers.inHop < 0 then answers.inHop else eBusy)
    else (p.obtainInHop answers.inHop).allocQueues answers
  else p.allocQueues answers

/-! ## The tunnel -/

/-- `error` is what a post of a receive frame returns. -/
def startRings (p : PathResources) (error : Int) : PathResources × Int :=
  if p.state ≠ .ringAllocated then (p, eInval) else ({ p with state := .ringStarted }, error)

def enablePaths (p : PathResources) (error : Int) : PathResources × Int :=
  if error ≠ 0 then (p.releaseInHop, error) else ({ p with state := .tunnelEnabled }, 0)

def enableTunnel (p : PathResources) (remoteTransmitPath inHop error : Int) : PathResources × Int :=
  if p.state ≠ .ringStarted then (p, eInval)
  else if 0 ≤ p.remoteTransmitPath then
    if p.remoteTransmitPath ≠ remoteTransmitPath then (p, eBusy) else p.enablePaths error
  else if inHop ≠ remoteTransmitPath then (p.returnInHop inHop, if inHop < 0 then inHop else eBusy)
  else (p.obtainInHop inHop).enablePaths error

def disableTunnel (p : PathResources) (error : Int) : PathResources × Int :=
  if p.state ≠ .tunnelEnabled then (p, 0)
  else if error ≠ 0 then (p, error)
  else ({ p.releaseInHop with state := .ringStarted }, 0)

/-- The first part of `tbv_path_destroy`, up to the queues. -/
def stopTunnel (p : PathResources) (error : Int) : PathResources :=
  if p.state = .tunnelEnabled then
    let outcome := p.disableTunnel error
    let p := if outcome.2 ≠ 0 ∧ 0 ≤ outcome.1.remoteTransmitPath then outcome.1.releaseInHop else outcome.1
    { p with state := .ringAllocated }
  else
    let p := if p.state = .ringStarted then { p with state := .ringAllocated } else p
    p.errInHop

def destroyRx (p : PathResources) : PathResources := if p.rxRing = none then p else p.freeRxFrames.freeRxRing

def destroyOutHop (p : PathResources) : PathResources := if 0 ≤ p.localTransmitPath then p.releaseOutHop else p

def destroyTx (p : PathResources) : PathResources := if p.txRing = none then p else p.freeTxFrames.freeTxRing

def destroy (p : PathResources) (error : Int) : PathResources :=
  let p := (p.stopTunnel error).destroyRx.destroyOutHop.destroyTx.freeDataPackets.freeControlPackets
  { p with state := .stopped }

end PathResources

/-! ## Steps -/

/-- While the rings run, frames and packets leave and enter the free lists. The callers of
`tbv_path_enable_tunnel` do not ask for a negative HopID, and a call returns a HopID or an error. -/
inductive ResourceAction
  | allocRings (answers : AllocAnswers)
  | startRings (error : Int)
  | traffic (txFree txControlFree txDataFree : List Nat)
  | enableTunnel (remoteTransmitPath : Nat) (inHop error : Int)
  | disableTunnel (error : Int)
  | destroy (error : Int)

def PathResources.step (p : PathResources) : ResourceAction → Option PathResources
  | .allocRings answers => some (p.allocRings answers).1
  | .startRings error => some (p.startRings error).1
  | .traffic txFree txControlFree txDataFree =>
      if p.state = .ringStarted ∨ p.state = .tunnelEnabled then
        some { p with txFree, txControlFree, txDataFree }
      else none
  | .enableTunnel remoteTransmitPath inHop error => some (p.enableTunnel remoteTransmitPath inHop error).1
  | .disableTunnel error => some (p.disableTunnel error).1
  | .destroy error => some (p.destroy error)

def resourceSystem (cfg : ResourceConfig) : System PathResources ResourceAction where
  init p := p = { cfg }
  step := PathResources.step

end ThunderboltVerbs.DataPath
