import ThunderboltVerbs.Driver.Qp

/-!
# The queue pairs and the memory regions of a device

Regions are published under keys of one counter, in one table (`tbv_mr_publish`). A queue pair finds a
region by its key.
-/

namespace ThunderboltVerbs.Driver
open Proto Verbs Receive Lib

structure MrAccess where
  localWrite : Bool
  remoteWrite : Bool
  remoteRead : Bool
  deriving DecidableEq, Repr

structure Region where
  pd : Nat
  mr : Mr
  deriving DecidableEq, Repr

/-- What the driver asks the kernel: `ib_modify_qp_is_ok`, and whether `ib_umem_get` pins a range. -/
structure Kernel where
  modifyQpIsOk : QpState → QpState → QpAttr → Bool
  umemGet : Nat → Nat → Bool

structure Host where
  mrKey : Nat
  regions : Nat → Option Region
  qps : List NativeQp

inductive HostAction
  | createQp (pd qpNum maxSendWr recvqSize : Nat) (striping : Bool) (cq : Cq)
  | regUserMr (pd start length virtAddr : Nat) (access : MrAccess)
  | getDmaMr (pd : Nat) (access : MrAccess)
  | deregMr (key : Nat)
  | modifyQp (i : Nat) (env : RxEnv) (attr : QpAttr) (sent : Bool)
  | qp (i : Nat) (action : QpAction)

/-- `tbv_create_qp` of a native RC queue pair. -/
def NativeQp.create (pd qpNum maxSendWr recvqSize : Nat) (striping : Bool) (cq : Cq) : NativeQp where
  pd := pd
  tx :=
    { state := .reset, refs := 1, qpNum, destQpKnown := false, destQpNum := 0, retryCnt := 0
      rnrRetry := 0, maxSendWr, sendPsn := 0 }
  rx := { qpNum, remoteWrite := false, striping, rxExpectedPsn := 0, cq }
  recvqSize := recvqSize

def QpAction.withMrs (mrs : Nat → Option Mr) : QpAction → QpAction
  | .postSend device wr answers => .postSend { device with mrs } wr answers
  | .postRecv env wrs sent => .postRecv { env with mrs } wrs sent
  | .frame env incoming => .frame { env with mrs } incoming
  | .readWork env request => .readWork { env with mrs } request
  | .timeoutRx env timeout => .timeoutRx { env with mrs } timeout
  | .errorWork env => .errorWork { env with mrs }
  | action => action

/-- READ work runs for a request that the receive half handed over. -/
def NativeQp.runs (q : NativeQp) : QpAction → Bool
  | .readWork _ request => q.rx.trace.contains (.dispatched request)
  | _ => true

namespace Host

def mrs (host : Host) (key : Nat) : Option Mr := (host.regions key).map Region.mr

def nextKey (host : Host) : Nat := (host.mrKey + 1) % 2 ^ 32

/-- `tbv_mr_publish`; a key that is taken is not published again. -/
def publish (host : Host) (region : Region) : Host × List Response :=
  let key := host.nextKey
  match host.regions key with
  | some _ => ({ host with mrKey := key }, [.returned (some .eBusy)])
  | none =>
      ({ host with mrKey := key, regions := Function.update host.regions key (some region) },
        [.returned none])

def regUserMr (kernel : Kernel) (host : Host) (pd start length virtAddr : Nat) (access : MrAccess) :
    Host × List Response :=
  if length = 0 ∨ kernel.umemGet start length = false then (host, [.returned (some .eInval)])
  else
    host.publish
      { pd, mr := { start, length, virtAddr, localWrite := access.localWrite
                    remoteWrite := access.remoteWrite, remoteRead := access.remoteRead } }

def getDmaMr (host : Host) (pd : Nat) (access : MrAccess) : Host × List Response :=
  host.publish
    { pd, mr := { start := 0, length := 2 ^ 64 - 1, dmaMr := true, localWrite := access.localWrite
                  remoteWrite := access.remoteWrite, remoteRead := access.remoteRead } }

def setQp (host : Host) (i : Nat) (outcome : Outcome) : Host × List Response :=
  ({ host with qps := host.qps.set i outcome.1 }, outcome.2)

def step (kernel : Kernel) (host : Host) : HostAction → Option (Host × List Response)
  | .createQp pd qpNum maxSendWr recvqSize striping cq =>
      if maxSendWr ≤ maxQpWr ∧ recvqSize ≤ maxQpWr ∧ host.qps.all fun q => q.tx.qpNum ≠ qpNum then
        some ({ host with qps := host.qps ++ [.create pd qpNum maxSendWr recvqSize striping cq] },
          [.returned none])
      else none
  | .regUserMr pd start length virtAddr access =>
      some (host.regUserMr kernel pd start length virtAddr access)
  | .getDmaMr pd access => some (host.getDmaMr pd access)
  | .deregMr key =>
      some ({ host with regions := Function.update host.regions key none }, [.returned none])
  | .modifyQp i env attr sent =>
      host.qps[i]?.map fun q =>
        host.setQp i (q.modifyQp kernel.modifyQpIsOk { env with mrs := host.mrs } attr sent)
  | .qp i action =>
      host.qps[i]?.bind fun q =>
        if q.runs action then (q.step (action.withMrs host.mrs)).map (host.setQp i) else none

end Host

def device (kernel : Kernel) : System Host HostAction where
  init host := host = { mrKey := 1, regions := fun _ => none, qps := [] }
  step host action := (host.step kernel action).map Prod.fst

end ThunderboltVerbs.Driver
