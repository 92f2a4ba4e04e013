import ThunderboltVerbs.Driver.Confinement

/-!
# Protection domains

Regions are looked up by key alone: neither the domain of a region nor that of a queue pair is compared
with anything. Renaming the domains of a device changes none of its answers.
-/

namespace ThunderboltVerbs.Driver
open Proto Verbs Receive Lib

/-! ## Renaming the domains -/

def Region.rename (f : Nat → Nat) (region : Region) : Region := { region with pd := f region.pd }

def NativeQp.rename (f : Nat → Nat) (q : NativeQp) : NativeQp := { q with pd := f q.pd }

def Host.rename (f : Nat → Nat) (host : Host) : Host where
  mrKey := host.mrKey
  regions key := (host.regions key).map (Region.rename f)
  qps := host.qps.map (NativeQp.rename f)

def HostAction.rename (f : Nat → Nat) : HostAction → HostAction
  | .createQp pd qpNum maxSendWr recvqSize striping cq =>
      .createQp (f pd) qpNum maxSendWr recvqSize striping cq
  | .regUserMr pd start length virtAddr access => .regUserMr (f pd) start length virtAddr access
  | .getDmaMr pd access => .getDmaMr (f pd) access
  | action => action

def Outcome.rename (f : Nat → Nat) (outcome : Outcome) : Outcome := (outcome.1.rename f, outcome.2)

def Host.run (kernel : Kernel) : Host → List HostAction → Option (Host × List (List Response))
  | host, [] => some (host, [])
  | host, action :: rest => do
      let (host, responses) ← host.step kernel action
      let (host, later) ← run kernel host rest
      some (host, responses :: later)

variable (f : Nat → Nat)

@[simp] theorem Host.mrs_rename (host : Host) : (host.rename f).mrs = host.mrs := by
  funext key
  simp only [Host.mrs, Host.rename, Option.map_map]
  rfl

/-! ## Queue pairs -/

namespace NativeQp

variable (q : NativeQp) (env : RxEnv)

theorem markError_rename : (q.rename f).markError env = (q.markError env).rename f := by
  simp only [markError, apply_ite (Outcome.rename f)]
  rfl

theorem advertiseRecvCredits_rename (sent : Bool) :
    (q.rename f).advertiseRecvCredits sent = (q.advertiseRecvCredits sent).rename f := by
  simp only [advertiseRecvCredits, apply_ite (Outcome.rename f)]
  rfl

theorem postRecvOne_rename (mrs : Nat → Option Mr) (wr : RecvWr) :
    (q.rename f).postRecvOne mrs wr = (q.postRecvOne mrs wr).map (rename f) := by
  simp only [postRecvOne]
  split
  · rfl
  split
  · rfl
  simp only [apply_ite (Except.map (rename f))]
  rfl

theorem postRecvs_rename (mrs : Nat → Option Mr) (wrs : List RecvWr) :
    postRecvs mrs wrs (q.rename f) = ((postRecvs mrs wrs q).1.rename f, (postRecvs mrs wrs q).2) := by
  induction wrs generalizing q with
  | nil => rfl
  | cons wr rest ih =>
      simp only [postRecvs, postRecvOne_rename]
      cases q.postRecvOne mrs wr with
      | error error => rfl
      | ok next => exact ih next

theorem postRecv_rename (wrs : List RecvWr) (sent : Bool) :
    (q.rename f).postRecv env wrs sent = (q.postRecv env wrs sent).rename f := by
  simp only [postRecv, postRecvs_rename, advertiseRecvCredits_rename]
  rw [apply_ite (Outcome.rename f), apply_ite (Outcome.rename f)]
  cases (postRecvs env.mrs wrs q).2 <;> rfl

theorem modifyQp_rename (isOk : QpState → QpState → QpAttr → Bool) (attr : QpAttr) (sent : Bool) :
    (q.rename f).modifyQp isOk env attr sent = (q.modifyQp isOk env attr sent).rename f := by
  have flushed : (if (q.rename f).tx.state ≠ .err ∧ attr.state = some .err then
      ((q.rename f).applyAttr attr).flushError env else ((q.rename f).applyAttr attr, [])) =
      Outcome.rename f (if q.tx.state ≠ .err ∧ attr.state = some .err then (q.applyAttr attr).flushError env
        else (q.applyAttr attr, [])) := by
    rw [apply_ite (Outcome.rename f)]
    rfl
  have valid : (q.rename f).validateModifyQp isOk attr = q.validateModifyQp isOk attr := rfl
  simp only [modifyQp, flushed, valid]
  split
  · rfl
  generalize (if q.tx.state ≠ .err ∧ attr.state = some .err then (q.applyAttr attr).flushError env
    else (q.applyAttr attr, [])) = outcome
  simp only [Outcome.rename, advertiseRecvCredits_rename]
  split <;> rfl

theorem rxNativeFrame_rename (frame : Frame) :
    (q.rename f).rxNativeFrame env frame = (q.rxNativeFrame env frame).rename f := by
  simp only [rxNativeFrame]
  rw [apply_ite (Outcome.rename f), apply_ite (Outcome.rename f), apply_ite (Outcome.rename f)]
  have credited : (q.rename f).acceptRecvCredit frame.header = (q.acceptRecvCredit frame.header).rename f := by
    simp only [acceptRecvCredit, apply_ite (rename f)]
    rfl
  have acked : (q.rename f).acked env frame.header = (q.acked env frame.header).rename f := by
    simp only [NativeQp.acked]
    cases sendAckStatus frame.header.immData with
    | none => rfl
    | some status =>
        let result := q.tx.handleSendAck frame.header.psn status env.now
        have marked : (if result.2.any fun entry => entry.2.completionStatus.isSome then
              { q.rename f with tx := result.1 }.markError env else ({ q.rename f with tx := result.1 }, [])) =
            Outcome.rename f (if result.2.any fun entry => entry.2.completionStatus.isSome then
              { q with tx := result.1 }.markError env else ({ q with tx := result.1 }, [])) := by
          rw [apply_ite (Outcome.rename f), ← markError_rename]
          rfl
        exact congrArg (fun outcome : Outcome => (outcome.1, sendsDone result.2 ++ outcome.2)) marked
  have answered : (q.rename f).readAcked frame.header = (q.readAcked frame.header).rename f := by
    simp only [readAcked, apply_ite (Outcome.rename f)]
    rfl
  rw [credited, acked, answered]
  congr 2
  split <;> rfl

theorem readReqWork_rename (env : ReadWorkEnv) (request : DataHeader) :
    (q.rename f).readReqWork env request = (q.readReqWork env request).rename f := by
  have region : (q.rename f).readReqMr env.mrs request = q.readReqMr env.mrs request := rfl
  simp only [readReqWork, region]
  split
  · rfl
  simp only [apply_ite (Outcome.rename f)]
  congr 3
  split <;> rfl

theorem timeoutRx_rename (timeout : Nat) :
    (q.rename f).timeoutRx env timeout = (q.timeoutRx env timeout).rename f := by
  let reaped := q.received (q.rx.timeoutReapRx env timeout)
  have marked : (if rxExpired q.rx env.now timeout then (reaped.1.rename f).markError env
        else (reaped.1.rename f, [])) =
      Outcome.rename f (if rxExpired q.rx env.now timeout then reaped.1.markError env else (reaped.1, [])) := by
    rw [apply_ite (Outcome.rename f), ← markError_rename]
    rfl
  exact congrArg (fun outcome : Outcome => (outcome.1, reaped.2 ++ outcome.2)) marked

theorem step_rename (action : QpAction) :
    (q.rename f).step action = (q.step action).map (Outcome.rename f) := by
  cases action with
  | postSend device wr answers =>
      simp only [step, Option.map_map]
      rfl
  | postRecv env wrs sent => exact congrArg some (postRecv_rename f q env wrs sent)
  | frame env incoming => exact congrArg some (rxNativeFrame_rename f q env incoming)
  | readWork env request => exact congrArg some (readReqWork_rename f q env request)
  | timeoutRx env timeout => exact congrArg some (timeoutRx_rename f q env timeout)
  | errorWork env => exact congrArg some (markError_rename f q env)
  | txDone | timeoutTx | retried | pollCq => rfl

end NativeQp

/-! ## The device -/

theorem Host.publish_rename (host : Host) (region : Region) :
    (host.rename f).publish (region.rename f) =
      ((host.publish region).1.rename f, (host.publish region).2) := by
  simp only [Host.publish]
  have key : (host.rename f).nextKey = host.nextKey := rfl
  rw [key]
  cases taken : host.regions host.nextKey with
  | some other => simp [Host.rename, taken]
  | none =>
      simp only [Host.rename, taken, Option.map_none, Prod.mk.injEq, Host.mk.injEq, true_and, and_true]
      funext other
      simp only [Function.update_apply]
      split <;> rfl

theorem Host.setQp_rename (host : Host) (i : Nat) (outcome : Outcome) :
    (host.rename f).setQp i (outcome.rename f) =
      ((host.setQp i outcome).1.rename f, (host.setQp i outcome).2) := by
  simp [Host.setQp, Host.rename, Outcome.rename, List.map_set]

theorem Host.step_rename (kernel : Kernel) (host : Host) (action : HostAction) :
    (host.rename f).step kernel (action.rename f) =
      (host.step kernel action).map fun result => (result.1.rename f, result.2) := by
  have published (pd : Nat) (mr : Mr) : (host.rename f).publish { pd := f pd, mr } =
      ((host.publish { pd, mr }).1.rename f, (host.publish { pd, mr }).2) :=
    Host.publish_rename f host { pd, mr }
  cases action with
  | createQp pd qpNum maxSendWr recvqSize striping cq =>
      simp only [Host.step, HostAction.rename]
      have names : ((host.rename f).qps.all fun q => q.tx.qpNum ≠ qpNum) =
          host.qps.all fun q => q.tx.qpNum ≠ qpNum := by
        simp only [Host.rename, List.all_map]
        rfl
      rw [names]
      split
      · simp only [Option.map_some, Host.rename, List.map_append]
        rfl
      · rfl
  | regUserMr pd start length virtAddr access =>
      simp only [Host.step, HostAction.rename, Host.regUserMr, Option.map_some, Option.some.injEq]
      split
      · rfl
      · exact published pd _
  | getDmaMr pd access => exact congrArg some (published pd _)
  | deregMr key =>
      simp only [Host.step, HostAction.rename, Option.map_some, Host.rename, Option.some.injEq, Prod.mk.injEq,
        Host.mk.injEq, true_and, and_true]
      funext other
      simp only [Function.update_apply]
      split <;> rfl
  | modifyQp i env attr sent =>
      simp only [Host.step, HostAction.rename, Host.mrs_rename]
      cases found : host.qps[i]? with
      | none => simp [Host.rename, found]
      | some q =>
          simp only [Host.rename, List.getElem?_map, found, Option.map_some]
          rw [NativeQp.modifyQp_rename]
          exact congrArg some (Host.setQp_rename f host i _)
  | qp i action =>
      simp only [Host.step, HostAction.rename, Host.mrs_rename]
      cases found : host.qps[i]? with
      | none => simp [Host.rename, found]
      | some q =>
          have renamed : (host.rename f).qps[i]? = some (q.rename f) := by simp [Host.rename, found]
          rw [renamed]
          simp only [Option.bind_some]
          have runs : (q.rename f).runs action = q.runs action := rfl
          rw [runs, NativeQp.step_rename]
          split
          · cases q.step (action.withMrs host.mrs) with
            | none => rfl
            | some outcome => exact congrArg some (Host.setQp_rename f host i outcome)
          · rfl

/-- Whatever names the domains have, a device answers every list of actions alike: a key is good or bad
whichever domain its region and the queue pair are in. -/
theorem domains_ignored (kernel : Kernel) (host : Host) (actions : List HostAction) (f : Nat → Nat) :
    (host.rename f).run kernel (actions.map (HostAction.rename f)) =
      (host.run kernel actions).map fun result => (result.1.rename f, result.2) := by
  induction actions generalizing host with
  | nil => rfl
  | cons action rest ih =>
      simp only [List.map_cons, Host.run, Host.step_rename]
      cases host.step kernel action with
      | none => rfl
      | some result =>
          simp only [Option.map_some, Option.bind_eq_bind, Option.bind_some, ih]
          cases result.1.run kernel rest <;> rfl

/-! ## A key of another domain -/

def Response.key : Response → Option Nat
  | .effect (.wrote rkey _ _) | .effect (.snapped rkey _ _) => some rkey
  | .effect (.placed lkey _ _) => some lkey
  | _ => none

def QpAction.keys : QpAction → List Nat
  | .postSend _ wr _ => wr.sgList.map Sge.lkey
  | .postRecv _ wrs _ => wrs.flatMap fun wr => wr.sgList.map Sge.lkey
  | _ => []

/-- Nothing that the step reads, writes or accepts to be read or written is in another domain than the
queue pair. -/
def Isolates (host : Host) (q : NativeQp) (action : QpAction) (responses : List Response) : Prop :=
  ∀ key, (key ∈ responses.filterMap Response.key ∨ key ∈ action.keys ∧ .returned none ∈ responses) →
    ∀ region, host.regions key = some region → region.pd = q.pd

def connectForeign : List HostAction :=
  [.createQp 0 5 4 4 false { cqe := 4 },
    .regUserMr 1 8192 64 4096 { localWrite := true, remoteWrite := true, remoteRead := true },
    .modifyQp 0 noEnv { state := some .init, access := some ⟨true, true⟩ } true,
    .modifyQp 0 noEnv { state := some .rtr, destQpNum := some 9, rqPsn := some 0 } true,
    .modifyQp 0 noEnv { state := some .rts, sqPsn := some 0 } true]

def readByte : DataHeader :=
  { opcode := .rdmaReadReq, flags := flagLast, destQp := 5, srcQp := 9, immData := 1, remoteAddr := 4096, rkey := 2 }

def foreignSge : Sge := { addr := 8192, length := 1, lkey := 2 }

def idleAnswers : PostAnswers where
  ctx := some 1
  readFrame := true
  readSend := none
  collected := []
  selected := some { reserve := none, prepare := none, enqueue := none }
  fragment _ := { frame := true, copy := none, owned := true }

/-- The five ways to a region: a SEND, a READ and a receive request, a WRITE and the work of a READ. -/
def foreignActions : List QpAction :=
  [.postSend { mrs := fun _ => none, nativeFragmentStriping := false }
      { wrId := 1, opcode := .send, sgList := [foreignSge] } idleAnswers,
    .postSend { mrs := fun _ => none, nativeFragmentStriping := false }
      { wrId := 1, opcode := .rdmaRead, sgList := [foreignSge] } idleAnswers,
    .postRecv noEnv [{ wrId := 1, sgList := [foreignSge] }] true,
    .frame noEnv (oneByte 1),
    .readWork { mrs := fun _ => none, alloc := true, sent := none } readByte]

def readFrame : Frame := { header := readByte, payload := [], sized := List.length_nil }

/-- The key of a region of domain 1 is good on all five ways. -/
theorem foreign_key_accepted :
    ∃ host q, (device pagingKernel).Reachable host ∧ host.qps[0]? = some q ∧
      ∀ action ∈ foreignActions, ∃ host' responses,
        host.step pagingKernel (.qp 0 action) = some (host', responses) ∧
          ¬Isolates host q action responses := by
  have check : ((device pagingKernel).runVia (fun _ _ => True) bareHost
      (connectForeign ++ [.qp 0 (.frame noEnv readFrame)])).any (fun host =>
        (host.regions 2).any (fun region => region.pd = 1) && host.qps[0]?.any (fun q => q.pd = 0) &&
        foreignActions.all fun action => (host.step pagingKernel (.qp 0 action)).any fun result =>
          (result.2.filterMap Response.key).contains 2 ||
            action.keys.contains 2 && result.2.contains (.returned none)) = true := by decide
  obtain ⟨host, reachable, test⟩ := System.exists_reachableVia (device pagingKernel) (fun _ _ => True) _ _ rfl check
  simp only [Bool.and_eq_true, Option.any_eq_true, decide_eq_true_eq, List.all_eq_true] at test
  obtain ⟨⟨⟨region, published, one⟩, q, found, zero⟩, all⟩ := test
  refine ⟨host, q, reachable, found, fun action member => ?_⟩
  obtain ⟨⟨host', responses⟩, step, named⟩ := all action member
  refine ⟨host', responses, step, fun isolates => ?_⟩
  simp only [Bool.or_eq_true, Bool.and_eq_true, List.contains_iff_mem] at named
  have same := isolates 2 named region published
  omega

end ThunderboltVerbs.Driver
