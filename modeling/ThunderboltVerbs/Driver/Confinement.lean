import ThunderboltVerbs.Driver.Device
import ThunderboltVerbs.Receive.Access

/-!
# Remote access is confined to regions

Every copy that an action makes into or out of a region lies in it and is allowed by it and by the
queue pair. The flag of the queue pair is checked when a fragment of a WRITE comes in, and not again when
the message leaves the reorder list; a region is found by its key again when a receive request is used.
-/

namespace ThunderboltVerbs.Driver
open Proto Verbs Receive Lib

variable {mrs : Nat → Option Mr} {flags : AccessFlags} {old : List Effect}

/-! ## Actions of one queue pair -/

structure Obeys (mrs : Nat → Option Mr) (flags : AccessFlags) (outcome : Outcome) : Prop where
  guarded : Guarded mrs flags outcome.1.rx.trace outcome.1.rx
  confined : ∀ effect, .effect effect ∈ outcome.2 → effect.Confined mrs flags

theorem Obeys.still {q : NativeQp} {outcome : Outcome} (guarded : Guarded mrs flags old q.rx)
    (same : outcome.1.rx = q.rx) (none : ∀ effect, .effect effect ∉ outcome.2) : Obeys mrs flags outcome where
  guarded := by
    rw [same]
    exact guarded.rebase
  confined effect member := absurd member (none effect)

theorem Obeys.mono {outcome : Outcome} {responses : List Response} (obeys : Obeys mrs flags outcome)
    (extra : ∀ effect, .effect effect ∈ responses → .effect effect ∈ outcome.2 ∨ effect.Confined mrs flags) :
    Obeys mrs flags (outcome.1, responses) where
  guarded := obeys.guarded
  confined effect member := (extra effect member).elim (obeys.confined effect) id

namespace NativeQp

variable {q : NativeQp}

theorem received_obeys {rx : RxQp} (guarded : Guarded mrs flags q.rx.trace rx) :
    Obeys mrs flags (q.received rx) := by
  obtain ⟨new, trace, confined⟩ := guarded.trace
  have noted : rx.trace.take (rx.trace.length - q.rx.trace.length) = new := by
    rw [trace, List.length_append, Nat.add_sub_cancel]
    exact List.take_left
  refine ⟨guarded.rebase, fun effect member => ?_⟩
  obtain ⟨other, isNew, answered⟩ := List.mem_flatMap.mp member
  rw [noted, List.mem_reverse] at isNew
  suffices same : effect = other by exact same ▸ confined other isNew
  split at answered
  · rcases List.mem_cons.mp answered with same | retry
    · exact (Response.effect.inj same)
    · rw [Option.mem_toList, Option.map_eq_some_iff] at retry
      obtain ⟨_, _, wrong⟩ := retry
      cases wrong
  · exact Response.effect.inj (List.mem_singleton.mp answered)

theorem sendsDone_effect (completed : List SendEntry) (effect : Effect) :
    .effect effect ∉ sendsDone completed := by
  simp [sendsDone]

theorem readsDone_effect (completed : List ReadEntry) (status : ReadCtx → Option Errno) (effect : Effect) :
    .effect effect ∉ readsDone completed status := by
  simp [readsDone]

theorem flushRecvWqes_obeys (guarded : Guarded mrs flags old q.rx) :
    Obeys mrs flags q.flushRecvWqes := by
  refine ⟨{ guarded.rebase with recvq := nofun }, fun effect member => ?_⟩
  obtain ⟨wqe, _, wrong⟩ := List.mem_map.mp member
  cases wrong

theorem flushError_obeys (env : RxEnv) (guarded : Guarded env.mrs flags q.rx.trace q.rx) :
    Obeys env.mrs flags (q.flushError env) := by
  have flushed := received_obeys (q := { q with
    tx := (q.tx.flushSends.1.flushReads).1, readResps := [] }) guarded.flushRx
  have emptied := flushRecvWqes_obeys flushed.guarded
  simp only [flushError]
  refine emptied.mono fun effect member => ?_
  simp only [List.mem_append, sendsDone_effect, readsDone_effect, false_or] at member
  exact member.symm.imp id (flushed.confined effect)

theorem markError_obeys (env : RxEnv) (guarded : Guarded env.mrs flags q.rx.trace q.rx) :
    Obeys env.mrs flags (q.markError env) := by
  simp only [markError]
  split
  · exact .still guarded rfl (by simp)
  · exact flushError_obeys (q := { q with tx := { q.tx with state := .err } }) env guarded

theorem advertiseRecvCredits_obeys (guarded : Guarded mrs flags old q.rx) (sent : Bool) :
    Obeys mrs flags (q.advertiseRecvCredits sent) := by
  simp only [advertiseRecvCredits]
  split <;> exact .still guarded rfl (by simp)

/-! ## Receive requests -/

theorem granted_of_validate {wr : RecvWr}
    (valid : wr.sgList.findSome? (validateRecvSge mrs) = none) : (recvWqe wr).Granted mrs := by
  cases sges : wr.sgList with
  | nil =>
      intro nonempty
      simp [recvWqe, sges] at nonempty
  | cons sge rest =>
      intro nonempty
      have checked : validateRecvSge mrs sge = none := by
        rw [sges, List.findSome?_cons] at valid
        split at valid
        · cases valid
        · assumption
      simp only [recvWqe, sges] at nonempty ⊢
      rw [validateRecvSge, if_neg nonempty] at checked
      split at checked
      · cases checked
      rename_i sum
      refine ⟨by omega, fun mr found => ?_⟩
      rw [found] at checked
      by_contra denied
      simp only [Bool.not_eq_true] at denied
      simp [denied] at checked

theorem postRecvs_guarded (wrs : List RecvWr) (guarded : Guarded mrs flags old q.rx) :
    Guarded mrs flags old (postRecvs mrs wrs q).1.rx := by
  induction wrs generalizing q with
  | nil => exact guarded
  | cons wr rest ih =>
      simp only [postRecvs]
      split <;> rename_i taken
      · exact guarded
      · apply ih
        simp only [postRecvOne] at taken
        split at taken
        · cases taken
        split at taken
        · cases taken
        rename_i valid
        split at taken
        · cases taken
        split at taken
        · cases taken
        cases taken
        refine { guarded with recvq := fun wqe member => ?_ }
        rcases List.mem_append.mp member with member | member
        · exact guarded.recvq wqe member
        · rw [List.mem_singleton.mp member]
          exact granted_of_validate valid

theorem postRecv_obeys (env : RxEnv) (guarded : Guarded env.mrs flags q.rx.trace q.rx) (wrs : List RecvWr)
    (sent : Bool) :
    Obeys env.mrs flags (q.postRecv env wrs sent) := by
  have posted := postRecvs_guarded wrs guarded
  simp only [postRecv]
  split
  · exact .still guarded rfl (by simp)
  split
  · exact .still posted rfl (by simp)
  have advertised := advertiseRecvCredits_obeys posted sent
  split
  · refine advertised.mono fun effect member => .inl ?_
    simpa using member
  · have drained := received_obeys (q := ((postRecvs env.mrs wrs q).1.advertiseRecvCredits sent).1)
      advertised.guarded.drain
    refine drained.mono fun effect member => ?_
    simp only [List.mem_append, List.mem_singleton, reduceCtorEq, or_false] at member
    exact member.elim (fun member => .inr (advertised.confined effect member)) .inl

/-! ## Frames and READ work -/

theorem rxNativeFrame_obeys (env : RxEnv) (guarded : Guarded env.mrs flags q.rx.trace q.rx) (frame : Frame) :
    Obeys env.mrs flags (q.rxNativeFrame env frame) := by
  simp only [rxNativeFrame]
  split
  · split
    · exact .still guarded rfl (by simp)
    · refine .still guarded ?_ (by simp)
      simp only [acceptRecvCredit]
      split
      · rfl
      split
      · split <;> rfl
      split <;> rfl
  split
  · exact .still guarded rfl (by simp)
  split
  · simp only [acked]
    split
    · exact .still guarded rfl (by simp)
    · rename_i status _
      split
      · have marked : Obeys env.mrs flags ({ q with
            tx := (q.tx.handleSendAck frame.header.psn status env.now).1 }.markError env) :=
          markError_obeys env guarded
        refine marked.mono fun effect member => .inl ?_
        simpa [sendsDone_effect] using member
      · exact .still guarded rfl (by simp [sendsDone_effect])
  · simp only [readAcked]
    split
    · exact .still guarded rfl (by simp)
    · exact .still guarded rfl (by simp)
  · refine .still guarded rfl fun effect member => ?_
    simp [readResponse, readsDone_effect] at member
  · exact received_obeys (guarded.handleFrame frame)

theorem readReqWork_obeys (env : ReadWorkEnv) (guarded : Guarded env.mrs flags q.rx.trace q.rx)
    (request : DataHeader) : Obeys env.mrs flags (q.readReqWork env request) := by
  simp only [readReqWork]
  split
  · exact .still guarded rfl (by simp)
  rename_i mr checked
  have confined : (Effect.snapped request.rkey request.remoteAddr request.immData).Confined env.mrs flags := by
    simp only [readReqMr] at checked
    split at checked
    · cases checked
    rename_i flag
    split at checked
    · cases checked
    rename_i mr' found
    split at checked
    · cases checked
    rename_i allowed
    split at checked
    · cases checked
    split at checked
    · cases checked
    rename_i addr translated
    refine ⟨?_, mr', found, by simpa using allowed, guarded.pinned.holdsIova_of_addr found translated⟩
    rw [← guarded.held]
    simpa [RxQp.flags] using flag
  split
  · exact .still guarded rfl (by simp)
  split
  · exact .still guarded rfl (by simp)
  split
  · exact .still guarded rfl (by simp)
  have noted : Guarded env.mrs flags (q.rx.note _).trace (q.rx.note _) :=
    (guarded.note _ confined).rebase
  split
  all_goals
    refine ⟨noted, fun effect member => ?_⟩
    simp only [List.mem_cons, Response.effect.injEq, reduceCtorEq, List.not_mem_nil, or_false] at member
    exact member ▸ confined

theorem timeoutRx_obeys (env : RxEnv) (guarded : Guarded env.mrs flags q.rx.trace q.rx) (timeout : Nat) :
    Obeys env.mrs flags (q.timeoutRx env timeout) := by
  have reaped := received_obeys (q := q) (guarded.timeoutReapRx timeout)
  simp only [timeoutRx]
  split
  · have marked := markError_obeys env reaped.guarded
    refine marked.mono fun effect member => ?_
    exact (List.mem_append.mp member).symm.imp id (reaped.confined effect)
  · refine reaped.mono fun effect member => .inl ?_
    simpa using member

theorem step_obeys {action : QpAction} {outcome : Outcome} (guarded : Guarded mrs flags q.rx.trace q.rx)
    (step : q.step (action.withMrs mrs) = some outcome) : Obeys mrs flags outcome := by
  cases action with
  | postSend device wr answers =>
      obtain ⟨post, _, rfl⟩ := Option.map_eq_some_iff.mp step
      refine .still guarded rfl fun effect member => ?_
      simp only [posted] at member
      split at member <;> simp at member
  | postRecv env wrs sent =>
      obtain rfl := Option.some.inj step
      exact postRecv_obeys { env with mrs } guarded wrs sent
  | frame env incoming =>
      obtain rfl := Option.some.inj step
      exact rxNativeFrame_obeys { env with mrs } guarded incoming
  | readWork env request =>
      obtain rfl := Option.some.inj step
      exact readReqWork_obeys { env with mrs } guarded request
  | txDone addr psn error now =>
      obtain rfl := Option.some.inj step
      exact .still guarded rfl (sendsDone_effect _)
  | timeoutTx clock =>
      obtain rfl := Option.some.inj step
      refine .still guarded rfl fun effect member => ?_
      simp [timeoutTx, sendsDone_effect, readsDone_effect] at member
  | retried addr reason ret now =>
      obtain rfl := Option.some.inj step
      exact .still guarded rfl (sendsDone_effect _)
  | timeoutRx env timeout =>
      obtain rfl := Option.some.inj step
      exact timeoutRx_obeys { env with mrs } guarded timeout
  | errorWork env =>
      obtain rfl := Option.some.inj step
      exact markError_obeys { env with mrs } guarded
  | pollCq cq =>
      obtain rfl := Option.some.inj step
      exact ⟨{ guarded.rebase with }, by simp⟩

/-- A transition that takes REMOTE_WRITE away finds no WRITE in the reorder list. -/
def keepsWrites (q : NativeQp) (attr : QpAttr) : Bool :=
  (attr.access.all fun access => access.remoteWrite) || q.rx.rxReorder.all fun msg => msg.kind ≠ .write

theorem applyAttr_guarded {attr : QpAttr} (guarded : Guarded mrs flags old q.rx)
    (keeps : q.keepsWrites attr = true) :
    Guarded mrs (q.applyAttr attr).rx.flags (q.applyAttr attr).rx.trace (q.applyAttr attr).rx := by
  refine { guarded.rebase with held := rfl, writes := fun msg member isWrite => ?_, trace := ⟨[], rfl, by simp⟩ }
  have held : q.rx.remoteWrite = true := by
    have flag := guarded.writes msg member isWrite
    rw [← guarded.held] at flag
    exact flag
  simp only [keepsWrites, Bool.or_eq_true, List.all_eq_true, decide_eq_true_eq] at keeps
  rcases keeps with kept | none
  · cases access : attr.access with
    | none => simp [applyAttr, RxQp.flags, access, held]
    | some given =>
        rw [access] at kept
        simpa [applyAttr, RxQp.flags, access] using kept
  · exact absurd isWrite (none msg member)

theorem modifyQp_obeys {isOk : QpState → QpState → QpAttr → Bool} {attr : QpAttr} (env : RxEnv)
    (guarded : Guarded env.mrs flags q.rx.trace q.rx) (keeps : q.keepsWrites attr = true) (sent : Bool) :
    Obeys env.mrs (q.modifyQp isOk env attr sent).1.rx.flags (q.modifyQp isOk env attr sent) := by
  have applied := applyAttr_guarded guarded keeps
  have flushed : Obeys env.mrs (q.applyAttr attr).rx.flags
      (if q.tx.state ≠ .err ∧ attr.state = some .err then (q.applyAttr attr).flushError env
        else (q.applyAttr attr, [])) := by
    split
    · exact flushError_obeys env applied
    · exact ⟨applied, by simp⟩
  suffices obeys : ∃ flags, Obeys env.mrs flags (q.modifyQp isOk env attr sent) by
    obtain ⟨flags, obeys⟩ := obeys
    rw [obeys.guarded.held]
    exact obeys
  simp only [modifyQp]
  split
  · exact ⟨flags, .still guarded rfl (by simp)⟩
  refine ⟨(q.applyAttr attr).rx.flags, ?_⟩
  split
  · refine (advertiseRecvCredits_obeys flushed.guarded sent).mono fun effect member => ?_
    simp only [List.mem_append, List.mem_singleton, reduceCtorEq, or_false] at member
    exact member.symm.imp id (flushed.confined effect)
  · refine flushed.mono fun effect member => .inl ?_
    simpa using member

def waiting (q : NativeQp) : List RecvWqe := q.rx.recvq ++ (q.rx.rxMsg.map RxMessage.wqe).toList

end NativeQp

/-! ## The device -/

/-- `ib_umem_get` refuses a range whose last page ends beyond the address space. -/
def Kernel.PinsPages (kernel : Kernel) : Prop :=
  ∀ start length, kernel.umemGet start length = true → start + length + pageSize ≤ 2 ^ 64

/-- REMOTE_WRITE is not taken from a queue pair that has a WRITE in its reorder list, and no region is
published under a key that a waiting receive request names. -/
def Host.keeps (host : Host) : HostAction → Bool
  | .modifyQp i _ attr _ => host.qps[i]?.all fun q => q.keepsWrites attr
  | .regUserMr .. | .getDmaMr .. =>
      host.qps.all fun q => q.waiting.all fun wqe => wqe.length = 0 || wqe.lkey ≠ host.nextKey
  | _ => true

def HostAction.target : HostAction → Option Nat
  | .modifyQp i .. | .qp i _ => some i
  | _ => none

structure Safe (host : Host) : Prop where
  pinned : Pinned host.mrs
  qps : ∀ q ∈ host.qps, Guarded host.mrs q.rx.flags q.rx.trace q.rx

variable {kernel : Kernel} {host host' : Host} {action : HostAction}

theorem Guarded.regions {mrs' : Nat → Option Mr} {q : NativeQp} (guarded : Guarded mrs flags old q.rx)
    (pinned : Pinned mrs')
    (same : ∀ wqe ∈ q.waiting, wqe.length ≠ 0 → ∀ mr, mrs' wqe.lkey = some mr → mrs wqe.lkey = some mr) :
    Guarded mrs' flags q.rx.trace q.rx := by
  refine { guarded with pinned := pinned, recvq := ?_, active := ?_, trace := ⟨[], rfl, by simp⟩ }
  · intro wqe member nonempty
    obtain ⟨sum, allowed⟩ := guarded.recvq wqe member nonempty
    exact ⟨sum, fun mr found =>
      allowed mr (same wqe (List.mem_append_left _ member) nonempty mr found)⟩
  · intro msg isActive nonempty
    obtain ⟨sum, allowed⟩ := guarded.active msg isActive nonempty
    refine ⟨sum, fun mr found => allowed mr (same msg.wqe ?_ nonempty mr found)⟩
    simp [NativeQp.waiting, isActive]

theorem Host.mrs_update {mrKey key : Nat} {region : Option Region} (other : Nat) :
    { host with mrKey, regions := Function.update host.regions key region }.mrs other =
      if other = key then region.map Region.mr else host.mrs other := by
  simp only [Host.mrs, Function.update_apply]
  split <;> rfl

theorem Safe.publish {region : Region} (safe : Safe host)
    (pins : region.mr.dmaMr = false → region.mr.start + region.mr.length + pageSize ≤ 2 ^ 64)
    (keeps : ∀ q ∈ host.qps, ∀ wqe ∈ q.waiting, wqe.length ≠ 0 → wqe.lkey ≠ host.nextKey) :
    Safe (host.publish region).1 := by
  simp only [Host.publish]
  split
  · exact { safe with }
  · have pinned : Pinned { host with
        mrKey := host.nextKey
        regions := Function.update host.regions host.nextKey (some region) }.mrs := by
      intro key mr found
      rw [Host.mrs_update] at found
      split at found
      · obtain rfl := Option.some.inj found
        exact pins
      · exact safe.pinned key mr found
    refine ⟨pinned, fun q member => Guarded.regions (safe.qps q member) pinned ?_⟩
    intro wqe waits nonempty mr found
    dsimp only at found
    rw [Host.mrs_update, if_neg (keeps q member wqe waits nonempty)] at found
    exact found

theorem Safe.dereg (safe : Safe host) (key : Nat) :
    Safe { host with regions := Function.update host.regions key none } := by
  have gone (other : Nat) (mr : Mr)
      (found : { host with regions := Function.update host.regions key none }.mrs other = some mr) :
      host.mrs other = some mr := by
    rw [Host.mrs_update] at found
    split at found
    · cases found
    · exact found
  have pinned : Pinned { host with regions := Function.update host.regions key none }.mrs :=
    fun other mr found => safe.pinned other mr (gone other mr found)
  exact ⟨pinned, fun q member => Guarded.regions (safe.qps q member) pinned fun wqe _ _ => gone wqe.lkey⟩

theorem Safe.setQp {i : Nat} {outcome : Outcome} (safe : Safe host)
    (obeys : Obeys host.mrs outcome.1.rx.flags outcome) : Safe (host.setQp i outcome).1 := by
  refine ⟨safe.pinned, fun q member => ?_⟩
  rcases List.mem_or_eq_of_mem_set member with member | rfl
  · exact safe.qps q member
  · exact obeys.guarded

theorem Safe.unnamed (keeps : (host.qps.all fun q => q.waiting.all fun wqe =>
    wqe.length = 0 || wqe.lkey ≠ host.nextKey) = true) :
    ∀ q ∈ host.qps, ∀ wqe ∈ q.waiting, wqe.length ≠ 0 → wqe.lkey ≠ host.nextKey := by
  intro q member wqe waits nonempty
  simp only [List.all_eq_true, Bool.or_eq_true, decide_eq_true_eq] at keeps
  exact (keeps q member wqe waits).resolve_left nonempty

theorem Safe.acts {i : Nat} {responses : List Response} (safe : Safe host) (keeps : host.keeps action = true)
    (step : host.step kernel action = some (host', responses)) (target : action.target = some i) :
    ∃ q outcome, host.qps[i]? = some q ∧ Obeys host.mrs outcome.1.rx.flags outcome ∧
      (host', responses) = host.setQp i outcome := by
  cases action with
  | modifyQp i' env attr sent =>
      cases target
      obtain ⟨q, found, result⟩ := Option.map_eq_some_iff.mp step
      simp only [Host.keeps, found, Option.all_some] at keeps
      exact ⟨q, _, found, NativeQp.modifyQp_obeys { env with mrs := host.mrs }
        (safe.qps q (List.mem_of_getElem? found)) keeps sent, result.symm⟩
  | qp i' action =>
      cases target
      obtain ⟨q, found, run⟩ := Option.bind_eq_some_iff.mp step
      split at run
      · obtain ⟨outcome, performed, result⟩ := Option.map_eq_some_iff.mp run
        have obeys := NativeQp.step_obeys (safe.qps q (List.mem_of_getElem? found)) performed
        refine ⟨q, outcome, found, ?_, result.symm⟩
        rw [obeys.guarded.held]
        exact obeys
      · cases run
  | createQp | regUserMr | getDmaMr | deregMr => cases target

theorem Safe.step {responses : List Response} (documented : kernel.PinsPages) (safe : Safe host)
    (keeps : host.keeps action = true) (step : host.step kernel action = some (host', responses)) :
    Safe host' := by
  have targeted {i : Nat} (target : action.target = some i) : Safe host' := by
    obtain ⟨q, outcome, _, obeys, result⟩ := safe.acts keeps step target
    rw [show host' = (host.setQp i outcome).1 from congrArg Prod.fst result]
    exact safe.setQp obeys
  cases action with
  | createQp pd qpNum maxSendWr recvqSize striping cq =>
      simp only [Host.step] at step
      split at step
      · cases step
        refine ⟨safe.pinned, fun q member => ?_⟩
        rcases List.mem_append.mp member with member | member
        · exact safe.qps q member
        · rw [List.mem_singleton.mp member]
          exact ⟨safe.pinned, rfl, nofun, nofun, nofun, nofun, [], rfl, by simp⟩
      · cases step
  | regUserMr pd start length virtAddr access =>
      obtain rfl : (host.regUserMr kernel pd start length virtAddr access).1 = host' :=
        congrArg Prod.fst (Option.some.inj step)
      simp only [Host.regUserMr]
      split
      · exact safe
      · rename_i pinned
        simp only [not_or, Bool.not_eq_false] at pinned
        exact safe.publish (fun _ => documented start length pinned.2) (Safe.unnamed keeps)
  | getDmaMr pd access =>
      obtain rfl : (host.getDmaMr pd access).1 = host' := congrArg Prod.fst (Option.some.inj step)
      exact safe.publish nofun (Safe.unnamed keeps)
  | deregMr key =>
      cases step
      exact safe.dereg key
  | modifyQp i env attr sent => exact targeted rfl
  | qp i action => exact targeted rfl

theorem Safe.reachable (documented : kernel.PinsPages)
    (reachable : (device kernel).ReachableVia (fun host action => host.keeps action = true) host) :
    Safe host := by
  refine reachable.invariant ?_ ?_
  · intro host init
    subst init
    exact ⟨fun key mr found => by simp [Host.mrs] at found, by simp⟩
  · intro host action host' safe keeps step
    obtain ⟨⟨next, responses⟩, performed, rfl⟩ := Option.map_eq_some_iff.mp step
    exact safe.step documented keeps performed

/-- In a run that keeps to `Host.keeps`, every copy of every action is confined to the region that its key
names, and that region and the queue pair allow it. -/
theorem access_confined (kernel : Kernel) (documented : kernel.PinsPages) (host host' : Host)
    (action : HostAction) (responses : List Response)
    (reachable : (device kernel).ReachableVia (fun host action => host.keeps action = true) host)
    (keeps : host.keeps action = true) (step : host.step kernel action = some (host', responses)) :
    ∀ i q, action.target = some i → host'.qps[i]? = some q →
      ∀ effect, .effect effect ∈ responses → effect.Confined host.mrs q.rx.flags := by
  intro i q target found effect answered
  obtain ⟨before, outcome, present, obeys, result⟩ :=
    (Safe.reachable documented reachable).acts keeps step target
  have eqs := Prod.mk.inj result
  obtain ⟨bound, _⟩ := List.getElem?_eq_some_iff.mp present
  have same : q = outcome.1 := by
    rw [eqs.1] at found
    simpa [Host.setQp, bound] using found.symm
  rw [same]
  rw [eqs.2] at answered
  exact obeys.confined effect answered

def rcTransitions : QpState → QpState → QpAttr → Bool
  | _, .reset, _ | _, .err, _ => true
  | .reset, .init, attr => attr.access.isSome
  | .init, .rtr, attr => attr.destQpNum.isSome && attr.rqPsn.isSome
  | .rtr, .rts, attr => attr.sqPsn.isSome
  | .rts, .rts, _ => true
  | _, _, _ => false

def pagingKernel : Kernel where
  modifyQpIsOk := rcTransitions
  umemGet start length := start + length + pageSize ≤ 2 ^ 64

theorem pagingKernel_pinsPages : pagingKernel.PinsPages := by
  intro start length pinned
  simpa [pagingKernel] using pinned

def bareHost : Host := { mrKey := 1, regions := fun _ => none, qps := [] }

def noEnv : RxEnv := { mrs := fun _ => none, now := 1 }

/-- A region under key 2, and a queue pair connected to number 9 that lets it be written. -/
def connectWritable : List HostAction :=
  [.createQp 0 5 4 4 false { cqe := 4 },
    .regUserMr 0 8192 64 4096 { localWrite := true, remoteWrite := true, remoteRead := false },
    .modifyQp 0 noEnv { state := some .init, access := some ⟨true, false⟩ } true,
    .modifyQp 0 noEnv { state := some .rtr, destQpNum := some 9, rqPsn := some 0 } true,
    .modifyQp 0 noEnv { state := some .rts, sqPsn := some 0 } true]

theorem length_oneByte : ([7] : List UInt8).length = 1 := rfl

def oneByte (psn : Nat) : Frame where
  header :=
    { opcode := .rdmaWrite, flags := flagLast, destQp := 5, srcQp := 9, psn, length := 1, immData := 1
      remoteAddr := 4098, rkey := 2 }
  payload := [7]
  sized := length_oneByte

def readNothing : Frame where
  header := { opcode := .rdmaReadReq, flags := flagLast, destQp := 5, srcQp := 9 }
  payload := []
  sized := List.length_nil

theorem access_confined_oneWrite :
    ∃ host host' responses q, (device pagingKernel).ReachableVia (fun host action => host.keeps action = true) host ∧
      host.step pagingKernel (.qp 0 (.frame noEnv (oneByte 0))) = some (host', responses) ∧
      host'.qps[0]? = some q ∧ .effect (.wrote 2 4098 [7]) ∈ responses ∧
      (Effect.wrote 2 4098 [7]).Confined host.mrs q.rx.flags := by
  have check : (((device pagingKernel).runVia (fun host action => host.keeps action = true) bareHost
      connectWritable).any fun host =>
        (host.step pagingKernel (.qp 0 (.frame noEnv (oneByte 0)))).any fun result =>
          result.2.contains (.effect (.wrote 2 4098 [7])) && result.1.qps[0]?.isSome) = true := by decide
  obtain ⟨host, reachable, test⟩ := System.exists_reachableVia (device pagingKernel)
    (fun host action => host.keeps action = true) connectWritable _ rfl check
  cases step : host.step pagingKernel (.qp 0 (.frame noEnv (oneByte 0))) with
  | none => simp [step] at test
  | some result =>
      simp only [step, Option.any_some, Bool.and_eq_true, List.contains_iff_mem] at test
      obtain ⟨answered, present⟩ := test
      obtain ⟨q, found⟩ := Option.isSome_iff_exists.mp present
      exact ⟨host, result.1, result.2, q, reachable, step, found, answered,
        access_confined pagingKernel pagingKernel_pinsPages host result.1 _ result.2 reachable rfl step 0 q rfl
          found _ answered⟩

/-- A WRITE waits for the PSN before its own, the queue pair loses REMOTE_WRITE, and a READ request with
that PSN lets the WRITE through. -/
theorem withdrawn_flag_writes :
    ∃ host host' responses q effect, (device pagingKernel).Reachable host ∧
      host.step pagingKernel (.qp 0 (.frame noEnv readNothing)) = some (host', responses) ∧
      host'.qps[0]? = some q ∧ .effect effect ∈ responses ∧ ¬effect.Confined host.mrs q.rx.flags := by
  have check : (((device pagingKernel).runVia (fun _ _ => True) bareHost
      (connectWritable ++ [.qp 0 (.frame noEnv (oneByte 1)),
        .modifyQp 0 noEnv { access := some ⟨false, false⟩ } true])).any fun host =>
        (host.step pagingKernel (.qp 0 (.frame noEnv readNothing))).any fun result =>
          result.2.contains (.effect (.wrote 2 4098 [7])) &&
            result.1.qps[0]?.any fun q => !q.rx.flags.remoteWrite) = true := by decide
  obtain ⟨host, reachable, test⟩ := System.exists_reachableVia (device pagingKernel) (fun _ _ => True) _ _ rfl check
  cases step : host.step pagingKernel (.qp 0 (.frame noEnv readNothing)) with
  | none => simp [step] at test
  | some result =>
      simp only [step, Option.any_some, Bool.and_eq_true, List.contains_iff_mem] at test
      obtain ⟨answered, present⟩ := test
      cases found : result.1.qps[0]? with
      | none => simp [found] at present
      | some q =>
          simp only [found, Option.any_some, Bool.not_eq_true'] at present
          refine ⟨host, result.1, result.2, q, _, reachable, step, found, answered, fun confined => ?_⟩
          have flag : q.rx.flags.remoteWrite = true := confined.1
          rw [flag] at present
          cases present

end ThunderboltVerbs.Driver
