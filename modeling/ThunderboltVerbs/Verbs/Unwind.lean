import ThunderboltVerbs.Verbs.Post

/-!
# What a failed post leaves behind

Every error before the PSN is taken leaves the queue pair as it was. An error after it gives back the
send-queue slot, the receive credit and the queue entry, but not the PSN.
-/

namespace ThunderboltVerbs.Verbs
open Proto DataPath

/-! ## When the frames of a request are posted -/

def FragmentEnv.serves (env : FragmentEnv) : Bool := env.frame && env.copy = none && env.owned

/-- Every allocation, reservation, copy and preparation succeeds, and the first path that carries
fragments takes its packets. -/
def PostEnv.servesFrames {qp : Qp} (env : PostEnv qp) (striped : Bool) (msg : SendMsg) : Bool :=
  let carrying := carriers striped msg (env.paths striped)
  env.paths striped ≠ [] &&
    (List.range (fragmentCount msg.totalLen)).all (fun i => (env.fragment i).serves) &&
    carrying.all (fun path => path.1.reserve = none && path.1.prepare = none) &&
    carrying.head?.all fun path => path.1.enqueue = none

def PostEnv.servesRead {qp : Qp} (env : PostEnv qp) : Bool :=
  env.readFrame && env.selected.isSome && env.readSend = none

section
variable {qp : Qp} {env : PostEnv qp} {device : Device}

theorem fragmentCount_pos (totalLen : Nat) : 0 < fragmentCount totalLen := by
  simp only [fragmentCount, dataMaxPayload, dataFrameSize, dataHdrSize]
  split <;> omega

theorem lengthAllowed_fragmentHeader (msg : SendMsg) (i : Nat) :
    lengthAllowed (fragmentHeader msg i) = true := by
  have raw := nativeHeader_isRawStream msg (i * dataMaxPayload)
    (min (msg.totalLen - i * dataMaxPayload) dataMaxPayload)
    (i * dataMaxPayload + min (msg.totalLen - i * dataMaxPayload) dataMaxPayload = msg.totalLen)
  simp only [lengthAllowed, fragmentHeader, raw]
  exact decide_eq_true (Nat.min_le_right ..)

theorem buildFrame_fragmentHeader (msg : SendMsg) (i : Nat) :
    ∃ frame, buildFrame (fragmentHeader msg i) = .ok frame := by
  simp [buildFrame, lengthAllowed_fragmentHeader msg i]

theorem buildFragment_ok_iff (msg : SendMsg) (i : Nat) (answers : FragmentEnv) :
    (∃ header, buildFragment msg i answers = .ok header) ↔ answers.serves = true := by
  obtain ⟨frame, built⟩ := buildFrame_fragmentHeader msg i
  simp only [buildFragment, built, FragmentEnv.serves]
  cases answers.frame <;> cases answers.copy <;> cases answers.owned <;> simp

theorem buildFragments_ok_iff (msg : SendMsg) (answers : Nat → FragmentEnv) (left i : Nat) :
    (∃ headers, buildFragments msg answers left i = .ok headers) ↔
      ∀ j < left, (answers (i + j)).serves = true := by
  induction left generalizing i with
  | zero => simp [buildFragments]
  | succ left ih =>
      have first := buildFragment_ok_iff msg i (answers i)
      have rest := ih (i + 1)
      constructor
      · rintro ⟨headers, built⟩ j below
        simp only [buildFragments] at built
        split at built
        · cases built
        · rename_i header served
          split at built
          · cases built
          · rename_i tail more
            cases j with
            | zero => exact first.mp ⟨header, served⟩
            | succ j =>
                rw [show i + (j + 1) = i + 1 + j by omega]
                exact rest.mp ⟨tail, more⟩ j (by omega)
      · intro served
        obtain ⟨header, built⟩ := first.mpr (served 0 (by omega))
        obtain ⟨tail, more⟩ := rest.mpr fun j below => by
          rw [show i + 1 + j = i + (j + 1) by omega]
          exact served (j + 1) (by omega)
        exact ⟨header :: tail, by simp [buildFragments, built, more]⟩

theorem buildFragments_eq {msg : SendMsg} {answers : Nat → FragmentEnv} {left i : Nat}
    {headers : List DataHeader} (built : buildFragments msg answers left i = .ok headers) :
    headers = (List.range' i left).map (fragmentHeader msg) := by
  induction left generalizing i headers with
  | zero => exact (Except.ok.inj built).symm
  | succ left ih =>
      simp only [buildFragments] at built
      split at built
      · cases built
      rename_i header first
      split at built
      · cases built
      rename_i rest more
      obtain rfl := Except.ok.inj built
      have head : header = fragmentHeader msg i := by
        unfold buildFragment at first
        split at first
        · cases first
        split at first
        · cases first
        split at first
        · cases first
        split at first
        · exact (Except.ok.inj first).symm
        · cases first
      rw [ih more, head, List.range'_succ, List.map_cons]

theorem enqueueLanes_queued (paths : List (PathEnv × Nat)) :
    ∃ lanes, enqueueLanes true paths = .ok lanes := by
  induction paths with
  | nil => exact ⟨[], rfl⟩
  | cons path rest ih =>
      obtain ⟨lanes, queued⟩ := ih
      obtain ⟨path, lane⟩ := path
      cases answer : path.enqueue with
      | none => exact ⟨lane :: lanes, by simp [enqueueLanes, answer, queued]⟩
      | some error => exact ⟨[], by simp [enqueueLanes, answer]⟩

theorem enqueueLanes_ok_iff (paths : List (PathEnv × Nat)) :
    (∃ lanes, enqueueLanes false paths = .ok lanes) ↔
      (paths.head?.all fun path => path.1.enqueue = none) = true := by
  cases paths with
  | nil => simp [enqueueLanes]
  | cons path rest =>
      obtain ⟨path, lane⟩ := path
      obtain ⟨lanes, queued⟩ := enqueueLanes_queued rest
      cases answer : path.enqueue <;> simp [enqueueLanes, answer, queued]

theorem postFrames_ok_iff (device : Device) (env : PostEnv qp) (msg : SendMsg) :
    (∃ posted, postFrames device env msg = .ok posted) ↔
      env.servesFrames (device.stripes msg.op) msg = true := by
  have built := buildFragments_ok_iff msg env.fragment (fragmentCount msg.totalLen) 0
  have queued := enqueueLanes_ok_iff
    (carriers (device.stripes msg.op) msg (env.paths (device.stripes msg.op)))
  simp only [Nat.zero_add] at built
  simp only [PostEnv.servesFrames, Bool.and_eq_true, decide_eq_true_eq, List.all_eq_true,
    List.mem_range]
  constructor
  · rintro ⟨posted, post⟩
    simp only [postFrames] at post
    split at post
    · cases post
    · rename_i some_path
      split at post
      · cases post
      · rename_i reserved
        split at post
        · cases post
        · rename_i headers framed
          split at post
          · cases post
          · rename_i prepared
            split at post
            · cases post
            · rename_i lanes enqueued
              rw [List.findSome?_eq_none_iff] at reserved prepared
              exact ⟨⟨⟨some_path, built.mp ⟨headers, framed⟩⟩,
                fun path member => ⟨reserved path member, prepared path member⟩⟩,
                queued.mp ⟨lanes, enqueued⟩⟩
  · rintro ⟨⟨⟨some_path, framed⟩, answered⟩, accepted⟩
    obtain ⟨headers, framed⟩ := built.mpr framed
    obtain ⟨lanes, enqueued⟩ := queued.mpr accepted
    have reserved := List.findSome?_eq_none_iff.mpr fun path member => (answered path member).1
    have prepared := List.findSome?_eq_none_iff.mpr fun path member => (answered path member).2
    exact ⟨_, by simp only [postFrames, some_path, reserved, framed, prepared, enqueued]; rfl⟩

end

/-! ## Giving back -/

section
variable {live : Qp}

theorem unqueueSend_queueSend {addr : Nat} {send : SendCtx}
    (fresh : ∀ entry ∈ live.pendingSends, entry.1 ≠ addr) (counted : send.sqCounted = true) :
    (live.queueSend addr send).unqueueSend addr = (live.releaseSendq, true) := by
  have missing : live.pendingSends.find? (fun entry => entry.1 = addr) = none := by
    simpa using fresh
  have kept : ∀ ctx, (live.pendingSends ++ [(addr, ctx)]).eraseP (fun entry => entry.1 = addr) =
      live.pendingSends := by
    intro ctx
    rw [List.eraseP_append_right _ (by simpa using fresh)]
    simp
  simp [Qp.unqueueSend, Qp.queueSend, List.find?_append, missing, counted, kept, Qp.releaseSendq]

theorem unqueueRead_queueRead {addr : Nat} {read : ReadCtx}
    (fresh : ∀ entry ∈ live.pendingReads, entry.1 ≠ addr) (counted : read.sqCounted = true) :
    (live.queueRead addr read).unqueueRead addr = (live.releaseSendq, true) := by
  have missing : live.pendingReads.find? (fun entry => entry.1 = addr) = none := by
    simpa using fresh
  have kept : (live.pendingReads ++ [(addr, read)]).eraseP
      (fun entry => entry.1 = addr) = live.pendingReads := by
    rw [List.eraseP_append_right _ (by simpa using fresh)]
    simp
  simp [Qp.unqueueRead, Qp.queueRead, List.find?_append, missing, counted, kept, Qp.releaseSendq]

theorem takeCredit_allowed (live : Qp) (allowed : live.allowsPost = true) (op : SendOp) :
    ∃ credits consumed, takeCredit live op = .ok ({ live with remoteRecvCredits := credits }, consumed) ∧
      credits + consumed.toNat = live.remoteRecvCredits := by
  simp only [Qp.allowsPost, Bool.and_eq_true, Bool.not_eq_true', decide_eq_true_eq, ne_eq] at allowed
  obtain ⟨⟨open_, -⟩, alive⟩ := allowed
  unfold takeCredit
  split
  · by_cases credit : live.remoteRecvCredits = 0
    · have none : live.consumeRemoteRecvCredit = .error .eAgain := by
        simp [Qp.consumeRemoteRecvCredit, open_, alive, credit]
      exact ⟨live.remoteRecvCredits, false, by simp only [none], rfl⟩
    · exact ⟨live.remoteRecvCredits - 1, true,
        by simp [Qp.consumeRemoteRecvCredit, open_, alive, credit], by simp; omega⟩
  · exact ⟨live.remoteRecvCredits, false, rfl, rfl⟩

theorem giveBack_allowed (live : Qp) (allowed : live.allowsPost = true) (consumed : Bool) :
    giveBack live consumed =
      { live with remoteRecvCredits := live.remoteRecvCredits + consumed.toNat } := by
  simp only [Qp.allowsPost, Bool.and_eq_true, Bool.not_eq_true', decide_eq_true_eq, ne_eq] at allowed
  cases consumed with
  | false => rfl
  | true => simp [giveBack, Qp.returnRemoteRecvCredit, allowed.1.1, allowed.2]

theorem reserveSendq_allowed (allowed : live.allowsPost = true) :
    live.reserveSendq =
      if live.sendqCount < live.maxSendWr then .ok { live with sendqCount := live.sendqCount + 1 }
      else .error .eNoMem := by
  simp only [Qp.allowsPost, Bool.and_eq_true, Bool.not_eq_true', decide_eq_true_eq, ne_eq] at allowed
  by_cases room : live.sendqCount < live.maxSendWr
  · simp [Qp.reserveSendq, allowed.1.1, allowed.1.2, allowed.2, room]
  · simp [Qp.reserveSendq, allowed.1.1, allowed.1.2, allowed.2, room, Nat.not_lt.mp room]

end

/-! ## The outcomes of a post -/

def Qp.withNextPsn (qp : Qp) : Qp := { qp with sendPsn := psnNext (qp.sendPsn % psnMod) }

def admitsSend (device : Device) (qp : Qp) (env : PostEnv qp) (op : SendOp) (wr : SendWr) : Bool :=
  qp.destQpKnown && qp.refs ≠ 0 &&
    (match device.prepareSendSegments wr with
      | .ok (_, totalLen) => !op.isWrite || wr.remoteAddr + totalLen < 2 ^ 64
      | .error _ => false) &&
    env.ctx.isSome && qp.sendqCount < qp.maxSendWr

def admitsRead (device : Device) (qp : Qp) (env : PostEnv qp) (wr : SendWr) : Bool :=
  qp.destQpKnown && qp.refs ≠ 0 &&
    (match device.prepareReadSegments wr with
      | .ok (_, totalLen) => wr.remoteAddr + totalLen < 2 ^ 64
      | .error _ => false) &&
    env.ctx.isSome && qp.sendqCount < qp.maxSendWr

def servesSend (device : Device) (qp : Qp) (env : PostEnv qp) (op : SendOp) (wr : SendWr) : Bool :=
  match device.prepareSendSegments wr with
  | .ok (_, totalLen) =>
      env.servesFrames (device.stripes op) (sendMsg qp op wr (qp.sendPsn % psnMod) totalLen)
  | .error _ => true

/-- Refused before the PSN is taken, posted, or refused after it. -/
inductive PostOutcome (qp : Qp) (admitted served : Bool) : Qp × Except Errno Posted → Prop
  | refused (error : Errno) (early : admitted = false) : PostOutcome qp admitted served (qp, .error error)
  | posted (qp' : Qp) (frames : Posted) (early : admitted = true) (late : served = true) :
      PostOutcome qp admitted served (qp', .ok frames)
  | unwound (error : Errno) (early : admitted = true) (late : served = false) :
      PostOutcome qp admitted served (qp.withNextPsn, .error error)

section
variable {device : Device} {qp : Qp} {env : PostEnv qp}

theorem postSendCtx_outcome {credits addr : Nat} {consumed : Bool} (op : SendOp) (wr : SendWr)
    (segs : List Segment) (totalLen : Nat) (allowed : qp.allowsPost = true) (ctx : env.ctx = some addr)
    (owed : credits + consumed.toNat = qp.remoteRecvCredits) :
    PostOutcome qp (qp.sendqCount < qp.maxSendWr)
      (env.servesFrames (device.stripes op) (sendMsg qp op wr (qp.sendPsn % psnMod) totalLen))
      (postSendCtx device env
        { qp with refs := qp.refs + 1, remoteRecvCredits := credits } op wr consumed addr segs
        totalLen) := by
  have back : ∀ refs psn, giveBack { qp with refs := refs, remoteRecvCredits := credits, sendPsn := psn }
      consumed = { qp with refs := refs, sendPsn := psn } := by
    intro refs psn
    rw [giveBack_allowed _ (by exact allowed)]
    simp only [owed]
  unfold postSendCtx
  rw [reserveSendq_allowed (by exact allowed)]
  have served := postFrames_ok_iff device env (sendMsg qp op wr (qp.sendPsn % psnMod) totalLen)
  by_cases room : qp.sendqCount < qp.maxSendWr
  · simp only [room, if_true, Qp.takePsn]
    cases frames : postFrames device env (sendMsg qp op wr (qp.sendPsn % psnMod) totalLen) with
    | ok posted => exact .posted _ posted (by simp) (served.mp ⟨posted, frames⟩)
    | error error =>
        have late : env.servesFrames (device.stripes op)
            (sendMsg qp op wr (qp.sendPsn % psnMod) totalLen) = false := by
          by_contra serves
          obtain ⟨posted, done⟩ := served.mpr (Bool.not_eq_false _ ▸ serves)
          rw [frames] at done
          cases done
        simp only
        rw [unqueueSend_queueSend ?fresh rfl]
        case fresh => exact env.fresh_send addr (by simp [ctx])
        simp only [Qp.releaseSendq, Nat.add_sub_cancel, back, Qp.put]
        exact .unwound error (by simp) late
  · simp only [room, if_false, Qp.put, Nat.add_sub_cancel, back]
    exact .refused .eNoMem (by simp)

theorem postReadCtx_outcome {totalLen addr : Nat} {wr : SendWr} {segs : List Segment}
    (allowed : qp.allowsPost = true) (ctx : env.ctx = some addr) :
    PostOutcome qp (qp.sendqCount < qp.maxSendWr) env.servesRead
      (postReadCtx env { qp with refs := qp.refs + 1 } wr addr segs totalLen) := by
  unfold postReadCtx
  rw [reserveSendq_allowed (by exact allowed)]
  by_cases room : qp.sendqCount < qp.maxSendWr
  · simp only [room, if_true, Qp.takePsn]
    have built : ∀ psn, ∃ frame, buildFrame
        (readRequestHeader qp.destQpNum qp.qpNum psn totalLen wr.remoteAddr wr.rkey) = .ok frame := by
      intro psn
      simp [buildFrame, lengthAllowed, readRequestHeader, DataHeader.isRawStream]
    obtain ⟨frame, built⟩ := built (qp.sendPsn % psnMod)
    simp only [built]
    cases alloc : env.readFrame with
    | false =>
        simp only [Bool.not_false, if_true, Qp.releaseSendq, Nat.add_sub_cancel, Qp.put]
        exact .unwound _ (by simp) (by simp [PostEnv.servesRead, alloc])
    | true =>
        simp only [Bool.not_true, Bool.false_eq_true, if_false]
        cases path : env.selected with
        | none =>
            simp only [Qp.releaseSendq, Nat.add_sub_cancel, Qp.put]
            exact .unwound _ (by simp) (by simp [PostEnv.servesRead, path])
        | some selected =>
            cases send : env.readSend with
            | none => exact .posted _ _ (by simp) (by simp [PostEnv.servesRead, alloc, path, send])
            | some error =>
                simp only
                rw [unqueueRead_queueRead ?fresh rfl]
                case fresh => exact env.fresh_read addr (by simp [ctx])
                simp only [Qp.releaseSendq, Nat.add_sub_cancel, Qp.put]
                exact .unwound error (by simp) (by simp [PostEnv.servesRead, send])
  · simp only [room, if_false, Qp.put, Nat.add_sub_cancel]
    exact .refused .eNoMem (by simp)

theorem getLive_outcome (allowed : qp.allowsPost = true) :
    qp.getLive = if qp.refs = 0 then none else some { qp with refs := qp.refs + 1 } := by
  simp only [Qp.allowsPost, Bool.and_eq_true, Bool.not_eq_true'] at allowed
  simp [Qp.getLive, allowed.1.1]

theorem postSend_outcome (allowed : qp.allowsPost = true) (op : SendOp) (wr : SendWr) :
    PostOutcome qp (admitsSend device qp env op wr) (servesSend device qp env op wr)
      (postSend device qp env op wr) := by
  unfold postSend
  cases known : qp.destQpKnown with
  | false => exact .refused _ (by simp [admitsSend, known])
  | true =>
      rw [getLive_outcome allowed]
      by_cases dead : qp.refs = 0
      · simp only [dead, if_true]
        exact .refused _ (by simp [admitsSend, dead])
      · simp only [dead, if_false, Bool.not_true, Bool.false_eq_true]
        cases prepared : device.prepareSendSegments wr with
        | error error =>
            simp only [Qp.put, Nat.add_sub_cancel]
            exact .refused _ (by simp [admitsSend, prepared])
        | ok segments =>
            obtain ⟨segs, totalLen⟩ := segments
            simp only
            split
            · rename_i overflow
              simp only [Qp.put, Nat.add_sub_cancel]
              have big : ¬wr.remoteAddr + totalLen < 2 ^ 64 := Nat.not_lt.mpr overflow.2
              exact .refused _ (by
                simp only [admitsSend, prepared, overflow.1, big, Bool.not_true, Bool.false_or,
                  decide_false, Bool.and_false, Bool.false_and])
            · rename_i fits
              obtain ⟨credits, consumed, taken, owed⟩ :=
                takeCredit_allowed { qp with refs := qp.refs + 1 } allowed op
              simp only [taken]
              cases ctx : env.ctx with
              | none =>
                  have back := giveBack_allowed
                    { qp with refs := qp.refs + 1, remoteRecvCredits := credits } allowed consumed
                  simp only [back, owed, Qp.put, Nat.add_sub_cancel]
                  exact .refused _ (by simp [admitsSend, ctx])
              | some addr =>
                  have admitted : admitsSend device qp env op wr =
                      decide (qp.sendqCount < qp.maxSendWr) := by
                    simp only [not_and, Nat.not_le] at fits
                    cases write : op.isWrite <;>
                      simp_all [admitsSend]
                  rw [admitted]
                  simp only [servesSend, prepared]
                  exact postSendCtx_outcome op wr segs totalLen allowed ctx owed

theorem postRdmaRead_outcome (allowed : qp.allowsPost = true) (wr : SendWr) :
    PostOutcome qp (admitsRead device qp env wr) env.servesRead (postRdmaRead device qp env wr) := by
  unfold postRdmaRead
  cases known : qp.destQpKnown with
  | false => exact .refused _ (by simp [admitsRead, known])
  | true =>
      rw [getLive_outcome allowed]
      by_cases dead : qp.refs = 0
      · simp only [dead, if_true]
        exact .refused _ (by simp [admitsRead, dead])
      · simp only [dead, if_false, Bool.not_true, Bool.false_eq_true]
        cases prepared : device.prepareReadSegments wr with
        | error error =>
            simp only [Qp.put, Nat.add_sub_cancel]
            exact .refused _ (by simp [admitsRead, prepared])
        | ok segments =>
            obtain ⟨segs, totalLen⟩ := segments
            simp only
            split
            · rename_i overflow
              simp only [Qp.put, Nat.add_sub_cancel]
              have big : ¬wr.remoteAddr + totalLen < 2 ^ 64 := Nat.not_lt.mpr overflow
              exact .refused _ (by
                simp only [admitsRead, prepared, big, decide_false, Bool.and_false, Bool.false_and])
            · rename_i fits
              cases ctx : env.ctx with
              | none =>
                  simp only [Qp.put, Nat.add_sub_cancel]
                  exact .refused _ (by simp [admitsRead, ctx])
              | some addr =>
                  have admitted : admitsRead device qp env wr =
                      decide (qp.sendqCount < qp.maxSendWr) := by
                    simp_all [admitsRead]
                  rw [admitted]
                  exact postReadCtx_outcome allowed ctx

end

/-- The request passes every check before it takes its PSN. -/
def admitsPost (device : Device) (qp : Qp) (env : PostEnv qp) (wr : SendWr) : Bool :=
  qp.allowsPost &&
    match wr.opcode.sendOp with
    | some op => admitsSend device qp env op wr
    | none => wr.opcode = .rdmaRead && admitsRead device qp env wr

/-- The steps after the PSN is taken succeed. -/
def servesPost (device : Device) (qp : Qp) (env : PostEnv qp) (wr : SendWr) : Bool :=
  match wr.opcode.sendOp with
  | some op => servesSend device qp env op wr
  | none => env.servesRead

theorem postSendOne_outcome (device : Device) (qp : Qp) (env : PostEnv qp) (wr : SendWr) :
    PostOutcome qp (admitsPost device qp env wr) (servesPost device qp env wr)
      (postSendOne device qp env wr) := by
  unfold postSendOne
  cases allowed : qp.allowsPost with
  | false => exact .refused _ (by simp [admitsPost, allowed])
  | true =>
      simp only [admitsPost, servesPost, allowed, Bool.not_true, Bool.false_eq_true, if_false,
        Bool.true_and]
      cases op : wr.opcode with
      | rdmaRead => simpa [WrOpcode.sendOp] using postRdmaRead_outcome allowed wr
      | other => exact .refused _ (by simp [WrOpcode.sendOp])
      | send | sendWithImm | rdmaWrite | rdmaWriteWithImm => exact postSend_outcome allowed _ wr

/-- What a refused post must not change. -/
structure SendQueueKept (before after : Qp) : Prop where
  sendPsn : after.sendPsn = before.sendPsn
  sendqCount : after.sendqCount = before.sendqCount
  remoteRecvCredits : after.remoteRecvCredits = before.remoteRecvCredits
  pendingSends : after.pendingSends = before.pendingSends
  pendingReads : after.pendingReads = before.pendingReads

/-- A post keeps the send queue on every error, exactly when it does not fail after it has taken
its PSN. -/
theorem failed_post_keeps_iff (device : Device) (qp : Qp) (env : PostEnv qp) (wr : SendWr) :
    (∀ error, (postSendOne device qp env wr).2 = .error error →
      SendQueueKept qp (postSendOne device qp env wr).1) ↔
    (admitsPost device qp env wr = true → servesPost device qp env wr = true) := by
  have outcome := postSendOne_outcome device qp env wr
  generalize postSendOne device qp env wr = result at outcome
  cases outcome with
  | refused error early => simp [early, SendQueueKept.mk]
  | posted qp' frames early late => simp [late]
  | unwound error early late =>
      simp only [early, late, Bool.false_eq_true, imp_false, not_true_eq_false, iff_false]
      intro kept
      exact psnNext_ne qp.sendPsn (kept error rfl).sendPsn

def readyQp : Qp :=
  { state := .rts, refs := 1, qpNum := 5, destQpKnown := true, destQpNum := 7, retryCnt := 7
    rnrRetry := 7, maxSendWr := 16, sendPsn := 0 }

def emptyDevice : Device := { mrs := fun _ => none, nativeFragmentStriping := false }

def noPath : PostEnv readyQp where
  ctx := some 1
  readFrame := true
  readSend := none
  collected := []
  selected := none
  fragment _ := { frame := true, copy := none, owned := true }
  fresh_send := by simp [readyQp]
  fresh_read := by simp [readyQp]

/-- An empty SEND without a path fails and leaves a hole at PSN 0. -/
theorem send_without_path_skips_psn :
    (postSendOne emptyDevice readyQp noPath { wrId := 0, opcode := .send, sgList := [] }).2 =
      .error .eNotConn ∧
    ¬SendQueueKept readyQp
      (postSendOne emptyDevice readyQp noPath { wrId := 0, opcode := .send, sgList := [] }).1 := by
  refine ⟨rfl, fun kept => ?_⟩
  have hole := kept.sendPsn
  revert hole
  decide +kernel

end ThunderboltVerbs.Verbs
