import ThunderboltVerbs.Receive.Represented

/-!
# What waits in the reorder buffer

A complete message at the expected PSN may wait only while there is no receive request or another message is
active. Every call that drains the list settles that; the two that end an active message without a drain
keep it only if no complete message comes next.
-/

namespace ThunderboltVerbs.Receive
open Proto Verbs Lib

namespace RxQp

/-- The receive requests that `tbv_qp_pop_recv` gives out. -/
def available (q : RxQp) : List RecvWqe := if q.closing then [] else q.recvq

/-- No complete message is buffered at the PSN. -/
def Clear (q : RxQp) (psn : Nat) : Prop := ∀ msg ∈ q.rxReorder, msg.psn = psn → msg.complete = false

instance (q : RxQp) (psn : Nat) : Decidable (q.Clear psn) :=
  inferInstanceAs (Decidable (∀ msg ∈ q.rxReorder, msg.psn = psn → msg.complete = false))

/-- The requests are among those that were there before, and nothing waits for them. -/
structure Served (posted : List RecvWqe) (q : RxQp) : Prop where
  available : q.available <:+ posted
  clear : q.available ≠ [] → q.idle = true → q.Clear q.rxExpectedPsn

end RxQp

variable {q : RxQp} {env : RxEnv} {posted : List RecvWqe}

/-! ## The receive requests -/

theorem popRecv_none : q.popRecv = none ↔ q.available = [] := by
  simp only [RxQp.popRecv, RxQp.available]
  cases q.recvq <;> cases q.closing <;> simp

theorem available_popRecv {wqe : RecvWqe} {q' : RxQp} (popped : q.popRecv = some (wqe, q')) :
    q'.available <:+ q.available := by
  obtain ⟨rest, recvq, rfl⟩ := popRecv_spec popped
  simp only [RxQp.available, recvq]
  split
  · exact List.suffix_rfl
  · exact List.suffix_cons wqe rest

@[simp] theorem available_note (effect : Effect) : (q.note effect).available = q.available := rfl

@[simp] theorem available_cqPushOption (psn : Nat) (wc : Option Wc) :
    (q.cqPushOption psn wc).1.available = q.available := by
  obtain ⟨cq, pushed, eq, -⟩ := cqPushOption_spec q psn wc
  rw [eq]
  rfl

@[simp] theorem available_conclude (psn srcQp : Nat) (status : WcStatus) (wc : Option Wc) :
    (q.conclude psn srcQp status wc).available = q.available := available_cqPushOption psn wc

theorem Copied.available {q' : RxQp} (copied : Copied q q') : q'.available = q.available := by
  induction copied with
  | refl => rfl
  | wrote _ _ _ _ ih | placed _ _ _ _ ih => exact ih

@[simp] theorem available_finishSend (msg : RxMessage) : (q.finishSend msg).available = q.available := by
  simp only [RxQp.finishSend, available_conclude]
  rfl

@[simp] theorem available_copySend (msg : RxMessage) (offset : Nat) (payload : List UInt8) :
    (q.copySend env msg offset payload).1.available = q.available := by
  have copied := copyToWqe_copied q env msg.wqe offset payload msg.delivered
  simp only [RxQp.copySend]
  split <;> rename_i eq <;> rw [eq] at copied <;> exact copied.available

theorem available_copyToRemote {rkey remoteAddr offset : Nat} {payload : List UInt8} {q' : RxQp}
    (copied : q.copyToRemote env rkey remoteAddr offset payload = some q') : q'.available = q.available := by
  rw [copyToRemote_eq copied]
  rfl

@[simp] theorem available_queueReadWork (request : DataHeader) :
    (q.queueReadWork env request).available = q.available := by
  simp only [RxQp.queueReadWork]
  split <;> rfl

theorem available_pruneStale (q : RxQp) : q.pruneStale.available = q.available := by
  suffices all : ∀ msgs : List ReorderMsg, (msgs.foldl RxQp.pruneMsg q).available = q.available from
    all q.rxReorder
  intro msgs
  induction msgs generalizing q with
  | nil => rfl
  | cons msg msgs ih =>
      rw [List.foldl_cons, ih]
      simp only [RxQp.pruneMsg]
      split
      · rfl
      · split <;> rfl

theorem available_deliver (env : RxEnv) (msg : ReorderMsg) :
    (q.deliver env msg).1.available <:+ q.available := by
  simp only [RxQp.deliver]
  split
  · simp only [RxQp.deliverWrite]
    split <;> rename_i popped
    · exact List.suffix_rfl
    · rename_i wqe q'
      have taken : q'.available <:+ q.available := by
        split at popped
        · exact available_popRecv popped
        · cases popped
          exact List.suffix_rfl
      split
      · rw [available_conclude, (copyWriteFrags_copied env _ _ _ _).available]
        exact taken
      · rw [available_conclude]
        exact taken
  · simp only [RxQp.deliverRead, available_queueReadWork]
    exact List.suffix_rfl
  · simp only [RxQp.deliverSend]
    split <;> rename_i popped
    · exact List.suffix_rfl
    · rename_i wqe q'
      have taken : q'.available <:+ q.available := available_popRecv popped
      rw [available_conclude, (copyFrags_copied env _ _ _ _).available]
      exact taken

/-! ## The drain -/

theorem reorderFind_clear {psn : Nat} (distinct : (q.rxReorder.map ReorderMsg.psn).Nodup)
    (open_ : ∀ msg, q.reorderFind psn = some msg → msg.complete = false) : q.Clear psn := by
  intro msg member at_
  refine open_ msg ?_
  rw [← at_]
  exact find?_key distinct member

theorem served_drainLoop {turns : Nat} (distinct : (q.rxReorder.map ReorderMsg.psn).Nodup)
    (enough : q.rxReorder.length < turns) (available : q.available <:+ posted) :
    (RxQp.drainLoop env turns q).Served posted := by
  induction turns generalizing q with
  | zero => omega
  | succ turns ih =>
      simp only [RxQp.drainLoop]
      split <;> rename_i busy
      · refine ⟨available, fun _ idle => ?_⟩
        simp [idle] at busy
      obtain ⟨sublist, kept⟩ := pruneStale_kept q
      have pruned := available_pruneStale q ▸ available
      have distinct := distinct.sublist (sublist.map ReorderMsg.psn)
      split <;> rename_i found
      · exact ⟨pruned, fun _ _ => reorderFind_clear distinct fun msg some => by simp [found] at some⟩
      rename_i msg
      have member := (reorderFind_some found).1
      split <;> rename_i complete
      · refine ⟨pruned, fun _ _ => reorderFind_clear distinct fun other some => ?_⟩
        rw [found] at some
        cases some
        simpa using complete
      have delivery := delivery (q := q.pruneStale) env msg
      have fewer := available_deliver (q := q.pruneStale) env msg
      split <;> rename_i result <;> rw [result] at delivery fewer
      · cases delivery with
        | waits none => exact ⟨pruned, fun some => absurd (popRecv_none.mp none) some⟩
      · cases delivery with
        | goes keeps unlinked =>
            have msgs := congrArg Reorder.msgs unlinked
            simp only [RxQp.reorder, Reorder.unlink] at msgs
            have shorter := (perm_eraseP_key distinct member).length_eq
            have bound := sublist.length_le
            rw [List.length_cons] at shorter
            refine ih ?_ ?_ (fewer.trans pruned)
            · rw [msgs]
              exact distinct.sublist (List.eraseP_sublist.map _)
            · rw [msgs]
              omega

theorem served_drain (env : RxEnv) (distinct : (q.rxReorder.map ReorderMsg.psn).Nodup)
    (available : q.available <:+ posted) : (q.drain env).Served posted :=
  served_drainLoop distinct (Nat.lt_succ_self _) available

/-! ## Buffering -/

theorem psnDelta_self (psn : Nat) : psnDelta psn psn = 0 := by
  have none : (psn % psnMod + psnMod - psn % psnMod) % psnMod = 0 := by
    rw [Nat.add_sub_cancel_left, Nat.mod_self]
  simp only [psnDelta, none]
  rfl

namespace RxQp.Served

/-- A message is active, so nothing has to go yet. -/
theorem busy (available : q.available <:+ posted) (active : q.idle = false) : q.Served posted :=
  ⟨available, fun _ idle => by simp [idle] at active⟩

theorem note (served : q.Served posted) (effect : Effect) : (q.note effect).Served posted :=
  ⟨served.available, served.clear⟩

theorem dropReorder (served : q.Served posted) (msg : ReorderMsg) : (q.dropReorder msg).Served posted :=
  ⟨served.available, fun some idle other left => served.clear some idle other (List.mem_of_mem_eraseP left)⟩

theorem link {msg : ReorderMsg} (served : q.Served posted)
    (behind : q.idle = true → msg.psn = q.rxExpectedPsn → msg.complete = false) :
    (q.reorderLink msg).Served posted := by
  refine ⟨served.available, fun some idle other member => ?_⟩
  rcases List.mem_append.mp member with old | added
  · exact served.clear some idle other old
  · rw [List.mem_singleton.mp added]
    exact behind idle

theorem bufferStore (served : q.Served posted) (distinct : (q.rxReorder.map ReorderMsg.psn).Nodup) (frame : Frame)
    (msg : ReorderMsg) (idx : Nat) : (q.bufferStore env frame msg idx).Served posted := by
  simp only [RxQp.bufferStore]
  split
  · exact (served.dropReorder msg).note _
  split <;> rename_i complete
  · refine served_drain env ?_ served.available
    simpa only [RxQp.reorderReplace, keys_replaceKey] using distinct
  · refine ⟨served.available, fun some idle other member at_ => ?_⟩
    rcases mem_replaceKey member with rfl | ⟨old, -⟩
    · simpa using complete
    · exact served.clear some idle other old at_

theorem bufferMessage (served : q.Served posted) (distinct : (q.rxReorder.map ReorderMsg.psn).Nodup) (frame : Frame)
    (shape : Except Errno (Nat × Nat)) {fresh : ReorderMsg} (incomplete : fresh.complete = false) :
    (q.bufferMessage env frame shape fresh).Served posted := by
  simp only [RxQp.bufferMessage]
  split
  · exact served.note _
  split
  · exact served.note _
  split
  · exact served.note _
  rename_i idx count
  split <;> rename_i found
  · split
    · exact served.note _
    split
    · exact served.note _
    · have absent : ∀ other ∈ q.rxReorder, other.psn ≠ fresh.psn := by
        simpa [RxQp.reorderFind] using found
      have linked : (q.reorderLink { fresh with fragCount := count }).Served posted :=
        served.link fun _ _ => incomplete
      exact linked.bufferStore (nodup_link (r := q.reorder) distinct absent) frame _ idx
  · split
    · exact (served.dropReorder _).note _
    split
    · split
      · exact (served.dropReorder _).note _
      split
      · exact served_drain env distinct served.available
      · exact served
    · exact served.bufferStore distinct frame _ idx

theorem bufferFragment (served : q.Served posted) (distinct : (q.rxReorder.map ReorderMsg.psn).Nodup) (frame : Frame) :
    (q.bufferFragment env frame).Served posted :=
  served.bufferMessage distinct frame _ rfl

theorem deferWrite (served : q.Served posted) (distinct : (q.rxReorder.map ReorderMsg.psn).Nodup) (frame : Frame) :
    (q.deferWrite env frame).Served posted := by
  simp only [RxQp.deferWrite]
  split
  · exact served
  · exact served.bufferMessage distinct frame _ rfl

/-- A READ request is complete at once, but it is buffered only while it cannot go. -/
theorem bufferReadReq (served : q.Served posted) (distinct : (q.rxReorder.map ReorderMsg.psn).Nodup)
    {header : DataHeader}
    (behind : psnDelta (header.psn % psnMod) q.rxExpectedPsn ≠ 0 ∨ q.idle = false ∨
      (q.reorderFind (header.psn % psnMod)).isSome) : (q.bufferReadReq env header).Served posted := by
  simp only [RxQp.bufferReadReq]
  split
  · exact served.note _
  split
  · exact served.note _
  split <;> rename_i found
  · split
    · exact served.note _
    split
    · exact served.note _
    · refine served.link fun idle same => ?_
      have same : header.psn % psnMod = q.rxExpectedPsn := same
      rcases behind with ahead | busy | linked
      · rw [same, psnDelta_self] at ahead
        exact absurd rfl ahead
      · simp [idle] at busy
      · simp [found] at linked
  · split
    · exact (served.dropReorder _).note _
    split
    · exact served_drain env distinct served.available
    · exact served

end RxQp.Served

/-! ## SEND -/

/-- A fragment at the expected PSN that is none of the active SEND. -/
def RxQp.foreignSend (q : RxQp) (header : DataHeader) (msg : RxMessage) : Bool :=
  psnDelta (header.psn % psnMod) q.rxExpectedPsn = 0 &&
    if q.striping then
      match rxFragmentShape header.immData header with
      | .error _ => false
      | .ok (_, count) => !(msg.sameSend header && msg.fragCount = count)
    else !msg.sameSend header

/-- The fragment ends the active SEND with an error. -/
def RxQp.endsSend (q : RxQp) (header : DataHeader) (msg : RxMessage) : Bool :=
  sendHeaderOk header && !q.rnrSuppresses header && q.foreignSend header msg

/-- Nothing complete comes next once the message at the PSN has ended. -/
def RxQp.NothingNext (q : RxQp) (psn : Nat) : Prop := q.available = [] ∨ q.Clear psn

theorem served_failActiveSend {msg : RxMessage} (status : WcStatus) (active : q.rxMsg = some msg)
    (available : q.available <:+ posted) (next : q.rxWrite.isSome ∨ q.NothingNext (psnNext msg.psn)) :
    (q.failActiveSend status).Served posted := by
  simp only [RxQp.failActiveSend, active]
  have msgs : (q.finishSend { msg with status }).rxReorder = q.rxReorder :=
    congrArg Reorder.msgs (reorder_finishSend _)
  have psn : (q.finishSend { msg with status }).rxExpectedPsn = psnNext msg.psn := rfl
  have idle : (q.finishSend { msg with status }).idle = q.rxWrite.isNone := (keeps_conclude _ _ _ _ _).idle
  refine ⟨by rwa [available_finishSend], fun some free other member at_ => ?_⟩
  rw [available_finishSend] at some
  rw [msgs] at member
  rw [psn] at at_
  rcases next with writing | none | clear
  · simp [Option.isNone_iff_eq_none.mp (idle ▸ free)] at writing
  · exact absurd none some
  · exact clear other member at_

theorem served_finishSend (msg : RxMessage) (distinct : (q.rxReorder.map ReorderMsg.psn).Nodup)
    (available : q.available <:+ posted) : ((q.finishSend msg).drain env).Served posted := by
  have msgs : (q.finishSend msg).rxReorder = q.rxReorder := congrArg Reorder.msgs (reorder_finishSend _)
  exact served_drain env (by rwa [msgs]) (by rwa [available_finishSend])

theorem served_recordStriped (msg : RxMessage) (idx : Nat) (frame : Frame)
    (distinct : (q.rxReorder.map ReorderMsg.psn).Nodup) (available : q.available <:+ posted) :
    (q.recordStriped env msg idx frame).Served posted := by
  obtain ⟨q', active, copied, -, -, eq⟩ := recordStriped_spec q env msg idx frame
  have msgs : q'.rxReorder = q.rxReorder := congrArg Reorder.msgs copied.buffer
  rw [eq]
  split
  · exact served_finishSend active (by rwa [msgs]) (by rwa [copied.available])
  · refine .busy (copied.available ▸ available) ?_
    simp [RxQp.idle]

theorem served_recordPlain (msg : RxMessage) (offset : Nat) (payload : List UInt8) (last : Bool)
    (distinct : (q.rxReorder.map ReorderMsg.psn).Nodup) (available : q.available <:+ posted) :
    (q.recordPlain env msg offset payload last).Served posted := by
  have copied := (copySend_spec q env msg offset payload).1
  have msgs : (q.copySend env msg offset payload).1.rxReorder = q.rxReorder := congrArg Reorder.msgs copied.buffer
  simp only [RxQp.recordPlain]
  split
  · exact served_finishSend _ (by rwa [msgs]) (by rwa [copied.available])
  · refine .busy (copied.available ▸ available) ?_
    simp [RxQp.idle]

/-- Nothing complete follows the active SEND unless a WRITE is active too. -/
def RxQp.SendFollowed (q : RxQp) : Prop :=
  ∀ msg ∈ q.rxMsg, q.rxWrite.isSome ∨ q.NothingNext (psnNext msg.psn)

namespace RxQp.Served

theorem handleStripedSend (served : q.Served posted) (distinct : (q.rxReorder.map ReorderMsg.psn).Nodup)
    (striping : q.striping = true) {frame : Frame}
    (followed : (q.rxMsg.any fun msg => q.foreignSend frame.header msg) = true → q.SendFollowed) :
    (q.handleStripedSend env frame).Served posted := by
  simp only [RxQp.handleStripedSend]
  split
  · exact served.note _
  rename_i idx count shape
  split
  · exact served.note _
  rename_i notBehind
  split
  · exact served.bufferFragment distinct frame
  rename_i notAhead
  split <;> rename_i active
  · rename_i msg
    split <;> rename_i foreign
    · refine (served_failActiveSend _ active served.available (followed ?_ msg active)).note _
      have here : psnDelta (frame.header.psn % psnMod) q.rxExpectedPsn = 0 := by omega
      rw [active, Option.any_some]
      simp [RxQp.foreignSend, here, striping, shape, foreign]
    · exact served_recordStriped msg idx frame distinct served.available
  · split <;> rename_i popped
    · exact ⟨served.available, served.clear⟩
    · rename_i wqe q'
      have msgs : q'.rxReorder = q.rxReorder := congrArg Reorder.msgs (reorder_popRecv popped)
      exact served_recordStriped _ idx frame (by rwa [msgs]) ((available_popRecv popped).trans served.available)

theorem handlePlainSend (served : q.Served posted) (distinct : (q.rxReorder.map ReorderMsg.psn).Nodup)
    (striping : q.striping = false) {frame : Frame}
    (followed : (q.rxMsg.any fun msg => q.foreignSend frame.header msg) = true → q.SendFollowed) :
    (q.handlePlainSend env frame).Served posted := by
  simp only [RxQp.handlePlainSend]
  split <;> rename_i active
  · rename_i msg
    split
    · exact served_recordPlain _ _ _ _ distinct served.available
    split <;> rename_i notBehind
    · exact served.note _
    split <;> rename_i notAhead
    · exact served.bufferFragment distinct frame
    split
    · split
      · exact served
      · exact served_recordPlain _ _ _ _ distinct served.available
    split
    · exact served
    · refine (served_failActiveSend _ active served.available (followed ?_ msg active)).note _
      have here : psnDelta (frame.header.psn % psnMod) q.rxExpectedPsn = 0 := by
        simp only [RxQp.isDuplicate, decide_eq_true_eq] at notBehind
        omega
      have foreign : msg.sameSend frame.header = false := by
        by_contra same
        simp only [Bool.not_eq_false] at same
        simp only [same, Bool.true_and, decide_eq_true_eq] at *
        omega
      rw [active, Option.any_some]
      simp [RxQp.foreignSend, here, striping, foreign]
  · split
    · exact served.bufferFragment distinct frame
    split
    · exact served.note _
    split <;> rename_i popped
    · exact ⟨served.available, served.clear⟩
    · rename_i wqe q'
      have msgs : q'.rxReorder = q.rxReorder := congrArg Reorder.msgs (reorder_popRecv popped)
      exact served_recordPlain _ _ _ _ (by rwa [msgs]) ((available_popRecv popped).trans served.available)

theorem clearRnr (served : q.Served posted) (srcQp psn : Nat) : (q.clearRnr srcQp psn).Served posted := by
  obtain ⟨rnr, cleared⟩ := clearRnr_eq q srcQp psn
  exact cleared ▸ ⟨served.available, served.clear⟩

theorem handleSendFragment (served : q.Served posted) (distinct : (q.rxReorder.map ReorderMsg.psn).Nodup)
    {frame : Frame} (followed : (q.rxMsg.any fun msg => q.endsSend frame.header msg) = true → q.SendFollowed) :
    (q.handleSendFragment env frame).Served posted := by
  simp only [RxQp.handleSendFragment]
  split <;> rename_i ok
  · exact served.note _
  split <;> rename_i suppressed
  · exact served
  have ends : ∀ msg, q.endsSend frame.header msg = q.foreignSend frame.header msg := fun msg => by
    simp only [Bool.not_eq_true', Bool.not_eq_false] at ok
    simp [RxQp.endsSend, ok, suppressed]
  simp only [ends] at followed
  obtain ⟨rnr, cleared⟩ := clearRnr_eq q frame.header.srcQp (frame.header.psn % psnMod)
  have served' := served.clearRnr frame.header.srcQp (frame.header.psn % psnMod)
  rw [cleared] at served' ⊢
  split <;> rename_i striping
  · exact served'.handleStripedSend distinct striping followed
  · exact served'.handlePlainSend distinct (by simpa using striping) followed

end RxQp.Served

/-! ## WRITE -/

/-- The fragment ends the active WRITE: it is none of it, it is the last one, or it cannot be copied. -/
def RxQp.endsActiveWrite (q : RxQp) (env : RxEnv) (frame : Frame) (write : RxWrite) : Bool :=
  let header := frame.header
  let rest := frame.payload.drop (write.received - header.fragOffset)
  if !write.sameWrite header then psnDelta (header.psn % psnMod) q.rxExpectedPsn ≤ 0
  else
    header.fragOffset ≤ write.received && (header.fragOffset = write.received || rest ≠ []) &&
      (header.isLast ||
        rest ≠ [] && (q.copyToRemote env write.rkey write.remoteAddr write.received rest).isNone)

def RxQp.endsWrite (q : RxQp) (env : RxEnv) (frame : Frame) (write : RxWrite) : Bool :=
  writeHeaderOk frame.header && q.remoteWrite && !q.rnrSuppresses frame.header &&
    !q.isDuplicate (frame.header.psn % psnMod) && q.endsActiveWrite env frame write

/-- The active WRITE is the expected message, or nothing complete waits for its end. -/
def RxQp.WriteFollowed (q : RxQp) : Prop :=
  ∀ write ∈ q.rxWrite, write.psn = q.rxExpectedPsn ∨ q.rxMsg.isSome ∨ q.NothingNext q.rxExpectedPsn

theorem served_finishWrite (write : RxWrite) (status : WcStatus) (distinct : (q.rxReorder.map ReorderMsg.psn).Nodup)
    (available : q.available <:+ posted)
    (next : write.psn = q.rxExpectedPsn ∨ q.rxMsg.isSome ∨ q.NothingNext q.rxExpectedPsn) :
    (q.finishWrite env write status).Served posted := by
  simp only [RxQp.finishWrite]
  generalize (if write.withImm then
    some (writeImmWc write.immWqe status write.srcQp write.immData) else none) = wc
  obtain ⟨cq, pushed, eq, -⟩ := cqPushOption_spec { q with rxWrite := none } write.psn wc
  simp only [eq]
  split <;> rename_i off
  · refine ⟨available, fun some idle => ?_⟩
    rcases next with same | sending | none | clear
    · exact absurd same off
    · simp only [RxQp.idle, RxQp.sendAck, RxQp.note, Bool.and_eq_true, Option.isNone_iff_eq_none] at idle
      simp [idle.1] at sending
    · exact absurd none some
    · exact clear
  · refine RxQp.Served.note (served_drain env ?_ ?_) _
    · exact distinct
    · exact available

theorem served_recordWrite (write : RxWrite) (offset : Nat) (payload : List UInt8) (last : Bool)
    (distinct : (q.rxReorder.map ReorderMsg.psn).Nodup) (available : q.available <:+ posted)
    (next :
      (last || payload ≠ [] && (q.copyToRemote env write.rkey write.remoteAddr offset payload).isNone) = true →
        write.psn = q.rxExpectedPsn ∨ q.rxMsg.isSome ∨ q.NothingNext q.rxExpectedPsn) :
    (q.recordWrite env write offset payload last).Served posted := by
  simp only [RxQp.recordWrite]
  split <;> rename_i empty
  · split <;> rename_i ends
    · exact served_finishWrite _ _ distinct available (next (by simp [ends]))
    · exact .busy available (by simp [RxQp.idle])
  · split <;> rename_i copied
    · exact served_finishWrite _ _ distinct available (next (by simp [empty, copied]))
    · rename_i q'
      have same := available_copyToRemote copied
      have msgs : q'.rxReorder = q.rxReorder := congrArg Reorder.msgs (reorder_copyToRemote copied)
      split <;> rename_i ends
      · refine served_finishWrite _ _ (by rwa [msgs]) (by rwa [same]) ?_
        have after := next (by simp [ends])
        rw [copyToRemote_eq copied]
        exact after
      · exact .busy (same ▸ available) (by simp [RxQp.idle])

namespace RxQp.Served

theorem handleActiveWrite (served : q.Served posted) (distinct : (q.rxReorder.map ReorderMsg.psn).Nodup)
    {frame : Frame} {write : RxWrite}
    (followed : q.endsActiveWrite env frame write = true →
      write.psn = q.rxExpectedPsn ∨ q.rxMsg.isSome ∨ q.NothingNext q.rxExpectedPsn)
    (active : q.rxWrite = some write) : (q.handleActiveWrite env frame write).Served posted := by
  simp only [RxQp.endsActiveWrite] at followed
  simp only [RxQp.handleActiveWrite]
  split <;> rename_i same
  · rw [if_pos same] at followed
    split <;> rename_i ahead
    · exact served.deferWrite distinct frame
    · simp only [RxQp.failActiveWrite, active]
      exact served_finishWrite _ _ distinct served.available (followed (by simpa using Int.not_lt.mp ahead))
  rw [if_neg same] at followed
  split <;> rename_i older
  · split <;> rename_i new
    · exact served
    · refine served_recordWrite _ _ _ _ distinct served.available fun ends => followed ?_
      have rest : frame.payload.drop (write.received - frame.header.fragOffset) ≠ [] := by
        rw [ne_eq, List.drop_eq_nil_iff, frame.sized]
        omega
      rw [Bool.and_eq_true]
      exact ⟨by simp [rest, Nat.le_of_lt older], ends⟩
  split <;> rename_i newer
  · exact served.deferWrite distinct frame
  · have here : frame.header.fragOffset = write.received := by omega
    refine served_recordWrite _ _ _ _ distinct served.available fun ends => followed ?_
    rw [here] at ends
    simp only [here, Nat.sub_self, List.drop_zero, ends, Nat.le_refl, decide_true, Bool.true_or, Bool.and_self]

theorem handleIdleWrite (served : q.Served posted) (distinct : (q.rxReorder.map ReorderMsg.psn).Nodup)
    (frame : Frame) : (q.handleIdleWrite env frame).Served posted := by
  simp only [RxQp.handleIdleWrite]
  split <;> rename_i expected
  · exact served.deferWrite distinct frame
  split
  · exact served.deferWrite distinct frame
  split
  · split
    · exact served.note _
    · exact served.deferWrite distinct frame
  split <;> rename_i popped
  · exact ⟨served.available, served.clear⟩
  · rename_i wqe q'
    obtain ⟨rest, fewer, rfl⟩ : ∃ recvq, { q with recvq }.available <:+ q.available ∧ q' = { q with recvq } := by
      split at popped
      · obtain ⟨rest, -, eq⟩ := popRecv_spec popped
        exact ⟨rest, eq ▸ available_popRecv popped, eq⟩
      · cases popped
        exact ⟨q.recvq, List.suffix_rfl, rfl⟩
    exact served_recordWrite _ _ _ _ distinct (fewer.trans served.available) fun _ => .inl (not_not.mp expected)

theorem handleRdmaWriteFragment (served : q.Served posted) (distinct : (q.rxReorder.map ReorderMsg.psn).Nodup)
    {frame : Frame} (followed : (q.rxWrite.any fun write => q.endsWrite env frame write) = true → q.WriteFollowed) :
    (q.handleRdmaWriteFragment env frame).Served posted := by
  simp only [RxQp.handleRdmaWriteFragment]
  split <;> rename_i valid
  · exact served.note _
  split <;> rename_i suppressed
  · exact served
  obtain ⟨rnr, cleared⟩ := clearRnr_eq q frame.header.srcQp (frame.header.psn % psnMod)
  have served' := served.clearRnr frame.header.srcQp (frame.header.psn % psnMod)
  rw [cleared] at served' ⊢
  split <;> rename_i duplicate
  · exact served'.note _
  split <;> rename_i active
  · rename_i write
    refine served'.handleActiveWrite distinct (fun ends => followed ?_ write active) active
    have same : q.endsActiveWrite env frame write = true := by
      have copies : ∀ offset payload, (({ q with rnr } : RxQp).copyToRemote env write.rkey write.remoteAddr offset
          payload).isNone = (q.copyToRemote env write.rkey write.remoteAddr offset payload).isNone := by
        intro offset payload
        simp only [RxQp.copyToRemote]
        split
        · rfl
        split
        · rfl
        split <;> rfl
      simpa only [RxQp.endsActiveWrite, copies] using ends
    have behind : q.isDuplicate (frame.header.psn % psnMod) = false := Bool.eq_false_iff.mpr duplicate
    have valid : (writeHeaderOk frame.header && q.remoteWrite) = true := by simpa using valid
    have active : q.rxWrite = some write := active
    rw [active, Option.any_some]
    simp [RxQp.endsWrite, valid, suppressed, behind, same]
  · exact served'.handleIdleWrite distinct frame

/-! ## Every frame -/

theorem handleRdmaReadReq (served : q.Served posted) (distinct : (q.rxReorder.map ReorderMsg.psn).Nodup)
    (header : DataHeader) : (q.handleRdmaReadReq env header).Served posted := by
  simp only [RxQp.handleRdmaReadReq]
  split
  · exact served.note _
  split <;> rename_i behind
  · exact served.bufferReadReq distinct behind
  · have drained := served_drain (q := q.skipPsn (header.psn % psnMod) .ok) env distinct served.available
    simp only [RxQp.queueReadWork]
    split <;> exact drained.note _

end RxQp.Served

/-- A frame that ends an active message without a drain comes only while nothing complete is next. -/
def RxQp.Followed (q : RxQp) (env : RxEnv) (frame : Frame) : Prop :=
  (frame.header.opcode = .send ∨ frame.header.opcode = .sendImm →
    (q.rxMsg.any fun msg => q.endsSend frame.header msg) = true → q.SendFollowed) ∧
  (frame.header.opcode = .rdmaWrite ∨ frame.header.opcode = .rdmaWriteImm →
    (q.rxWrite.any fun write => q.endsWrite env frame write) = true → q.WriteFollowed)

theorem RxQp.Served.handleFrame (served : q.Served posted) (distinct : (q.rxReorder.map ReorderMsg.psn).Nodup)
    {frame : Frame} (followed : q.Followed env frame) : (q.handleFrame env frame).Served posted := by
  obtain ⟨send, write⟩ := followed
  simp only [RxQp.handleFrame]
  split <;> rename_i opcode
  · exact served.handleSendFragment distinct (send (.inl opcode))
  · exact served.handleSendFragment distinct (send (.inr opcode))
  · exact served.handleRdmaWriteFragment distinct (write (.inl opcode))
  · exact served.handleRdmaWriteFragment distinct (write (.inr opcode))
  · exact served.handleRdmaReadReq distinct frame.header
  · exact served

/-! ## The conditions can be evaluated -/

instance (psn : Nat) : Decidable (q.NothingNext psn) :=
  inferInstanceAs (Decidable (q.available = [] ∨ q.Clear psn))

instance : Decidable q.SendFollowed :=
  inferInstanceAs (Decidable (∀ msg ∈ q.rxMsg, q.rxWrite.isSome ∨ q.NothingNext (psnNext msg.psn)))

instance : Decidable q.WriteFollowed :=
  inferInstanceAs (Decidable (∀ write ∈ q.rxWrite,
    write.psn = q.rxExpectedPsn ∨ q.rxMsg.isSome ∨ q.NothingNext q.rxExpectedPsn))

instance (frame : Frame) : Decidable (q.Followed env frame) :=
  inferInstanceAs (Decidable (_ ∧ _))

end ThunderboltVerbs.Receive
