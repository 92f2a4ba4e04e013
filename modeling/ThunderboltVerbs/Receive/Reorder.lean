import ThunderboltVerbs.Receive.Steps
import ThunderboltVerbs.Lib.Tally

/-!
# The representation of the reorder buffer

`Reorder.Closed` says once what the receive half can do to the reorder list: an invariant that is closed
under these operations holds after every call. The counters, the bitmap and the completeness of the messages
are such an invariant.
-/

namespace ThunderboltVerbs.Receive
open Proto Verbs Lib

/-- The reorder list and its two counters. -/
structure Reorder where
  msgs : List ReorderMsg
  count : Nat
  bytes : Nat
  deriving DecidableEq, Repr

namespace Reorder

def empty : Reorder := { msgs := [], count := 0, bytes := 0 }

def unlink (r : Reorder) (msg : ReorderMsg) : Reorder where
  msgs := r.msgs.eraseP fun other => other.psn = msg.psn
  count := r.count - 1
  bytes := r.bytes - msg.bufferedBytes

def link (r : Reorder) (msg : ReorderMsg) : Reorder := { r with msgs := r.msgs ++ [msg], count := r.count + 1 }

def store (r : Reorder) (msg : ReorderMsg) (idx : Nat) (frame : Frame) : Reorder :=
  { r with
    msgs := replaceKey ReorderMsg.psn (msg.addFragment idx frame.header.fragOffset frame.payload) r.msgs
    bytes := r.bytes + frame.header.length }

end Reorder

def RxQp.reorder (q : RxQp) : Reorder := { msgs := q.rxReorder, count := q.rxReorderCount, bytes := q.rxReorderBytes }

/-- A message as it is linked: a READ request is complete at once. -/
structure ReorderMsg.Fresh (msg : ReorderMsg) : Prop where
  frags : msg.frags = []
  seen : msg.fragSeen = []
  bytes : msg.bufferedBytes = 0
  read : msg.kind = .readReq → msg.complete = true ∧ msg.fragCount = 1 ∧ msg.fragsReceived = 1
  data : msg.kind ≠ .readReq → msg.complete = false ∧ 0 < msg.fragCount ∧ msg.fragsReceived = 0

/-- The shape of a fragment for the kind of the message. -/
def ReorderMsg.shape (msg : ReorderMsg) (header : DataHeader) : Except Errno (Nat × Nat) :=
  match msg.kind with
  | .send => rxFragmentShape msg.totalLen header
  | .write => rxWriteFragmentShape msg.totalLen header
  | .readReq => .error .eInval

/-- The message takes the frame as a fragment that it does not have. -/
structure ReorderMsg.Takes (msg : ReorderMsg) (frame : Frame) (idx : Nat) : Prop where
  shape : msg.shape frame.header = .ok (idx, msg.fragCount)
  unseen : idx ∉ msg.fragSeen

/-- The operations on the list keep the invariant. A handler links what it `admits`, and among that are the
messages whose size it has checked. -/
structure Reorder.Closed (admits : ReorderMsg → Prop) (inv : Reorder → Prop) : Prop where
  checked : ∀ {msg : ReorderMsg}, (msg.kind ≠ .readReq → msg.totalLen ≤ dataMaxMsgSize) → admits msg
  distinct : ∀ {r}, inv r → (r.msgs.map ReorderMsg.psn).Nodup
  empty : inv .empty
  unlink : ∀ {r} {msg : ReorderMsg}, inv r → msg ∈ r.msgs → inv (r.unlink msg)
  link : ∀ {r} {msg : ReorderMsg}, inv r → (∀ other ∈ r.msgs, other.psn ≠ msg.psn) →
    r.count < reorderMaxMessages → msg.Fresh → admits msg → inv (r.link msg)
  store : ∀ {r} {msg : ReorderMsg} {frame : Frame} {idx : Nat}, inv r → msg ∈ r.msgs → msg.Takes frame idx →
    (frame.header.length ≠ 0 → r.bytes + frame.header.length ≤ reorderMaxBytes) → inv (r.store msg idx frame)

variable {admits : ReorderMsg → Prop} {inv : Reorder → Prop} {q : RxQp} {env : RxEnv}

/-! ## What leaves the list alone -/

@[simp] theorem reorder_note (effect : Effect) : (q.note effect).reorder = q.reorder := rfl

@[simp] theorem reorder_sendAck (destQp srcQp psn : Nat) (status : SendAckStatus) :
    (q.sendAck destQp srcQp psn status).reorder = q.reorder := rfl

@[simp] theorem reorder_consumePsn (psn : Nat) (status : SendAckStatus) :
    (q.consumePsn psn status).reorder = q.reorder := rfl

@[simp] theorem reorder_skipPsn (psn : Nat) (status : SendAckStatus) :
    (q.skipPsn psn status).reorder = q.reorder := rfl

@[simp] theorem reorder_cqPushOption (psn : Nat) (wc : Option Wc) :
    (q.cqPushOption psn wc).1.reorder = q.reorder := by
  obtain ⟨cq, pushed, eq, -⟩ := cqPushOption_spec q psn wc
  rw [eq]
  rfl

@[simp] theorem reorder_conclude (psn srcQp : Nat) (status : WcStatus) (wc : Option Wc) :
    (q.conclude psn srcQp status wc).reorder = q.reorder := by
  simp [RxQp.conclude]

theorem rxReorder_conclude (psn srcQp : Nat) (status : WcStatus) (wc : Option Wc) :
    (q.conclude psn srcQp status wc).rxReorder = q.rxReorder :=
  congrArg Reorder.msgs (reorder_conclude psn srcQp status wc)

theorem reorder_popRecv {wqe : RecvWqe} {q' : RxQp} (popped : q.popRecv = some (wqe, q')) :
    q'.reorder = q.reorder := by
  obtain ⟨rest, -, rfl⟩ := popRecv_spec popped
  rfl

theorem Copied.buffer {q' : RxQp} (copied : Copied q q') : q'.reorder = q.reorder := by
  induction copied with
  | refl => rfl
  | wrote _ _ _ _ ih | placed _ _ _ _ ih => exact ih

@[simp] theorem reorder_copyFrags (wqe : RecvWqe) (frags : List ReorderFrag) (delivered : Nat) :
    (RxQp.copyFrags env wqe frags q delivered).1.reorder = q.reorder :=
  (copyFrags_copied env wqe frags q delivered).buffer

theorem reorder_copyToRemote {rkey remoteAddr offset : Nat} {payload : List UInt8} {q' : RxQp}
    (copied : q.copyToRemote env rkey remoteAddr offset payload = some q') : q'.reorder = q.reorder := by
  rw [copyToRemote_eq copied]
  rfl

@[simp] theorem reorder_copyWriteFrags (rkey remoteAddr : Nat) (frags : List ReorderFrag) :
    (RxQp.copyWriteFrags env rkey remoteAddr frags q).1.reorder = q.reorder :=
  (copyWriteFrags_copied env rkey remoteAddr frags q).buffer

@[simp] theorem reorder_queueReadWork (request : DataHeader) :
    (q.queueReadWork env request).reorder = q.reorder := by
  simp only [RxQp.queueReadWork]
  split <;> rfl

@[simp] theorem reorder_clearRnr (srcQp psn : Nat) : (q.clearRnr srcQp psn).reorder = q.reorder := by
  simp only [RxQp.clearRnr]
  split <;> rfl

@[simp] theorem reorder_refuseRnr (header : DataHeader) : (q.refuseRnr header).reorder = q.reorder := rfl

@[simp] theorem reorder_finishSend (msg : RxMessage) : (q.finishSend msg).reorder = q.reorder := by
  simp only [RxQp.finishSend, reorder_conclude]
  rfl

@[simp] theorem reorder_failActiveSend (status : WcStatus) : (q.failActiveSend status).reorder = q.reorder := by
  simp only [RxQp.failActiveSend]
  split
  · rfl
  · exact reorder_finishSend _

@[simp] theorem reorder_copySend (msg : RxMessage) (offset : Nat) (payload : List UInt8) :
    (q.copySend env msg offset payload).1.reorder = q.reorder := by
  have copied := copyToWqe_copied q env msg.wqe offset payload msg.delivered
  simp only [RxQp.copySend]
  split <;> rename_i eq <;> rw [eq] at copied <;> exact copied.buffer

@[simp] theorem reorder_unlink (msg : ReorderMsg) : (q.reorderUnlink msg).reorder = q.reorder.unlink msg := rfl

@[simp] theorem reorder_link (msg : ReorderMsg) : (q.reorderLink msg).reorder = q.reorder.link msg := rfl

/-! ## Delivery -/

/-- A delivery waits for a receive request, or it takes the message off the list. -/
inductive Delivery (q : RxQp) (msg : ReorderMsg) : RxQp × Bool → Prop
  | waits (none : q.popRecv = none) : Delivery q msg (q.sendAck msg.srcQp q.qpNum msg.psn .rnr, false)
  | goes {q' : RxQp} (keeps : Keeps q q') (unlinked : q'.reorder = q.reorder.unlink msg) : Delivery q msg (q', true)

theorem delivery_send (env : RxEnv) (msg : ReorderMsg) : Delivery q msg (q.deliverSend env msg) := by
  simp only [RxQp.deliverSend]
  split <;> rename_i popped
  · exact .waits popped
  · rename_i wqe q'
    have copied := copyFrags_copied env wqe msg.frags (q'.reorderUnlink msg) 0
    refine .goes ?_ ?_
    · exact (((keeps_popRecv popped).trans (keeps_reorderUnlink _ _)).trans copied.keeps).trans
        (keeps_conclude _ _ _ _ _)
    · rw [reorder_conclude, reorder_copyFrags, reorder_unlink, reorder_popRecv popped]

theorem delivery_write (env : RxEnv) (msg : ReorderMsg) : Delivery q msg (q.deliverWrite env msg) := by
  simp only [RxQp.deliverWrite]
  split <;> rename_i popped
  · split at popped
    · exact .waits popped
    · cases popped
  · rename_i wqe q'
    obtain ⟨taken, keeps⟩ : q'.reorder = q.reorder ∧ Keeps q q' := by
      split at popped
      · exact ⟨reorder_popRecv popped, keeps_popRecv popped⟩
      · cases popped
        exact ⟨rfl, .refl _⟩
    have unlinked := keeps.trans (keeps_reorderUnlink q' msg)
    split
    · have copied := copyWriteFrags_copied env msg.rkey msg.remoteAddr msg.frags (q'.reorderUnlink msg)
      refine .goes ((unlinked.trans copied.keeps).trans (keeps_conclude _ _ _ _ _)) ?_
      rw [reorder_conclude, reorder_copyWriteFrags, reorder_unlink, taken]
    · refine .goes (unlinked.trans (keeps_conclude _ _ _ _ _)) ?_
      rw [reorder_conclude, reorder_unlink, taken]

theorem delivery_read (env : RxEnv) (msg : ReorderMsg) : Delivery q msg (q.deliverRead env msg, true) := by
  refine .goes ?_ ?_
  · have skipped : Keeps q ((q.reorderUnlink msg).skipPsn msg.psn .ok) :=
      (keeps_reorderUnlink q msg).trans (keeps_skipPsn _ _ _)
    simp only [RxQp.deliverRead, RxQp.queueReadWork]
    split <;> exact skipped.trans (keeps_note _ _)
  · simp only [RxQp.deliverRead, reorder_queueReadWork, reorder_skipPsn, reorder_unlink]

theorem delivery (env : RxEnv) (msg : ReorderMsg) : Delivery q msg (q.deliver env msg) := by
  simp only [RxQp.deliver]
  split
  · exact delivery_write env msg
  · exact delivery_read env msg
  · exact delivery_send env msg

namespace Reorder.Closed

variable (closed : Closed admits inv)
include closed

theorem deliver {msg : ReorderMsg} (held : inv q.reorder) (member : msg ∈ q.rxReorder) :
    inv (q.deliver env msg).1.reorder := by
  cases delivered : q.deliver env msg with
  | mk q' goes =>
      have delivery := delivered ▸ delivery (q := q) env msg
      cases delivery with
      | waits => exact held
      | goes _ unlinked =>
          rw [unlinked]
          exact closed.unlink held member

theorem pruneMsg {msg : ReorderMsg} (held : inv q.reorder) (member : msg ∈ q.rxReorder) :
    inv (q.pruneMsg msg).reorder := by
  simp only [RxQp.pruneMsg]
  split
  · exact held
  · rw [reorder_unlink]
    split <;> exact closed.unlink held member

end Reorder.Closed

/-- The message at hand is taken off the list or it is not behind. -/
theorem pruneMsg_rxReorder (q : RxQp) (msg : ReorderMsg) :
    (q.pruneMsg msg).rxReorder =
      if q.isDuplicate msg.psn then q.rxReorder.eraseP fun other => other.psn = msg.psn else q.rxReorder := by
  simp only [RxQp.pruneMsg]
  by_cases stale : q.isDuplicate msg.psn = true
  · simp only [stale, Bool.not_true, Bool.false_eq_true, if_false, if_true]
    split <;> rfl
  · simp only [stale, Bool.not_false, if_true, if_false, Bool.false_eq_true]

theorem pruneMsg_rxExpectedPsn (q : RxQp) (msg : ReorderMsg) :
    (q.pruneMsg msg).rxExpectedPsn = q.rxExpectedPsn := by
  simp only [RxQp.pruneMsg]
  split
  · rfl
  · split <;> rfl

theorem pruneStale_rxExpectedPsn (q : RxQp) : q.pruneStale.rxExpectedPsn = q.rxExpectedPsn := by
  simp only [RxQp.pruneStale]
  generalize q.rxReorder = msgs
  induction msgs generalizing q with
  | nil => rfl
  | cons msg msgs ih => rw [List.foldl_cons, ih, pruneMsg_rxExpectedPsn]

theorem pruneStale_self {q : RxQp} (fresh : ∀ msg ∈ q.rxReorder, q.isDuplicate msg.psn = false) : q.pruneStale = q := by
  simp only [RxQp.pruneStale]
  generalize q.rxReorder = msgs at fresh
  induction msgs with
  | nil => rfl
  | cons msg msgs ih =>
      have kept : q.pruneMsg msg = q := by simp [RxQp.pruneMsg, fresh msg List.mem_cons_self]
      rw [List.foldl_cons, kept, ih fun other member => fresh other (List.mem_cons_of_mem msg member)]

theorem pruneMsg_sublist (q : RxQp) (msg : ReorderMsg) : (q.pruneMsg msg).rxReorder.Sublist q.rxReorder := by
  rw [pruneMsg_rxReorder]
  split
  · exact List.eraseP_sublist
  · exact List.Sublist.refl _

theorem keeps_pruneMsg (q : RxQp) (msg : ReorderMsg) : Keeps q (q.pruneMsg msg) := by
  simp only [RxQp.pruneMsg]
  split
  · exact .refl _
  · split <;> exact (keeps_note _ _).trans (keeps_reorderUnlink _ _)

theorem pruneStale_kept (q : RxQp) : q.pruneStale.rxReorder.Sublist q.rxReorder ∧ Keeps q q.pruneStale := by
  simp only [RxQp.pruneStale]
  suffices all : ∀ msgs : List ReorderMsg, (msgs.foldl RxQp.pruneMsg q).rxReorder.Sublist q.rxReorder ∧
      Keeps q (msgs.foldl RxQp.pruneMsg q) from all q.rxReorder
  intro msgs
  induction msgs generalizing q with
  | nil => exact ⟨List.Sublist.refl _, .refl _⟩
  | cons msg msgs ih =>
      obtain ⟨sublist, keeps⟩ := ih (q.pruneMsg msg)
      exact ⟨sublist.trans (pruneMsg_sublist q msg), (keeps_pruneMsg q msg).trans keeps⟩

/-- What is still to be visited is on the list, and everything else on it is not behind. -/
structure Pruning (q : RxQp) (msgs : List ReorderMsg) : Prop where
  distinct : (q.rxReorder.map ReorderMsg.psn).Nodup
  each : (msgs.map ReorderMsg.psn).Nodup
  linked : ∀ msg ∈ msgs, msg ∈ q.rxReorder
  rest : ∀ msg ∈ q.rxReorder, msg ∈ msgs ∨ q.isDuplicate msg.psn = false

theorem Pruning.next {msg : ReorderMsg} {msgs : List ReorderMsg} (pruning : Pruning q (msg :: msgs)) :
    Pruning (q.pruneMsg msg) msgs := by
  have each := pruning.each
  simp only [List.map_cons, List.nodup_cons] at each
  have others : ∀ other ∈ msgs, other.psn ≠ msg.psn := fun other member same =>
    each.1 (same ▸ List.mem_map_of_mem member)
  have member := pruning.linked msg (by simp)
  have duplicate : ∀ psn, (q.pruneMsg msg).isDuplicate psn = q.isDuplicate psn := fun psn => by
    rw [RxQp.isDuplicate, pruneMsg_rxExpectedPsn, RxQp.isDuplicate]
  have sublist := pruneMsg_sublist q msg
  refine ⟨pruning.distinct.sublist (sublist.map _), each.2, fun other inside => ?_, fun other left => ?_⟩
  · have linked := pruning.linked other (by simp [inside])
    rw [pruneMsg_rxReorder]
    split
    · exact (List.mem_eraseP_of_neg (by simpa using others other inside)).mpr linked
    · exact linked
  · rw [duplicate]
    rcases pruning.rest other (sublist.subset left) with listed | ahead
    · rcases List.mem_cons.mp listed with rfl | further
      · rw [pruneMsg_rxReorder] at left
        split at left <;> rename_i stale
        · exact absurd rfl (key_ne_of_mem_eraseP pruning.distinct member left)
        · exact .inr (by simpa using stale)
      · exact .inl further
    · exact .inr ahead

theorem Pruning.all {msgs : List ReorderMsg} (pruning : Pruning q msgs) :
    Pruning (msgs.foldl RxQp.pruneMsg q) [] := by
  induction msgs generalizing q with
  | nil => exact pruning
  | cons msg msgs ih => exact ih pruning.next

theorem pruning_pruneStale (distinct : (q.rxReorder.map ReorderMsg.psn).Nodup) : Pruning q.pruneStale [] :=
  Pruning.all ⟨distinct, distinct, fun _ member => member, fun _ member => .inl member⟩

namespace Reorder.Closed

variable (closed : Closed admits inv)
include closed

theorem pruneStale (held : inv q.reorder) : inv q.pruneStale.reorder := by
  have start : Pruning q q.rxReorder :=
    ⟨closed.distinct held, closed.distinct held, fun _ member => member, fun _ member => .inl member⟩
  simp only [RxQp.pruneStale]
  generalize q.rxReorder = msgs at start
  induction msgs generalizing q with
  | nil => exact held
  | cons msg msgs ih => exact ih (closed.pruneMsg held (start.linked msg (by simp))) start.next

theorem drainLoop (turns : Nat) (held : inv q.reorder) : inv (RxQp.drainLoop env turns q).reorder := by
  induction turns generalizing q with
  | zero => exact held
  | succ turns ih =>
      simp only [RxQp.drainLoop]
      split
      · exact held
      split
      · exact closed.pruneStale held
      · rename_i msg found
        split
        · exact closed.pruneStale held
        · have delivered : inv (q.pruneStale.deliver env msg).1.reorder :=
            closed.deliver (closed.pruneStale held) (List.mem_of_find?_eq_some found)
          split <;> rename_i result <;> rw [result] at delivered
          · exact delivered
          · exact ih delivered

theorem drain (held : inv q.reorder) : inv (q.drain env).reorder := closed.drainLoop _ held

/-! ## Buffering -/

theorem dropReorder {msg : ReorderMsg} (held : inv q.reorder) (member : msg ∈ q.rxReorder) :
    inv (q.dropReorder msg).reorder :=
  closed.unlink held member

theorem bufferStore {frame : Frame} {msg : ReorderMsg} {idx : Nat} (held : inv q.reorder)
    (member : msg ∈ q.rxReorder) (takes : msg.Takes frame idx) : inv (q.bufferStore env frame msg idx).reorder := by
  simp only [RxQp.bufferStore]
  split <;> rename_i fits
  · exact closed.dropReorder held member
  · have stored : inv (q.reorder.store msg idx frame) := by
      refine closed.store held member takes fun nonempty => ?_
      by_contra full
      exact fits ⟨nonempty, .inl (Nat.lt_of_not_le full)⟩
    split
    · exact closed.drain stored
    · exact stored

end Reorder.Closed

/-- The fragment with this index in a message that is cut every `maxPayload` bytes. -/
structure FragmentOf (totalLen maxPayload offset len idx count : Nat) : Prop where
  nonempty : 0 < maxPayload
  start : offset = idx * maxPayload
  counted : count = if totalLen = 0 then 1 else (totalLen + maxPayload - 1) % 2 ^ 32 / maxPayload
  inside : idx < count
  length : len = if idx = count - 1 then totalLen - idx * maxPayload else maxPayload

theorem fragmentOf_shape {totalLen maxPayload maxFrags offset len idx count : Nat} {last : Bool}
    (shape : fragmentShape totalLen maxPayload maxFrags offset len last = .ok (idx, count)) :
    FragmentOf totalLen maxPayload offset len idx count := by
  obtain ⟨positive, frags⟩ := fragmentShape_sizes shape
  by_cases empty : totalLen = 0
  · subst empty
    obtain ⟨rfl, rfl, rfl, rfl, -⟩ := (fragmentShape_empty positive frags).mp shape
    exact ⟨positive, (Nat.zero_mul _).symm, (if_pos rfl).symm, Nat.zero_lt_one, by simp⟩
  · obtain ⟨counted, -, inside, start, length, -⟩ := (fragmentShape_nonempty empty positive frags).mp shape
    exact ⟨positive, start, counted.trans (if_neg empty).symm, inside, length⟩

theorem fragmentOf_writeShape {totalLen idx count : Nat} {header : DataHeader}
    (shape : rxWriteFragmentShape totalLen header = .ok (idx, count)) :
    ∃ grid, (grid = dataMaxPayload ∨ grid = dataFrameSize) ∧
      FragmentOf totalLen grid header.fragOffset header.length idx count := by
  simp only [rxWriteFragmentShape, rxFragmentShape, rxFragmentShapeMax] at shape
  split at shape
  · rename_i small
    cases shape
    exact ⟨_, .inl rfl, fragmentOf_shape small⟩
  · exact ⟨_, .inr rfl, fragmentOf_shape shape⟩

theorem ReorderMsg.shape_lt {msg : ReorderMsg} {header : DataHeader} {idx count : Nat}
    (shape : msg.shape header = .ok (idx, count)) : idx < count := by
  simp only [ReorderMsg.shape] at shape
  split at shape
  · simp only [rxFragmentShape, rxFragmentShapeMax] at shape
    exact (fragmentOf_shape shape).inside
  · obtain ⟨grid, -, fragment⟩ := fragmentOf_writeShape shape
    exact fragment.inside
  · cases shape

theorem ReorderMsg.shape_congr {msg other : ReorderMsg} (kind : msg.kind = other.kind)
    (totalLen : msg.totalLen = other.totalLen) (header : DataHeader) : msg.shape header = other.shape header := by
  rw [ReorderMsg.shape, ReorderMsg.shape, kind, totalLen]

namespace Reorder.Closed

variable (closed : Closed admits inv)
include closed

theorem bufferMessage {frame : Frame} {fresh : ReorderMsg} (held : inv q.reorder)
    (new : ∀ count, 0 < count → { fresh with fragCount := count }.Fresh)
    (admitted : ∀ count, admits { fresh with fragCount := count }) :
    inv (q.bufferMessage env frame (fresh.shape frame.header) fresh).reorder := by
  simp only [RxQp.bufferMessage]
  split
  · exact held
  split
  · exact held
  split
  · exact held
  rename_i idx count shape
  have inside := ReorderMsg.shape_lt shape
  split <;> rename_i found
  · split
    · exact held
    rename_i room
    split
    · exact held
    have absent : ∀ other ∈ q.rxReorder, other.psn ≠ fresh.psn := by
      simpa [RxQp.reorderFind] using found
    have linked : inv (q.reorder.link { fresh with fragCount := count }) :=
      closed.link held absent (Nat.lt_of_not_le room) (new count (by omega)) (admitted count)
    refine closed.bufferStore linked (List.mem_append_right _ (by simp)) ⟨shape, ?_⟩
    rw [(new count (by omega)).seen]
    simp
  · rename_i msg
    have member : msg ∈ q.rxReorder := List.mem_of_find?_eq_some found
    split
    · exact closed.dropReorder held member
    rename_i same
    simp only [ReorderMsg.sameMessage, Bool.not_eq_true', Bool.not_eq_false, Bool.and_eq_true,
      decide_eq_true_eq] at same
    split <;> rename_i seen
    · split
      · exact closed.dropReorder held member
      split
      · exact closed.drain held
      · exact held
    · refine closed.bufferStore held member ⟨?_, by simpa using seen⟩
      rw [same.2, ← shape]
      exact ReorderMsg.shape_congr same.1.1.1.1.1.1.1 same.1.1.1.1.1.2 frame.header

theorem bufferFragment (held : inv q.reorder) {frame : Frame}
    (admitted : ∀ msg : ReorderMsg, msg.totalLen = frame.header.immData → admits msg) :
    inv (q.bufferFragment env frame).reorder := by
  refine closed.bufferMessage held (fun count positive => ?_) fun count => admitted _ rfl
  exact ⟨rfl, rfl, rfl, by simp, fun _ => ⟨rfl, positive, rfl⟩⟩

theorem bufferWriteFragment (held : inv q.reorder) (frame : Frame) {totalLen : Nat} (withImm : Bool)
    (admitted : ∀ msg : ReorderMsg, msg.totalLen = totalLen → admits msg) :
    inv (q.bufferWriteFragment env frame totalLen withImm).reorder := by
  refine closed.bufferMessage held (fun count positive => ?_) fun count => admitted _ rfl
  exact ⟨rfl, rfl, rfl, by simp, fun _ => ⟨rfl, positive, rfl⟩⟩

theorem admitted {totalLen : Nat} (bound : totalLen ≤ dataMaxMsgSize) :
    ∀ msg : ReorderMsg, msg.totalLen = totalLen → admits msg := fun _ size =>
  closed.checked fun _ => size ▸ bound

theorem bufferReadReq (held : inv q.reorder) (header : DataHeader) :
    inv (q.bufferReadReq env header).reorder := by
  simp only [RxQp.bufferReadReq]
  split
  · exact held
  split
  · exact held
  split <;> rename_i found
  · split
    · exact held
    rename_i room
    split
    · exact held
    · have absent : ∀ other ∈ q.rxReorder, other.psn ≠ header.psn % psnMod := by
        simpa [RxQp.reorderFind] using found
      exact closed.link held absent (Nat.lt_of_not_le room) ⟨rfl, rfl, rfl, fun _ => ⟨rfl, rfl, rfl⟩, by simp⟩
        (closed.checked (by simp))
  · have member := List.mem_of_find?_eq_some found
    split
    · exact closed.dropReorder held member
    split
    · exact closed.drain held
    · exact held

/-! ## SEND -/

theorem recordStriped (held : inv q.reorder) (msg : RxMessage) (idx : Nat) (frame : Frame) :
    inv (q.recordStriped env msg idx frame).reorder := by
  have copied : (q.copySend env msg frame.header.fragOffset frame.payload).1.reorder = q.reorder :=
    reorder_copySend msg frame.header.fragOffset frame.payload
  simp only [RxQp.recordStriped]
  by_cases seen : msg.fragSeen.contains idx = true
  · simp only [seen, if_true]
    split
    · exact closed.drain (by rwa [reorder_finishSend])
    · exact held
  · simp only [seen, Bool.false_eq_true, if_false]
    split
    · exact closed.drain (by rwa [reorder_finishSend, copied])
    · exact copied ▸ held

theorem recordPlain (held : inv q.reorder) (msg : RxMessage) (offset : Nat) (payload : List UInt8) (last : Bool) :
    inv (q.recordPlain env msg offset payload last).reorder := by
  have copied : (q.copySend env msg offset payload).1.reorder = q.reorder := reorder_copySend msg offset payload
  simp only [RxQp.recordPlain]
  split
  · exact closed.drain (by rwa [reorder_finishSend, copied])
  · exact copied ▸ held

theorem handleStripedSend (held : inv q.reorder) {frame : Frame} (bound : frame.header.immData ≤ dataMaxMsgSize) :
    inv (q.handleStripedSend env frame).reorder := by
  simp only [RxQp.handleStripedSend]
  split
  · exact held
  split
  · exact held
  split
  · exact closed.bufferFragment held (closed.admitted bound)
  split
  · split
    · exact (reorder_failActiveSend (q := q) _) ▸ held
    · exact closed.recordStriped held _ _ _
  · split <;> rename_i popped
    · exact held
    · exact closed.recordStriped (by rwa [reorder_popRecv popped]) _ _ _

theorem handlePlainSend (held : inv q.reorder) {frame : Frame} (bound : frame.header.immData ≤ dataMaxMsgSize) :
    inv (q.handlePlainSend env frame).reorder := by
  simp only [RxQp.handlePlainSend]
  split
  · split
    · exact closed.recordPlain held _ _ _ _
    split
    · exact held
    split
    · exact closed.bufferFragment held (closed.admitted bound)
    split
    · split
      · exact held
      · exact closed.recordPlain held _ _ _ _
    split
    · exact held
    · exact (reorder_failActiveSend (q := q) _) ▸ held
  · split
    · exact closed.bufferFragment held (closed.admitted bound)
    split
    · exact held
    split <;> rename_i popped
    · exact held
    · exact closed.recordPlain (by rwa [reorder_popRecv popped]) _ _ _ _

theorem handleSendFragment (held : inv q.reorder) (frame : Frame) :
    inv (q.handleSendFragment env frame).reorder := by
  simp only [RxQp.handleSendFragment]
  split
  · exact held
  rename_i ok
  have bound : frame.header.immData ≤ dataMaxMsgSize := by
    simp only [sendHeaderOk, Bool.not_eq_true', Bool.not_eq_false, Bool.and_eq_true, decide_eq_true_eq] at ok
    exact ok.1.1.1.1.2
  split
  · exact held
  split
  · exact closed.handleStripedSend (by rwa [reorder_clearRnr]) bound
  · exact closed.handlePlainSend (by rwa [reorder_clearRnr]) bound

/-! ## WRITE -/

theorem finishWrite (held : inv q.reorder) (write : RxWrite) (status : WcStatus) :
    inv (q.finishWrite env write status).reorder := by
  simp only [RxQp.finishWrite]
  generalize (if write.withImm then
    some (writeImmWc write.immWqe status write.srcQp write.immData) else none) = wc
  split
  · rw [reorder_sendAck, reorder_cqPushOption]
    exact held
  · rw [reorder_sendAck]
    exact closed.drain (by rwa [reorder_consumePsn, reorder_cqPushOption])

theorem failActiveWrite (held : inv q.reorder) (status : WcStatus) :
    inv (q.failActiveWrite env status).reorder := by
  simp only [RxQp.failActiveWrite]
  split
  · exact held
  · exact closed.finishWrite held _ _

theorem recordWrite (held : inv q.reorder) (write : RxWrite) (offset : Nat) (payload : List UInt8) (last : Bool) :
    inv (q.recordWrite env write offset payload last).reorder := by
  simp only [RxQp.recordWrite]
  split
  · split
    · exact closed.finishWrite held _ _
    · exact held
  · split <;> rename_i copied
    · exact closed.finishWrite held _ _
    · have same := reorder_copyToRemote copied
      split
      · exact closed.finishWrite (same ▸ held) _ _
      · exact same ▸ held

theorem deferWrite (held : inv q.reorder) {frame : Frame} (ok : writeHeaderOk frame.header = true) :
    inv (q.deferWrite env frame).reorder := by
  simp only [RxQp.deferWrite]
  split
  · exact held
  · rename_i plain
    refine closed.bufferWriteFragment held frame _ (closed.admitted ?_)
    simp only [writeHeaderOk, plain, decide_false, Bool.false_or, Bool.and_eq_true, decide_eq_true_eq] at ok
    exact ok.1.2.1.1.2

theorem handleActiveWrite (held : inv q.reorder) {frame : Frame} (ok : writeHeaderOk frame.header = true)
    (write : RxWrite) : inv (q.handleActiveWrite env frame write).reorder := by
  simp only [RxQp.handleActiveWrite]
  split
  · split
    · exact closed.deferWrite held ok
    · exact closed.failActiveWrite held _
  split
  · split
    · exact held
    · exact closed.recordWrite held _ _ _ _
  split
  · exact closed.deferWrite held ok
  · exact closed.recordWrite held _ _ _ _

theorem handleIdleWrite (held : inv q.reorder) {frame : Frame} (ok : writeHeaderOk frame.header = true) :
    inv (q.handleIdleWrite env frame).reorder := by
  simp only [RxQp.handleIdleWrite]
  split
  · exact closed.deferWrite held ok
  split
  · exact closed.deferWrite held ok
  split
  · split
    · exact held
    · exact closed.deferWrite held ok
  split <;> rename_i popped
  · exact held
  · split at popped
    · exact closed.recordWrite (by rwa [reorder_popRecv popped]) _ _ _ _
    · cases popped
      exact closed.recordWrite held _ _ _ _

theorem handleRdmaWriteFragment (held : inv q.reorder) (frame : Frame) :
    inv (q.handleRdmaWriteFragment env frame).reorder := by
  have cleared : inv (q.clearRnr frame.header.srcQp (frame.header.psn % psnMod)).reorder := by
    rwa [reorder_clearRnr]
  simp only [RxQp.handleRdmaWriteFragment]
  split
  · exact held
  rename_i valid
  simp only [Bool.not_eq_true', Bool.not_eq_false, Bool.and_eq_true] at valid
  split
  · exact held
  split
  · exact cleared
  split
  · exact closed.handleActiveWrite cleared valid.1 _
  · exact closed.handleIdleWrite cleared valid.1

/-! ## READ, timeout and error -/

theorem handleRdmaReadReq (held : inv q.reorder) (header : DataHeader) :
    inv (q.handleRdmaReadReq env header).reorder := by
  simp only [RxQp.handleRdmaReadReq]
  split
  · exact held
  split
  · exact closed.bufferReadReq held header
  · rw [reorder_queueReadWork]
    exact closed.drain held

theorem handleFrame (held : inv q.reorder) (frame : Frame) : inv (q.handleFrame env frame).reorder := by
  simp only [RxQp.handleFrame]
  split
  · exact closed.handleSendFragment held frame
  · exact closed.handleSendFragment held frame
  · exact closed.handleRdmaWriteFragment held frame
  · exact closed.handleRdmaWriteFragment held frame
  · exact closed.handleRdmaReadReq held frame.header
  · exact held

theorem reapMsg {msg : ReorderMsg} (held : inv q.reorder) (member : msg ∈ q.rxReorder) :
    inv (q.reapMsg env msg).reorder := by
  have dropped := closed.dropReorder held member
  simp only [RxQp.reapMsg]
  split
  · exact closed.drain dropped
  · exact dropped

theorem reapLoop (timeout turns : Nat) (held : inv q.reorder) :
    inv (RxQp.reapLoop env timeout turns q).reorder := by
  induction turns generalizing q with
  | zero => exact held
  | succ turns ih =>
      simp only [RxQp.reapLoop]
      split <;> rename_i expired
      · exact held
      · exact ih (closed.reapMsg held (List.mem_of_find?_eq_some expired))

theorem timeoutReapRx (held : inv q.reorder) (timeout : Nat) : inv (q.timeoutReapRx env timeout).reorder := by
  simp only [RxQp.timeoutReapRx]
  apply closed.reapLoop
  split <;> split
  · exact closed.failActiveWrite (by rwa [reorder_failActiveSend]) _
  · rwa [reorder_failActiveSend]
  · exact closed.failActiveWrite held _
  · exact held

theorem flushRx : inv (q.flushRx env).reorder := closed.empty

end Reorder.Closed

end ThunderboltVerbs.Receive
