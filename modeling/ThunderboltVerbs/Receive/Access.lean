import ThunderboltVerbs.Receive.Steps
import ThunderboltVerbs.Receive.ReadResponse

/-!
# The memory that an incoming frame reaches

`Guarded` is what a receive half keeps about its waiting requests and buffered fragments so that every
copy stays in the region that its key names, and only if region and queue pair allow it.
-/

namespace ThunderboltVerbs.Verbs

def pageSize : Nat := 4096

/-- The range lies in the region, and the sums of `tbv_umem_copy_to` do not wrap; the offset of a
copy counts from the page of the region's start. -/
structure Mr.Holds (mr : Mr) (addr length : Nat) : Prop where
  low : mr.start ≤ addr
  high : addr + length ≤ mr.start + mr.length
  regionEnd : mr.start + mr.length < 2 ^ 64
  paged : mr.start % pageSize + addr < 2 ^ 64

/-- A range of iovas lies in the region at its offset from `virt_addr`. -/
structure Mr.HoldsIova (mr : Mr) (iova length : Nat) : Prop where
  low : mr.virtAddr ≤ iova
  high : iova + length ≤ mr.virtAddr + mr.length
  iovaEnd : mr.virtAddr + mr.length < 2 ^ 64
  addr : mr.Holds (mr.start + (iova - mr.virtAddr)) length

/-- `ib_umem_get` pins whole pages, whose end is an address. -/
def Pinned (mrs : Nat → Option Mr) : Prop :=
  ∀ key mr, mrs key = some mr → mr.dmaMr = false → mr.start + mr.length + pageSize ≤ 2 ^ 64

variable {mrs : Nat → Option Mr} {key : Nat} {mr : Mr}

theorem Pinned.holds {addr length : Nat} (pinned : Pinned mrs) (found : mrs key = some mr)
    (noDma : mr.dmaMr = false) (low : mr.start ≤ addr)
    (high : addr + length ≤ mr.start + mr.length) : mr.Holds addr length := by
  have bound := pinned key mr found noDma
  have offset : mr.start % pageSize < pageSize := Nat.mod_lt _ (by decide)
  constructor <;> omega

theorem Pinned.holds_of_takesCopy {addr length : Nat} (pinned : Pinned mrs) (found : mrs key = some mr)
    (takes : mr.takesCopy addr length = true) : mr.Holds addr length := by
  simp only [Mr.takesCopy, Mr.covers, Bool.and_eq_true, decide_eq_true_eq, Bool.not_eq_true'] at takes
  obtain ⟨⟨noDma, _⟩, ⟨_, low⟩, high⟩ := takes
  exact pinned.holds found noDma low high

theorem Pinned.holdsIova {iova length : Nat} (pinned : Pinned mrs) (found : mrs key = some mr)
    (takes : mr.takesIovaCopy iova length = true) : mr.HoldsIova iova length := by
  simp only [Mr.takesIovaCopy, Bool.and_eq_true, decide_eq_true_eq, Bool.not_eq_true'] at takes
  obtain ⟨⟨⟨⟨⟨_, iovaEnd⟩, low⟩, high⟩, _⟩, copy⟩ := takes
  exact ⟨low, high, iovaEnd, pinned.holds_of_takesCopy found copy⟩

theorem Pinned.holdsIova_of_addr {iova length addr : Nat} (pinned : Pinned mrs) (found : mrs key = some mr)
    (translated : mr.iovaToAddr iova length = .ok addr) : mr.HoldsIova iova length := by
  simp only [Mr.iovaToAddr] at translated
  split at translated
  · cases translated
  split at translated
  · cases translated
  split at translated
  · cases translated
  split at translated
  · cases translated
  rename_i noDma _ iovaEnd inside
  simp only [not_or, not_lt] at inside
  refine ⟨inside.1, inside.2, by omega, pinned.holds found (by simpa using noDma) ?_ ?_⟩ <;> omega

end ThunderboltVerbs.Verbs

namespace ThunderboltVerbs.Receive
open Proto Verbs Lib

/-- What an effect may do to memory, given the regions and the flags of the queue pair. A copy goes to
the sum of an address and an offset, and that sum does not wrap either. -/
def Effect.Confined (mrs : Nat → Option Mr) (flags : AccessFlags) : Effect → Prop
  | .wrote rkey iova data =>
      flags.remoteWrite = true ∧ (∃ mr, mrs rkey = some mr ∧ mr.remoteWrite = true ∧ mr.HoldsIova iova data.length) ∧
        ∃ remoteAddr offset, iova = remoteAddr + offset ∧ offset + data.length ≤ dataMaxMsgSize
  | .placed lkey addr data =>
      (∃ mr, mrs lkey = some mr ∧ mr.localWrite = true ∧ mr.Holds addr data.length) ∧
        ∃ wqe : RecvWqe, ∃ offset, wqe.lkey = lkey ∧ addr = wqe.addr + offset ∧
          offset + data.length ≤ wqe.length
  | .snapped rkey iova length =>
      flags.remoteRead = true ∧ ∃ mr, mrs rkey = some mr ∧ mr.remoteRead = true ∧ mr.HoldsIova iova length
  | _ => True

def RecvWqe.Granted (mrs : Nat → Option Mr) (wqe : RecvWqe) : Prop :=
  wqe.length ≠ 0 →
    wqe.addr + wqe.length < 2 ^ 64 ∧ ∀ mr, mrs wqe.lkey = some mr → mr.localWrite = true

structure Guarded (mrs : Nat → Option Mr) (flags : AccessFlags) (old : List Effect) (q : RxQp) : Prop where
  pinned : Pinned mrs
  held : q.flags = flags
  recvq : ∀ wqe ∈ q.recvq, wqe.Granted mrs
  active : ∀ msg, q.rxMsg = some msg → msg.wqe.Granted mrs
  frags : ∀ msg ∈ q.rxReorder, ∀ frag ∈ msg.frags, frag.offset + frag.data.length ≤ dataMaxMsgSize
  writes : ∀ msg ∈ q.rxReorder, msg.kind = .write → flags.remoteWrite = true
  trace : ∃ new, q.trace = new ++ old ∧ ∀ effect ∈ new, effect.Confined mrs flags

variable {mrs : Nat → Option Mr} {flags : AccessFlags} {old : List Effect} {q : RxQp} {env : RxEnv}

namespace Guarded

theorem rebase (guarded : Guarded mrs flags old q) : Guarded mrs flags q.trace q :=
  { guarded with trace := ⟨[], rfl, by simp⟩ }

theorem note (guarded : Guarded mrs flags old q) (effect : Effect)
    (confined : effect.Confined mrs flags) : Guarded mrs flags old (q.note effect) := by
  obtain ⟨new, trace, all⟩ := guarded.trace
  refine { guarded with trace := ⟨effect :: new, ?_, ?_⟩ }
  · rw [RxQp.note, trace, List.cons_append]
  · intro other member
    rcases List.mem_cons.mp member with rfl | member
    · exact confined
    · exact all other member

theorem sendAck (guarded : Guarded mrs flags old q) (destQp srcQp psn : Nat) (status : SendAckStatus) :
    Guarded mrs flags old (q.sendAck destQp srcQp psn status) := guarded.note _ trivial

theorem shrink {rxReorder : List ReorderMsg} (guarded : Guarded mrs flags old q)
    (subset : ∀ msg ∈ rxReorder, msg ∈ q.rxReorder) :
    Guarded mrs flags old { q with rxReorder } :=
  { guarded with
    frags := fun msg member => guarded.frags msg (subset msg member)
    writes := fun msg member => guarded.writes msg (subset msg member) }

theorem reorderUnlink (guarded : Guarded mrs flags old q) (msg : ReorderMsg) :
    Guarded mrs flags old (q.reorderUnlink msg) := by
  have shrunk := guarded.shrink fun other member => List.mem_of_mem_eraseP (l := q.rxReorder)
    (p := fun other => other.psn = msg.psn) member
  exact { shrunk with }

theorem popRecv {wqe : RecvWqe} {q' : RxQp} (guarded : Guarded mrs flags old q)
    (popped : q.popRecv = some (wqe, q')) : Guarded mrs flags old q' ∧ wqe.Granted mrs := by
  obtain ⟨rest, recvq, rfl⟩ := popRecv_spec popped
  refine ⟨{ guarded with recvq := fun other member => guarded.recvq other ?_ }, guarded.recvq wqe ?_⟩
  · rw [recvq]
    exact List.mem_cons_of_mem _ member
  · rw [recvq]
    exact List.mem_cons_self

theorem cqPushOption (guarded : Guarded mrs flags old q) (psn : Nat) (wc : Option Wc) :
    Guarded mrs flags old (q.cqPushOption psn wc).1 := by
  cases wc with
  | none => exact guarded
  | some wc =>
      simp only [RxQp.cqPushOption, RxQp.cqPush]
      split
      · exact { guarded with }
      · exact { guarded.note (.completion psn wc) trivial with }

theorem consumePsn (guarded : Guarded mrs flags old q) (psn : Nat) (status : SendAckStatus) :
    Guarded mrs flags old (q.consumePsn psn status) :=
  { guarded.note (.consumed psn status true) trivial with }

theorem skipPsn (guarded : Guarded mrs flags old q) (psn : Nat) (status : SendAckStatus) :
    Guarded mrs flags old (q.skipPsn psn status) :=
  { guarded.note (.consumed psn status false) trivial with }

theorem conclude (guarded : Guarded mrs flags old q) (psn srcQp : Nat) (status : WcStatus) (wc : Option Wc) :
    Guarded mrs flags old (q.conclude psn srcQp status wc) :=
  ((guarded.cqPushOption psn wc).consumePsn psn _).sendAck _ _ _ _

/-! ## Copies -/

theorem copyToWqe {wqe : RecvWqe} (guarded : Guarded env.mrs flags old q) (granted : wqe.Granted env.mrs)
    (offset : Nat) (payload : List UInt8) (delivered : Nat) :
    Guarded env.mrs flags old (q.copyToWqe env wqe offset payload delivered).1 := by
  simp only [RxQp.copyToWqe]
  split
  · exact guarded
  rename_i nonempty
  split
  · exact guarded
  rename_i mr found
  split
  · rename_i takes
    obtain ⟨sum, allowed⟩ := granted (by omega)
    have exact_sum : (wqe.addr + offset) % 2 ^ 64 = wqe.addr + offset := Nat.mod_eq_of_lt (by omega)
    rw [exact_sum] at takes ⊢
    have length : (payload.take (min payload.length (wqe.length - offset))).length =
        min payload.length (wqe.length - offset) := by simp
    refine guarded.note _ ⟨⟨mr, found, allowed mr found, ?_⟩, wqe, offset, rfl, rfl, ?_⟩
    · rw [length]
      exact guarded.pinned.holds_of_takesCopy found takes
    · rw [length]
      omega
  · exact guarded

theorem copyFrags {wqe : RecvWqe} (guarded : Guarded env.mrs flags old q) (granted : wqe.Granted env.mrs)
    (frags : List ReorderFrag) (delivered : Nat) :
    Guarded env.mrs flags old (RxQp.copyFrags env wqe frags q delivered).1 := by
  induction frags generalizing q delivered with
  | nil => exact guarded
  | cons frag rest ih =>
      have copied := guarded.copyToWqe granted frag.offset frag.data delivered
      simp only [RxQp.copyFrags]
      split <;> rename_i eq <;> rw [eq] at copied
      · exact copied
      · exact ih copied _

theorem copyToRemote {rkey remoteAddr offset : Nat} {payload : List UInt8} {q' : RxQp}
    (guarded : Guarded env.mrs flags old q) (flag : flags.remoteWrite = true)
    (bound : offset + payload.length ≤ dataMaxMsgSize)
    (copied : q.copyToRemote env rkey remoteAddr offset payload = some q') :
    Guarded env.mrs flags old q' := by
  have eq := copyToRemote_eq copied
  simp only [RxQp.copyToRemote] at copied
  split at copied
  · cases copied
  split at copied
  · cases copied
  rename_i mr found
  split at copied
  · rename_i allowed
    simp only [Bool.and_eq_true] at allowed
    subst eq
    refine guarded.note _ ⟨flag, ⟨mr, found, allowed.1, ?_⟩, remoteAddr, offset, rfl, bound⟩
    exact guarded.pinned.holdsIova found allowed.2
  · cases copied

theorem copyWriteFrags {rkey remoteAddr : Nat} {frags : List ReorderFrag}
    (guarded : Guarded env.mrs flags old q) (flag : flags.remoteWrite = true)
    (bounds : ∀ frag ∈ frags, frag.offset + frag.data.length ≤ dataMaxMsgSize) :
    Guarded env.mrs flags old (RxQp.copyWriteFrags env rkey remoteAddr frags q).1 := by
  induction frags generalizing q with
  | nil => exact guarded
  | cons frag rest ih =>
      simp only [RxQp.copyWriteFrags]
      split <;> rename_i copied
      · exact guarded
      · exact ih (guarded.copyToRemote flag (bounds frag (by simp)) copied)
          fun other member => bounds other (by simp [member])

/-! ## Delivery -/

theorem deliverSend {msg : ReorderMsg} (guarded : Guarded env.mrs flags old q) :
    Guarded env.mrs flags old (q.deliverSend env msg).1 := by
  simp only [RxQp.deliverSend]
  split <;> rename_i popped
  · exact guarded.note _ trivial
  · obtain ⟨guarded', granted⟩ := guarded.popRecv popped
    dsimp only
    apply Guarded.conclude
    exact (guarded'.reorderUnlink msg).copyFrags granted msg.frags 0

theorem deliverWrite {msg : ReorderMsg} (guarded : Guarded env.mrs flags old q) (member : msg ∈ q.rxReorder)
    (isWrite : msg.kind = .write) : Guarded env.mrs flags old (q.deliverWrite env msg).1 := by
  have flag := guarded.writes msg member isWrite
  have bounds := guarded.frags msg member
  simp only [RxQp.deliverWrite]
  split <;> rename_i popped
  · exact guarded.note _ trivial
  · rename_i wqe q'
    have taken : Guarded env.mrs flags old q' := by
      split at popped
      · exact (guarded.popRecv popped).1
      · cases popped
        exact guarded
    apply Guarded.conclude
    split
    · exact (taken.reorderUnlink msg).copyWriteFrags flag bounds
    · exact taken.reorderUnlink msg

theorem queueReadWork (guarded : Guarded env.mrs flags old q) (request : DataHeader) :
    Guarded env.mrs flags old (q.queueReadWork env request) := by
  simp only [RxQp.queueReadWork]
  split <;> exact guarded.note _ trivial

theorem deliver {msg : ReorderMsg} (guarded : Guarded env.mrs flags old q) (member : msg ∈ q.rxReorder) :
    Guarded env.mrs flags old (q.deliver env msg).1 := by
  simp only [RxQp.deliver]
  split <;> rename_i kind
  · exact guarded.deliverWrite member kind
  · exact ((guarded.reorderUnlink msg).skipPsn _ _).queueReadWork _
  · exact guarded.deliverSend

theorem pruneMsg (guarded : Guarded mrs flags old q) (msg : ReorderMsg) : Guarded mrs flags old (q.pruneMsg msg) := by
  simp only [RxQp.pruneMsg]
  split
  · exact guarded
  · apply Guarded.reorderUnlink
    split <;> exact guarded.note _ trivial

theorem pruneStale (guarded : Guarded mrs flags old q) : Guarded mrs flags old q.pruneStale := by
  simp only [RxQp.pruneStale]
  generalize q.rxReorder = msgs
  induction msgs generalizing q with
  | nil => exact guarded
  | cons msg msgs ih => exact ih (guarded.pruneMsg msg)

theorem drainLoop (turns : Nat) (guarded : Guarded env.mrs flags old q) :
    Guarded env.mrs flags old (RxQp.drainLoop env turns q) := by
  induction turns generalizing q with
  | zero => exact guarded
  | succ turns ih =>
      simp only [RxQp.drainLoop]
      split
      · exact guarded
      split
      · exact guarded.pruneStale
      · rename_i msg found
        split
        · exact guarded.pruneStale
        · have delivered := guarded.pruneStale.deliver (List.mem_of_find?_eq_some found)
          split <;> rename_i result <;> rw [result] at delivered
          · exact delivered
          · exact ih delivered

theorem drain (guarded : Guarded env.mrs flags old q) : Guarded env.mrs flags old (q.drain env) :=
  guarded.drainLoop _

/-! ## Buffering -/

theorem bufferStore {frame : Frame} {msg : ReorderMsg} (guarded : Guarded env.mrs flags old q)
    (bound : frame.header.fragOffset + frame.header.length ≤ dataMaxMsgSize)
    (frags : ∀ frag ∈ msg.frags, frag.offset + frag.data.length ≤ dataMaxMsgSize)
    (flag : msg.kind = .write → flags.remoteWrite = true) (idx : Nat) :
    Guarded env.mrs flags old (q.bufferStore env frame msg idx) := by
  simp only [RxQp.bufferStore]
  split
  · exact (guarded.reorderUnlink msg).note _ trivial
  · have stored : Guarded env.mrs flags old
        { q.reorderReplace (msg.addFragment idx frame.header.fragOffset frame.payload) with
          rxReorderBytes := q.rxReorderBytes + frame.header.length } := by
      refine { guarded with frags := ?_, writes := ?_ }
      · intro other member frag contained
        rcases mem_replaceKey member with rfl | ⟨member, _⟩
        · simp only [ReorderMsg.addFragment] at contained
          split at contained
          · exact frags frag contained
          · rcases List.mem_append.mp contained with contained | contained
            · exact frags frag contained
            · rw [List.mem_singleton.mp contained, frame.sized]
              exact bound
        · exact guarded.frags other member frag contained
      · intro other member isWrite
        rcases mem_replaceKey member with rfl | ⟨member, _⟩
        · exact flag isWrite
        · exact guarded.writes other member isWrite
    split
    · exact stored.drain
    · exact stored

theorem reorderLink {fresh : ReorderMsg} (guarded : Guarded mrs flags old q) (empty : fresh.frags = [])
    (flag : fresh.kind = .write → flags.remoteWrite = true) : Guarded mrs flags old (q.reorderLink fresh) := by
  refine { guarded with frags := ?_, writes := ?_ }
  · intro other member frag contained
    rcases List.mem_append.mp member with member | member
    · exact guarded.frags other member frag contained
    · rw [List.mem_singleton.mp member, empty] at contained
      cases contained
  · intro other member isWrite
    rcases List.mem_append.mp member with member | member
    · exact guarded.writes other member isWrite
    · rw [List.mem_singleton.mp member] at isWrite
      exact flag isWrite

theorem bufferMessage {frame : Frame} {fresh : ReorderMsg} (guarded : Guarded env.mrs flags old q)
    (bound : frame.header.fragOffset + frame.header.length ≤ dataMaxMsgSize) (empty : fresh.frags = [])
    (flag : fresh.kind = .write → flags.remoteWrite = true) (shape : Except Errno (Nat × Nat)) :
    Guarded env.mrs flags old (q.bufferMessage env frame shape fresh) := by
  simp only [RxQp.bufferMessage]
  split
  · exact guarded.note _ trivial
  split
  · exact guarded.note _ trivial
  split
  · exact guarded.note _ trivial
  split
  · split
    · exact guarded.note _ trivial
    split
    · exact guarded.note _ trivial
    · refine Guarded.bufferStore (guarded.reorderLink ?_ ?_) bound ?_ ?_ _
      · exact empty
      · exact flag
      · simp [empty]
      · exact flag
  · rename_i msg found
    have member := List.mem_of_find?_eq_some found
    split
    · exact (guarded.reorderUnlink msg).note _ trivial
    split
    · split
      · exact (guarded.reorderUnlink msg).note _ trivial
      split
      · exact guarded.drain
      · exact guarded
    · exact guarded.bufferStore bound (guarded.frags msg member) (guarded.writes msg member) _

theorem bufferFragment {frame : Frame} (guarded : Guarded env.mrs flags old q)
    (bound : frame.header.fragOffset + frame.header.length ≤ dataMaxMsgSize) :
    Guarded env.mrs flags old (q.bufferFragment env frame) :=
  guarded.bufferMessage bound rfl (by simp) _

theorem bufferReadReq (guarded : Guarded env.mrs flags old q) (header : DataHeader) :
    Guarded env.mrs flags old (q.bufferReadReq env header) := by
  simp only [RxQp.bufferReadReq]
  split
  · exact guarded.note _ trivial
  split
  · exact guarded.note _ trivial
  split
  · split
    · exact guarded.note _ trivial
    split
    · exact guarded.note _ trivial
    · exact guarded.reorderLink rfl (by simp)
  · rename_i msg _
    split
    · exact (guarded.reorderUnlink msg).note _ trivial
    split
    · exact guarded.drain
    · exact guarded

/-! ## SEND -/

theorem setMsg {msg : RxMessage} (guarded : Guarded mrs flags old q) (granted : msg.wqe.Granted mrs) :
    Guarded mrs flags old { q with rxMsg := some msg } :=
  { guarded with
    active := by
      intro other same
      cases same
      exact granted }

theorem finishSend (guarded : Guarded mrs flags old q) (msg : RxMessage) :
    Guarded mrs flags old (q.finishSend msg) := by
  have cleared : Guarded mrs flags old { q with rxMsg := none } := { guarded with active := nofun }
  exact cleared.conclude _ _ _ _

theorem failActiveSend (guarded : Guarded mrs flags old q) (status : WcStatus) :
    Guarded mrs flags old (q.failActiveSend status) := by
  simp only [RxQp.failActiveSend]
  split
  · exact guarded
  · exact guarded.finishSend _

theorem copySend {msg : RxMessage} (guarded : Guarded env.mrs flags old q) (granted : msg.wqe.Granted env.mrs)
    (offset : Nat) (payload : List UInt8) :
    Guarded env.mrs flags old (q.copySend env msg offset payload).1 ∧
      (q.copySend env msg offset payload).2.wqe = msg.wqe := by
  have copied := guarded.copyToWqe granted offset payload msg.delivered
  simp only [RxQp.copySend]
  split <;> rename_i eq <;> rw [eq] at copied
  · exact ⟨copied, rfl⟩
  · exact ⟨copied, rfl⟩

theorem recordStriped {msg : RxMessage} (guarded : Guarded env.mrs flags old q)
    (granted : msg.wqe.Granted env.mrs) (idx : Nat) (frame : Frame) :
    Guarded env.mrs flags old (q.recordStriped env msg idx frame) := by
  obtain ⟨copied, same⟩ := guarded.copySend granted frame.header.fragOffset frame.payload
  simp only [RxQp.recordStriped]
  by_cases seen : msg.fragSeen.contains idx = true
  · simp only [seen, if_true]
    split
    · exact (guarded.finishSend _).drain
    · exact guarded.setMsg granted
  · simp only [seen, Bool.false_eq_true, if_false]
    split
    · exact (copied.finishSend _).drain
    · refine copied.setMsg ?_
      rw [same]
      exact granted

theorem recordPlain {msg : RxMessage} (guarded : Guarded env.mrs flags old q)
    (granted : msg.wqe.Granted env.mrs) (offset : Nat) (payload : List UInt8) (last : Bool) :
    Guarded env.mrs flags old (q.recordPlain env msg offset payload last) := by
  obtain ⟨copied, same⟩ := guarded.copySend granted offset payload
  simp only [RxQp.recordPlain]
  split
  · exact (copied.finishSend _).drain
  · exact copied.setMsg (same ▸ granted)

theorem refuseRnr (guarded : Guarded mrs flags old q) (header : DataHeader) :
    Guarded mrs flags old (q.refuseRnr header) :=
  { guarded.note (.ack header.srcQp header.destQp (header.psn % psnMod) .rnr) trivial with }

theorem clearRnr (guarded : Guarded mrs flags old q) (srcQp psn : Nat) :
    Guarded mrs flags old (q.clearRnr srcQp psn) := by
  simp only [RxQp.clearRnr]
  split
  · exact { guarded with }
  · exact guarded

theorem handleStripedSend {frame : Frame} (guarded : Guarded env.mrs flags old q)
    (bound : frame.header.fragOffset + frame.header.length ≤ dataMaxMsgSize) :
    Guarded env.mrs flags old (q.handleStripedSend env frame) := by
  simp only [RxQp.handleStripedSend]
  split
  · exact guarded.note _ trivial
  split
  · exact guarded.note _ trivial
  split
  · exact guarded.bufferFragment bound
  split <;> rename_i isActive
  · split
    · exact (guarded.failActiveSend _).note _ trivial
    · exact guarded.recordStriped (guarded.active _ isActive) _ _
  · split <;> rename_i popped
    · exact guarded.refuseRnr _
    · obtain ⟨guarded', granted⟩ := guarded.popRecv popped
      exact guarded'.recordStriped granted _ _

theorem handlePlainSend {frame : Frame} (guarded : Guarded env.mrs flags old q)
    (bound : frame.header.fragOffset + frame.header.length ≤ dataMaxMsgSize) :
    Guarded env.mrs flags old (q.handlePlainSend env frame) := by
  simp only [RxQp.handlePlainSend]
  split <;> rename_i isActive
  · have granted := guarded.active _ isActive
    split
    · exact guarded.recordPlain granted _ _ _
    split
    · exact guarded.note _ trivial
    split
    · exact guarded.bufferFragment bound
    split
    · split
      · exact guarded
      · exact guarded.recordPlain granted _ _ _
    split
    · exact guarded
    · exact (guarded.failActiveSend _).note _ trivial
  · split
    · exact guarded.bufferFragment bound
    split
    · exact guarded.note _ trivial
    split <;> rename_i popped
    · exact guarded.refuseRnr _
    · obtain ⟨guarded', granted⟩ := guarded.popRecv popped
      exact guarded'.recordPlain granted _ _ _

theorem handleSendFragment (guarded : Guarded env.mrs flags old q) (frame : Frame) :
    Guarded env.mrs flags old (q.handleSendFragment env frame) := by
  simp only [RxQp.handleSendFragment]
  split
  · exact guarded.note _ trivial
  rename_i ok
  have bound : frame.header.fragOffset + frame.header.length ≤ dataMaxMsgSize := by
    simp only [sendHeaderOk, Bool.not_eq_true', Bool.not_eq_false, Bool.and_eq_true,
      decide_eq_true_eq] at ok
    omega
  split
  · exact guarded
  split
  · exact (guarded.clearRnr _ _).handleStripedSend bound
  · exact (guarded.clearRnr _ _).handlePlainSend bound

/-! ## WRITE -/

theorem finishWrite (guarded : Guarded env.mrs flags old q) (write : RxWrite) (status : WcStatus) :
    Guarded env.mrs flags old (q.finishWrite env write status) := by
  have cleared : Guarded env.mrs flags old { q with rxWrite := none } := { guarded with }
  simp only [RxQp.finishWrite]
  generalize (if write.withImm then
    some (writeImmWc write.immWqe status write.srcQp write.immData) else none) = wc
  split
  · exact (cleared.cqPushOption _ _).sendAck _ _ _ _
  · exact ((cleared.cqPushOption _ _).consumePsn _ _).drain.sendAck _ _ _ _

theorem failActiveWrite (guarded : Guarded env.mrs flags old q) (status : WcStatus) :
    Guarded env.mrs flags old (q.failActiveWrite env status) := by
  simp only [RxQp.failActiveWrite]
  split
  · exact guarded
  · exact guarded.finishWrite _ _

section Write

variable {frame : Frame} (guarded : Guarded env.mrs flags old q) (flag : flags.remoteWrite = true)
include guarded flag

theorem recordWrite {write : RxWrite} {offset : Nat} {payload : List UInt8}
    (bound : offset + payload.length ≤ dataMaxMsgSize) (last : Bool) :
    Guarded env.mrs flags old (q.recordWrite env write offset payload last) := by
  simp only [RxQp.recordWrite]
  split
  · split
    · exact guarded.finishWrite _ _
    · exact { guarded with }
  · split <;> rename_i copied
    · exact guarded.finishWrite _ _
    · have guarded' := guarded.copyToRemote flag bound copied
      split
      · exact guarded'.finishWrite _ _
      · exact { guarded' with }

variable (bound : frame.header.fragOffset + frame.header.length ≤ dataMaxMsgSize)
include bound

theorem deferWrite : Guarded env.mrs flags old (q.deferWrite env frame) := by
  simp only [RxQp.deferWrite]
  split
  · exact guarded
  · exact guarded.bufferMessage bound rfl (fun _ => flag) _

theorem handleActiveWrite (write : RxWrite) : Guarded env.mrs flags old (q.handleActiveWrite env frame write) := by
  have sized := frame.sized
  simp only [RxQp.handleActiveWrite]
  split
  · split
    · exact guarded.deferWrite flag bound
    · exact guarded.failActiveWrite _
  split
  · split
    · exact guarded
    · refine guarded.recordWrite flag ?_ _
      rw [List.length_drop]
      omega
  split
  · exact guarded.deferWrite flag bound
  · exact guarded.recordWrite flag (by omega) _

theorem handleIdleWrite : Guarded env.mrs flags old (q.handleIdleWrite env frame) := by
  have sized := frame.sized
  simp only [RxQp.handleIdleWrite]
  split
  · exact guarded.deferWrite flag bound
  split
  · exact guarded.deferWrite flag bound
  split
  · split
    · exact guarded.note _ trivial
    · exact guarded.deferWrite flag bound
  split <;> rename_i popped
  · exact guarded.refuseRnr _
  · split at popped
    · exact (guarded.popRecv popped).1.recordWrite flag (by omega) _
    · cases popped
      exact guarded.recordWrite flag (by omega) _

end Write

theorem handleRdmaWriteFragment (guarded : Guarded env.mrs flags old q) (frame : Frame) :
    Guarded env.mrs flags old (q.handleRdmaWriteFragment env frame) := by
  simp only [RxQp.handleRdmaWriteFragment]
  split
  · exact guarded.note _ trivial
  rename_i ok
  simp only [Bool.not_eq_true', Bool.not_eq_false, Bool.and_eq_true] at ok
  have bound : frame.header.fragOffset + frame.header.length ≤ dataMaxMsgSize := by
    have header := ok.1
    simp only [writeHeaderOk, Bool.and_eq_true, decide_eq_true_eq] at header
    exact header.1.1.2
  split
  · exact guarded
  have cleared := guarded.clearRnr frame.header.srcQp (frame.header.psn % psnMod)
  have flag : flags.remoteWrite = true := by
    rw [← guarded.held]
    exact ok.2
  split
  · exact cleared.note _ trivial
  split
  · exact cleared.handleActiveWrite flag bound _
  · exact cleared.handleIdleWrite flag bound

/-! ## READ, timeout and error -/

theorem handleRdmaReadReq (guarded : Guarded env.mrs flags old q) (header : DataHeader) :
    Guarded env.mrs flags old (q.handleRdmaReadReq env header) := by
  simp only [RxQp.handleRdmaReadReq]
  split
  · exact guarded.note _ trivial
  split
  · exact guarded.bufferReadReq header
  · exact (guarded.skipPsn _ _).drain.queueReadWork _

theorem handleFrame (guarded : Guarded env.mrs flags old q) (frame : Frame) :
    Guarded env.mrs flags old (q.handleFrame env frame) := by
  simp only [RxQp.handleFrame]
  split
  · exact guarded.handleSendFragment frame
  · exact guarded.handleSendFragment frame
  · exact guarded.handleRdmaWriteFragment frame
  · exact guarded.handleRdmaWriteFragment frame
  · exact guarded.handleRdmaReadReq frame.header
  · exact guarded

theorem reapMsg (guarded : Guarded env.mrs flags old q) (msg : ReorderMsg) :
    Guarded env.mrs flags old (q.reapMsg env msg) := by
  have dropped := guarded.reorderUnlink msg
  have harmless : (if msg.kind = .readReq then Effect.readStatus msg.srcQp q.qpNum msg.psn msg.totalLen .eTimedOut
        else .ack msg.srcQp q.qpNum msg.psn .error).Confined env.mrs flags := by
    split <;> trivial
  simp only [RxQp.reapMsg]
  split
  · exact ((dropped.skipPsn _ _).note _ harmless).drain
  · exact dropped.note _ harmless

theorem reapLoop (timeout turns : Nat) (guarded : Guarded env.mrs flags old q) :
    Guarded env.mrs flags old (RxQp.reapLoop env timeout turns q) := by
  induction turns generalizing q with
  | zero => exact guarded
  | succ turns ih =>
      simp only [RxQp.reapLoop]
      split
      · exact guarded
      · exact ih (guarded.reapMsg _)

theorem timeoutReapRx (guarded : Guarded env.mrs flags old q) (timeout : Nat) :
    Guarded env.mrs flags old (q.timeoutReapRx env timeout) := by
  simp only [RxQp.timeoutReapRx]
  apply Guarded.reapLoop
  split <;> split
  · exact (guarded.failActiveSend _).failActiveWrite _
  · exact guarded.failActiveSend _
  · exact guarded.failActiveWrite _
  · exact guarded

theorem flushRx (guarded : Guarded env.mrs flags old q) : Guarded env.mrs flags old (q.flushRx env) := by
  have failed := (guarded.failActiveSend .wrFlushErr).failActiveWrite .wrFlushErr
  exact { failed with frags := nofun, writes := nofun }

end Guarded

end ThunderboltVerbs.Receive
