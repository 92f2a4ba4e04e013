import ThunderboltVerbs.Receive.Represented
import Mathlib.Data.List.Pairwise

/-!
# A buffered WRITE on two grids

A fragment of a WRITE is cut every 4048 bytes, or every 4096 bytes if it comes from a raw stream. A message
counts fragment indices and takes a fragment of either grid, as long as both grids have the same number of
fragments.
-/

namespace ThunderboltVerbs.Receive
open Proto Verbs Lib

/-! ## The fragments of a message -/

/-- The fragment is one of those that a message cut every `grid` bytes has. -/
def ReorderFrag.OnGrid (totalLen grid : Nat) (frag : ReorderFrag) : Prop :=
  grid ∣ frag.offset ∧ frag.data.length = min grid (totalLen - frag.offset)

def ReorderMsg.OneGrid (msg : ReorderMsg) : Prop :=
  (∀ frag ∈ msg.frags, frag.OnGrid msg.totalLen dataMaxPayload) ∨
    ∀ frag ∈ msg.frags, frag.OnGrid msg.totalLen dataFrameSize

def ReorderFrag.Holds (frag : ReorderFrag) (byte : Nat) : Prop :=
  frag.offset ≤ byte ∧ byte < frag.offset + frag.data.length

def ReorderFrag.Apart (frag other : ReorderFrag) : Prop := ∀ byte, ¬(frag.Holds byte ∧ other.Holds byte)

/-- The fragments are disjoint and cover the message. -/
structure ReorderMsg.Whole (msg : ReorderMsg) : Prop where
  disjoint : msg.frags.Pairwise ReorderFrag.Apart
  covered : ∀ byte < msg.totalLen, ∃ frag ∈ msg.frags, frag.Holds byte

/-- A fragment of a message of this size and its place on a grid. -/
structure Piece (totalLen count grid idx : Nat) (frag : ReorderFrag) : Prop where
  start : frag.offset = idx * grid
  length : frag.data.length = min grid (totalLen - idx * grid)
  inside : idx < count
  low : (count - 1) * grid < totalLen
  high : totalLen ≤ count * grid

def IsGrid (grid : Nat) : Prop := grid = dataMaxPayload ∨ grid = dataFrameSize

theorem IsGrid.cases {grid : Nat} (isGrid : IsGrid grid) : grid = 4048 ∨ grid = 4096 := isGrid

theorem FragmentOf.piece {totalLen grid idx count : Nat} {frag : ReorderFrag}
    (fragment : FragmentOf totalLen grid frag.offset frag.data.length idx count) (isGrid : IsGrid grid)
    (bound : totalLen ≤ dataMaxMsgSize) (positive : 0 < totalLen) : Piece totalLen count grid idx frag := by
  obtain ⟨-, start, counted, inside, length⟩ := fragment
  have limit : totalLen ≤ 16777216 := bound
  rw [if_neg (by omega)] at counted
  rcases isGrid.cases with rfl | rfl
  all_goals
    refine ⟨start, ?_, inside, by omega, by omega⟩
    rw [length]
    split <;> omega

theorem Piece.nonempty {totalLen count grid idx : Nat} {frag : ReorderFrag} (piece : Piece totalLen count grid idx frag)
    (isGrid : IsGrid grid) : 0 < frag.data.length := by
  have inside := piece.inside
  have low := piece.low
  rw [piece.length]
  rcases isGrid.cases with rfl | rfl <;> omega

/-- The stored fragments with their indices. -/
structure ReorderMsg.Cut (msg : ReorderMsg) : Prop where
  bound : msg.totalLen ≤ dataMaxMsgSize
  count : 0 < msg.fragCount
  empty : msg.totalLen = 0 → msg.frags = []
  pieces : 0 < msg.totalLen → ∃ pieces : List (Nat × ReorderFrag),
    pieces.map Prod.fst = msg.fragSeen.reverse ∧ pieces.map Prod.snd = msg.frags ∧
      ∀ piece ∈ pieces, ∃ grid, IsGrid grid ∧ Piece msg.totalLen msg.fragCount grid piece.1 piece.2

theorem ReorderMsg.Cut.addFragment {msg : ReorderMsg} {frame : Frame} {idx : Nat} (cut : msg.Cut)
    (isWrite : msg.kind = .write) (takes : msg.Takes frame idx) :
    (msg.addFragment idx frame.header.fragOffset frame.payload).Cut := by
  have shape := takes.shape
  simp only [ReorderMsg.shape, isWrite] at shape
  obtain ⟨grid, isGrid, fragment⟩ := fragmentOf_writeShape shape
  rw [← frame.sized] at fragment
  refine ⟨cut.bound, cut.count, fun zero => ?_, fun positive => ?_⟩
  · have size : msg.totalLen = 0 := zero
    have nothing : frame.payload = [] := by
      rw [← List.length_eq_zero_iff, fragment.length]
      have count := fragment.counted
      have inside := fragment.inside
      rw [if_pos size] at count
      rw [if_pos (by omega), size, Nat.zero_sub]
    rw [ReorderMsg.addFragment, if_pos nothing, cut.empty size]
  · obtain ⟨pieces, indices, frags, each⟩ := cut.pieces positive
    let frag : ReorderFrag := { offset := frame.header.fragOffset, data := frame.payload }
    have piece : Piece msg.totalLen msg.fragCount grid idx frag := fragment.piece isGrid cut.bound positive
    have nonempty : frame.payload ≠ [] := by
      rw [← List.length_pos_iff]
      exact piece.nonempty isGrid
    refine ⟨pieces ++ [(idx, frag)], ?_, ?_, ?_⟩
    · simp [ReorderMsg.addFragment, indices]
    · simp [ReorderMsg.addFragment, frags, nonempty, frag]
    · intro other member
      rcases List.mem_append.mp member with old | added
      · exact each other old
      · obtain rfl := List.mem_singleton.mp added
        exact ⟨grid, isGrid, piece⟩

structure Reorder.CutWrites (r : Reorder) : Prop where
  distinct : (r.msgs.map ReorderMsg.psn).Nodup
  cut : ∀ msg ∈ r.msgs, msg.kind = .write → msg.Cut

theorem Reorder.CutWrites.closed :
    Reorder.Closed (fun msg => msg.kind ≠ .readReq → msg.totalLen ≤ dataMaxMsgSize) CutWrites where
  checked bound := bound
  distinct held := held.distinct
  empty := ⟨List.nodup_nil, by simp [Reorder.empty]⟩
  unlink held _ :=
    ⟨held.distinct.sublist (List.eraseP_sublist.map _), fun msg left => held.cut msg (List.mem_of_mem_eraseP left)⟩
  link {r msg} held absent _ fresh admitted := by
    refine ⟨nodup_link held.distinct absent, fun other member isWrite => ?_⟩
    rcases List.mem_append.mp member with old | added
    · exact held.cut other old isWrite
    · obtain rfl := List.mem_singleton.mp added
      have data : other.kind ≠ .readReq := by simp [isWrite]
      refine ⟨admitted data, (fresh.data data).2.1, fun _ => fresh.frags, fun _ => ⟨[], ?_, ?_, by simp⟩⟩
      · simp [fresh.seen]
      · simp [fresh.frags]
  store {r msg frame idx} held member takes _ := by
    refine ⟨by simpa only [Reorder.store, keys_replaceKey] using held.distinct, fun other inside isWrite => ?_⟩
    rcases mem_replaceKey inside with rfl | ⟨old, -⟩
    · exact (held.cut msg member isWrite).addFragment isWrite takes
    · exact held.cut other old isWrite

/-! ## Whole messages -/

section Pieces

variable {totalLen count : Nat} {pieces : List (Nat × ReorderFrag)}

/-- The pieces of a complete message. -/
structure Pieces (totalLen count : Nat) (pieces : List (Nat × ReorderFrag)) : Prop where
  some : 0 < count
  keys : (pieces.map Prod.fst).Nodup
  all : ∀ idx < count, ∃ frag, (idx, frag) ∈ pieces
  each : ∀ piece ∈ pieces, ∃ grid, IsGrid grid ∧ Piece totalLen count grid piece.1 piece.2

theorem Pieces.same (held : Pieces totalLen count pieces) {idx : Nat} {frag other : ReorderFrag}
    (member : (idx, frag) ∈ pieces) (again : (idx, other) ∈ pieces) : frag = other := by
  have equal := List.inj_on_of_nodup_map held.keys member again rfl
  exact congrArg Prod.snd equal

theorem Piece.onGrid {grid idx : Nat} {frag : ReorderFrag} (piece : Piece totalLen count grid idx frag) :
    frag.OnGrid totalLen grid := by
  rw [ReorderFrag.OnGrid, piece.start]
  exact ⟨Dvd.intro_left idx rfl, piece.length⟩

/-- The first of several fragments is a full one and tells the grid. -/
theorem Pieces.grid_of_first (held : Pieces totalLen count pieces) (several : 2 ≤ count) {grid : Nat}
    (isGrid : IsGrid grid) (one : ∀ piece ∈ pieces, piece.2.OnGrid totalLen grid) :
    (count - 1) * grid < totalLen ∧ totalLen ≤ count * grid := by
  obtain ⟨first, here⟩ := held.all 0 (by omega)
  obtain ⟨own, isOwn, piece⟩ := held.each _ here
  obtain ⟨-, length⟩ := one _ here
  have low := piece.low
  have high := piece.high
  rw [piece.length, piece.start] at length
  rcases isGrid.cases with rfl | rfl <;> rcases isOwn.cases with rfl | rfl <;> omega

theorem Pieces.on_grid (held : Pieces totalLen count pieces) (several : 2 ≤ count) {grid : Nat} (isGrid : IsGrid grid)
    (one : ∀ piece ∈ pieces, piece.2.OnGrid totalLen grid) :
    ∀ piece ∈ pieces, Piece totalLen count grid piece.1 piece.2 := by
  intro piece member
  obtain ⟨low, high⟩ := held.grid_of_first several isGrid one
  obtain ⟨own, isOwn, placed⟩ := held.each piece member
  obtain ⟨⟨cells, start⟩, length⟩ := one piece member
  suffices same : own = grid from same ▸ placed
  have inside := placed.inside
  have lowOwn := placed.low
  have highOwn := placed.high
  rw [placed.start] at start length
  rw [placed.length] at length
  rcases isGrid.cases with rfl | rfl <;> rcases isOwn.cases with rfl | rfl <;> omega

theorem Pieces.single (held : Pieces totalLen count pieces) (alone : count = 1) :
    ∃ grid, IsGrid grid ∧ ∀ piece ∈ pieces, Piece totalLen count grid piece.1 piece.2 := by
  obtain ⟨first, here⟩ := held.all 0 (by omega)
  obtain ⟨grid, isGrid, piece⟩ := held.each _ here
  refine ⟨grid, isGrid, fun other member => ?_⟩
  obtain ⟨_, _, placed⟩ := held.each other member
  have inside := placed.inside
  obtain ⟨idx, frag⟩ := other
  obtain rfl : idx = 0 := by
    simp only at inside
    omega
  rw [held.same member here]
  exact piece

/-! ## From one grid -/

theorem Pieces.disjoint (held : Pieces totalLen count pieces) {grid : Nat} (isGrid : IsGrid grid)
    (placed : ∀ piece ∈ pieces, Piece totalLen count grid piece.1 piece.2) :
    (pieces.map Prod.snd).Pairwise ReorderFrag.Apart := by
  rw [List.pairwise_map]
  have differ : pieces.Pairwise fun piece other => piece.1 ≠ other.1 := List.pairwise_map.mp held.keys
  refine differ.imp_of_mem fun {piece other} member again apart => ?_
  have first := placed piece member
  have second := placed other again
  intro byte both
  simp only [ReorderFrag.Holds, first.start, first.length, second.start, second.length] at both
  rcases isGrid.cases with rfl | rfl <;> omega

theorem Pieces.covered (held : Pieces totalLen count pieces) {grid : Nat} (isGrid : IsGrid grid)
    (placed : ∀ piece ∈ pieces, Piece totalLen count grid piece.1 piece.2) {byte : Nat} (inside : byte < totalLen) :
    ∃ frag ∈ pieces.map Prod.snd, frag.Holds byte := by
  obtain ⟨first, here⟩ := held.all 0 held.some
  have high := (placed _ here).high
  obtain ⟨idx, cell, before⟩ : ∃ idx < count, idx * grid ≤ byte ∧ byte < (idx + 1) * grid := by
    have positive : 0 < grid := by rcases isGrid.cases with rfl | rfl <;> omega
    refine ⟨byte / grid, ?_, Nat.div_mul_le_self byte grid, ?_⟩
    · exact (Nat.div_lt_iff_lt_mul positive).mpr (inside.trans_le high)
    · exact Nat.lt_mul_of_div_lt (Nat.lt_succ_self _) positive
  obtain ⟨frag, member⟩ := held.all idx cell
  have piece : Piece totalLen count grid idx frag := placed _ member
  refine ⟨frag, List.mem_map_of_mem member, ?_⟩
  simp only [ReorderFrag.Holds, piece.start, piece.length]
  rcases isGrid.cases with rfl | rfl <;> omega

/-! ## To one grid -/

/-- Neighbours on different grids leave a gap or overlap. -/
theorem Pieces.neighbours (held : Pieces totalLen count pieces)
    (disjoint : (pieces.map Prod.snd).Pairwise ReorderFrag.Apart)
    (covered : ∀ byte < totalLen, ∃ frag ∈ pieces.map Prod.snd, frag.Holds byte)
    {idx first second : Nat} {frag next : ReorderFrag} (isFirst : IsGrid first) (isSecond : IsGrid second)
    (member : (idx, frag) ∈ pieces) (placed : Piece totalLen count first idx frag)
    (memberNext : (idx + 1, next) ∈ pieces) (placedNext : Piece totalLen count second (idx + 1) next) :
    first = second := by
  have inside := placedNext.inside
  have low := placed.low
  have high := placed.high
  have lowNext := placedNext.low
  have highNext := placedNext.high
  have start := placed.start
  have startNext := placedNext.start
  have length := placed.length
  have lengthNext := placedNext.length
  obtain ⟨edge, at_edge⟩ : ∃ edge, edge = (idx + 1) * 4048 := ⟨_, rfl⟩
  rcases isFirst.cases with rfl | rfl <;> rcases isSecond.cases with rfl | rfl
  · rfl
  · exfalso
    -- the byte after the first fragment is before the second one, and no other reaches it
    obtain ⟨other, listed, holds⟩ := covered edge (by omega)
    obtain ⟨⟨at_, frag'⟩, member', rfl⟩ := List.mem_map.mp listed
    obtain ⟨grid, isGrid, placed'⟩ := held.each _ member'
    have start' := placed'.start
    have length' := placed'.length
    simp only [ReorderFrag.Holds] at holds start' length'
    by_cases here : at_ = idx
    · subst here
      rw [held.same member' member] at holds
      omega
    by_cases there : at_ = idx + 1
    · subst there
      rw [held.same member' memberNext] at holds
      omega
    rcases isGrid.cases with rfl | rfl <;> omega
  · exfalso
    have apart : frag.Apart next := by
      rw [List.pairwise_map] at disjoint
      have symmetric : Std.Symm fun piece other : Nat × ReorderFrag => piece.2.Apart other.2 :=
        ⟨fun _ _ apart byte both => apart byte both.symm⟩
      exact disjoint.forall member memberNext (by simp)
    apply apart edge
    simp only [ReorderFrag.Holds]
    omega
  · rfl

theorem Pieces.one_grid (held : Pieces totalLen count pieces)
    (disjoint : (pieces.map Prod.snd).Pairwise ReorderFrag.Apart)
    (covered : ∀ byte < totalLen, ∃ frag ∈ pieces.map Prod.snd, frag.Holds byte) :
    ∃ grid, IsGrid grid ∧ ∀ piece ∈ pieces, Piece totalLen count grid piece.1 piece.2 := by
  obtain ⟨first, here⟩ := held.all 0 held.some
  obtain ⟨grid, isGrid, start⟩ := held.each _ here
  have all : ∀ idx frag, (idx, frag) ∈ pieces → Piece totalLen count grid idx frag := fun idx => by
    -- from each index to the next
    induction idx with
    | zero =>
        intro frag member
        rw [held.same member here]
        exact start
    | succ idx ih =>
        intro frag member
        obtain ⟨second, isSecond, placedNext⟩ := held.each _ member
        have inside := placedNext.inside
        obtain ⟨before, memberBefore⟩ := held.all idx (by simp only at inside; omega)
        have same := held.neighbours disjoint covered isGrid isSecond memberBefore (ih before memberBefore) member
          placedNext
        rw [same]
        exact placedNext
  exact ⟨grid, isGrid, fun piece member => all piece.1 piece.2 member⟩

end Pieces

theorem ReorderMsg.Cut.whole_iff {msg : ReorderMsg} (cut : msg.Cut) (sound : msg.Sound) (isWrite : msg.kind = .write)
    (complete : msg.complete = true) : msg.Whole ↔ msg.OneGrid := by
  by_cases positive : 0 < msg.totalLen
  swap
  · have zero : msg.totalLen = 0 := by omega
    have none := cut.empty zero
    exact ⟨fun _ => .inl (by simp [none]), fun _ => ⟨by simp [none], by simp [zero]⟩⟩
  obtain ⟨pieces, indices, frags, each⟩ := cut.pieces positive
  have received : msg.fragSeen.length = msg.fragCount :=
    (sound.received (by simp [isWrite])).symm.trans (sound.complete.mp complete)
  have held : Pieces msg.totalLen msg.fragCount pieces := by
    refine ⟨cut.count, ?_, fun idx inside => ?_, each⟩
    · rw [indices]
      exact List.nodup_reverse.mpr sound.seen
    · have seen : idx ∈ pieces.map Prod.fst := by
        rw [indices, List.mem_reverse]
        exact all_seen sound.seen sound.inside received idx inside
      obtain ⟨⟨_, frag⟩, member, rfl⟩ := List.mem_map.mp seen
      exact ⟨frag, member⟩
  have grids : (∃ grid, IsGrid grid ∧ ∀ piece ∈ pieces, Piece msg.totalLen msg.fragCount grid piece.1 piece.2) ↔
      msg.OneGrid := by
    constructor
    · rintro ⟨grid, isGrid, placed⟩
      have all : ∀ frag ∈ msg.frags, frag.OnGrid msg.totalLen grid := by
        rw [← frags]
        rintro frag listed
        obtain ⟨piece, member, rfl⟩ := List.mem_map.mp listed
        exact (placed piece member).onGrid
      rcases isGrid with rfl | rfl
      · exact .inl all
      · exact .inr all
    · intro one
      by_cases alone : msg.fragCount = 1
      · exact held.single alone
      have several : 2 ≤ msg.fragCount := by
        have some := cut.count
        omega
      rcases one with all | all
      · exact ⟨_, .inl rfl, held.on_grid several (.inl rfl) fun piece member =>
          all _ (frags ▸ List.mem_map_of_mem member)⟩
      · exact ⟨_, .inr rfl, held.on_grid several (.inr rfl) fun piece member =>
          all _ (frags ▸ List.mem_map_of_mem member)⟩
  rw [← grids]
  constructor
  · intro whole
    refine held.one_grid ?_ ?_
    · rw [frags]
      exact whole.disjoint
    · rw [frags]
      exact whole.covered
  · rintro ⟨grid, isGrid, placed⟩
    refine ⟨frags ▸ held.disjoint isGrid placed, fun byte inside => ?_⟩
    rw [← frags]
    exact held.covered isGrid placed inside

/-! ## The acknowledged WRITE -/

variable {q : RxQp} {env : RxEnv}

def Acknowledged (q : RxQp) (msg : ReorderMsg) (q' : RxQp) : Prop :=
  q'.trace.head? = some (.ack msg.srcQp q.qpNum msg.psn .ok)

def Effect.WritesByte (rkey iova : Nat) : Effect → Prop
  | .wrote key start data => key = rkey ∧ start ≤ iova ∧ iova < start + data.length
  | _ => False

def RxQp.since (q' q : RxQp) : List Effect := q'.trace.take (q'.trace.length - q.trace.length)

theorem since_eq {q q' : RxQp} {new : List Effect} (grown : q'.trace = new ++ q.trace) : q'.since q = new := by
  rw [RxQp.since, grown, List.length_append, Nat.add_sub_cancel]
  exact List.take_left

/-- What the copies of all fragments of a WRITE leave in the trace, the last one first. -/
def writtenFrags (rkey remoteAddr : Nat) (frags : List ReorderFrag) : List Effect :=
  frags.reverse.map fun frag => .wrote rkey (remoteAddr + frag.offset) frag.data

theorem copyWriteFrags_done {rkey remoteAddr : Nat} {frags : List ReorderFrag}
    (done : (RxQp.copyWriteFrags env rkey remoteAddr frags q).2 = true) :
    (RxQp.copyWriteFrags env rkey remoteAddr frags q).1 =
      { q with trace := writtenFrags rkey remoteAddr frags ++ q.trace } := by
  induction frags generalizing q with
  | nil => rfl
  | cons frag rest ih =>
      simp only [RxQp.copyWriteFrags] at done ⊢
      split at done <;> rename_i eq
      · cases done
      · rw [ih done, copyToRemote_eq eq]
        simp [RxQp.note, writtenFrags]

theorem success_of_ackStatus {status : WcStatus} {pushed : Bool} (ok : ackStatus status pushed = .ok) :
    status = .success :=
  ackStatus_ne_error (by rw [ok]; decide)

theorem conclude_grown (psn srcQp : Nat) (status : WcStatus) (wc : Option Wc) :
    ∃ new, (q.conclude psn srcQp status wc).trace =
      .ack srcQp q.qpNum psn (ackStatus status (q.cqPushOption psn wc).2) :: new ++ q.trace := by
  obtain ⟨cq, pushed, eq, -, -⟩ := cqPushOption_spec q psn wc
  refine ⟨.consumed psn (ackStatus status (q.cqPushOption psn wc).2) true ::
    (Option.map (Effect.completion psn) pushed).toList, ?_⟩
  simp [RxQp.conclude, RxQp.consumePsn, RxQp.sendAck, RxQp.note, RxQp.ackHistoryStore, eq]

theorem deliverWrite_wrote {msg : ReorderMsg} (acked : Acknowledged q msg (q.deliverWrite env msg).1) :
    ∀ frag ∈ msg.frags,
      .wrote msg.rkey (msg.remoteAddr + frag.offset) frag.data ∈ (q.deliverWrite env msg).1.since q := by
  simp only [RxQp.deliverWrite, Acknowledged] at acked ⊢
  split <;> rename_i popped <;> simp only [popped] at acked
  · simp [RxQp.sendAck, RxQp.note] at acked
  · rename_i wqe q'
    have same : q'.trace = q.trace := by
      split at popped
      · obtain ⟨rest, -, rfl⟩ := popRecv_spec popped
        rfl
      · cases popped
        rfl
    generalize copies : (if ((env.mrs msg.rkey).any fun mr => mr.remoteWrite) = true then
      RxQp.copyWriteFrags env msg.rkey msg.remoteAddr msg.frags (q'.reorderUnlink msg)
      else (q'.reorderUnlink msg, false)) = copied at acked ⊢
    generalize status_eq : (if copied.2 then WcStatus.success else .locProtErr) = status at acked ⊢
    obtain ⟨new, grown⟩ := conclude_grown (q := copied.1) msg.psn msg.srcQp status
      (if msg.withImm then some (writeImmWc wqe status msg.srcQp msg.immData) else none)
    have success : status = .success := by
      rw [grown, List.cons_append, List.head?_cons, Option.some.injEq, Effect.ack.injEq] at acked
      exact success_of_ackStatus acked.2.2.2
    have done : copied.2 = true := by
      by_contra failed
      rw [if_neg failed, success] at status_eq
      cases status_eq
    have written : copied.1.trace = writtenFrags msg.rkey msg.remoteAddr msg.frags ++ q.trace := by
      split at copies
      · rw [← copies] at done ⊢
        rw [copyWriteFrags_done done]
        exact congrArg _ same
      · rw [← copies] at done
        cases done
    rw [written, ← List.append_assoc] at grown
    rw [since_eq grown]
    intro frag member
    refine List.mem_append_right _ (List.mem_map.mpr ⟨frag, List.mem_reverse.mpr member, rfl⟩)

theorem buffered_write_whole_iff {msg : ReorderMsg}
    (reachable : bufferSystem.ReachableVia (fun _ action => action.checked = true) q) (member : msg ∈ q.rxReorder)
    (isWrite : msg.kind = .write) (complete : msg.complete = true)
    (acked : Acknowledged q msg (q.deliverWrite env msg).1) :
    (msg.frags.Pairwise ReorderFrag.Apart ∧ (∀ byte < msg.totalLen, ∃ frag ∈ msg.frags, frag.Holds byte) ∧
      ∀ byte < msg.totalLen, ∃ effect ∈ (q.deliverWrite env msg).1.since q,
        effect.WritesByte msg.rkey (msg.remoteAddr + byte)) ↔ msg.OneGrid := by
  have represented : q.reorder.Represented :=
    Reorder.Represented.closed.reachable (fun _ _ _ => .inr fun _ => trivial) reachable
  have cut := (Reorder.CutWrites.closed.reachable (fun _ _ checked => .inl checked) reachable).cut msg member isWrite
  rw [← cut.whole_iff (represented.sound msg member) isWrite complete]
  refine ⟨fun ⟨disjoint, covered, _⟩ => ⟨disjoint, covered⟩, fun whole =>
    ⟨whole.disjoint, whole.covered, fun byte inside => ?_⟩⟩
  obtain ⟨frag, listed, holds⟩ := whole.covered byte inside
  refine ⟨_, deliverWrite_wrote acked frag listed, rfl, ?_⟩
  simp only [ReorderFrag.Holds] at holds
  omega

/-- A fragment of a WRITE of 4097 bytes, with one byte everywhere. -/
def writeFragment (offset length : Nat) (last : Bool) : Frame where
  header :=
    { opcode := .rdmaWrite, flags := if last then flagLast else 0, psn := 7, length, immData := 4097, rkey := 1
      fragOffset := offset }
  payload := List.replicate length 7
  sized := List.length_replicate

def writableEnv : RxEnv where
  mrs key := if key = 1 then some { start := 4096, length := 8192, remoteWrite := true } else none
  now := 1

def writableRxQp : RxQp := { emptyRxQp with remoteWrite := true }

/-- Both fragments are cut every 4048 bytes. -/
def oneGridWrite : List BufferAction :=
  [.frame writableEnv (writeFragment 0 4048 false), .frame writableEnv (writeFragment 4048 49 true)]

/-- The first fragment is cut every 4048 bytes and the second one every 4096 bytes. -/
def twoGridWrite : List BufferAction :=
  [.frame writableEnv (writeFragment 0 4048 false), .frame writableEnv (writeFragment 4096 1 true)]

/-- The WRITE is complete and is acknowledged with OK when it is delivered now. -/
def RxQp.writeReady (q : RxQp) (msg : ReorderMsg) : Bool :=
  msg.kind = .write && msg.complete &&
    (q.deliverWrite writableEnv msg).1.trace.head? = some (.ack msg.srcQp q.qpNum msg.psn .ok)

theorem exists_writeReady (actions : List BufferAction) (test : ReorderMsg → Bool)
    (check : ((bufferSystem.runVia (fun _ action => action.checked = true) writableRxQp actions).any fun q =>
      q.rxReorder.any fun msg => q.writeReady msg && test msg) = true) :
    ∃ q msg, bufferSystem.ReachableVia (fun _ action => action.checked = true) q ∧ msg ∈ q.rxReorder ∧
      msg.kind = .write ∧ msg.complete = true ∧ Acknowledged q msg (q.deliverWrite writableEnv msg).1 ∧
      test msg = true := by
  have start : bufferSystem.init writableRxQp := rfl
  obtain ⟨q, reachable, found⟩ := System.exists_reachableVia bufferSystem _ actions _ start check
  obtain ⟨msg, member, ready⟩ := List.any_eq_true.mp found
  simp only [RxQp.writeReady, Bool.and_eq_true, decide_eq_true_eq] at ready
  exact ⟨q, msg, reachable, member, ready.1.1.1, ready.1.1.2, ready.1.2, ready.2⟩

theorem buffered_write_whole_iff_oneGrid :
    ∃ q msg, bufferSystem.ReachableVia (fun _ action => action.checked = true) q ∧ msg ∈ q.rxReorder ∧
      msg.totalLen = 4097 ∧ ∀ byte < 4097, ∃ effect ∈ (q.deliverWrite writableEnv msg).1.since q,
        effect.WritesByte msg.rkey (msg.remoteAddr + byte) := by
  obtain ⟨q, msg, reachable, member, isWrite, complete, acked, test⟩ := exists_writeReady oneGridWrite
    (fun msg => msg.totalLen = 4097 && msg.frags.all fun frag =>
      frag.offset % 4048 = 0 && frag.data.length = min 4048 (4097 - frag.offset)) (by decide +kernel)
  simp only [Bool.and_eq_true, decide_eq_true_eq, List.all_eq_true] at test
  have one : msg.OneGrid := .inl fun frag listed => by
    rw [ReorderFrag.OnGrid, test.1]
    exact ⟨Nat.dvd_of_mod_eq_zero (test.2 frag listed).1, (test.2 frag listed).2⟩
  have whole := (buffered_write_whole_iff reachable member isWrite complete acked).mpr one
  exact ⟨q, msg, reachable, member, test.1, fun byte inside => whole.2.2 byte (test.1 ▸ inside)⟩

/-- The bytes between the two fragments are not in any of them. -/
theorem buffered_write_gap :
    ∃ q msg, bufferSystem.ReachableVia (fun _ action => action.checked = true) q ∧ msg ∈ q.rxReorder ∧
      msg.kind = .write ∧ msg.complete = true ∧ Acknowledged q msg (q.deliverWrite writableEnv msg).1 ∧
      4048 < msg.totalLen ∧ ¬∃ frag ∈ msg.frags, frag.Holds 4048 := by
  obtain ⟨q, msg, reachable, member, isWrite, complete, acked, test⟩ := exists_writeReady twoGridWrite
    (fun msg => 4048 < msg.totalLen && msg.frags.all fun frag =>
      !(frag.offset ≤ 4048 && 4048 < frag.offset + frag.data.length)) (by decide +kernel)
  simp only [Bool.and_eq_true, decide_eq_true_eq, List.all_eq_true, Bool.not_eq_true', Bool.and_eq_false_iff,
    decide_eq_false_iff_not] at test
  refine ⟨q, msg, reachable, member, isWrite, complete, acked, test.1, ?_⟩
  rintro ⟨frag, listed, low, high⟩
  rcases test.2 frag listed with above | below
  · exact above low
  · exact below high

end ThunderboltVerbs.Receive
