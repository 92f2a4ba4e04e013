import ThunderboltVerbs.Apple.Ring
import ThunderboltVerbs.Lib.Ring
import ThunderboltVerbs.Lib.Tally

/-!
# The invariant of the pending ring

The slots that wait and the slot of the arriving message are a window of the ring; every other slot is empty.
-/

namespace ThunderboltVerbs.Apple
open Proto Verbs Receive Lib

/-! ## Buffers -/

/-- The loop stops at a capacity that is large enough: what is asked for is at most the cap. -/
theorem le_grow {maxBytes required newCapacity : Nat} {positive : 0 < newCapacity} (fits : required ≤ maxBytes) :
    required ≤ grow maxBytes required newCapacity positive := by
  fun_induction grow maxBytes required newCapacity positive with
  | case1 => exact fits
  | case2 _ _ _ _ _ ih => exact ih
  | case3 _ _ enough => exact Nat.le_of_not_lt enough

namespace PendingRx

variable {limits : RxLimits} {p : PendingRx} {required : Nat}

theorem le_newCapacity (p : PendingRx) (fits : required ≤ limits.maxBytes) :
    required ≤ p.newCapacity limits required := by
  unfold newCapacity
  split
  · exact le_grow fits
  · exact le_grow fits

structure Bounded (limits : RxLimits) (p : PendingRx) : Prop where
  sized : p.buf.length = p.capacity
  inside : p.delivered ≤ p.capacity
  capped : p.delivered ≤ limits.maxBytes

structure Idle (p : PendingRx) : Prop where
  active : p.active = false
  ready : p.ready = false
  delivered : p.delivered = 0

theorem Bounded.reset (bounded : p.Bounded limits) : p.reset.Bounded limits where
  sized := bounded.sized
  inside := Nat.zero_le _
  capped := Nat.zero_le _

theorem idle_reset (p : PendingRx) : p.reset.Idle := ⟨rfl, rfl, rfl⟩

end PendingRx

/-- A buffer that was reserved holds what it held and has room. -/
structure Reserved (p p' : PendingRx) (required : Nat) : Prop where
  sized : p'.buf.length = p'.capacity
  room : required ≤ p'.capacity
  kept : p'.buf.take p.delivered = p.buf.take p.delivered
  delivered : p'.delivered = p.delivered
  status : p'.status = p.status
  active : p'.active = p.active
  ready : p'.ready = p.ready

theorem reserve_ok {limits : RxLimits} {alloc : Bool} {p p' : PendingRx} {required : Nat} (bounded : p.Bounded limits)
    (more : p.delivered ≤ required) (reserved : RingQp.reserve limits alloc p required = .ok p') :
    Reserved p p' required := by
  unfold RingQp.reserve at reserved
  have inside := bounded.inside
  have sized := bounded.sized
  split at reserved
  · dsimp only at reserved
    split at reserved
    · cases reserved
    rename_i enough
    split at reserved
    · cases reserved
    cases reserved
    refine ⟨?_, Nat.le_of_not_lt enough, ?_, rfl, rfl, rfl, rfl⟩
    · simp only [List.length_append, List.length_take, List.length_replicate]
      omega
    · have whole : (p.buf.take p.delivered).length = p.delivered := by
        rw [List.length_take]
        omega
      rw [List.take_append_of_le_length whole.ge, List.take_of_length_le whole.le]
  · rename_i enough
    cases reserved
    exact ⟨sized, Nat.le_of_not_lt enough, rfl, rfl, rfl, rfl, rfl⟩

/-! ## The ring -/

/-- The messages in `waiting` and the one in `current` are in the ring, in the order of arrival. -/
structure Holds (limits : RxLimits) (q : RingQp) (waiting : List PendingRx) (current : Option PendingRx) : Prop where
  sized : q.pending.length = q.slotCount
  ring : Occupied PendingRx.Idle q.pending q.slotCount q.head (waiting ++ current.toList)
  count : q.readyCount = waiting.length
  tail : q.tail = (q.head + waiting.length) % q.slotCount
  active : q.active = current.map fun _ => q.tail
  ready : ∀ p ∈ waiting, p.ready = true ∧ p.active = false
  arriving : ∀ p ∈ current, p.ready = false ∧ p.active = true
  bytes : q.pendingBytes = tally PendingRx.delivered q.pending
  total : q.pendingBytes ≤ limits.pendingTotalBytes
  bounded : ∀ p ∈ q.pending, p.Bounded limits
  order : q.finished = q.drained ++ waiting.map PendingRx.message

theorem slot_eq {q : RingQp} {k : Nat} {p : PendingRx} (found : q.pending[k]? = some p) : q.slot k = p := by
  rw [RingQp.slot, List.getD_eq_getElem?_getD, found]
  rfl

theorem bounded_set {limits : RxLimits} {cells : List PendingRx} {k : Nat} {p : PendingRx}
    (bounded : ∀ p ∈ cells, p.Bounded limits) (own : p.Bounded limits) : ∀ p' ∈ cells.set k p, p'.Bounded limits := by
  intro p' member
  rcases List.mem_or_eq_of_mem_set member with old | rfl
  · exact bounded p' old
  · exact own

namespace Holds

variable {limits : RxLimits} {q : RingQp} {waiting : List PendingRx} {current : Option PendingRx} {p : PendingRx}

/-- What is not about the ring may change. -/
theorem other (holds : Holds limits q waiting current) (recvq : List RecvWqe) (cq : Cq)
    (completions : List Completion) (discard closing : Bool) :
    Holds limits { q with recvq, cq, completions, discard, closing } waiting current :=
  ⟨holds.sized, holds.ring, holds.count, holds.tail, holds.active, holds.ready, holds.arriving, holds.bytes,
    holds.total, holds.bounded, holds.order⟩

theorem tail_cell (holds : Holds limits q waiting (some p)) : q.pending[q.tail]? = some p := by
  have inside : waiting.length < (waiting ++ (some p).toList).length := by simp
  rw [holds.tail, holds.ring.cell waiting.length inside]
  exact List.getElem?_concat_length

theorem tail_write (holds : Holds limits q waiting (some p)) (p' : PendingRx) :
    Occupied PendingRx.Idle (q.pending.set q.tail p') q.slotCount q.head (waiting ++ [p']) := by
  have inside : waiting.length < (waiting ++ (some p).toList).length := by simp
  have written := holds.ring.set inside p'
  rwa [← holds.tail, Option.toList_some, List.set_append_right _ _ le_rfl, Nat.sub_self, List.set_cons_zero] at written

/-! ### The slot of the arriving message -/

theorem next_cell (holds : Holds limits q waiting none) (room : waiting.length < q.slotCount) :
    ∃ p, q.pending[q.tail]? = some p ∧ p.Idle ∧ p.Bounded limits := by
  have inside : q.tail < q.pending.length := by
    rw [holds.tail]
    exact holds.ring.index_lt _
  have found := List.getElem?_eq_getElem inside
  refine ⟨_, found, ?_, holds.bounded _ (List.getElem_mem inside)⟩
  refine holds.ring.rest q.tail _ (inside.trans_eq holds.sized) (fun i bound same => ?_) found
  rw [Option.toList_none, List.append_nil] at bound
  rw [holds.tail] at same
  exact bound.ne (ring_inj (bound.trans room) room same)

theorem activate (holds : Holds limits q waiting none) (room : waiting.length < q.slotCount) :
    Holds limits { q.setSlot q.tail { (q.slot q.tail).reset with active := true } with active := some q.tail } waiting
      (some { (q.slot q.tail).reset with active := true }) := by
  obtain ⟨p, found, idle, bounded⟩ := holds.next_cell room
  have slot := slot_eq found
  have ring := holds.ring
  rw [Option.toList_none, List.append_nil] at ring
  have pushed := ring.push room { p.reset with active := true }
  rw [← holds.tail] at pushed
  rw [slot]
  exact {
    sized := (List.length_set ..).trans holds.sized
    ring := pushed
    count := holds.count
    tail := holds.tail
    active := rfl
    ready := holds.ready
    arriving := fun _ same => Option.mem_some.mp same ▸ ⟨rfl, rfl⟩
    bytes := by
      have replaced := tally_set PendingRx.delivered found { p.reset with active := true }
      rw [idle.delivered, Nat.add_zero] at replaced
      exact holds.bytes.trans replaced.symm
    total := holds.total
    bounded := bounded_set holds.bounded ⟨bounded.sized, Nat.zero_le _, Nat.zero_le _⟩
    order := holds.order }

theorem write (holds : Holds limits q waiting (some p)) {p' : PendingRx} {pendingBytes : Nat}
    (arriving : p'.ready = false ∧ p'.active = true) (bounded : p'.Bounded limits)
    (bytes : pendingBytes + p.delivered = q.pendingBytes + p'.delivered)
    (total : pendingBytes ≤ limits.pendingTotalBytes) :
    Holds limits { q.setSlot q.tail p' with pendingBytes } waiting (some p') := by
  exact {
    sized := (List.length_set ..).trans holds.sized
    ring := holds.tail_write p'
    count := holds.count
    tail := holds.tail
    active := holds.active
    ready := holds.ready
    arriving := fun _ same => Option.mem_some.mp same ▸ arriving
    bytes := by
      have replaced := tally_set PendingRx.delivered holds.tail_cell p'
      have before := holds.bytes
      change pendingBytes = tally PendingRx.delivered (q.pending.set q.tail p')
      omega
    total
    bounded := bounded_set holds.bounded bounded
    order := holds.order }

theorem finish (holds : Holds limits q waiting (some p)) :
    Holds limits q.finish (waiting ++ [{ p with active := false, ready := true }]) none := by
  have slot := slot_eq holds.tail_cell
  have bounded := holds.bounded p (List.mem_of_getElem? holds.tail_cell)
  have written := holds.tail_write { p with active := false, ready := true }
  have active := holds.active
  simp only [Option.map_some] at active
  unfold RingQp.finish
  rw [active]
  dsimp only
  rw [slot]
  exact {
    sized := (List.length_set ..).trans holds.sized
    ring := by rwa [Option.toList_none, List.append_nil]
    count := by
      rw [List.length_append, List.length_singleton]
      exact congrArg (· + 1) holds.count
    tail := by
      rw [List.length_append, List.length_singleton, ← Nat.add_assoc]
      change (q.tail + 1) % q.slotCount = (q.head + waiting.length + 1) % q.slotCount
      rw [holds.tail, Nat.mod_add_mod]
    active := rfl
    ready := fun p' member => by
      rcases List.mem_append.mp member with old | new
      · exact holds.ready p' old
      · rw [List.mem_singleton.mp new]
        exact ⟨rfl, rfl⟩
    arriving := fun _ none => by cases none
    bytes := by
      have replaced := tally_set PendingRx.delivered holds.tail_cell { p with active := false, ready := true }
      exact holds.bytes.trans (Nat.add_right_cancel replaced).symm
    total := holds.total
    bounded := bounded_set holds.bounded ⟨bounded.sized, bounded.inside, bounded.capped⟩
    order := by
      rw [List.map_append, ← List.append_assoc]
      exact congrArg (· ++ [p.message]) holds.order }

theorem finish_none (holds : Holds limits q waiting none) : q.finish = q := by
  unfold RingQp.finish
  rw [holds.active]
  rfl

end Holds

end ThunderboltVerbs.Apple
