import ThunderboltVerbs.Reliability.OrderQueue
import ThunderboltVerbs.Lib.Keyed

/-!
# The completion-order queue is a FIFO

The cells of the ring hold the operations of the abstract queue, so that every call has the same result on
both.
-/

namespace ThunderboltVerbs.Reliability
open Proto Lib

def OrderEntry.of (op : UInt32 × Option UInt8) : OrderEntry where
  opId := op.1
  status := op.2.getD 0
  occupied := true
  ready := op.2.isSome

theorem any_of (opId : UInt32) (fifo : Fifo) :
    (fifo.map OrderEntry.of).any (OrderQueue.isOp opId) = decide (opId ∈ fifo.map Prod.fst) := by
  induction fifo with
  | nil => rfl
  | cons op rest ih =>
      rw [List.map_cons, List.any_cons, ih]
      have first : OrderQueue.isOp opId (.of op) = decide (opId = op.1) := by
        simp [OrderQueue.isOp, OrderEntry.of, eq_comm]
      rw [first, ← Bool.decide_or]
      exact decide_eq_decide.mpr List.mem_cons.symm

structure Represents (capacity : Nat) (q : OrderQueue) (fifo : Fifo) : Prop where
  bounded : capacity ≤ orderMax
  sized : q.entries.length = orderMax
  capacity_eq : q.capacity = capacity
  count : q.count = fifo.length
  distinct : (fifo.map Prod.fst).Nodup
  window : Window q.entries capacity q.head (fifo.map OrderEntry.of)

namespace Represents

variable {capacity : Nat} {q : OrderQueue} {fifo : Fifo}

/-! ## What the cells say -/

section Cells

variable (represents : Represents capacity q fifo)
include represents

theorem positive : q.capacity ≠ 0 := by
  have head_lt := represents.window.head_lt
  rw [represents.capacity_eq]
  exact (Nat.zero_lt_of_lt head_lt).ne'

theorem length_le : fifo.length ≤ capacity := by
  simpa using represents.window.fits

theorem entry_eq {i : Nat} (bound : i < fifo.length) : q.entry i = .of fifo[i] := by
  rw [OrderQueue.entry, OrderQueue.index, represents.capacity_eq]
  have read := represents.window.getD {} (i := i) (by simpa using bound)
  rwa [List.getElem_map] at read

theorem entries_eq : (List.range q.count).map q.entry = fifo.map OrderEntry.of := by
  have read := represents.window.read {}
  rw [List.length_map] at read
  rw [represents.count, ← read]
  exact List.map_congr_left fun i _ => by rw [OrderQueue.entry, OrderQueue.index, represents.capacity_eq]

theorem any_isOp (opId : UInt32) :
    ((List.range q.count).any fun i => OrderQueue.isOp opId (q.entry i)) = decide (opId ∈ fifo.map Prod.fst) := by
  rw [← any_of, ← represents.entries_eq, List.any_map]
  rfl

end Cells

/-! ## The calls -/

theorem push (represents : Represents capacity q fifo) (opId : UInt32) :
    (q.push opId).2 = (fifo.push capacity opId).2 ∧
      Represents capacity (q.push opId).1 (fifo.push capacity opId).1 := by
  unfold OrderQueue.push Fifo.push
  rw [if_neg represents.positive, represents.any_isOp, represents.count, represents.capacity_eq]
  by_cases full : fifo.length = capacity
  · simp only [if_pos full]
    exact ⟨trivial, represents⟩
  · by_cases held : opId ∈ fifo.map Prod.fst
    · simp only [if_neg full, held, decide_true, if_true]
      exact ⟨trivial, represents⟩
    · simp only [if_neg full, held, decide_false, Bool.false_eq_true, if_false]
      have fits := represents.length_le
      have room : (fifo.map OrderEntry.of).length < capacity := by
        rw [List.length_map]
        omega
      have pushed := represents.window.push room (.of (opId, none))
      rw [List.length_map] at pushed
      refine ⟨trivial, ?_⟩
      constructor
      case bounded => exact represents.bounded
      case sized => simpa using represents.sized
      case capacity_eq => rfl
      case count => simp
      case distinct =>
        rw [List.map_append]
        exact represents.distinct.append (List.nodup_singleton _) (List.disjoint_singleton.mpr held)
      case window =>
        rw [List.map_append, OrderQueue.index, represents.capacity_eq]
        exact pushed

theorem keys_settle (which : UInt32 → Bool) (status : UInt8) (fifo : Fifo) :
    (fifo.settle which status).map Prod.fst = fifo.map Prod.fst := by
  rw [Fifo.settle, List.map_map]
  refine List.map_congr_left fun op _ => ?_
  simp only [Function.comp_apply]
  split <;> rfl

theorem settled_eq {opId : UInt32} (status : UInt8) {i : Nat} (bound : i < fifo.length)
    (own : fifo[i].1 = opId) (unmarked : fifo[i].2 = none) (distinct : (fifo.map Prod.fst).Nodup) :
    fifo.settle (· = opId) status = fifo.set i (opId, some status) := by
  refine List.ext_getElem (by simp [Fifo.settle]) fun j inside _ => ?_
  have inside : j < fifo.length := by simpa [Fifo.settle] using inside
  simp only [Fifo.settle, List.getElem_map, List.getElem_set]
  by_cases same : i = j
  · subst same
    simp [own, unmarked]
  · have other : fifo[j].1 ≠ opId := fun equal => by
      have first : i < (fifo.map Prod.fst).length := by simpa using bound
      have second : j < (fifo.map Prod.fst).length := by simpa using inside
      have keys : (fifo.map Prod.fst)[i] = (fifo.map Prod.fst)[j] := by
        rw [List.getElem_map, List.getElem_map, own, equal]
      exact same ((distinct.getElem_inj_iff).mp keys)
    simp [same, other]

theorem mark (represents : Represents capacity q fifo) (opId : UInt32) (status : UInt8) :
    (q.mark opId status).2 = (fifo.mark opId status).2 ∧
      Represents capacity (q.mark opId status).1 (fifo.mark opId status).1 := by
  unfold OrderQueue.mark
  rw [if_neg represents.positive]
  cases found : (List.range q.count).find? fun i => OrderQueue.isOp opId (q.entry i) with
  | none =>
      have absent : opId ∉ fifo.map Prod.fst := by
        have nowhere := represents.any_isOp opId
        rw [List.any_eq_false.mpr (by simpa using found)] at nowhere
        exact of_decide_eq_false nowhere.symm
      have missing : fifo.find? (fun op => op.1 = opId) = none := by
        simp only [List.find?_eq_none, decide_eq_true_eq]
        exact fun op member own => absent (own ▸ List.mem_map_of_mem member)
      simp only [Fifo.mark, missing]
      exact ⟨trivial, represents⟩
  | some i =>
      obtain ⟨isOp, bound, -⟩ := List.find?_range_eq_some.mp found
      rw [List.mem_range, represents.count] at bound
      rw [represents.entry_eq bound] at isOp
      have own : fifo[i].1 = opId := of_decide_eq_true isOp
      have here : fifo.find? (fun op => op.1 = opId) = some fifo[i] := by
        rw [← own]
        exact find?_key represents.distinct (List.getElem_mem bound)
      simp only [Fifo.mark, here, represents.entry_eq bound]
      rcases given : fifo[i] with ⟨same, marked⟩
      cases marked with
      | some already =>
          simp only [OrderEntry.of, Option.isSome_some, if_true, Option.getD_some]
          exact ⟨rfl, represents⟩
      | none =>
          simp only [OrderEntry.of, Option.isSome_none, Bool.false_eq_true, if_false]
          refine ⟨trivial, ?_⟩
          have settled := settled_eq status bound own (by rw [given]) represents.distinct
          have inside : i < (fifo.map OrderEntry.of).length := by simpa using bound
          have written := represents.window.set inside (.of (opId, some status))
          constructor
          case bounded => exact represents.bounded
          case sized => simpa using represents.sized
          case capacity_eq => exact represents.capacity_eq
          case count => simpa [Fifo.settle] using represents.count
          case distinct => exact (keys_settle _ _ _).symm ▸ represents.distinct
          case window =>
            rw [settled, List.map_set, OrderQueue.index, represents.capacity_eq]
            have name : same = opId := by simpa [given] using own
            rw [name]
            exact written

theorem flushEntry_of (status : UInt8) (op : UInt32 × Option UInt8) :
    OrderQueue.flushEntry status (.of op) = .of (op.1, some (op.2.getD status)) := by
  obtain ⟨opId, given⟩ := op
  cases given <;> rfl

theorem flush (represents : Represents capacity q fifo) (status : UInt8) :
    (q.flush status).2 = .ok [] ∧ Represents capacity (q.flush status).1 (fifo.settle (fun _ => true) status) := by
  unfold OrderQueue.flush
  rw [if_neg represents.positive]
  refine ⟨rfl, ?_⟩
  have rewritten := represents.window.map (OrderQueue.flushEntry status) {}
  rw [List.length_map, ← represents.count] at rewritten
  constructor
  case bounded => exact represents.bounded
  case sized => exact (length_foldl_set ..).trans represents.sized
  case capacity_eq => exact represents.capacity_eq
  case count => simpa [Fifo.settle] using represents.count
  case distinct => exact (keys_settle _ _ _).symm ▸ represents.distinct
  case window =>
    have cells : (fifo.map OrderEntry.of).map (OrderQueue.flushEntry status) =
        (fifo.settle (fun _ => true) status).map OrderEntry.of := by
      rw [Fifo.settle, List.map_map, List.map_map]
      exact List.map_congr_left fun op _ => flushEntry_of status op
    rw [← cells]
    simpa only [OrderQueue.index, represents.capacity_eq] using rewritten

theorem drainLoop (represents : Represents capacity q fifo) (room : Nat) :
    (OrderQueue.drainLoop room q).2 = fifo.finished room ∧
      Represents capacity (OrderQueue.drainLoop room q).1 (fifo.drop (fifo.finished room).length) := by
  induction room generalizing q fifo with
  | zero => exact ⟨rfl, represents⟩
  | succ room ih =>
      unfold OrderQueue.drainLoop
      cases fifo with
      | nil =>
          rw [if_pos (.inl represents.count)]
          exact ⟨rfl, represents⟩
      | cons op rest =>
          have entry : q.entries.getD q.head {} = .of op := by
            rw [List.getD_eq_getElem?_getD, represents.window.first]
            rfl
          have some : q.count ≠ 0 := by
            rw [represents.count]
            exact Nat.succ_ne_zero _
          obtain ⟨opId, given⟩ := op
          cases given with
          | none =>
              rw [entry, if_pos (.inr (.inr rfl))]
              exact ⟨rfl, represents⟩
          | some status =>
              rw [entry, if_neg (by simp [some, OrderEntry.of])]
              have popped := represents.window.pop_clear {}
              rw [← represents.capacity_eq] at popped
              have next : Represents capacity
                  { q with
                    entries := q.entries.set q.head {}, head := (q.head + 1) % q.capacity, count := q.count - 1 }
                  rest :=
                { bounded := represents.bounded
                  sized := (List.length_set ..).trans represents.sized
                  capacity_eq := represents.capacity_eq
                  count := congrArg (· - 1) represents.count
                  distinct := (List.nodup_cons.mp represents.distinct).2
                  window := represents.capacity_eq ▸ popped }
              obtain ⟨same, after⟩ := ih next
              exact ⟨congrArg ({ opId, status : OrderCompletion } :: ·) same, after⟩

theorem drain (represents : Represents capacity q fifo) (max : Nat) (hasOut : Bool) :
    (q.drain max hasOut).2 = (fifo.drain max hasOut).2 ∧
      Represents capacity (q.drain max hasOut).1 (fifo.drain max hasOut).1 := by
  have positive := represents.positive
  unfold OrderQueue.drain Fifo.drain
  by_cases refused : max ≠ 0 ∧ !hasOut
  · rw [if_pos (.inr refused), if_pos refused]
    exact ⟨rfl, represents⟩
  · rw [if_neg (by tauto), if_neg refused]
    obtain ⟨same, after⟩ := represents.drainLoop max
    refine ⟨congrArg _ same, ?_⟩
    dsimp only
    split
    · rename_i emptied
      have nothing : fifo.drop (fifo.finished max).length = [] := by
        rw [← List.length_eq_zero_iff, ← after.count]
        exact emptied
      rw [nothing] at after ⊢
      exact { after with window := .empty after.window.size_le (Nat.zero_lt_of_lt after.window.head_lt) }
    · exact after

theorem call (represents : Represents capacity q fifo) (call : OrderCall) :
    (q.call call).2 = (fifo.call capacity call).2 ∧
      Represents capacity (q.call call).1 (fifo.call capacity call).1 := by
  cases call with
  | push opId => exact represents.push opId
  | mark opId status => exact represents.mark opId status
  | flush status => exact represents.flush status
  | drain max hasOut => exact represents.drain max hasOut

theorem init {q : OrderQueue} (accepted : orderInit capacity = .ok q) : Represents capacity q [] := by
  simp only [orderInit] at accepted
  split at accepted
  · cases accepted
  · rename_i valid
    simp only [not_or, not_lt] at valid
    cases accepted
    exact
      { bounded := valid.2
        sized := List.length_replicate
        capacity_eq := rfl
        count := rfl
        distinct := List.nodup_nil
        window := .empty (valid.2.trans_eq List.length_replicate.symm) (Nat.pos_of_ne_zero valid.1) }

end Represents

/-! ## What was pushed and what was drained -/

def OrderCompletion.op (completion : OrderCompletion) : UInt32 × Option UInt8 :=
  (completion.opId, some completion.status)

/-- Every operation that was pushed, with the first status that a mark or a flush gave it. -/
def record (log : Fifo) : OrderCall × Except Errno (List OrderCompletion) → Fifo
  | (.push opId, .ok _) => log ++ [(opId, none)]
  | (.mark opId status, .ok _) => log.settle (· = opId) status
  | (.flush status, .ok _) => log.settle (fun _ => true) status
  | _ => log

def records (script : List OrderCall) (results : List (Except Errno (List OrderCompletion))) : Fifo :=
  (script.zip results).foldl record []

def completionsOf : Except Errno (List OrderCompletion) → List OrderCompletion
  | .ok completions => completions
  | .error _ => []

def drained (results : List (Except Errno (List OrderCompletion))) : List OrderCompletion :=
  results.flatMap completionsOf

theorem settle_settled {which : UInt32 → Bool} {status : UInt8} {log : Fifo}
    (settled : ∀ op ∈ log, which op.1 = true → op.2.isSome = true) : log.settle which status = log := by
  refine (List.map_congr_left fun op member => ?_).trans (List.map_id log)
  have known := settled op member
  obtain ⟨opId, given⟩ := op
  by_cases chosen : which opId = true
  · obtain ⟨first, rfl⟩ := Option.isSome_iff_exists.mp (known chosen)
    rw [if_pos chosen]
    rfl
  · rw [if_neg chosen]
    rfl

/-- The operations that were drained have their status already. -/
theorem settle_done (which : UInt32 → Bool) (status : UInt8) (done : List OrderCompletion) (fifo : Fifo) :
    Fifo.settle which status (done.map OrderCompletion.op ++ fifo) =
      done.map OrderCompletion.op ++ fifo.settle which status := by
  have settled : Fifo.settle which status (done.map OrderCompletion.op) = done.map OrderCompletion.op := by
    refine settle_settled fun op member _ => ?_
    obtain ⟨completion, -, rfl⟩ := List.mem_map.mp member
    rfl
  rw [Fifo.settle, List.map_append]
  exact congrArg (· ++ _) settled

theorem finished_append (room : Nat) (fifo : Fifo) :
    (fifo.finished room).map OrderCompletion.op ++ fifo.drop (fifo.finished room).length = fifo := by
  induction room generalizing fifo with
  | zero => rfl
  | succ room ih =>
      cases fifo with
      | nil => rfl
      | cons op rest =>
          obtain ⟨opId, given⟩ := op
          cases given with
          | none => rfl
          | some status => exact congrArg ((opId, some status) :: ·) (ih rest)

theorem record_call {capacity : Nat} {fifo : Fifo} (distinct : (fifo.map Prod.fst).Nodup)
    (done : List OrderCompletion) (call : OrderCall) :
    record (done.map OrderCompletion.op ++ fifo) (call, (fifo.call capacity call).2) =
      (done ++ completionsOf (fifo.call capacity call).2).map OrderCompletion.op ++ (fifo.call capacity call).1 := by
  cases call with
  | push opId =>
      simp only [Fifo.call, Fifo.push]
      split
      · simp [record, completionsOf]
      split
      · simp [record, completionsOf]
      · simp [record, completionsOf]
  | mark opId status =>
      simp only [Fifo.call, Fifo.mark]
      split
      · simp [record, completionsOf]
      · rename_i same given found
        split
        · have unchanged : fifo.settle (· = opId) status = fifo := by
            refine settle_settled fun op member own => ?_
            have named : op.1 = opId := of_decide_eq_true own
            have here := find?_key distinct member
            rw [named, found, Option.some.injEq] at here
            rw [← here]
            rfl
          simp only [record, completionsOf, List.append_nil, settle_done, unchanged]
        · simp [record, completionsOf]
      · simp only [record, completionsOf, List.append_nil, settle_done]
  | flush status => simp only [Fifo.call, record, completionsOf, List.append_nil, settle_done]
  | drain max hasOut =>
      simp only [Fifo.call, Fifo.drain]
      split
      · simp [record, completionsOf]
      · simp only [record, completionsOf, List.map_append, List.append_assoc, finished_append]

theorem records_from {capacity : Nat} {q : OrderQueue} {fifo : Fifo} (represents : Represents capacity q fifo)
    (done : List OrderCompletion) (script : List OrderCall) :
    (script.zip (calls (Fifo.call capacity) fifo script).2).foldl record (done.map OrderCompletion.op ++ fifo) =
      (done ++ drained (calls (Fifo.call capacity) fifo script).2).map OrderCompletion.op ++
        (calls (Fifo.call capacity) fifo script).1 := by
  induction script generalizing q fifo done with
  | nil => simp [calls, drained]
  | cons call rest ih =>
      simp only [calls, List.zip_cons_cons, List.foldl_cons, drained, List.flatMap_cons]
      rw [record_call represents.distinct, ih (represents.call call).2, List.append_assoc]
      rfl

/-! ## The queue after any calls -/

def OrderQueue.live (q : OrderQueue) : Fifo :=
  (List.range q.count).map fun i =>
    ((q.entry i).opId, if (q.entry i).ready then some (q.entry i).status else none)

theorem Represents.live_eq {capacity : Nat} {q : OrderQueue} {fifo : Fifo}
    (represents : Represents capacity q fifo) : q.live = fifo := by
  have cells : q.live = ((List.range q.count).map q.entry).map fun entry =>
      (entry.opId, if entry.ready then some entry.status else none) := by
    rw [List.map_map]
    rfl
  rw [cells, represents.entries_eq, List.map_map]
  refine (List.map_congr_left fun op _ => ?_).trans (List.map_id fifo)
  obtain ⟨opId, given⟩ := op
  cases given <;> rfl

/-- What the calls answer in a state, and that a refused call changes nothing. -/
structure OrderQueue.Serves (q : OrderQueue) (capacity : Nat) : Prop where
  full : ∀ opId, (q.push opId).2 = .error .eNoSpc ↔ q.live.length = capacity
  held : ∀ opId, (q.push opId).2 = .error .eExist ↔ q.live.length ≠ capacity ∧ opId ∈ q.live.map Prod.fst
  pushed : ∀ opId, (q.push opId).2 = .ok [] ↔ q.live.length ≠ capacity ∧ opId ∉ q.live.map Prod.fst
  absent : ∀ opId status, (q.mark opId status).2 = .error .eNoEnt ↔ opId ∉ q.live.map Prod.fst
  differs : ∀ opId status, (q.mark opId status).2 = .error .eAlready ↔
    ∃ given, (opId, some given) ∈ q.live ∧ given ≠ status
  marked : ∀ opId status, (q.mark opId status).2 = .ok [] ↔
    (opId, none) ∈ q.live ∨ (opId, some status) ∈ q.live
  unchanged : ∀ call error, (q.call call).2 = .error error → (q.call call).1 = q

/-- The indices that the calls use. -/
structure OrderQueue.InBounds (q : OrderQueue) (capacity : Nat) : Prop where
  array : capacity ≤ q.entries.length
  head : q.head < capacity
  index : ∀ offset, q.index offset < capacity
  drain : ∀ room, (drainLoop room q).1.head < capacity

theorem Represents.inBounds {capacity : Nat} {q : OrderQueue} {fifo : Fifo}
    (represents : Represents capacity q fifo) : q.InBounds capacity where
  array := represents.window.size_le
  head := represents.window.head_lt
  index offset := by
    rw [OrderQueue.index, represents.capacity_eq]
    exact ring_lt represents.window.head_lt offset
  drain room := (represents.drainLoop room).2.window.head_lt

theorem unchanged_of_error (q : OrderQueue) (call : OrderCall) {error : Errno}
    (refused : (q.call call).2 = .error error) : (q.call call).1 = q := by
  cases call with
  | push opId =>
      simp only [OrderQueue.call, OrderQueue.push] at refused ⊢
      split_ifs at refused ⊢ <;> rfl
  | mark opId status =>
      simp only [OrderQueue.call, OrderQueue.mark] at refused ⊢
      by_cases empty : q.capacity = 0
      · rw [if_pos empty]
      · rw [if_neg empty] at refused ⊢
        cases found : (List.range q.count).find? fun i => OrderQueue.isOp opId (q.entry i) with
        | none => rfl
        | some i =>
            rw [found] at refused
            dsimp only at refused ⊢
            split_ifs at refused ⊢
            rfl
  | flush status =>
      simp only [OrderQueue.call, OrderQueue.flush] at refused ⊢
      split_ifs at refused ⊢
      rfl
  | drain max hasOut =>
      simp only [OrderQueue.call, OrderQueue.drain] at refused ⊢
      split_ifs at refused ⊢
      rfl

theorem mark_found {fifo : Fifo} (distinct : (fifo.map Prod.fst).Nodup) {opId : UInt32} {given : Option UInt8}
    (member : (opId, given) ∈ fifo) : fifo.find? (fun op => op.1 = opId) = some (opId, given) :=
  find?_key distinct member

theorem mark_missing {fifo : Fifo} {opId : UInt32} (absent : opId ∉ fifo.map Prod.fst) :
    fifo.find? (fun op => op.1 = opId) = none := by
  simp only [List.find?_eq_none, decide_eq_true_eq]
  exact fun op member own => absent (own ▸ List.mem_map_of_mem member)

theorem mark_cases {fifo : Fifo} (distinct : (fifo.map Prod.fst).Nodup) (opId : UInt32) (status : UInt8) :
    (opId ∉ fifo.map Prod.fst ∧ (fifo.mark opId status).2 = .error .eNoEnt) ∨
      ∃ given, (opId, given) ∈ fifo ∧ (∀ other, (opId, other) ∈ fifo → other = given) ∧
        (fifo.mark opId status).2 =
          match given with
          | none => .ok []
          | some first => if first = status then .ok [] else .error .eAlready := by
  by_cases absent : opId ∉ fifo.map Prod.fst
  · refine .inl ⟨absent, ?_⟩
    rw [Fifo.mark, mark_missing absent]
  · obtain ⟨⟨same, given⟩, member, rfl⟩ := List.mem_map.mp (not_not.mp absent)
    have found := mark_found distinct member
    refine .inr ⟨given, member, fun other also => ?_, ?_⟩
    · have again := mark_found distinct also
      simpa using again.symm.trans found
    · rw [Fifo.mark, found]
      cases given <;> rfl

theorem Represents.serves {capacity : Nat} {q : OrderQueue} {fifo : Fifo}
    (represents : Represents capacity q fifo) : q.Serves capacity := by
  constructor
  case full =>
    intro opId
    rw [(represents.push opId).1, represents.live_eq, Fifo.push]
    split_ifs with full held <;> simp [full]
  case held =>
    intro opId
    rw [(represents.push opId).1, represents.live_eq, Fifo.push]
    split_ifs with full held <;> simp_all
  case pushed =>
    intro opId
    rw [(represents.push opId).1, represents.live_eq, Fifo.push]
    split_ifs with full held <;> simp_all
  case absent =>
    intro opId status
    rw [(represents.mark opId status).1, represents.live_eq]
    rcases mark_cases represents.distinct opId status with ⟨absent, answer⟩ | ⟨given, member, -, answer⟩
    · exact iff_of_true answer absent
    · refine iff_of_false ?_ (not_not.mpr (List.mem_map_of_mem (f := Prod.fst) member))
      rw [answer]
      split
      · simp
      · split_ifs <;> simp
  case differs =>
    intro opId status
    rw [(represents.mark opId status).1, represents.live_eq]
    rcases mark_cases represents.distinct opId status with ⟨absent, answer⟩ | ⟨given, member, unique, answer⟩
    · refine iff_of_false (by simp [answer]) ?_
      rintro ⟨given, member, -⟩
      exact absent (List.mem_map_of_mem (f := Prod.fst) member)
    · rw [answer]
      cases given with
      | none =>
          refine iff_of_false (by simp) ?_
          rintro ⟨other, also, -⟩
          cases unique _ also
      | some first =>
          have other : (∃ given, (opId, some given) ∈ fifo ∧ given ≠ status) ↔ first ≠ status := by
            refine ⟨?_, fun differs => ⟨first, member, differs⟩⟩
            rintro ⟨given, also, differs⟩
            rwa [← Option.some.inj (unique _ also)]
          rw [other]
          dsimp only
          split_ifs with same <;> simp [same]
  case marked =>
    intro opId status
    rw [(represents.mark opId status).1, represents.live_eq]
    rcases mark_cases represents.distinct opId status with ⟨absent, answer⟩ | ⟨given, member, unique, answer⟩
    · refine iff_of_false (by simp [answer]) ?_
      rintro (member | member) <;> exact absent (List.mem_map_of_mem (f := Prod.fst) member)
    · rw [answer]
      cases given with
      | none => exact iff_of_true rfl (.inl member)
      | some first =>
          have settled : ((opId, none) ∈ fifo ∨ (opId, some status) ∈ fifo) ↔ first = status := by
            constructor
            · rintro (also | also)
              · cases unique _ also
              · exact (Option.some.inj (unique _ also)).symm
            · rintro rfl
              exact .inr member
          rw [settled]
          dsimp only
          split_ifs with same <;> simp [same]
  case unchanged => exact fun call error => unchanged_of_error q call

/-- The queue answers every call as the abstract queue does. What was pushed is what was drained, in order and
with the first status that was given, followed by what is queued. -/
theorem order_queue_refines_fifo {capacity : Nat} {q : OrderQueue} (accepted : orderInit capacity = .ok q)
    (script : List OrderCall) :
    let run := calls OrderQueue.call q script
    let spec := calls (Fifo.call capacity) [] script
    run.2 = spec.2 ∧ run.1.live = spec.1 ∧
      records script run.2 = (drained run.2).map OrderCompletion.op ++ run.1.live ∧
      run.1.Serves capacity ∧ run.1.InBounds capacity := by
  have start := Represents.init accepted
  have step : ∀ (q : OrderQueue) (fifo : Fifo) (call : OrderCall), Represents capacity q fifo →
      (q.call call).2 = (fifo.call capacity call).2 ∧
        Represents capacity (q.call call).1 (fifo.call capacity call).1 := fun _ _ call represents => represents.call call
  obtain ⟨same, represents⟩ := calls_refine step start script
  refine ⟨same, represents.live_eq, ?_, represents.serves, represents.inBounds⟩
  rw [same, represents.live_eq]
  exact records_from start [] script

theorem order_queue_refines_fifo_wraps :
    ∃ q, orderInit 2 = .ok q ∧
      let run := calls OrderQueue.call q
        [.push 30, .push 31, .push 32, .mark 30 0, .drain 1 true, .push 32, .flush 4, .drain 2 true]
      records [.push 30, .push 31, .push 32, .mark 30 0, .drain 1 true, .push 32, .flush 4, .drain 2 true] run.2 =
        (drained run.2).map OrderCompletion.op ++ run.1.live ∧
      drained run.2 = [⟨30, 0⟩, ⟨31, 4⟩, ⟨32, 4⟩] := by
  have accepted : orderInit 2 = .ok { capacity := 2 } := rfl
  exact ⟨_, accepted, (order_queue_refines_fifo accepted _).2.2.1, by decide⟩

end ThunderboltVerbs.Reliability
