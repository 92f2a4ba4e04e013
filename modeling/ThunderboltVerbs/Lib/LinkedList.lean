import Mathlib.Data.List.Nodup
import Mathlib.Logic.Function.Basic

/-!
# Circular doubly linked lists

Nodes are addresses; a list is a head node whose links run through the items and back to it. The
operations are pointer assignments, as in the kernel's `list_head`.
-/

namespace ThunderboltVerbs.Lib

structure Links (α : Type) where
  next : α → α
  prev : α → α

namespace Links

section
variable {α : Type} {links links' : Links α} {a b c : α} {xs ys : List α}

/-- The links run from `a` through the items to `b`, and back. -/
def Chain (links : Links α) : α → List α → α → Prop
  | a, [], b => links.next a = b ∧ links.prev b = a
  | a, x :: xs, b => links.next a = x ∧ links.prev x = a ∧ Chain links x xs b

theorem Chain.append : links.Chain a (xs ++ c :: ys) b ↔ links.Chain a xs c ∧ links.Chain c ys b := by
  induction xs generalizing a with
  | nil => simp [Chain, and_assoc]
  | cons x xs ih => simp [Chain, ih, and_assoc]

theorem Chain.frame (chain : links.Chain a xs b)
    (next : ∀ node ∈ a :: xs, links'.next node = links.next node)
    (prev : ∀ node ∈ xs ++ [b], links'.prev node = links.prev node) : links'.Chain a xs b := by
  induction xs generalizing a with
  | nil =>
      exact ⟨(next a (by simp)).trans chain.1, (prev b (by simp)).trans chain.2⟩
  | cons x xs ih =>
      obtain ⟨forward, backward, rest⟩ := chain
      refine ⟨(next a (by simp)).trans forward, (prev x (by simp)).trans backward,
        ih rest (fun node member => next node (List.mem_cons_of_mem _ member)) ?_⟩
      exact fun node member => prev node (List.mem_cons_of_mem _ member)

theorem Chain.next_eq (chain : links.Chain a xs b) : links.next a = xs.headD b := by
  cases xs with
  | nil => exact chain.1
  | cons x xs => exact chain.1

structure Pair (links : Links α) (a : α) (xs : List α) (b : α) (ys : List α) : Prop where
  first : links.Chain a xs a
  second : links.Chain b ys b
  nodup : (a :: xs ++ b :: ys).Nodup

end

section
variable {α : Type} [DecidableEq α] {links : Links α} {a b x : α} {xs ys : List α}

def insert (links : Links α) (new prev next : α) : Links α where
  next := Function.update (Function.update links.next new next) prev new
  prev := Function.update (Function.update links.prev next new) new prev

def addTail (links : Links α) (new head : α) : Links α := links.insert new (links.prev head) head

def unlink (links : Links α) (node : α) : Links α where
  next := Function.update links.next (links.prev node) (links.next node)
  prev := Function.update links.prev (links.next node) (links.prev node)

def moveTail (links : Links α) (node head : α) : Links α := (links.unlink node).addTail node head

/-- What the move of a node between its neighbours `before` and `after` to the tail of a list with
last node `last` writes. -/
theorem moveTail_next {before after last node : α} (prev : links.prev x = before)
    (next : links.next x = after) (tail : links.prev b = last) (apart : b ≠ after) :
    (links.moveTail x b).next node =
      if node = last then x else if node = x then b else if node = before then after
      else links.next node := by
  simp only [moveTail, addTail, unlink, insert, prev, next, Function.update_of_ne apart, tail,
    Function.update_apply]

theorem moveTail_prev {before after last node : α} (prev : links.prev x = before)
    (next : links.next x = after) (tail : links.prev b = last) (apart : b ≠ after) :
    (links.moveTail x b).prev node =
      if node = x then last else if node = b then x else if node = after then before
      else links.prev node := by
  simp only [moveTail, addTail, unlink, insert, prev, next, Function.update_of_ne apart, tail,
    Function.update_apply]

theorem Chain.moveTail_first {last : α} (chain : links.Chain a (x :: xs) a) (tail : links.prev b = last)
    (nodup : (a :: x :: xs).Nodup) (other : b ∉ a :: x :: xs) (away : last ∉ a :: x :: xs) :
    (links.moveTail x b).Chain a xs a := by
  obtain ⟨-, prev, rest⟩ := chain
  have next := rest.next_eq
  have apart : b ≠ xs.headD a := by
    cases xs <;> grind
  cases xs with
  | nil =>
      constructor
      · rw [moveTail_next prev next tail apart]
        grind
      · rw [moveTail_prev prev next tail apart]
        grind
  | cons y zs =>
      obtain ⟨-, -, rest⟩ := rest
      refine ⟨?_, ?_, rest.frame ?_ ?_⟩
      · rw [moveTail_next prev next tail apart]
        grind
      · rw [moveTail_prev prev next tail apart]
        grind
      · intro node member
        rw [moveTail_next prev next tail apart]
        grind
      · intro node member
        rw [moveTail_prev prev next tail apart]
        grind

theorem Chain.moveTail_last {before after : α} (chain : links.Chain b ys b)
    (prev : links.prev x = before) (next : links.next x = after) (nodup : (b :: ys).Nodup)
    (own : x ∉ b :: ys) (beforeAway : before ∉ b :: ys) (afterAway : after ∉ b :: ys) :
    (links.moveTail x b).Chain b (ys ++ [x]) b := by
  have apart : b ≠ after := by grind
  rw [Chain.append]
  rcases List.eq_nil_or_concat' ys with rfl | ⟨zs, last, rfl⟩
  · have tail : links.prev b = b := chain.2
    refine ⟨⟨?_, ?_⟩, ?_, ?_⟩
    · rw [moveTail_next prev next tail apart]
      simp
    · rw [moveTail_prev prev next tail apart]
      simp
    · rw [moveTail_next prev next tail apart]
      grind
    · rw [moveTail_prev prev next tail apart]
      grind
  · obtain ⟨front, tail⟩ := Chain.append.mp chain
    have tail : links.prev b = last := tail.2
    rw [Chain.append]
    refine ⟨⟨front.frame ?_ ?_, ?_, ?_⟩, ?_, ?_⟩
    · intro node member
      rw [moveTail_next prev next tail apart]
      grind
    · intro node member
      rw [moveTail_prev prev next tail apart]
      grind
    · rw [moveTail_next prev next tail apart]
      grind
    · rw [moveTail_prev prev next tail apart]
      grind
    · rw [moveTail_next prev next tail apart]
      grind
    · rw [moveTail_prev prev next tail apart]
      grind

theorem Pair.moveTail (pair : links.Pair a (x :: xs) b ys) :
    (links.moveTail x b).Pair a xs b (ys ++ [x]) := by
  obtain ⟨first, second, nodup⟩ := pair
  obtain ⟨own, other, apart⟩ := List.nodup_append.mp nodup
  have last : ∃ last ∈ b :: ys, links.prev b = last := by
    rcases List.eq_nil_or_concat' ys with rfl | ⟨zs, last, rfl⟩
    · exact ⟨b, by simp, second.2⟩
    · exact ⟨last, by simp, (Chain.append.mp second).2.2⟩
  obtain ⟨last, member, tail⟩ := last
  have after : xs.headD a ∈ a :: x :: xs := by
    cases xs <;> simp
  constructor
  · refine first.moveTail_first tail own (fun found => apart b found b (by simp) rfl) ?_
    exact fun found => apart last found last member rfl
  · refine second.moveTail_last first.2.1 first.2.2.next_eq other ?_ ?_ ?_
    · exact fun found => apart x (by simp) x found rfl
    · exact fun found => apart a (by simp) a found rfl
    · exact fun found => apart _ after _ found rfl
  · have moved : (a :: x :: xs ++ b :: ys).Perm (a :: xs ++ b :: (ys ++ [x])) := by
      refine List.Perm.cons a ?_
      have rotated : (x :: (xs ++ b :: ys)).Perm ((xs ++ b :: ys) ++ [x]) :=
        (List.perm_append_singleton x _).symm
      simpa using rotated
    exact moved.nodup_iff.mp nodup

end

end Links

end ThunderboltVerbs.Lib
