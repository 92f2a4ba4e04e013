import Mathlib.Data.List.Basic

/-!
# Blocks that go out item by item

Two lines of blocks share one wire. `Woven` says that the wire carries whole blocks, those of each line in
their order. `Cut` says how far a line is: the items of the current block that are out, and the items that
are to come.
-/

namespace ThunderboltVerbs.Lib

variable {α β : Type}

/-! ## Two lines on one wire -/

inductive Woven : List (List α) → List (List α) → List α → Prop
  | nil : Woven [] [] []
  | left {first second : List (List α)} {out : List α} (woven : Woven first second out) (block : List α) :
      Woven (first ++ [block]) second (out ++ block)
  | right {first second : List (List α)} {out : List α} (woven : Woven first second out) (block : List α) :
      Woven first (second ++ [block]) (out ++ block)

theorem Woven.flatten {first second : List (List α)} {out : List α} (woven : Woven first second out) :
    ∃ blocks : List (List α), out = blocks.flatten ∧ ∀ block ∈ blocks, block ∈ first ∨ block ∈ second := by
  induction woven with
  | nil => exact ⟨[], rfl, by simp⟩
  | left woven block ih =>
      obtain ⟨blocks, rfl, known⟩ := ih
      refine ⟨blocks ++ [block], by simp, ?_⟩
      intro other member
      rcases List.mem_append.mp member with member | member
      · exact (known other member).imp (List.mem_append_left _) id
      · exact .inl (List.mem_append_right _ member)
  | right woven block ih =>
      obtain ⟨blocks, rfl, known⟩ := ih
      refine ⟨blocks ++ [block], by simp, ?_⟩
      intro other member
      rcases List.mem_append.mp member with member | member
      · exact (known other member).imp id (List.mem_append_left _)
      · exact .inr (List.mem_append_right _ member)

/-- The wire without its last item: the block of that item is not whole any more. -/
theorem Woven.unsnoc {first second : List (List α)} {whole out : List α} {item : α} (woven : Woven first second whole)
    (nonempty : ∀ block, block ∈ first ∨ block ∈ second → block ≠ []) (here : whole = out ++ [item]) :
    ∃ before block, out = before ++ block ∧
      ((∃ first', first = first' ++ [block ++ [item]] ∧ Woven first' second before) ∨
        ∃ second', second = second' ++ [block ++ [item]] ∧ Woven first second' before) := by
  have last : ∀ {before block : List α}, block ≠ [] → before ++ block = out ++ [item] →
      ∃ start, block = start ++ [item] ∧ out = before ++ start := by
    intro before block unfinished same
    obtain ⟨start, final, rfl⟩ := List.eq_nil_or_concat block |>.resolve_left unfinished
    rw [List.concat_eq_append, ← List.append_assoc] at same
    obtain ⟨front, rfl⟩ := List.append_inj' same rfl |>.imp_right fun last => List.singleton_inj.mp last
    exact ⟨start, by simp, front.symm⟩
  cases woven with
  | nil => simp at here
  | @left first second before woven block =>
      obtain ⟨start, rfl, rest⟩ := last (nonempty block (.inl (by simp))) here
      exact ⟨before, start, rest, .inl ⟨first, rfl, woven⟩⟩
  | @right first second before woven block =>
      obtain ⟨start, rfl, rest⟩ := last (nonempty block (.inr (by simp))) here
      exact ⟨before, start, rest, .inr ⟨second, rfl, woven⟩⟩

/-! ## How far a line is -/

inductive Cut : List α → List α → List (List α) → Prop
  | between (blocks : List (List α)) : Cut [] blocks.flatten blocks
  | within (out rest : List α) (blocks : List (List α)) (unfinished : rest ≠ []) :
      Cut out (rest ++ blocks.flatten) ((out ++ rest) :: blocks)

theorem Cut.of_nil {out coming : List α} (cut : Cut out coming []) : out = [] ∧ coming = [] := by
  cases cut
  exact ⟨rfl, rfl⟩

theorem Cut.append {out coming : List α} {blocks : List (List α)} (cut : Cut out coming blocks)
    (more : List (List α)) : Cut out (coming ++ more.flatten) (blocks ++ more) := by
  cases cut with
  | between =>
      rw [← List.flatten_append]
      exact .between _
  | within _ rest blocks unfinished =>
      rw [List.append_assoc, ← List.flatten_append, List.cons_append]
      exact .within out rest _ unfinished

theorem Cut.split {out coming : List α} {blocks : List (List α)} (cut : Cut out coming blocks) :
    (out = [] ∧ coming = blocks.flatten) ∨
      ∃ rest later, rest ≠ [] ∧ blocks = (out ++ rest) :: later ∧ coming = rest ++ later.flatten := by
  cases cut with
  | between => exact .inl ⟨rfl, rfl⟩
  | within _ rest later unfinished => exact .inr ⟨rest, later, unfinished, rfl, rfl⟩

/-- The next item belongs to the current block, or is the first of the next one. -/
theorem Cut.next {out coming : List α} {item : α} {blocks : List (List α)} (cut : Cut out (item :: coming) blocks)
    (nonempty : ∀ block ∈ blocks, block ≠ []) :
    ∃ rest later, blocks = (out ++ item :: rest) :: later ∧ coming = rest ++ later.flatten := by
  generalize whole : item :: coming = items at cut
  cases cut with
  | between =>
      cases blocks with
      | nil => cases whole
      | cons block later =>
          cases block with
          | nil => exact absurd rfl (nonempty [] List.mem_cons_self)
          | cons first rest =>
              rw [List.flatten_cons, List.cons_append, List.cons.injEq] at whole
              obtain ⟨rfl, rfl⟩ := whole
              exact ⟨rest, later, rfl, rfl⟩
  | within _ rest later unfinished =>
      cases rest with
      | nil => exact absurd rfl unfinished
      | cons first rest =>
          rw [List.cons_append, List.cons.injEq] at whole
          obtain ⟨rfl, rfl⟩ := whole
          exact ⟨rest, later, rfl, rfl⟩

/-- A sieve that keeps or drops each block as a whole leaves whole blocks. -/
theorem filter_flatten_of_uniform {keep : α → Bool} {blocks : List (List α)}
    (uniform : ∀ block ∈ blocks, block.filter keep = block ∨ block.filter keep = []) :
    ∃ kept : List (List α), kept.Sublist blocks ∧ blocks.flatten.filter keep = kept.flatten := by
  induction blocks with
  | nil => exact ⟨[], .slnil, rfl⟩
  | cons block blocks ih =>
      obtain ⟨kept, sublist, same⟩ := ih fun other member => uniform other (List.mem_cons_of_mem _ member)
      rw [List.flatten_cons, List.filter_append, same]
      rcases uniform block List.mem_cons_self with whole | nothing
      · exact ⟨block :: kept, sublist.cons_cons block, by rw [whole, List.flatten_cons]⟩
      · exact ⟨kept, sublist.cons block, by rw [nothing, List.nil_append]⟩

end ThunderboltVerbs.Lib
