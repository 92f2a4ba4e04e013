import Mathlib.Data.List.Forall2

/-!
# Related subsequences

More on Mathlib's `List.SublistForall₂`: the entries of one list are related, in order, to some of those of
another.
-/

namespace List

variable {α β γ : Type} {R : α → β → Prop} {S : β → γ → Prop} {T : α → γ → Prop}

theorem SublistForall₂.exists_mem {xs : List α} {ys : List β} (related : SublistForall₂ R xs ys) {x : α}
    (member : x ∈ xs) : ∃ y ∈ ys, R x y := by
  induction related with
  | nil => cases member
  | cons here _ ih =>
      rcases mem_cons.mp member with rfl | member
      · exact ⟨_, mem_cons_self, here⟩
      · obtain ⟨y, inside, found⟩ := ih member
        exact ⟨y, mem_cons_of_mem _ inside, found⟩
  | cons_right _ ih =>
      obtain ⟨y, inside, found⟩ := ih member
      exact ⟨y, mem_cons_of_mem _ inside, found⟩

theorem SublistForall₂.append {xs xs' : List α} {ys ys' : List β} (first : SublistForall₂ R xs ys)
    (second : SublistForall₂ R xs' ys') : SublistForall₂ R (xs ++ xs') (ys ++ ys') := by
  induction first with
  | nil =>
      rename_i skipped
      induction skipped with
      | nil => exact second
      | cons y rest ih => exact .cons_right ih
  | cons here _ ih => exact .cons here ih
  | cons_right _ ih => exact .cons_right ih

theorem SublistForall₂.comp (compose : ∀ x y z, R x y → S y z → T x z) {xs : List α} {ys : List β} {zs : List γ}
    (first : SublistForall₂ R xs ys) (second : SublistForall₂ S ys zs) : SublistForall₂ T xs zs := by
  induction second generalizing xs with
  | nil =>
      cases first
      exact .nil
  | cons here _ ih =>
      cases first with
      | nil => exact .nil
      | cons there rest => exact .cons (compose _ _ _ there here) (ih rest)
      | cons_right rest => exact .cons_right (ih rest)
  | cons_right _ ih => exact .cons_right (ih first)

theorem SublistForall₂.refl {R : α → α → Prop} (reflexive : ∀ x, R x x) (xs : List α) : SublistForall₂ R xs xs := by
  induction xs with
  | nil => exact .nil
  | cons x rest ih => exact .cons (reflexive x) ih

theorem SublistForall₂.skip {xs : List α} {ys : List β} (related : SublistForall₂ R xs ys) (later : List β) :
    SublistForall₂ R xs (ys ++ later) := by
  simpa using related.append (SublistForall₂.nil : SublistForall₂ R [] later)

theorem SublistForall₂.left {xs xs' : List α} {ys : List β} (related : SublistForall₂ R (xs ++ xs') ys) :
    SublistForall₂ R xs ys := by
  have inside := (SublistForall₂.refl (fun x => Eq.refl x) xs).skip xs'
  refine inside.comp ?_ related
  rintro x _ y rfl here
  exact here

end List
