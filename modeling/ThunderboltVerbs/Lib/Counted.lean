import Mathlib.Data.List.Nodup
import Mathlib.Data.List.Perm.Basic
import Mathlib.Data.List.Count

/-!
# Objects with a count of their holders

An object is on the list as long as somebody holds it. `holders` names the object of each holder.
-/

namespace ThunderboltVerbs.Lib

structure Counted (κ α : Type) where
  key : κ
  refs : Nat
  value : α
  deriving DecidableEq, Repr

namespace Counted

variable {κ α : Type} [DecidableEq κ]

/-- The object with the key `key` is changed in place. -/
def update (key : κ) (f : Counted κ α → Counted κ α) (objects : List (Counted κ α)) : List (Counted κ α) :=
  objects.map fun object => if object.key = key then f object else object

def retain (key : κ) (objects : List (Counted κ α)) : List (Counted κ α) :=
  update key (fun object => { object with refs := object.refs + 1 }) objects

/-- The object leaves the list with its last holder. -/
def release (key : κ) (objects : List (Counted κ α)) : List (Counted κ α) :=
  (update key (fun object => { object with refs := object.refs - 1 }) objects).filter fun object => object.refs ≠ 0

def modify (key : κ) (f : α → α) (objects : List (Counted κ α)) : List (Counted κ α) :=
  update key (fun object => { object with value := f object.value }) objects

structure Balanced (objects : List (Counted κ α)) (holders : List κ) : Prop where
  distinct : (objects.map key).Nodup
  counted : ∀ object ∈ objects, object.refs = holders.count object.key
  live : ∀ holder ∈ holders, ∃ object ∈ objects, object.key = holder
  held : ∀ object ∈ objects, 0 < object.refs

variable {objects : List (Counted κ α)} {holders : List κ} {object : Counted κ α}

theorem mem_update {f : Counted κ α → Counted κ α} {key : κ} :
    object ∈ update key f objects ↔
      ∃ old ∈ objects, (old.key = key ∧ object = f old) ∨ (old.key ≠ key ∧ object = old) := by
  simp only [update, List.mem_map]
  apply exists_congr
  intro old
  apply and_congr_right
  intro _
  by_cases here : old.key = key
  · simp [here, eq_comm]
  · simp [here, eq_comm]

theorem keys_update {f : Counted κ α → Counted κ α} (kept : ∀ object, (f object).key = object.key) (key : κ)
    (objects : List (Counted κ α)) : (update key f objects).map Counted.key = objects.map Counted.key := by
  simp only [update, List.map_map]
  apply List.map_congr_left
  intro object _
  simp only [Function.comp_apply]
  split
  · exact kept object
  · rfl

theorem keys_retain (key : κ) (objects : List (Counted κ α)) :
    (retain key objects).map Counted.key = objects.map Counted.key := by
  apply keys_update
  intro object
  rfl

theorem keys_modify (key : κ) (f : α → α) (objects : List (Counted κ α)) :
    (modify key f objects).map Counted.key = objects.map Counted.key := by
  apply keys_update
  intro object
  rfl

theorem keys_release (key : κ) (objects : List (Counted κ α)) :
    ((release key objects).map Counted.key).Sublist (objects.map Counted.key) := by
  have lowered := keys_update (f := fun object : Counted κ α => { object with refs := object.refs - 1 })
    (fun _ => rfl) key objects
  rw [← lowered]
  exact List.filter_sublist.map _

theorem values_retain (key : κ) (objects : List (Counted κ α)) :
    (retain key objects).map Counted.value = objects.map Counted.value := by
  simp only [retain, update, List.map_map]
  apply List.map_congr_left
  intro object _
  simp only [Function.comp_apply]
  split
  · rfl
  · rfl

theorem values_release (key : κ) (objects : List (Counted κ α)) :
    ((release key objects).map Counted.value).Sublist (objects.map Counted.value) := by
  have lowered : (update key (fun object => { object with refs := object.refs - 1 }) objects).map Counted.value =
      objects.map Counted.value := by
    simp only [update, List.map_map]
    apply List.map_congr_left
    intro object _
    simp only [Function.comp_apply]
    split
    · rfl
    · rfl
  rw [← lowered]
  exact List.filter_sublist.map _

theorem mem_retain {key : κ} (member : object ∈ retain key objects) :
    ∃ old ∈ objects, object.key = old.key ∧ object.value = old.value := by
  obtain ⟨old, listed, ⟨-, rfl⟩ | ⟨-, rfl⟩⟩ := mem_update.mp member
  · exact ⟨old, listed, rfl, rfl⟩
  · exact ⟨object, listed, rfl, rfl⟩

theorem mem_release {key : κ} (member : object ∈ release key objects) :
    ∃ old ∈ objects, object.key = old.key ∧ object.value = old.value := by
  obtain ⟨old, listed, ⟨-, rfl⟩ | ⟨-, rfl⟩⟩ := mem_update.mp (List.mem_filter.mp member).1
  · exact ⟨old, listed, rfl, rfl⟩
  · exact ⟨object, listed, rfl, rfl⟩

theorem mem_modify {key : κ} {f : α → α} (member : object ∈ modify key f objects) :
    ∃ old ∈ objects, object.key = old.key ∧
      ((old.key = key ∧ object.value = f old.value) ∨ (old.key ≠ key ∧ object.value = old.value)) := by
  obtain ⟨old, listed, ⟨here, rfl⟩ | ⟨elsewhere, rfl⟩⟩ := mem_update.mp member
  · exact ⟨old, listed, rfl, .inl ⟨here, rfl⟩⟩
  · exact ⟨object, listed, rfl, .inr ⟨elsewhere, rfl⟩⟩

/-- What holds between each two values still does if it holds between the changed one and the others. -/
theorem pairwise_modify {related : α → α → Prop} (symm : ∀ a b, related a b → related b a)
    (distinct : (objects.map Counted.key).Nodup) (pairwise : (objects.map Counted.value).Pairwise related) {key : κ}
    {f : α → α} (kept : ∀ object ∈ objects, object.key = key → ∀ other ∈ objects, other.key ≠ key →
      related object.value other.value → related (f object.value) other.value) :
    ((modify key f objects).map Counted.value).Pairwise related := by
  rw [List.nodup_iff_pairwise_ne, List.pairwise_map] at distinct
  rw [List.pairwise_map] at pairwise
  rw [modify, update, List.map_map, List.pairwise_map]
  apply (distinct.and pairwise).imp_of_mem
  rintro first second inside within ⟨differ, held⟩
  simp only [Function.comp_apply]
  by_cases here : first.key = key
  · have there : second.key ≠ key := fun same => differ (here.trans same.symm)
    rw [if_pos here, if_neg there]
    exact kept first inside here second within there held
  · rw [if_neg here]
    by_cases there : second.key = key
    · rw [if_pos there]
      exact symm _ _ (kept second within there first inside here (symm _ _ held))
    · rw [if_neg there]
      exact held

namespace Balanced

theorem nil : Balanced ([] : List (Counted κ α)) [] where
  distinct := List.nodup_nil
  counted := by simp
  live := by simp
  held := by simp

theorem perm {holders' : List κ} (balanced : Balanced objects holders) (same : holders.Perm holders') :
    Balanced objects holders' where
  distinct := balanced.distinct
  counted object member := (balanced.counted object member).trans (same.count_eq _)
  live holder member := balanced.live holder (same.mem_iff.mpr member)
  held := balanced.held

theorem eq_of_key (balanced : Balanced objects holders) {other : Counted κ α} (first : object ∈ objects)
    (second : other ∈ objects) (same : object.key = other.key) : object = other :=
  List.inj_on_of_nodup_map balanced.distinct first second same

/-- A new object belongs to the one who made it. -/
theorem insert (balanced : Balanced objects holders) {key : κ} (fresh : ∀ object ∈ objects, object.key ≠ key)
    (value : α) : Balanced (objects ++ [{ key, refs := 1, value }]) (key :: holders) where
  distinct := by
    rw [List.map_append, List.nodup_append]
    refine ⟨balanced.distinct, by simp, ?_⟩
    intro other member last single
    obtain ⟨object, inside, rfl⟩ := List.mem_map.mp member
    rw [List.map_singleton, List.mem_singleton] at single
    rw [single]
    exact fresh object inside
  counted := by
    intro object member
    rcases List.mem_append.mp member with member | member
    · rw [List.count_cons_of_ne (fresh object member).symm]
      exact balanced.counted object member
    · obtain rfl := List.mem_singleton.mp member
      have absent : key ∉ holders := by
        intro holder
        obtain ⟨object, inside, same⟩ := balanced.live key holder
        exact fresh object inside same
      rw [List.count_cons_self, List.count_eq_zero_of_not_mem absent]
  live := by
    intro holder member
    rcases List.mem_cons.mp member with rfl | member
    · exact ⟨_, List.mem_append_right _ (List.mem_singleton_self _), rfl⟩
    · obtain ⟨object, inside, same⟩ := balanced.live holder member
      exact ⟨object, List.mem_append_left _ inside, same⟩
  held := by
    intro object member
    rcases List.mem_append.mp member with member | member
    · exact balanced.held object member
    · obtain rfl := List.mem_singleton.mp member
      exact Nat.one_pos

theorem retain (balanced : Balanced objects holders) (member : object ∈ objects) :
    Balanced (Counted.retain object.key objects) (object.key :: holders) where
  distinct := by
    rw [keys_retain]
    exact balanced.distinct
  counted := by
    intro other inside
    obtain ⟨old, listed, ⟨here, rfl⟩ | ⟨elsewhere, rfl⟩⟩ := mem_update.mp inside
    · show old.refs + 1 = (object.key :: holders).count old.key
      rw [here, List.count_cons_self, balanced.counted old listed, here]
    · rw [List.count_cons_of_ne (Ne.symm elsewhere)]
      exact balanced.counted other listed
  live := by
    have there : ∀ old ∈ objects, ∃ new ∈ Counted.retain object.key objects, new.key = old.key := by
      intro old listed
      have inside : old.key ∈ (Counted.retain object.key objects).map Counted.key := by
        rw [keys_retain]
        exact List.mem_map_of_mem listed
      obtain ⟨new, place, same⟩ := List.mem_map.mp inside
      exact ⟨new, place, same⟩
    intro holder place
    rcases List.mem_cons.mp place with rfl | place
    · exact there object member
    · obtain ⟨old, listed, rfl⟩ := balanced.live holder place
      exact there old listed
  held := by
    intro other inside
    obtain ⟨old, listed, ⟨-, rfl⟩ | ⟨-, rfl⟩⟩ := mem_update.mp inside
    · exact Nat.succ_pos _
    · exact balanced.held other listed

theorem modify (balanced : Balanced objects holders) (key : κ) (f : α → α) :
    Balanced (Counted.modify key f objects) holders := by
  have same : ∀ object ∈ Counted.modify key f objects, ∃ old ∈ objects, object.key = old.key ∧ object.refs = old.refs := by
    intro object inside
    obtain ⟨old, listed, ⟨-, rfl⟩ | ⟨-, rfl⟩⟩ := mem_update.mp inside
    · exact ⟨old, listed, rfl, rfl⟩
    · exact ⟨object, listed, rfl, rfl⟩
  have keys := keys_modify key f objects
  refine ⟨keys ▸ balanced.distinct, ?_, ?_, ?_⟩
  · intro object inside
    obtain ⟨old, listed, name, refs⟩ := same object inside
    rw [refs, name]
    exact balanced.counted old listed
  · intro holder place
    obtain ⟨old, listed, rfl⟩ := balanced.live holder place
    have inside : old.key ∈ (Counted.modify key f objects).map Counted.key := keys ▸ List.mem_map_of_mem listed
    obtain ⟨new, place, same⟩ := List.mem_map.mp inside
    exact ⟨new, place, same⟩
  · intro object inside
    obtain ⟨old, listed, -, refs⟩ := same object inside
    rw [refs]
    exact balanced.held old listed

/-- One holder lets go. -/
theorem release {key : κ} (balanced : Balanced objects (key :: holders)) :
    Balanced (Counted.release key objects) holders := by
  have after : ∀ object, object ∈ Counted.release key objects ↔ ∃ old ∈ objects, object.refs ≠ 0 ∧
      ((old.key = key ∧ object = { old with refs := old.refs - 1 }) ∨ (old.key ≠ key ∧ object = old)) := by
    intro object
    rw [Counted.release, List.mem_filter, mem_update, decide_eq_true_eq]
    constructor
    · rintro ⟨⟨old, listed, which⟩, positive⟩
      exact ⟨old, listed, positive, which⟩
    · rintro ⟨old, listed, positive, which⟩
      exact ⟨⟨old, listed, which⟩, positive⟩
  refine ⟨?_, ?_, ?_, ?_⟩
  · exact (keys_release key objects).nodup balanced.distinct
  · intro object inside
    obtain ⟨old, listed, -, ⟨here, rfl⟩ | ⟨elsewhere, rfl⟩⟩ := (after object).mp inside
    · show old.refs - 1 = holders.count old.key
      rw [balanced.counted old listed, here, List.count_cons_self, Nat.add_sub_cancel]
    · rw [balanced.counted object listed, List.count_cons_of_ne (Ne.symm elsewhere)]
  · intro holder place
    obtain ⟨old, listed, rfl⟩ := balanced.live holder (List.mem_cons_of_mem _ place)
    by_cases here : old.key = key
    · have two : 0 < old.refs - 1 := by
        rw [balanced.counted old listed, here, List.count_cons_self, Nat.add_sub_cancel, ← here]
        exact List.count_pos_iff.mpr place
      exact ⟨_, (after _).mpr ⟨old, listed, (Nat.ne_of_gt two), .inl ⟨here, rfl⟩⟩, rfl⟩
    · exact ⟨old, (after old).mpr ⟨old, listed, Nat.ne_of_gt (balanced.held old listed), .inr ⟨here, rfl⟩⟩, rfl⟩
  · intro object inside
    obtain ⟨-, -, positive, -⟩ := (after object).mp inside
    exact Nat.pos_of_ne_zero positive

end Balanced

theorem release_of_absent {key : κ} (absent : ∀ object ∈ objects, object.key ≠ key)
    (held : ∀ object ∈ objects, 0 < object.refs) : release key objects = objects := by
  have still : update key (fun object => { object with refs := object.refs - 1 }) objects = objects := by
    apply (List.map_congr_left fun object member => if_neg (absent object member)).trans
    exact List.map_id' objects
  rw [release, still, List.filter_eq_self]
  intro object member
  exact decide_eq_true (Nat.ne_of_gt (held object member))

/-- The object leaves the list just when there is no other holder. -/
theorem perm_release {β : Type} (image : α → β) (distinct : (objects.map key).Nodup)
    (held : ∀ object ∈ objects, 0 < object.refs) (member : object ∈ objects) :
    (objects.map fun object => image object.value).Perm
      ((if object.refs = 1 then [image object.value] else []) ++
        (release object.key objects).map fun object => image object.value) := by
  induction objects with
  | nil => cases member
  | cons first rest ih =>
      rw [List.map_cons, List.nodup_cons] at distinct
      have held' := fun other inside => held other (List.mem_cons_of_mem first inside)
      rcases List.mem_cons.mp member with rfl | member
      · have absent : ∀ other ∈ rest, other.key ≠ object.key := fun other inside same =>
          distinct.1 (same ▸ List.mem_map_of_mem inside)
        have after : release object.key (object :: rest) =
            (if object.refs = 1 then [] else [{ object with refs := object.refs - 1 }]) ++ rest := by
          have others := release_of_absent absent held'
          have positive := held object List.mem_cons_self
          unfold release update at others ⊢
          rw [List.map_cons, if_pos rfl, List.filter_cons, others]
          by_cases last : object.refs = 1
          · simp [last]
          · rw [if_neg last, if_pos (decide_eq_true (show object.refs - 1 ≠ 0 by omega))]
            rfl
        rw [after]
        by_cases last : object.refs = 1
        · simp [last]
        · simp [last]
      · have other : first.key ≠ object.key := fun same => distinct.1 (same ▸ List.mem_map_of_mem member)
        have after : release object.key (first :: rest) = first :: release object.key rest := by
          unfold release update
          rw [List.map_cons, if_neg other, List.filter_cons,
            if_pos (decide_eq_true (Nat.ne_of_gt (held first List.mem_cons_self)))]
        rw [after, List.map_cons, List.map_cons]
        exact ((ih distinct.2 held' member).cons _).trans List.perm_middle.symm

end Counted

end ThunderboltVerbs.Lib
