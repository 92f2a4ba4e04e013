import Mathlib.Data.List.Basic

/-!
# Sequences of calls

`calls call s script` makes the calls of `script` one after the other from `s` on: the state afterwards and the
results.
-/

namespace ThunderboltVerbs.Lib

variable {σ τ κ ρ : Type}

def calls (call : σ → κ → σ × ρ) : σ → List κ → σ × List ρ
  | s, [] => (s, [])
  | s, c :: rest =>
      let after := call s c
      let later := calls call after.1 rest
      (later.1, after.2 :: later.2)

variable {call : σ → κ → σ × ρ} {spec : τ → κ → τ × ρ}

theorem calls_invariant {inv : σ → Prop} (step : ∀ s c, inv s → inv (call s c).1) {s : σ} (held : inv s)
    (script : List κ) : inv (calls call s script).1 := by
  induction script generalizing s with
  | nil => exact held
  | cons c rest ih => exact ih (step s c held)

/-- A relation that every call keeps, with the same result on both sides, holds after every script. -/
theorem calls_refine {related : σ → τ → Prop}
    (step : ∀ s t c, related s t → (call s c).2 = (spec t c).2 ∧ related (call s c).1 (spec t c).1) {s : σ} {t : τ}
    (start : related s t) (script : List κ) :
    (calls call s script).2 = (calls spec t script).2 ∧ related (calls call s script).1 (calls spec t script).1 := by
  induction script generalizing s t with
  | nil => exact ⟨rfl, start⟩
  | cons c rest ih =>
      obtain ⟨result, after⟩ := step s t c start
      obtain ⟨results, final⟩ := ih after
      exact ⟨congrArg₂ List.cons result results, final⟩

end ThunderboltVerbs.Lib
