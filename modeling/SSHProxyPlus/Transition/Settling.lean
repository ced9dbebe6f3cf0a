import Mathlib.Logic.Basic
import SSHProxyPlus.Transition.Sequential

/-! Runs that come to an end, as each of their steps leaves less to do. -/
namespace Transition
variable {σ α : Type} {step : σ → α → σ → Prop} {s t : σ}

/-- No step is possible. -/
def AtRest (step : σ → α → σ → Prop) (s : σ) : Prop := ∀ a t, ¬ step s a t

/-- Each step keeps an invariant, and lowers a measure where the invariant holds. -/
structure Lowers (step : σ → α → σ → Prop) (Inv : σ → Prop) (measure : σ → Nat) : Prop where
  kept : ∀ s a t, Inv s → step s a t → Inv t
  less : ∀ s a t, Inv s → step s a t → measure t < measure s

namespace Lowers
variable {Inv : σ → Prop} {measure : σ → Nat}

theorem follows (lowers : Lowers step Inv measure) {actions : List α} (inv : Inv s)
    (follows : Follows step s actions t) : Inv t ∧ actions.length + measure t ≤ measure s := by
  induction actions generalizing s with
  | nil =>
    obtain rfl := follows
    exact ⟨inv, Nat.le_of_eq (Nat.zero_add _)⟩
  | cons action actions ih =>
    obtain ⟨mid, taken, later⟩ := follows
    have less := lowers.less s action mid inv taken
    obtain ⟨last, bound⟩ := ih (lowers.kept s action mid inv taken) later
    refine ⟨last, ?_⟩
    rw [List.length_cons]
    omega

/-- A run can be gone on with until no step is possible. -/
theorem settles (lowers : Lowers step Inv measure) (inv : Inv s) :
    ∃ actions t, Follows step s actions t ∧ AtRest step t := by
  induction left : measure s using Nat.strongRecOn generalizing s with
  | ind n ih =>
    by_cases rests : AtRest step s
    · exact ⟨[], s, rfl, rests⟩
    · simp only [AtRest, not_forall, not_not] at rests
      obtain ⟨a, mid, taken⟩ := rests
      have less := lowers.less s a mid inv taken
      obtain ⟨actions, t, later, stops⟩ :=
        ih (measure mid) (left ▸ less) (lowers.kept s a mid inv taken) rfl
      exact ⟨a :: actions, t, ⟨mid, taken, later⟩, stops⟩

end Lowers
end Transition
