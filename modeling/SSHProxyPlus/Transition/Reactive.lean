import Mathlib.Logic.Nonempty

/-! Machines that at each step react to what they observe, and what can be learnt about
the observations from their output. -/
namespace Transition

structure Reactive (σ Obs Out : Type) where
  react : σ → Obs → σ × List Out

namespace Reactive
variable {σ Obs Out : Type} (machine : Reactive σ Obs Out)

def run : σ → List Obs → List Out
  | _, [] => []
  | s, seen :: later => (machine.react s seen).2 ++ run (machine.react s seen).1 later

/-- The state that it comes to. -/
def after : σ → List Obs → σ
  | s, [] => s
  | s, seen :: later => after (machine.react s seen).1 later

/-- Whatever is observed in the same number of steps, the same comes out. -/
def Blind (s : σ) : Prop :=
  ∀ first second : List Obs, first.length = second.length →
    machine.run s first = machine.run s second

variable {machine} {s next : σ} {out : List Out}

/-- A step that does not depend on what is observed leaves the question to the next. -/
theorem blind_step [Nonempty Obs] (same : ∀ seen, machine.react s seen = (next, out)) :
    machine.Blind s ↔ machine.Blind next := by
  have continues (seen : Obs) (later : List Obs) :
      machine.run s (seen :: later) = out ++ machine.run next later := by
    rw [run, same]
  constructor
  · intro blind first second equal
    obtain ⟨seen⟩ := ‹Nonempty Obs›
    have whole := blind (seen :: first) (seen :: second) (congrArg Nat.succ equal)
    rw [continues, continues] at whole
    exact List.append_cancel_left whole
  · intro blind first second equal
    cases first with
    | nil => rw [List.eq_nil_of_length_eq_zero equal.symm]
    | cons seen first =>
      cases second with
      | nil => contradiction
      | cons seen' second =>
        rw [continues, continues, blind first second (Nat.succ.inj equal)]

theorem blind_halted (halted : ∀ seen, machine.react s seen = (s, [])) : machine.Blind s := by
  have silent (observed : List Obs) : machine.run s observed = [] := by
    induction observed with
    | nil => rfl
    | cons seen later ih => rw [run, halted, ih, List.append_nil]
  intro first second _
  rw [silent, silent]

theorem not_blind (seen seen' : Obs)
    (differ : (machine.react s seen).2 ≠ (machine.react s seen').2) :
    ¬ machine.Blind s := by
  intro blind
  have same := blind [seen] [seen'] rfl
  simp only [run, List.append_nil] at same
  exact differ same

end Reactive
end Transition
