/-! Transition systems: where they start, what each labelled step may do, and what
can be reached. -/
namespace Transition

structure System (σ α : Type) where
  init : σ → Prop
  step : σ → α → σ → Prop

namespace System
variable {σ α : Type}

inductive Reachable (sys : System σ α) : σ → Prop where
  | start {s : σ} (first : sys.init s) : Reachable sys s
  | next {s s' : σ} {a : α} (before : Reachable sys s) (step : sys.step s a s') : Reachable sys s'

/-- What holds at the start and across every step holds of every reachable state. -/
theorem Reachable.invariant {sys : System σ α} {Inv : σ → Prop}
    (first : ∀ s, sys.init s → Inv s) (step : ∀ s a s', Inv s → sys.step s a s' → Inv s')
    (reached : sys.Reachable s) : Inv s := by
  induction reached with
  | start initial => exact first _ initial
  | next _ taken ih => exact step _ _ _ ih taken

end System

/-- What holds of each of several parties holds of each after one of them has moved. -/
theorem each_set {σ : Type} {P : σ → Prop} {parties : List σ} {index : Nat} {moved : σ}
    (each : ∀ s ∈ parties, P s) (still : P moved) : ∀ s ∈ parties.set index moved, P s := by
  intro s member
  rcases List.mem_or_eq_of_mem_set member with old | rfl
  · exact each s old
  · exact still

end Transition
