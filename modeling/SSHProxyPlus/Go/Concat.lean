import Mathlib.Data.List.Perm.Basic

/-! Strings put together in an order that is not settled. -/
namespace Go
variable {α : Type}

/-- The two strings give the same in either order. -/
def Commuting (u v : List α) : Prop := u ++ v = v ++ u

theorem flatten_perm {strings strings' : List (List α)} (same : strings.Perm strings')
    (commuting : strings.Pairwise Commuting) : strings.flatten = strings'.flatten := by
  induction same with
  | nil => rfl
  | cons u same ih =>
    rw [List.flatten_cons, List.flatten_cons, ih (List.pairwise_cons.mp commuting).2]
  | swap u v rest =>
    have apart : Commuting v u :=
      (List.pairwise_cons.mp commuting).1 u List.mem_cons_self
    simp only [List.flatten_cons, ← List.append_assoc]
    rw [apart]
  | trans same same' ih ih' =>
    rw [ih commuting]
    exact ih' ((same.pairwise_iff fun h => Eq.symm h).mp commuting)

/-- Every order gives the same, if and only if any two of the strings do. -/
theorem flatten_perm_iff {strings : List (List α)} :
    (∀ strings' : List (List α), strings'.Perm strings → strings'.flatten = strings.flatten) ↔
      strings.Pairwise Commuting := by
  constructor
  · intro same
    refine List.pairwise_iff_forall_sublist.mpr fun {u v} sublist => ?_
    obtain ⟨rest, split⟩ := sublist.exists_perm_append
    have first := same (u :: v :: rest) split.symm
    have second := same (v :: u :: rest) ((List.Perm.swap u v rest).trans split.symm)
    have equal := first.trans second.symm
    simp only [List.flatten_cons, ← List.append_assoc] at equal
    exact List.append_cancel_right equal
  · exact fun commuting strings' same => (flatten_perm same.symm commuting).symm

end Go
