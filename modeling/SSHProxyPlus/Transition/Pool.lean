import Mathlib.Data.List.Perm.Basic
import Mathlib.Data.Multiset.Defs
import Mathlib.Data.Multiset.ZeroCons

/-! A pool of threads: a list of which one member is replaced when its thread takes a step. -/
namespace Transition
variable {α : Type}

theorem getElem?_set_cases {list : List α} {i j : Nat} {new a : α}
    (found : (list.set i new)[j]? = some a) : j = i ∧ a = new ∨ j ≠ i ∧ list[j]? = some a := by
  rw [List.getElem?_set] at found
  split at found
  · next same =>
    split at found
    · exact .inl ⟨same.symm, (Option.some.inj found).symm⟩
    · contradiction
  · next apart => exact .inr ⟨Ne.symm apart, found⟩

theorem getElem?_concat_cases {list : List α} {j : Nat} {new a : α}
    (found : (list ++ [new])[j]? = some a) :
    j = list.length ∧ a = new ∨ list[j]? = some a := by
  obtain inside | outside := Nat.lt_or_ge j list.length
  · exact .inr (by rwa [List.getElem?_append_left inside] at found)
  · rw [List.getElem?_append_right outside] at found
    obtain ⟨within, same⟩ := List.getElem?_eq_some_iff.mp found
    rw [List.length_singleton] at within
    exact .inl ⟨by omega, by simpa using same.symm⟩

theorem getElem?_append_kept {list more : List α} {j : Nat} {a : α} (found : list[j]? = some a) :
    (list ++ more)[j]? = some a := by
  rw [List.getElem?_append_left (List.getElem?_eq_some_iff.mp found).1, found]

/-- One member goes on; the others are as they were. -/
theorem exchange {list : List α} {i : Nat} {a : α} (here : list[i]? = some a) (new : α) :
    ∃ rest : Multiset α, ↑list = a ::ₘ rest ∧ ↑(list.set i new) = new ::ₘ rest := by
  obtain ⟨bound, rfl⟩ := List.getElem?_eq_some_iff.mp here
  refine ⟨↑(list.eraseIdx i), ?_, ?_⟩
  · rw [Multiset.cons_coe]
    exact (Multiset.coe_eq_coe.mpr (List.getElem_cons_eraseIdx_perm bound)).symm
  · rw [Multiset.cons_coe]
    exact Multiset.coe_eq_coe.mpr (List.set_perm_cons_eraseIdx bound new)

end Transition
