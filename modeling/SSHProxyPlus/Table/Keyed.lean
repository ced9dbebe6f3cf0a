import Mathlib.Data.Finmap
import Mathlib.Data.Set.Function

/-! Reference tables, and finite maps that stand for them under another key. A
table is indexed by what its owner means; the map is indexed by a key computed
from it. Where the computed keys tell the indices apart, the map is as good as
the table. -/
namespace Table

/-- At most one value for an index. -/
abbrev Reference (A V : Type) := A → Option V

namespace Reference
variable {A V : Type}

def empty : Reference A V := fun _ => none

def IsEmpty (t : Reference A V) : Prop := ∀ a, t a = none

variable [DecidableEq A]

def add (t : Reference A V) (a : A) (v : V) : Reference A V :=
  fun b => if b = a then some v else t b

def remove (t : Reference A V) (a : A) : Reference A V := fun b => if b = a then none else t b

@[simp] theorem add_same (t : Reference A V) (a : A) (v : V) : t.add a v a = some v := if_pos rfl

@[simp] theorem add_other (t : Reference A V) {a b : A} (v : V) (other : b ≠ a) :
    t.add a v b = t b := if_neg other

@[simp] theorem remove_same (t : Reference A V) (a : A) : t.remove a a = none := if_pos rfl

@[simp] theorem remove_other (t : Reference A V) {a b : A} (other : b ≠ a) :
    t.remove a b = t b := if_neg other

end Reference

variable {A K V W : Type} [DecidableEq K]

/-- The map `m` stands for the table `t`, whose indices all lie in `S`. -/
structure Represents (key : A → K) (stored : V → W) (S : Set A) (m : Finmap fun _ : K => W)
    (t : Reference A V) : Prop where
  lookup : ∀ a ∈ S, m.lookup (key a) = (t a).map stored
  within : ∀ a, t a ≠ none → a ∈ S
  covered : ∀ k ∈ m, ∃ a ∈ S, key a = k

namespace Represents
variable {key : A → K} {stored : V → W} {S : Set A} {m : Finmap fun _ : K => W}
  {t : Reference A V}

theorem empty : Represents key stored S ∅ (Reference.empty : Reference A V) where
  lookup a _ := Finmap.lookup_empty (key a)
  within _ present := absurd rfl present
  covered _ member := absurd member Finmap.notMem_empty

theorem nonempty_iff (represents : Represents key stored S m t) :
    (∃ k, k ∈ m) ↔ ¬ t.IsEmpty := by
  constructor
  · rintro ⟨k, member⟩ none
    obtain ⟨a, inside, rfl⟩ := represents.covered k member
    have absent : m.lookup (key a) = Option.none := by
      rw [represents.lookup a inside, none a, Option.map_none]
    exact Finmap.lookup_eq_none.mp absent member
  · intro some'
    obtain ⟨a, present⟩ := not_forall.mp some'
    obtain ⟨v, found⟩ := Option.ne_none_iff_exists'.mp present
    refine ⟨key a, Finmap.mem_iff.mpr ⟨stored v, ?_⟩⟩
    rw [represents.lookup a (represents.within a present), found, Option.map_some]

variable [DecidableEq A]

theorem add (represents : Represents key stored S m t) (injective : Set.InjOn key S)
    (member : a ∈ S) (v : V) :
    Represents key stored S (m.insert (key a) (stored v)) (t.add a v) where
  lookup b inside := by
    by_cases same : b = a
    · subst same
      simp
    · have other : key b ≠ key a := fun equal => same (injective inside member equal)
      rw [Finmap.lookup_insert_of_ne m other, t.add_other v same]
      exact represents.lookup b inside
  within b present := by
    by_cases same : b = a
    · exact same ▸ member
    · rw [t.add_other v same] at present
      exact represents.within b present
  covered k inserted := by
    rcases Finmap.mem_insert.mp inserted with rfl | old
    · exact ⟨a, member, rfl⟩
    · exact represents.covered k old

theorem remove (represents : Represents key stored S m t) (injective : Set.InjOn key S)
    (member : a ∈ S) : Represents key stored S (m.erase (key a)) (t.remove a) where
  lookup b inside := by
    by_cases same : b = a
    · subst same
      simp
    · have other : key b ≠ key a := fun equal => same (injective inside member equal)
      rw [Finmap.lookup_erase_ne other, t.remove_other same]
      exact represents.lookup b inside
  within b present := by
    by_cases same : b = a
    · exact same ▸ member
    · rw [t.remove_other same] at present
      exact represents.within b present
  covered k kept := represents.covered k (Finmap.mem_erase.mp kept).2

end Represents
end Table
