import Mathlib.Data.Finmap
import SSHProxyPlus.Transition.Sequential

/-! Maps that hand out names. A name is given for a value only while the map does not have
it, and it stands for that value until it is withdrawn. -/
namespace Table

inductive Naming (K V : Type) where
  | issue (name : K) (value : V)
  | withdraw (name : K)
  | leave

variable {K V : Type} [DecidableEq K]

/-- What the naming makes of the map. -/
def Naming.Takes (before : Finmap fun _ : K => V) (naming : Naming K V)
    (after : Finmap fun _ : K => V) : Prop :=
  match naming with
  | .issue name value => name ∉ before ∧ after = before.insert name value
  | .withdraw name => after = before.erase name
  | .leave => after = before

variable {before after : Finmap fun _ : K => V} {name : K} {value : V}

/-- No step but a withdrawal of the name touches it: an issued name is another one. -/
theorem Naming.Takes.keeps {naming : Naming K V} (takes : naming.Takes before after)
    (stands : before.lookup name = some value) (kept : naming ≠ .withdraw name) :
    after.lookup name = some value := by
  cases naming with
  | issue fresh other =>
    obtain ⟨absent, rfl⟩ := takes
    have apart : name ≠ fresh := by
      rintro rfl
      exact absent (Finmap.mem_of_lookup_eq_some stands)
    rw [Finmap.lookup_insert_of_ne _ apart, stands]
  | withdraw gone =>
    obtain rfl := takes
    have apart : name ≠ gone := fun same => kept (congrArg Naming.withdraw same.symm)
    rw [Finmap.lookup_erase_ne apart, stands]
  | leave =>
    obtain rfl := takes
    exact stands

theorem follows_keeps {run : List (Naming K V)}
    (follows : Transition.Follows Naming.Takes before run after)
    (stands : before.lookup name = some value) (kept : .withdraw name ∉ run) :
    after.lookup name = some value := by
  induction run generalizing before with
  | nil => exact follows ▸ stands
  | cons naming later ih =>
    obtain ⟨mid, takes, rest⟩ := follows
    obtain ⟨first, others⟩ := not_or.mp (mt List.mem_cons.mpr kept)
    exact ih rest (takes.keeps stands fun same => first same.symm) others

/-- A name that was issued and not withdrawn since stands for what it was issued for. -/
theorem issued_stands {earlier later : List (Naming K V)}
    (follows : Transition.Follows Naming.Takes before
      (earlier ++ .issue name value :: later) after)
    (kept : .withdraw name ∉ later) : after.lookup name = some value := by
  obtain ⟨mid, -, next, ⟨-, rfl⟩, rest⟩ := Transition.follows_append.mp follows
  exact follows_keeps rest (Finmap.lookup_insert _) kept

end Table
