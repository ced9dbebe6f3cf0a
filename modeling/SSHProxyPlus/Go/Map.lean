import Mathlib.Data.Finmap
import Mathlib.Data.Finset.Sort
import SSHProxyPlus.Go.Text

/-! Go maps: finite, unordered, with at most one value for a key. A `range` loop
visits the keys in an order the program cannot rely on, so it takes that order as
an argument; an encoder lists them sorted. -/
namespace Go

abbrev GoMap (K V : Type) := Finmap (fun _ : K => V)

/-- An order in which `range` visits the keys of maps. -/
structure RangeOrder (K : Type) where
  visit : Finset K → List K
  nodup : ∀ keys, (visit keys).Nodup
  mem : ∀ keys k, k ∈ visit keys ↔ k ∈ keys

variable {K V : Type}

def RangeOrder.over (order : RangeOrder K) (m : GoMap K V) : List K := order.visit m.keys

theorem RangeOrder.mem_over (order : RangeOrder K) (m : GoMap K V) (k : K) :
    k ∈ order.over m ↔ k ∈ m := (order.mem m.keys k).trans Finmap.mem_keys

theorem RangeOrder.over_empty (order : RangeOrder K) : order.over (∅ : GoMap K V) = [] :=
  List.eq_nil_iff_forall_not_mem.mpr fun k member =>
    Finmap.notMem_empty ((order.mem_over ∅ k).mp member)

/-- The order that takes one key before the others. -/
def RangeOrder.first [DecidableEq K] (order : RangeOrder K) (key : K) : RangeOrder K where
  visit keys :=
    if key ∈ keys then key :: (order.visit keys).filter (· ≠ key) else order.visit keys
  nodup keys := by
    split
    · refine List.nodup_cons.mpr ⟨fun member => ?_, (order.nodup keys).filter _⟩
      exact of_decide_eq_true (List.mem_filter.mp member).2 rfl
    · exact order.nodup keys
  mem keys k := by
    split
    · next member =>
      rw [List.mem_cons, List.mem_filter, order.mem]
      constructor
      · rintro (rfl | ⟨there, -⟩)
        · exact member
        · exact there
      · intro there
        by_cases same : k = key
        · exact .inl same
        · exact .inr ⟨there, decide_eq_true same⟩
    · exact order.mem keys k

theorem RangeOrder.first_over [DecidableEq K] (order : RangeOrder K) {m : GoMap K V} {key : K}
    (member : key ∈ m) :
    (order.first key).over m = key :: (order.over m).filter (· ≠ key) :=
  if_pos (Finmap.mem_keys.mpr member)

theorem lookup_insert_if [DecidableEq K] (entries : GoMap K V) (key key' : K) (v : V) :
    (entries.insert key v).lookup key' = if key' = key then some v else entries.lookup key' := by
  split
  · next same => rw [same, Finmap.lookup_insert]
  · next other => exact Finmap.lookup_insert_of_ne entries other

/-- What is found in a map of one entry is that entry. -/
theorem singleton_found [DecidableEq K] {key other : K} {v w : V}
    (found : ((∅ : GoMap K V).insert key v).lookup other = some w) : other = key ∧ v = w := by
  rw [lookup_insert_if] at found
  split at found
  · next same => exact ⟨same, Option.some.inj found⟩
  · contradiction

section MapValues
variable {W : Type} [DecidableEq K]

/-- The same keys, each with the value that `f` makes of its own. -/
def mapValues (f : K → V → W) (m : GoMap K V) : GoMap K W :=
  Finmap.keysLookupEquiv.symm ⟨(m.keys, fun key => (m.lookup key).map (f key)), fun key => by
    rw [Option.isSome_map, Finmap.lookup_isSome, Finmap.mem_keys]⟩

@[simp] theorem lookup_mapValues (f : K → V → W) (m : GoMap K V) (key : K) :
    (mapValues f m).lookup key = (m.lookup key).map (f key) :=
  Finmap.keysLookupEquiv_symm_apply_lookup _ key

@[simp] theorem keys_mapValues (f : K → V → W) (m : GoMap K V) : (mapValues f m).keys = m.keys :=
  Finmap.keysLookupEquiv_symm_apply_keys _

theorem mapValues_insert (f : K → V → W) (m : GoMap K V) (key : K) (v : V) :
    mapValues f (m.insert key v) = (mapValues f m).insert key (f key v) := by
  refine Finmap.ext_lookup fun other => ?_
  rw [lookup_mapValues, lookup_insert_if, lookup_insert_if, lookup_mapValues]
  split
  · next same => rw [same, Option.map_some]
  · rfl

@[simp] theorem mapValues_empty (f : K → V → W) : mapValues f (∅ : GoMap K V) = ∅ := by
  refine Finmap.ext_lookup fun key => ?_
  rw [lookup_mapValues, Finmap.lookup_empty, Finmap.lookup_empty]
  rfl

end MapValues

/-- Sorted by a rank that tells keys apart. -/
def sortedOrder (rank : K ↪ List Nat) : RangeOrder K :=
  letI := LinearOrder.lift' rank rank.injective
  { visit := fun keys => keys.sort
    nodup := fun keys => keys.sort_nodup _
    mem := fun _ _ => Finset.mem_sort _ }

/-- The bytes of a string, as a rank for sorting. -/
def byteRank : Bytes ↪ List Nat :=
  ⟨List.map UInt8.toNat, List.map_injective_iff.mpr fun _ _ => UInt8.toNat_inj.mp⟩

/-- The characters of a numeral, as a rank for sorting. -/
def decimalRank : Nat ↪ List Nat :=
  ⟨fun n => (decimal n).map Char.toNat,
    (List.map_injective_iff.mpr fun _ _ => Char.toNat_inj.mp).comp decimal_injective⟩

end Go
