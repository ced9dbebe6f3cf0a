import SSHProxyPlus.Go.Struct

/-! JavaScript values as a page gets them from JSON, and the objects that hold them. -/
namespace Browser
open Go

/-- A property that is missing is `undefined`, which is none of these. -/
inductive Value where
  | text (value : List Char)
  | number (value : Int)
  | flag (value : Bool)
deriving DecidableEq

/-- The double next to an integer; of two that are as near, the one with the even mantissa. -/
def roundDouble (n : Int) : Int :=
  if n.natAbs < 2 ^ 53 then n
  else
    let unit := 2 ^ (n.natAbs.log2 - 52)
    let mantissa := n.natAbs / unit
    let rest := n.natAbs % unit
    let up := unit < 2 * rest || 2 * rest == unit && mantissa % 2 == 1
    n.sign * (((if up then mantissa + 1 else mantissa) * unit : Nat) : Int)

namespace Value

/-- Among the values that `JSON.parse` gives: texts, integers and truth values. -/
def ofJson : Json → Option Value
  | .str chars => some (.text chars)
  | .num literal => (parseInt literal.literal).map fun n => .number (roundDouble n)
  | .bool value => some (.flag value)
  | _ => none

def toText : Value → List Char
  | .text value => value
  | .number value => itoa value
  | .flag true => "true".toList
  | .flag false => "false".toList

def truthy : Value → Bool
  | .text value => value != []
  | .number value => value != 0
  | .flag value => value

end Value

/-- The own properties of an object. -/
abbrev Object := List Char → Option Value

namespace Object

def empty : Object := fun _ => none

def get (object : Object) (key : String) : Option Value := object key.toList

def set (object : Object) (key : String) (value : Value) : Object :=
  Function.update object key.toList (some value)

def delete (object : Object) (key : String) : Object := Function.update object key.toList none

/-- `Object.assign({}, object, source)`. -/
def assign (object source : Object) : Object := fun key => source key <|> object key

/-- `object.key == text`, for a text that spells no number. -/
def has (object : Object) (key text : String) : Bool :=
  object.get key == some (.text text.toList)

theorem has_iff {object : Object} {key text : String} :
    object.has key text = true ↔ object.get key = some (.text text.toList) := by
  simp [has]

/-- A property has one value. -/
theorem has_unique {object : Object} {key text other : String} (first : object.has key text = true)
    (different : text.toList ≠ other.toList) : object.has key other = false := by
  rw [has_iff] at first
  simp [has, first, different]

theorem delete_get_ne (object : Object) {key other : String} (different : other.toList ≠ key.toList) :
    (object.delete key).get other = object.get other := Function.update_of_ne different _ _

theorem delete_get (object : Object) (key : String) : (object.delete key).get key = none :=
  Function.update_self _ _ _

theorem set_get (object : Object) (key : String) (value : Value) :
    (object.set key value).get key = some value := Function.update_self _ _ _

theorem set_ne (object : Object) {key : String} {other : List Char} (different : other ≠ key.toList)
    (value : Value) : object.set key value other = object other :=
  Function.update_of_ne different _ _

theorem assign_get (object source : Object) (key : String) :
    (object.assign source).get key = (source.get key).or (object.get key) := Option.orElse_eq_or

end Object

/-- `Object.entries` of what `JSON.parse` gives, put into an object; a later member of the same
name replaces an earlier one. -/
def readMembers : List (List Char × Json) → Object → Option Object
  | [], object => some object
  | (key, value) :: members, object => do
      let value ← Value.ofJson value
      readMembers members (Function.update object key (some value))

/-- The property that a field of a struct becomes. -/
def fieldProperty {σ : Type} (f : StructField σ) (a : σ) : Option Value :=
  if f.omitEmpty && f.empty a then none else Value.ofJson (f.encode a)

/-- What was a struct has the properties of its fields, but for those that are dropped. -/
theorem readMembers_members {σ : Type} {a : σ} {fields : List (StructField σ)}
    (distinct : (fields.map StructField.name).Nodup)
    (values : ∀ f ∈ fields, Value.ofJson (f.encode a) ≠ none) (object : Object) :
    ∃ result, readMembers (StructField.members fields a) object = some result ∧
      (∀ f ∈ fields, result f.name = (fieldProperty f a).or (object f.name)) ∧
      ∀ key ∉ fields.map StructField.name, result key = object key := by
  induction fields generalizing object with
  | nil => exact ⟨object, rfl, List.forall_mem_nil _, fun _ _ => rfl⟩
  | cons f fields ih =>
    obtain ⟨fresh, distinct⟩ := List.nodup_cons.mp distinct
    obtain ⟨first, others⟩ := List.forall_mem_cons.mp values
    by_cases dropped : (f.omitEmpty && f.empty a) = true
    · obtain ⟨result, read, named, frame⟩ := ih distinct others object
      refine ⟨result, ?_, ?_, fun key outside => ?_⟩
      · rw [StructField.members, List.filterMap_cons, if_pos dropped]
        exact read
      · refine List.forall_mem_cons.mpr ⟨?_, named⟩
        rw [frame _ fresh, fieldProperty, if_pos dropped]
        rfl
      · exact frame key fun member => outside (List.mem_cons_of_mem _ member)
    · obtain ⟨value, encoded⟩ := Option.ne_none_iff_exists'.mp first
      obtain ⟨result, read, named, frame⟩ :=
        ih distinct others (Function.update object f.name (some value))
      have present : fieldProperty f a = some value := by rw [fieldProperty, if_neg dropped, encoded]
      refine ⟨result, ?_, ?_, fun key outside => ?_⟩
      · rw [StructField.members, List.filterMap_cons, if_neg dropped, readMembers, encoded]
        exact read
      · refine List.forall_mem_cons.mpr ⟨?_, fun g member => ?_⟩
        · rw [frame _ fresh, Function.update_self, present]
          rfl
        · have other : g.name ≠ f.name := fun same =>
            fresh (same ▸ List.mem_map_of_mem member)
          rw [named g member, Function.update_of_ne other]
      · obtain ⟨other, outside⟩ := not_or.mp fun member => outside (List.mem_cons.mpr member)
        rw [frame key outside, Function.update_of_ne other]

end Browser
