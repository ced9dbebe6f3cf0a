import SSHProxyPlus.Go.Nil
import SSHProxyPlus.Go.Struct

/-! What decoding can yield: a property of the zero value that every decoder step keeps
holds of whatever comes out, whatever the input was. -/
namespace Go

/-- Decoding starts with `P` and never leaves it. -/
structure Codec.Yields (c : Codec α) (P : α → Prop) : Prop where
  zero : P c.zero
  decode : ∀ v a b, P a → c.decode v a = some b → P b

theorem Codec.Yields.unmarshal {c : Codec α} {P : α → Prop} (yields : c.Yields P) {data : Bytes}
    {a b : α} (start : P a) (decoded : c.unmarshal data a = some b) : P b := by
  obtain ⟨v, -, read⟩ := Option.bind_eq_some_iff.mp decoded
  exact yields.decode v a b start read

theorem yields_trivial (c : Codec α) : c.Yields fun _ => True := ⟨trivial, fun _ _ _ _ _ => trivial⟩

theorem stringCodec_yields : stringCodec.Yields ValidUTF8 := by
  refine ⟨validUTF8_utf8 [], fun v s t valid decoded => ?_⟩
  cases v with
  | str text => exact Option.some.inj decoded ▸ validUTF8_utf8 text
  | null => exact Option.some.inj decoded ▸ valid
  | bool => contradiction
  | num => contradiction
  | arr => contradiction
  | obj => contradiction

theorem pointerCodec_yields {c : Codec α} {P : α → Prop} (yields : c.Yields P) :
    (pointerCodec c).Yields fun pointer => ∀ a, pointer = some a → P a := by
  refine ⟨fun a none => by contradiction, fun v pointer result start decoded => ?_⟩
  have target : P (pointer.getD c.zero) := by
    cases pointer with
    | none => exact yields.zero
    | some a => exact start a rfl
  rintro a rfl
  unfold pointerCodec at decoded
  simp only at decoded
  split at decoded
  · exact absurd (Option.some.inj decoded) (Option.some_ne_none a).symm
  · obtain ⟨b, read, same⟩ := Option.map_eq_some_iff.mp decoded
    exact Option.some.inj same ▸ yields.decode _ _ b target read

section Maps
variable {K V : Type} [DecidableEq K]

theorem readMembers_yields {k : KeyCodec K} {c : Codec V} {Q : K → Prop} {P : V → Prop}
    (keys : ∀ text key, k.read text = some key → Q key) (yields : c.Yields P)
    {ms : List (List Char × Json)} {start result : GoMap K V}
    (before : ∀ key v, start.lookup key = some v → Q key ∧ P v)
    (read : readMembers k c ms start = some result) {key : K} {v : V}
    (found : result.lookup key = some v) : Q key ∧ P v := by
  induction ms generalizing start with
  | nil => exact before key v (Option.some.inj read ▸ found)
  | cons m ms ih =>
    obtain ⟨text, value⟩ := m
    obtain ⟨other, keyRead, rest⟩ := Option.bind_eq_some_iff.mp read
    obtain ⟨a, valueRead, rest⟩ := Option.bind_eq_some_iff.mp rest
    refine ih (fun x w stored => ?_) rest
    by_cases same : x = other
    · subst same
      rw [Finmap.lookup_insert] at stored
      obtain rfl := Option.some.inj stored
      exact ⟨keys text x keyRead, yields.decode value _ a yields.zero valueRead⟩
    · rw [Finmap.lookup_insert_of_ne _ same] at stored
      exact before x w stored

theorem mapCodec_yields {k : KeyCodec K} {c : Codec V} {Q : K → Prop} {P : V → Prop}
    (keys : ∀ text key, k.read text = some key → Q key) (yields : c.Yields P) :
    (mapCodec k c).Yields fun m => ∀ key v, MapVar.find m key = some v → Q key ∧ P v := by
  have empty : ∀ (key : K) (v : V), MapVar.find none key = some v → Q key ∧ P v := by
    intro key v found
    have absent : MapVar.find (none : MapVar K V) key = none := Finmap.lookup_empty key
    rw [absent] at found
    contradiction
  refine ⟨empty, fun v m result start decoded => ?_⟩
  cases v with
  | obj ms =>
    obtain ⟨entries, read, rfl⟩ := Option.map_eq_some_iff.mp decoded
    exact fun key v found => readMembers_yields keys yields start read found
  | null =>
    obtain rfl := Option.some.inj decoded
    exact empty
  | bool => contradiction
  | num => contradiction
  | str => contradiction
  | arr => contradiction

end Maps

section Structs
variable {σ : Type}

/-- A field keeps a property of the struct when its setter does, given what its own codec
can yield. -/
theorem field_yields {goName : String} {tag : Option String} {c : Codec α} {get : σ → α}
    {set : α → σ → σ} {P : α → Prop} {Keeps : σ → Prop} (yields : c.Yields P)
    (gets : ∀ a, Keeps a → P (get a)) (sets : ∀ x a, Keeps a → P x → Keeps (set x a)) (v : Json)
    (a b : σ) (start : Keeps a) (done : (field goName tag c get set).decode v a = some b) :
    Keeps b := by
  obtain ⟨x, read, rfl⟩ := Option.map_eq_some_iff.mp done
  exact sets x a start (yields.decode v (get a) x (gets a start) read)

/-- A field whose setter keeps the property whatever it sets. -/
theorem field_keeps {goName : String} {tag : Option String} {c : Codec α} {get : σ → α}
    {set : α → σ → σ} {Keeps : σ → Prop} (sets : ∀ x a, Keeps a → Keeps (set x a)) :
    ∀ v a b, Keeps a → (field goName tag c get set).decode v a = some b → Keeps b :=
  field_yields (yields_trivial c) (fun _ _ => trivial) fun x a start _ => sets x a start

theorem StructField.find_mem {fields : List (StructField σ)} {key : List Char} {f : StructField σ}
    (found : StructField.find fields key = some f) : f ∈ fields := by
  rcases Option.or_eq_some_iff.mp found with exactly | ⟨-, folded⟩
  · exact List.mem_of_find?_eq_some exactly
  · exact List.mem_of_find?_eq_some folded

theorem StructField.read_yields {fields : List (StructField σ)} {Keeps : σ → Prop}
    (each : ∀ f ∈ fields, ∀ v a b, Keeps a → f.decode v a = some b → Keeps b)
    (ms : List (List Char × Json)) {a b : σ} (start : Keeps a)
    (done : StructField.read fields ms a = some b) : Keeps b := by
  induction ms generalizing a with
  | nil => exact Option.some.inj done ▸ start
  | cons m ms ih =>
    obtain ⟨key, v⟩ := m
    rw [StructField.read] at done
    cases found : StructField.find fields key with
    | none =>
      rw [found] at done
      exact ih start done
    | some f =>
      rw [found] at done
      obtain ⟨next, decoded, rest⟩ := Option.bind_eq_some_iff.mp done
      exact ih (each f (StructField.find_mem found) v a next start decoded) rest

theorem structCodec_yields {zero : σ} {fields : List (StructField σ)} {Keeps : σ → Prop}
    (start : Keeps zero)
    (each : ∀ f ∈ fields, ∀ v a b, Keeps a → f.decode v a = some b → Keeps b) :
    (structCodec zero fields).Yields Keeps := by
  refine ⟨start, fun v a b begun done => ?_⟩
  cases v with
  | obj ms =>
    exact StructField.read_yields (fun f member => each f (List.mem_filter.mp member).1) ms begun done
  | null => exact Option.some.inj done ▸ begun
  | bool => contradiction
  | num => contradiction
  | str => contradiction
  | arr => contradiction

end Structs
end Go
