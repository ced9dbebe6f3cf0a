import Mathlib.Data.List.TakeWhile
import SSHProxyPlus.Go.Base64
import SSHProxyPlus.Go.JsonProofs
import SSHProxyPlus.Go.Map

/-! What `encoding/json` does with Go types: scalars, byte slices, pointers, maps
and structs. A struct field is known by the name its tag gives it; names are
resolved over the whole struct, and fields that share a name cancel out. -/
namespace Go

/-- A type's encoding. Decoding goes into an existing value, as `Unmarshal` does;
`none` stands for the error it returns. -/
structure Codec (α : Type) where
  zero : α
  empty : α → Bool
  encode : α → Json
  decode : Json → α → Option α

/-- What was encoded as `a` decodes, into a fresh value, as `b`. -/
def Codec.ReadsAs (c : Codec α) (a b : α) : Prop := c.decode (c.encode a) c.zero = some b

/-- Decoding into a fresh value gives back what was encoded. -/
def Codec.Reads (c : Codec α) (a : α) : Prop := c.ReadsAs a a

/-- What `omitempty` drops is exactly the zero value. -/
def Codec.Drops (c : Codec α) (a : α) : Prop := c.empty a = true → a = c.zero

def stringCodec : Codec Bytes where
  zero := []
  empty s := s.isEmpty
  encode s := .str (runes s)
  decode
    | .str text, _ => some (utf8 text)
    | .null, s => some s
    | _, _ => none

def boolCodec : Codec Bool where
  zero := false
  empty b := !b
  encode b := .bool b
  decode
    | .bool b, _ => some b
    | .null, b => some b
    | _, _ => none

theorem digits_dropWhile {text : List Char} (h : ∀ c ∈ text, c.isDigit = true) :
    text.dropWhile Char.isDigit = [] := List.dropWhile_eq_nil_iff.mpr h

theorem afterInteger_decimal (n : Nat) : afterInteger (decimal n) = some [] := by
  rcases decimal_cases n with zero | ⟨c, rest, shape, notZero, digit, digits⟩
  · rw [zero]
    rfl
  · rw [shape]
    unfold afterInteger
    split
    · next same => exact absurd (List.cons.inj same).1 notZero
    · next same =>
      obtain ⟨rfl, rfl⟩ := List.cons.inj same
      rw [if_pos digit, digits_dropWhile digits]
    · next same => contradiction

theorem decimal_unsigned (n : Nat) : afterSign (decimal n) = decimal n := by
  unfold afterSign
  split
  · next rest same =>
    have digit := decimal_isDigit n '-' (same ▸ List.mem_cons_self)
    exact absurd digit (by decide)
  · rfl

theorem isNumber_itoa (n : Int) : isNumber (itoa n) = true := by
  cases n with
  | ofNat n => simp [isNumber, itoa, decimal_unsigned, afterInteger_decimal, afterFraction,
      afterExponent]
  | negSucc n => simp [isNumber, itoa, afterSign, afterInteger_decimal, afterFraction,
      afterExponent]

def Number.ofInt (n : Int) : Number := ⟨itoa n, isNumber_itoa n⟩

/-- `strconv.ParseUint` on a JSON number: a fraction, an exponent or a sign is an error. -/
def parseUint (text : List Char) : Option Nat :=
  if text ≠ [] ∧ text.all Char.isDigit then some (readDecimal text) else none

/-- `strconv.ParseInt`. -/
def parseInt : List Char → Option Int
  | '-' :: text => (parseUint text).map fun n => -(n : Int)
  | text => (parseUint text).map fun n => (n : Int)

theorem parseUint_decimal (n : Nat) : parseUint (decimal n) = some n := by
  have nonempty : decimal n ≠ [] := by
    rcases decimal_cases n with zero | ⟨c, rest, shape, _⟩
    · simp [zero]
    · simp [shape]
  have digits : (decimal n).all Char.isDigit = true := List.all_eq_true.mpr (decimal_isDigit n)
  rw [parseUint, if_pos ⟨nonempty, digits⟩, readDecimal_decimal]

theorem parseInt_itoa (n : Int) : parseInt (itoa n) = some n := by
  cases n with
  | ofNat n =>
    have unsigned := decimal_isDigit n
    unfold parseInt itoa
    simp only
    split
    · next rest same => exact absurd (unsigned '-' (same ▸ List.mem_cons_self)) (by decide)
    · rw [parseUint_decimal]
      rfl
  | negSucc n =>
    simp only [parseInt, itoa, parseUint_decimal]
    exact congrArg some (Int.negSucc_eq n).symm

/-- `int` and `int64`. -/
def intCodec : Codec Int64 where
  zero := 0
  empty n := n == 0
  encode n := .num (.ofInt n.toInt)
  decode
    | .num literal, _ =>
        ((parseInt literal.literal).filter fun n => -2 ^ 63 ≤ n && n < 2 ^ 63).map Int64.ofInt
    | .null, n => some n
    | _, _ => none

/-- An unsigned integer type of fewer than `bound` values. -/
def unsignedCodec (bound : Nat) (toNat : α → Nat) (ofNat : Nat → α) : Codec α where
  zero := ofNat 0
  empty n := toNat n == 0
  encode n := .num (.ofInt (toNat n))
  decode
    | .num literal, _ => ((parseUint literal.literal).filter fun n => n < bound).map ofNat
    | .null, n => some n
    | _, _ => none

def uint16Codec : Codec UInt16 := unsignedCodec (2 ^ 16) UInt16.toNat UInt16.ofNat
def uint32Codec : Codec UInt32 := unsignedCodec (2 ^ 32) UInt32.toNat UInt32.ofNat
def uint64Codec : Codec UInt64 := unsignedCodec (2 ^ 64) UInt64.toNat UInt64.ofNat

def readByte : Json → Option UInt8
  | .num literal => ((parseUint literal.literal).filter fun n => n < 256).map UInt8.ofNat
  | .null => some 0
  | _ => none

/-- A byte slice that may be nil: base64 text, or an array of numbers when read. -/
def bytesCodec : Codec (Option Bytes) where
  zero := none
  empty s := s.getD [] == []
  encode
    | none => .null
    | some bytes => .str (base64Encode bytes)
  decode
    | .str text, _ => (base64Decode text).map some
    | .arr vs, _ => (vs.mapM readByte).map some
    | .null, _ => some none
    | _, _ => none

/-- A byte slice whose nil and empty values the program does not tell apart. -/
def dataCodec : Codec Bytes where
  zero := []
  empty s := s.isEmpty
  encode bytes := bytesCodec.encode (some bytes)
  decode v bytes := (bytesCodec.decode v (some bytes)).map fun s => s.getD []

def pointerCodec (c : Codec α) : Codec (Option α) where
  zero := none
  empty p := p.isNone
  encode
    | none => .null
    | some a => c.encode a
  decode
    | .null, _ => some none
    | v, p => (c.decode v (p.getD c.zero)).map some

/-- How a map's keys are written and read. -/
structure KeyCodec (K : Type) where
  text : K → List Char
  read : List Char → Option K
  rank : K ↪ List Nat

def stringKey : KeyCodec Bytes := ⟨runes, fun text => some (utf8 text), byteRank⟩

def uint64Key : KeyCodec UInt64 where
  text n := decimal n.toNat
  read text := ((parseUint text).filter fun n => n < 2 ^ 64).map UInt64.ofNat
  rank := ⟨fun n => decimalRank n.toNat, decimalRank.injective.comp fun _ _ => UInt64.toNat_inj.mp⟩

def mapMembers [DecidableEq K] (k : KeyCodec K) (c : Codec V) (m : GoMap K V) :
    List (List Char × Json) :=
  ((sortedOrder k.rank).over m).filterMap fun key =>
    (m.lookup key).map fun v => (k.text key, c.encode v)

def readMembers [DecidableEq K] (k : KeyCodec K) (c : Codec V) :
    List (List Char × Json) → GoMap K V → Option (GoMap K V)
  | [], m => some m
  | (text, v) :: ms, m => do
      let key ← k.read text
      let a ← c.decode v c.zero
      readMembers k c ms (m.insert key a)

/-- A map that may be nil. Decoding adds to the entries already there. -/
def mapCodec [DecidableEq K] (k : KeyCodec K) (c : Codec V) : Codec (Option (GoMap K V)) where
  zero := none
  empty m := (m.getD ∅).keys == ∅
  encode
    | none => .null
    | some m => .obj (mapMembers k c m)
  decode
    | .obj ms, m => (readMembers k c ms (m.getD ∅)).map some
    | .null, _ => some none
    | _, _ => none

/-- One exported field of a struct, with its `json` tag. -/
structure StructField (σ : Type) where
  goName : List Char
  tag : Option (List Char)
  empty : σ → Bool
  encode : σ → Json
  decode : Json → σ → Option σ

def field (goName : String) (tag : Option String) (c : Codec α) (get : σ → α)
    (set : α → σ → σ) : StructField σ where
  goName := goName.toList
  tag := tag.map String.toList
  empty a := c.empty (get a)
  encode a := c.encode (get a)
  decode v a := (c.decode v (get a)).map fun x => set x a

/-- A tag's components, between commas. -/
def tagParts : List Char → List (List Char)
  | [] => [[]]
  | c :: rest =>
      if c = ',' then [] :: tagParts rest
      else match tagParts rest with
        | part :: parts => (c :: part) :: parts
        | [] => [[c]]

namespace StructField
variable {σ : Type}

def parts (f : StructField σ) : List (List Char) := (f.tag.map tagParts).getD []

/-- The first component of the tag names the field. -/
def tagName (f : StructField σ) : List Char := f.parts.headD []

def tagged (f : StructField σ) : Bool := f.tagName != []

def name (f : StructField σ) : List Char := if f.tagged then f.tagName else f.goName

def omitEmpty (f : StructField σ) : Bool := f.parts.tail.contains "omitempty".toList

def ignored (f : StructField σ) : Bool := f.tag == some ['-']

/-- Among fields of one name a single tagged field wins, or else a single field. -/
def dominant (fields : List (StructField σ)) (f : StructField σ) : Bool :=
  let rivals := fields.filter fun g => !g.ignored && g.name == f.name
  if f.tagged then (rivals.filter tagged).length == 1 else rivals.length == 1

/-- The fields `Marshal` and `Unmarshal` see. -/
def visible (fields : List (StructField σ)) : List (StructField σ) :=
  fields.filter fun f => !f.ignored && dominant fields f

def members (fields : List (StructField σ)) (a : σ) : List (List Char × Json) :=
  fields.filterMap fun f =>
    if f.omitEmpty && f.empty a then none else some (f.name, f.encode a)

def foldChar (c : Char) : Char :=
  if c = '\u017F' then 's' else if c = '\u212A' then 'k' else c.toLower

/-- A member goes to the field of that name, or to the first that matches it up to case. -/
def find (fields : List (StructField σ)) (key : List Char) : Option (StructField σ) :=
  (fields.find? fun f => f.name == key).or
    (fields.find? fun f => f.name.map foldChar == key.map foldChar)

def read (fields : List (StructField σ)) : List (List Char × Json) → σ → Option σ
  | [], a => some a
  | (key, v) :: ms, a =>
      match find fields key with
      | some f => (f.decode v a).bind (read fields ms)
      | none => read fields ms a

end StructField

def structCodec (zero : σ) (fields : List (StructField σ)) : Codec σ where
  zero := zero
  empty _ := false
  encode a := .obj (StructField.members (StructField.visible fields) a)
  decode
    | .obj ms, a => StructField.read (StructField.visible fields) ms a
    | .null, a => some a
    | _, _ => none

/-- `json.Marshal` of a value, as bytes. -/
def Codec.marshal (c : Codec α) (a : α) : Bytes := utf8 (marshalText (c.encode a))

/-- `json.Unmarshal` into an existing value. -/
def Codec.unmarshal (c : Codec α) (data : Bytes) (a : α) : Option α :=
  (parse (runes data)).bind fun v => c.decode v a

theorem Codec.unmarshal_render (c : Codec α) (l : Layout) (v : Json) (a : α) :
    c.unmarshal (utf8 (render l 0 v)) a = c.decode v a := by
  rw [unmarshal, runes_utf8, parse_render]
  rfl

theorem structCodec_marshal_opens (zero : σ) (fields : List (StructField σ)) (a : σ) :
    ∃ rest, (structCodec zero fields).marshal a = lit "\x7b" ++ rest := by
  change ∃ rest, utf8 (render .compact 0 (.obj (StructField.members (StructField.visible fields) a))) =
    lit "\x7b" ++ rest
  cases StructField.members (StructField.visible fields) a with
  | nil =>
    rw [render]
    exact ⟨lit "\x7d", rfl⟩
  | cons m ms =>
    rw [render]
    exact ⟨utf8 (renderMember .compact 0 m ++ renderMembers .compact 0 ms), rfl⟩

/-- A value followed by more than blanks is an error. -/
theorem Codec.unmarshal_trailing (codec : Codec α) (l : Layout) (v : Json) {c : Char}
    (solid : isBlank c = false) (apart : isNumberChar c = false) (rest : Bytes) (a : α) :
    codec.unmarshal (utf8 (render l 0 v) ++ (utf8 [c] ++ rest)) a = none := by
  rw [unmarshal, runes_append, runes_append, List.singleton_append, parse_trailing l v]
  · rfl
  · exact stops_cons apart (runes rest)
  · rw [skip_solid solid]
    exact List.cons_ne_nil c (runes rest)

theorem stringCodec_reads_iff (s : Bytes) : stringCodec.Reads s ↔ ValidUTF8 s := by
  simp [Codec.Reads, Codec.ReadsAs, stringCodec, ValidUTF8]

theorem boolCodec_reads (b : Bool) : boolCodec.Reads b := rfl

theorem intCodec_reads (n : Int64) : intCodec.Reads n := by
  have within : -2 ^ 63 ≤ n.toInt ∧ n.toInt < 2 ^ 63 := ⟨n.le_toInt, n.toInt_lt⟩
  simp only [Codec.Reads, Codec.ReadsAs, intCodec, Number.ofInt, parseInt_itoa, Option.filter_some,
    within, decide_true, Bool.and_self, if_true, Option.map_some, Int64.ofInt_toInt]

theorem intCodec_drops (n : Int64) : intCodec.Drops n := by
  simp [Codec.Drops, intCodec]

section
variable {toNat : α → Nat} {ofNat : Nat → α}

theorem unsignedCodec_reads {n : α} (within : toNat n < bound) (same : ofNat (toNat n) = n) :
    (unsignedCodec bound toNat ofNat).Reads n := by
  have text : itoa (toNat n : Int) = decimal (toNat n) := rfl
  simp [Codec.Reads, Codec.ReadsAs, unsignedCodec, Number.ofInt, text, parseUint_decimal, within, same]

theorem unsignedCodec_drops {n : α} (same : ofNat (toNat n) = n) :
    (unsignedCodec bound toNat ofNat).Drops n := by
  intro dropped
  have zero : toNat n = 0 := by simpa [unsignedCodec] using dropped
  exact same.symm.trans (congrArg ofNat zero)
end

theorem uint16Codec_reads (n : UInt16) : uint16Codec.Reads n :=
  unsignedCodec_reads n.toNat_lt UInt16.ofNat_toNat

theorem uint32Codec_reads (n : UInt32) : uint32Codec.Reads n :=
  unsignedCodec_reads n.toNat_lt UInt32.ofNat_toNat

theorem uint32Codec_drops (n : UInt32) : uint32Codec.Drops n :=
  unsignedCodec_drops UInt32.ofNat_toNat

theorem uint64Codec_reads (n : UInt64) : uint64Codec.Reads n :=
  unsignedCodec_reads n.toNat_lt UInt64.ofNat_toNat

theorem bytesCodec_reads (s : Option Bytes) : bytesCodec.Reads s := by
  cases s with
  | none => rfl
  | some bytes => simp [Codec.Reads, Codec.ReadsAs, bytesCodec, base64Decode_encode]

theorem dataCodec_reads (s : Bytes) : dataCodec.Reads s := by
  simp [Codec.Reads, Codec.ReadsAs, dataCodec, bytesCodec, base64Decode_encode]

theorem dataCodec_drops (s : Bytes) : dataCodec.Drops s := by
  simp [Codec.Drops, dataCodec]

theorem pointerCodec_reads {c : Codec α} {a b : α} (reads : c.ReadsAs a b)
    (object : c.encode a ≠ .null) : (pointerCodec c).ReadsAs (some a) (some b) := by
  unfold Codec.ReadsAs pointerCodec
  simp only [Option.getD_none]
  rw [reads]
  rfl

theorem readMembers_lookup [DecidableEq K] (k : KeyCodec K) (c : Codec V) (m : GoMap K V)
    (f : V → V) (keyReads : ∀ key ∈ m, k.read (k.text key) = some key)
    (reads : ∀ key v, m.lookup key = some v → c.ReadsAs v (f v)) (order : List K)
    (within : ∀ key ∈ order, key ∈ m) (start : GoMap K V) :
    ∃ result, readMembers k c (order.filterMap fun key =>
        (m.lookup key).map fun v => (k.text key, c.encode v)) start = some result ∧
      ∀ key, result.lookup key =
        if key ∈ order then (m.lookup key).map f else start.lookup key := by
  induction order generalizing start with
  | nil => exact ⟨start, rfl, fun key => by simp⟩
  | cons key order ih =>
    obtain ⟨v, found⟩ := Finmap.mem_iff.mp (within key List.mem_cons_self)
    obtain ⟨result, readRest, lookups⟩ :=
      ih (fun x member => within x (List.mem_cons_of_mem key member)) (start.insert key (f v))
    have keyRead := keyReads key (within key List.mem_cons_self)
    have valueRead : c.decode (c.encode v) c.zero = some (f v) := reads key v found
    refine ⟨result, ?_, fun x => ?_⟩
    · simp only [List.filterMap_cons, found, Option.map_some, readMembers, keyRead, valueRead, bind,
        Option.bind_some]
      exact readRest
    · rw [lookups x]
      by_cases same : x = key
      · subst same
        simp [found]
      · simp only [List.mem_cons, same, false_or, Finmap.lookup_insert_of_ne _ same]

/-- A map reads back with the keys it had and what became of their values. -/
theorem mapCodec_reads [DecidableEq K] (k : KeyCodec K) (c : Codec V) (m : GoMap K V) (f : V → V)
    (keyReads : ∀ key ∈ m, k.read (k.text key) = some key)
    (reads : ∀ key v, m.lookup key = some v → c.ReadsAs v (f v)) :
    ∃ result, (mapCodec k c).ReadsAs (some m) (some result) ∧
      ∀ key, result.lookup key = (m.lookup key).map f := by
  have visits := (sortedOrder k.rank).mem_over m
  obtain ⟨result, readAll, lookups⟩ := readMembers_lookup k c m f keyReads reads
    ((sortedOrder k.rank).over m) (fun key member => (visits key).mp member) ∅
  refine ⟨result, ?_, fun key => ?_⟩
  · simp only [Codec.ReadsAs, mapCodec, mapMembers, Option.getD_none, readAll, Option.map_some]
  · rw [lookups key]
    split
    · rfl
    · next absent =>
      have missing : key ∉ m := fun member => absent ((visits key).mpr member)
      rw [Finmap.lookup_empty, Finmap.lookup_eq_none.mpr missing, Option.map_none]

/-- A map reads back where each of its values does. -/
theorem mapCodec_reads_each [DecidableEq K] (k : KeyCodec K) (c : Codec V) (m : GoMap K V)
    (R : V → V → Prop) (keyReads : ∀ key ∈ m, k.read (k.text key) = some key)
    (reads : ∀ key v, m.lookup key = some v → ∃ w, c.ReadsAs v w ∧ R v w) :
    ∃ result, (mapCodec k c).ReadsAs (some m) (some result) ∧
      ∀ key, (m.lookup key = none ∧ result.lookup key = none) ∨
        ∃ v w, m.lookup key = some v ∧ result.lookup key = some w ∧ R v w := by
  classical
  let f : V → V := fun v => if h : ∃ w, c.ReadsAs v w ∧ R v w then h.choose else v
  have spec : ∀ key v, m.lookup key = some v → c.ReadsAs v (f v) ∧ R v (f v) := by
    intro key v found
    have ready := reads key v found
    simp only [f, dif_pos ready]
    exact ready.choose_spec
  obtain ⟨result, readAll, lookups⟩ :=
    mapCodec_reads k c m f keyReads fun key v found => (spec key v found).1
  refine ⟨result, readAll, fun key => ?_⟩
  rw [lookups key]
  cases found : m.lookup key with
  | none => exact .inl ⟨rfl, rfl⟩
  | some v => exact .inr ⟨v, f v, rfl, rfl, (spec key v found).2⟩

theorem stringKey_reads {s : Bytes} (valid : ValidUTF8 s) :
    stringKey.read (stringKey.text s) = some s := congrArg some valid

/-- A map from texts to pointers. -/
theorem pointerMap_reads (c : Codec V) (m : GoMap Bytes (Option V)) (f : V → V)
    (each : ∀ key val, m.lookup key = some val →
      ValidUTF8 key ∧ ∀ v, val = some v → c.ReadsAs v (f v) ∧ c.encode v ≠ .null) :
    ∃ result, (mapCodec stringKey (pointerCodec c)).ReadsAs (some m) (some result) ∧
      ∀ key, result.lookup key = (m.lookup key).map (Option.map f) := by
  refine mapCodec_reads stringKey (pointerCodec c) m (Option.map f) (fun key member => ?_)
    fun key val stored => ?_
  · obtain ⟨val, stored⟩ := Finmap.mem_iff.mp member
    exact stringKey_reads (each key val stored).1
  · cases val with
    | none => rfl
    | some v =>
      obtain ⟨reads, object⟩ := (each key _ stored).2 v rfl
      exact pointerCodec_reads reads object

theorem uint64Key_reads (n : UInt64) : uint64Key.read (uint64Key.text n) = some n := by
  simp [uint64Key, parseUint_decimal, n.toNat_lt]

namespace StructField
variable {σ : Type}

/-- Reading back, field by field, what `members` wrote. -/
def readBack (a : σ) : List (StructField σ) → σ → Option σ
  | [], acc => some acc
  | f :: fs, acc =>
      if f.omitEmpty && f.empty a then readBack a fs acc
      else (f.decode (f.encode a) acc).bind (readBack a fs)

theorem find_name {fields : List (StructField σ)} (distinct : (fields.map name).Nodup)
    (member : f ∈ fields) : find fields f.name = some f := by
  have first : fields.find? (fun g => g.name == f.name) = some f := by
    induction fields with
    | nil => contradiction
    | cons g fields ih =>
      rw [List.map_cons, List.nodup_cons] at distinct
      rcases List.mem_cons.mp member with rfl | later
      · simp
      · have other : g.name ≠ f.name :=
          fun same => distinct.1 (same ▸ List.mem_map_of_mem later)
        simpa [List.find?_cons, other] using ih distinct.2 later
  rw [find, first]
  rfl

theorem read_members {fields : List (StructField σ)} (distinct : (fields.map name).Nodup) (a : σ)
    (some' : List (StructField σ)) (within : ∀ f ∈ some', f ∈ fields) (acc : σ) :
    read fields (members some' a) acc = readBack a some' acc := by
  induction some' generalizing acc with
  | nil => rfl
  | cons f fs ih =>
    have tail := ih (fun g member => within g (List.mem_cons_of_mem f member))
    have found := find_name distinct (within f List.mem_cons_self)
    unfold members at tail ⊢
    rw [List.filterMap_cons, readBack]
    split
    · next dropped =>
      split at dropped
      · next empty => rw [if_pos empty, tail]
      · contradiction
    · next member kept =>
      split at kept
      · contradiction
      · next full =>
        rw [if_neg full, ← Option.some.inj kept, read, found]
        exact congrArg (Option.bind _) (funext tail)

end StructField

/-- A struct reads back to what its visible fields carry. -/
theorem structCodec_decode_encode (zero : σ) (fields : List (StructField σ)) (a : σ)
    (distinct : ((StructField.visible fields).map StructField.name).Nodup) :
    (structCodec zero fields).decode ((structCodec zero fields).encode a) zero =
      StructField.readBack a (StructField.visible fields) zero :=
  StructField.read_members distinct a _ (fun _ member => member) zero

namespace StructField
variable {σ : Type} {goName : String} {tag : Option String} {a acc : σ} {fs : List (StructField σ)}

/-- A field reads back into a value in which it is still zero. -/
theorem readBack_field {c : Codec α} {get : σ → α} {set : α → σ → σ} {x : α}
    (reads : c.ReadsAs (get a) x) (drops : c.empty (get a) = true → x = c.zero)
    (start : get acc = c.zero) (unset : set c.zero acc = acc) :
    readBack a (field goName tag c get set :: fs) acc = readBack a fs (set x acc) := by
  rw [readBack]
  split
  · next dropped =>
    have empty : c.empty (get a) = true := (Bool.and_eq_true_iff.mp dropped).2
    rw [drops empty, unset]
  · have read : (field goName tag c get set).decode ((field goName tag c get set).encode a) acc =
        some (set x acc) := by
      simp only [field, start]
      rw [reads]
      rfl
    rw [read]
    rfl

/-- Without a tag nothing is dropped. -/
theorem readBack_untagged {c : Codec α} {get : σ → α} {set : α → σ → σ} {x : α}
    (reads : c.ReadsAs (get a) x) (start : get acc = c.zero) :
    readBack a (field goName none c get set :: fs) acc = readBack a fs (set x acc) := by
  have read : (field goName none c get set).decode ((field goName none c get set).encode a) acc =
      some (set x acc) := by
    simp only [field, start]
    rw [reads]
    rfl
  have kept : ((field goName none c get set).omitEmpty && (field goName none c get set).empty a) =
      false := rfl
  rw [readBack, kept, read]
  rfl

theorem readBack_valid {get : σ → Bytes} {set : Bytes → σ → σ} (valid : ValidUTF8 (get a))
    (start : get acc = []) :
    readBack a (field goName none stringCodec get set :: fs) acc =
      readBack a fs (set (get a) acc) :=
  readBack_untagged ((stringCodec_reads_iff _).mpr valid) start

theorem readBack_text {get : σ → Bytes} {set : Bytes → σ → σ} (start : get acc = [])
    (unset : set [] acc = acc) :
    readBack a (field goName tag stringCodec get set :: fs) acc =
      readBack a fs (set (utf8 (runes (get a))) acc) := by
  refine readBack_field rfl (fun empty => ?_) start unset
  rw [List.isEmpty_iff.mp empty]
  rfl

theorem readBack_int {get : σ → Int64} {set : Int64 → σ → σ} (start : get acc = 0)
    (unset : set 0 acc = acc) :
    readBack a (field goName tag intCodec get set :: fs) acc = readBack a fs (set (get a) acc) :=
  readBack_field (intCodec_reads _) (intCodec_drops _) start unset

theorem readBack_data {get : σ → Bytes} {set : Bytes → σ → σ} (start : get acc = [])
    (unset : set [] acc = acc) :
    readBack a (field goName tag dataCodec get set :: fs) acc = readBack a fs (set (get a) acc) :=
  readBack_field (dataCodec_reads _) (dataCodec_drops _) start unset

theorem readBack_uint32 {get : σ → UInt32} {set : UInt32 → σ → σ} (start : get acc = 0)
    (unset : set 0 acc = acc) :
    readBack a (field goName tag uint32Codec get set :: fs) acc = readBack a fs (set (get a) acc) :=
  readBack_field (uint32Codec_reads _) (uint32Codec_drops _) start unset

end StructField

/-- Where all fields are visible, a struct reads as what they carry. -/
theorem structCodec_readsAs {zero a b : σ} {fields : List (StructField σ)}
    (visible : StructField.visible fields = fields) (distinct : (fields.map StructField.name).Nodup)
    (back : StructField.readBack a fields zero = some b) :
    (structCodec zero fields).ReadsAs a b := by
  have read := structCodec_decode_encode zero fields a (visible.symm ▸ distinct)
  rw [visible] at read
  exact read.trans back

end Go
