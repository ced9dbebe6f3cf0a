import Mathlib.Data.Finset.Sort
import Mathlib.Data.List.Lex
import Mathlib.Data.Nat.Digits.Lemmas

/-! Byte strings, UTF-8 and decimal numerals as the Go runtime has them. A string
is any sequence of bytes; reading it as text replaces each byte that starts no
encoded rune by U+FFFD, so text and bytes agree exactly on valid UTF-8. -/
namespace Go

abbrev Bytes := List UInt8

def utf8 (text : List Char) : Bytes := text.flatMap String.utf8EncodeChar

/-- The bytes of a source literal. -/
def lit (s : String) : Bytes := utf8 s.toList

def decodeRune (s : Bytes) : Option Char := s.toByteArray.utf8DecodeChar? 0

/-- `skip` counts the continuation bytes of a rune already emitted. -/
def runesFrom : Nat → Bytes → List Char
  | _, [] => []
  | skip + 1, _ :: rest => runesFrom skip rest
  | 0, b :: rest =>
      match decodeRune (b :: rest) with
      | some c => c :: runesFrom (c.utf8Size - 1) rest
      | none => '\uFFFD' :: runesFrom 0 rest

def runes (s : Bytes) : List Char := runesFrom 0 s

def ValidUTF8 (s : Bytes) : Prop := utf8 (runes s) = s

instance (s : Bytes) : Decidable (ValidUTF8 s) :=
  inferInstanceAs (Decidable (utf8 (runes s) = s))

@[simp] theorem utf8_nil : utf8 [] = [] := rfl

@[simp] theorem utf8_append (a b : List Char) : utf8 (a ++ b) = utf8 a ++ utf8 b :=
  List.flatMap_append

theorem utf8_cons (c : Char) (text : List Char) :
    utf8 (c :: text) = String.utf8EncodeChar c ++ utf8 text := rfl

theorem runesFrom_skip (skipped rest : Bytes) :
    runesFrom skipped.length (skipped ++ rest) = runesFrom 0 rest := by
  induction skipped with
  | nil => rfl
  | cons b skipped ih => simpa only [List.length_cons, List.cons_append, runesFrom] using ih

theorem decodeRune_encoded (c : Char) (rest : Bytes) :
    decodeRune (String.utf8EncodeChar c ++ rest) = some c := by
  rw [decodeRune, List.toByteArray_append]
  exact ByteArray.utf8DecodeChar?_utf8EncodeChar_append

theorem runes_append (text : List Char) (rest : Bytes) :
    runes (utf8 text ++ rest) = text ++ runes rest := by
  induction text with
  | nil => rfl
  | cons c text ih =>
    have decoded := decodeRune_encoded c (utf8 text ++ rest)
    have size : (String.utf8EncodeChar c).length = c.utf8Size := String.length_utf8EncodeChar c
    rw [utf8_cons, List.append_assoc]
    cases encoded : String.utf8EncodeChar c with
    | nil =>
      rw [encoded] at size
      exact absurd size (Nat.ne_of_lt c.utf8Size_pos)
    | cons b tail =>
      have skip : c.utf8Size - 1 = tail.length := by
        rw [encoded, List.length_cons] at size
        omega
      rw [encoded, List.cons_append] at decoded
      simp only [runes, List.cons_append, runesFrom, decoded, skip, runesFrom_skip]
      exact congrArg (c :: ·) ih

theorem runes_utf8 (text : List Char) : runes (utf8 text) = text := by
  have whole := runes_append text []
  rw [List.append_nil] at whole
  exact whole.trans (List.append_nil text)

theorem validUTF8_iff (s : Bytes) : ValidUTF8 s ↔ ∃ text, s = utf8 text := by
  constructor
  · intro valid
    exact ⟨runes s, valid.symm⟩
  · rintro ⟨text, rfl⟩
    exact congrArg utf8 (runes_utf8 text)

theorem decodeRune_some {s : Bytes} {c : Char} (decoded : decodeRune s = some c) :
    ∃ rest, s = String.utf8EncodeChar c ++ rest := by
  obtain ⟨rest, same⟩ := ByteArray.exists_of_utf8DecodeChar?_eq_some decoded
  refine ⟨rest.data.toList, ?_⟩
  have bytes := congrArg (fun bytes : ByteArray => bytes.data.toList) same
  simpa using bytes

/-- What reads as no replacement character is what it reads as. -/
theorem validUTF8_of_plain {s : Bytes} (plain : '\uFFFD' ∉ runes s) : ValidUTF8 s := by
  induction size : s.length using Nat.strong_induction_on generalizing s with
  | _ n ih =>
    subst size
    cases s with
    | nil => rfl
    | cons b rest =>
      cases decoded : decodeRune (b :: rest) with
      | none =>
        rw [runes, runesFrom, decoded] at plain
        exact absurd List.mem_cons_self plain
      | some c =>
        obtain ⟨later, same⟩ := decodeRune_some decoded
        have shape : b :: rest = utf8 [c] ++ later := by rw [same, utf8_cons, utf8_nil, List.append_nil]
        have shorter : later.length < (b :: rest).length := by
          have size : (String.utf8EncodeChar c).length = c.utf8Size := String.length_utf8EncodeChar c
          have positive := c.utf8Size_pos
          rw [same, List.length_append]
          omega
        rw [shape, runes_append] at plain
        have tail : utf8 (runes later) = later :=
          ih _ shorter (fun member => plain (List.mem_append_right _ member)) rfl
        rw [ValidUTF8, shape, runes_append, utf8_append, tail]

theorem runes_eq_iff {s : Bytes} {text : List Char} (plain : '\uFFFD' ∉ text) :
    runes s = text ↔ s = utf8 text := by
  constructor
  · rintro rfl
    exact (validUTF8_of_plain plain).symm
  · rintro rfl
    exact runes_utf8 text

theorem validUTF8_utf8 (text : List Char) : ValidUTF8 (utf8 text) :=
  (validUTF8_iff _).mpr ⟨text, rfl⟩

theorem ValidUTF8.append (first : ValidUTF8 a) (second : ValidUTF8 b) : ValidUTF8 (a ++ b) := by
  obtain ⟨ta, rfl⟩ := (validUTF8_iff a).mp first
  obtain ⟨tb, rfl⟩ := (validUTF8_iff b).mp second
  exact (validUTF8_iff _).mpr ⟨ta ++ tb, (utf8_append ta tb).symm⟩

/-- `strconv.Itoa` on a natural number. -/
def decimal (n : Nat) : List Char :=
  if n = 0 then ['0'] else (Nat.digits 10 n).reverse.map Nat.digitChar

def digitValue (c : Char) : Nat := c.toNat - '0'.toNat

def readDecimal (text : List Char) : Nat :=
  text.foldl (fun n c => 10 * n + digitValue c) 0

/-- `strconv.Itoa`. -/
def itoa : Int → List Char
  | .ofNat n => decimal n
  | .negSucc n => '-' :: decimal (n + 1)

theorem digitChar_of_lt : ∀ d < 10,
    (Nat.digitChar d).isDigit = true ∧ digitValue (Nat.digitChar d) = d ∧
      (Nat.digitChar d = '0' ↔ d = 0) := by decide

theorem decimal_isDigit (n : Nat) : ∀ c ∈ decimal n, c.isDigit = true := by
  intro c member
  unfold decimal at member
  split at member
  · rw [List.mem_singleton.mp member]
    decide
  · obtain ⟨d, digit, rfl⟩ := List.mem_map.mp member
    exact (digitChar_of_lt d (Nat.digits_lt_base (by decide) (List.mem_reverse.mp digit))).1

theorem readDecimal_reverse (digits : List Nat) (small : ∀ d ∈ digits, d < 10) :
    readDecimal (digits.reverse.map Nat.digitChar) = Nat.ofDigits 10 digits := by
  induction digits with
  | nil => rfl
  | cons d digits ih =>
    have tail := ih (fun x member => small x (List.mem_cons_of_mem d member))
    have head := (digitChar_of_lt d (small d List.mem_cons_self)).2.1
    simp only [readDecimal, List.reverse_cons, List.map_append, List.map_cons, List.map_nil,
      List.foldl_append, List.foldl_cons, List.foldl_nil] at tail ⊢
    rw [tail, head, Nat.ofDigits_cons]
    omega

theorem readDecimal_decimal (n : Nat) : readDecimal (decimal n) = n := by
  unfold decimal
  split
  · next zero => rw [zero]; decide
  · rw [readDecimal_reverse _ (fun d member => Nat.digits_lt_base (by decide) member),
      Nat.ofDigits_digits]

theorem decimal_injective : Function.Injective decimal :=
  Function.LeftInverse.injective readDecimal_decimal

/-- A numeral never starts with a superfluous zero. -/
theorem decimal_cases (n : Nat) :
    decimal n = ['0'] ∨ ∃ c rest, decimal n = c :: rest ∧ c ≠ '0' ∧
      c.isDigit = true ∧ ∀ d ∈ rest, d.isDigit = true := by
  by_cases zero : n = 0
  · exact Or.inl (by simp [decimal, zero])
  · right
    have digits := decimal_isDigit n
    have nonempty : Nat.digits 10 n ≠ [] := Nat.digits_ne_nil_iff_ne_zero.mpr zero
    have last := Nat.getLast_digit_ne_zero 10 zero
    have small : (Nat.digits 10 n).getLast nonempty < 10 :=
      Nat.digits_lt_base (by decide) (List.getLast_mem nonempty)
    have shape : decimal n = Nat.digitChar ((Nat.digits 10 n).getLast nonempty) ::
        ((Nat.digits 10 n).dropLast.reverse.map Nat.digitChar) := by
      rw [decimal, if_neg zero]
      conv_lhs => rw [← List.dropLast_append_getLast nonempty]
      simp only [List.reverse_append, List.reverse_singleton, List.singleton_append, List.map_cons]
    rw [shape] at digits ⊢
    exact ⟨_, _, rfl, fun same => last ((digitChar_of_lt _ small).2.2.mp same),
      digits _ List.mem_cons_self, fun d member => digits d (List.mem_cons_of_mem _ member)⟩

end Go
