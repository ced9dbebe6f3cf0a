import SSHProxyPlus.Go.Base64

/-! Texts in a page: what `atob` makes of base64, and the first match of a pattern replaced.
A byte is the character of its code. -/
namespace Browser
open Go

def byteChar (b : UInt8) : Char := Char.ofNat b.toNat

def binaryText (bytes : Bytes) : List Char := bytes.map byteChar

def isAsciiWhitespace (c : Char) : Bool :=
  c = '\t' || c = '\n' || c = '\x0C' || c = '\r' || c = ' '

def dropPadding (data : List Char) : List Char :=
  if data.getLast? = some '=' then data.dropLast else data

/-- A text of whole quanta may end in up to two `=`. -/
def withoutPadding (data : List Char) : List Char :=
  if data.length % 4 = 0 then dropPadding (dropPadding data) else data

/-- The bits left over at the end are dropped. -/
def forgivingQuanta : List Char → Option Bytes
  | [] => some []
  | [_] => none
  | [w, x] => do
      let w ← base64Value w
      let x ← base64Value x
      return [UInt8.ofNat (w * 4 + x / 16)]
  | [w, x, y] => do
      let w ← base64Value w
      let x ← base64Value x
      let y ← base64Value y
      return [UInt8.ofNat (w * 4 + x / 16), UInt8.ofNat (x % 16 * 16 + y / 4)]
  | w :: x :: y :: z :: rest => do
      let w ← base64Value w
      let x ← base64Value x
      let y ← base64Value y
      let z ← base64Value z
      let tail ← forgivingQuanta rest
      return UInt8.ofNat (w * 4 + x / 16) :: UInt8.ofNat (x % 16 * 16 + y / 4) ::
        UInt8.ofNat (y % 4 * 64 + z) :: tail

/-- `atob`; `none` where it throws. -/
def atob (data : List Char) : Option (List Char) :=
  (forgivingQuanta (withoutPadding (data.filter fun c => !isAsciiWhitespace c))).map binaryText

/-- A regular expression without repetition: what each character of a match is. -/
abbrev Pattern := List (Char → Bool)

def Pattern.matches : Pattern → List Char → Bool
  | [], _ => true
  | _ :: _, [] => false
  | p :: pattern, c :: text => p c && Pattern.matches pattern text

/-- `text.replace(pattern, replacement)`, for a pattern that is not global. -/
def replaceFirst (pattern : Pattern) (replacement : List Char) : List Char → List Char
  | [] => []
  | c :: text =>
      if pattern.matches (c :: text) then replacement ++ (c :: text).drop pattern.length
      else c :: replaceFirst pattern replacement text

def isNewline (c : Char) : Bool := c = '\r' || c = '\n'

/-- `text.replace(/[\r\n]+/g, "\n")`; `inside` a run the line feed is written already. -/
def collapseNewlines : Bool → List Char → List Char
  | _, [] => []
  | inside, c :: text =>
      if isNewline c then
        if inside then collapseNewlines true text else '\n' :: collapseNewlines true text
      else c :: collapseNewlines false text

/-- `text.replace(/\n/g, "\r\n")`. -/
def expandNewlines (text : List Char) : List Char :=
  text.flatMap fun c => if c = '\n' then ['\r', '\n'] else [c]

theorem byteChar_injective : Function.Injective byteChar := by
  intro a b same
  have value : ∀ n < 256, (Char.ofNat n).toNat = n := by decide +kernel
  have codes := congrArg Char.toNat same
  rw [byteChar, byteChar, value _ a.toNat_lt, value _ b.toNat_lt] at codes
  exact UInt8.toNat_inj.mp codes

/-- What `base64Encode` writes before the padding. -/
def unpadded : Bytes → List Char
  | [] => []
  | [a] => [base64Char (a.toNat / 4), base64Char (a.toNat % 4 * 16)]
  | [a, b] => [base64Char (a.toNat / 4), base64Char (a.toNat % 4 * 16 + b.toNat / 16),
      base64Char (b.toNat % 16 * 4)]
  | a :: b :: c :: rest =>
      base64Char (a.toNat / 4) :: base64Char (a.toNat % 4 * 16 + b.toNat / 16) ::
        base64Char (b.toNat % 16 * 4 + c.toNat / 64) :: base64Char (c.toNat % 64) :: unpadded rest

theorem base64Char_plain : ∀ n < 64, base64Char n ≠ '=' ∧
    isAsciiWhitespace (base64Char n) = false := by decide

theorem base64Encode_unpadded (bytes : Bytes) : ∃ padding, base64Encode bytes = unpadded bytes ++ padding ∧
    (padding = [] ∨ padding = ['='] ∨ padding = ['=', '=']) ∧
    (base64Encode bytes).length % 4 = 0 := by
  induction bytes using base64Encode.induct with
  | case1 => exact ⟨[], rfl, .inl rfl, rfl⟩
  | case2 a => exact ⟨['=', '='], rfl, .inr (.inr rfl), by simp [base64Encode]⟩
  | case3 a b => exact ⟨['='], rfl, .inr (.inl rfl), by simp [base64Encode]⟩
  | case4 a b c rest ih =>
    obtain ⟨padding, same, short, whole⟩ := ih
    refine ⟨padding, ?_, short, ?_⟩
    · rw [base64Encode, unpadded, same]
      rfl
    · simp only [base64Encode, List.length_cons]
      omega

theorem unpadded_plain (bytes : Bytes) :
    ∀ c ∈ unpadded bytes, c ≠ '=' ∧ isAsciiWhitespace c = false := by
  induction bytes using unpadded.induct with
  | case1 => exact List.forall_mem_nil _
  | case2 a =>
    have := a.toNat_lt
    simp only [unpadded, List.forall_mem_cons]
    exact ⟨base64Char_plain _ (by omega), base64Char_plain _ (by omega), List.forall_mem_nil _⟩
  | case3 a b =>
    have := a.toNat_lt
    have := b.toNat_lt
    simp only [unpadded, List.forall_mem_cons]
    exact ⟨base64Char_plain _ (by omega), base64Char_plain _ (by omega),
      base64Char_plain _ (by omega), List.forall_mem_nil _⟩
  | case4 a b c rest ih =>
    have := a.toNat_lt
    have := b.toNat_lt
    have := c.toNat_lt
    simp only [unpadded, List.forall_mem_cons]
    exact ⟨base64Char_plain _ (by omega), base64Char_plain _ (by omega),
      base64Char_plain _ (by omega), base64Char_plain _ (by omega), ih⟩

theorem forgivingQuanta_unpadded (bytes : Bytes) :
    forgivingQuanta (unpadded bytes) = some bytes := by
  induction bytes using unpadded.induct with
  | case1 => rfl
  | case2 a =>
    have := a.toNat_lt
    have w := base64Value_char (a.toNat / 4) (by omega)
    have x := base64Value_char (a.toNat % 4 * 16) (by omega)
    have first := rejoined_first_last a
    simp only [unpadded, forgivingQuanta, w.1, x.1, bind, Option.bind_some, first, pure]
  | case3 a b =>
    have := a.toNat_lt
    have := b.toNat_lt
    have w := base64Value_char (a.toNat / 4) (by omega)
    have x := base64Value_char (a.toNat % 4 * 16 + b.toNat / 16) (by omega)
    have y := base64Value_char (b.toNat % 16 * 4) (by omega)
    have first := rejoined_first a b
    have second := rejoined_second_last a b
    simp only [unpadded, forgivingQuanta, w.1, x.1, y.1, bind, Option.bind_some, first, second, pure]
  | case4 a b c rest ih =>
    have := a.toNat_lt
    have := b.toNat_lt
    have := c.toNat_lt
    have w := base64Value_char (a.toNat / 4) (by omega)
    have x := base64Value_char (a.toNat % 4 * 16 + b.toNat / 16) (by omega)
    have y := base64Value_char (b.toNat % 16 * 4 + c.toNat / 64) (by omega)
    have z := base64Value_char (c.toNat % 64) (by omega)
    have first := rejoined_first a b
    have second := rejoined_second a b c
    have third := rejoined_third b c
    simp only [unpadded, forgivingQuanta, w.1, x.1, y.1, z.1, ih, bind, Option.bind_some, first,
      second, third, pure]

theorem dropPadding_plain {data : List Char} (plain : '=' ∉ data) : dropPadding data = data :=
  if_neg fun last => plain (List.mem_of_getLast? last)

theorem dropPadding_pad (data : List Char) : dropPadding (data ++ ['=']) = data := by
  simp [dropPadding]

theorem withoutPadding_append {data padding : List Char} (plain : '=' ∉ data)
    (short : padding = [] ∨ padding = ['='] ∨ padding = ['=', '='])
    (whole : (data ++ padding).length % 4 = 0) : withoutPadding (data ++ padding) = data := by
  rw [withoutPadding, if_pos whole]
  rcases short with rfl | rfl | rfl
  · rw [List.append_nil, dropPadding_plain plain, dropPadding_plain plain]
  · rw [dropPadding_pad, dropPadding_plain plain]
  · rw [show data ++ ['=', '='] = (data ++ ['=']) ++ ['='] by simp, dropPadding_pad,
      dropPadding_pad]

/-- A page reads back what was encoded, byte by byte. -/
theorem atob_encode (bytes : Bytes) : atob (base64Encode bytes) = some (binaryText bytes) := by
  obtain ⟨padding, same, short, whole⟩ := base64Encode_unpadded bytes
  have plain := unpadded_plain bytes
  have solid : (base64Encode bytes).filter (fun c => !isAsciiWhitespace c) = base64Encode bytes := by
    rw [List.filter_eq_self, same]
    intro c member
    rcases List.mem_append.mp member with inner | outer
    · simp [(plain c inner).2]
    · rcases short with rfl | rfl | rfl <;> simp_all [isAsciiWhitespace]
  rw [atob, solid, same, withoutPadding_append (fun member => (plain _ member).1 rfl) short
    (same ▸ whole), forgivingQuanta_unpadded]
  rfl

end Browser
