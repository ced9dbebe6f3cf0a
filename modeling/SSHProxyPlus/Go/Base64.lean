import SSHProxyPlus.Go.Text

/-! `base64.StdEncoding`, the form in which a byte slice travels inside JSON. -/
namespace Go

def base64Char (n : Nat) : Char :=
  if n < 26 then Char.ofNat ('A'.toNat + n)
  else if n < 52 then Char.ofNat ('a'.toNat + (n - 26))
  else if n < 62 then Char.ofNat ('0'.toNat + (n - 52))
  else if n = 62 then '+' else '/'

def base64Value (c : Char) : Option Nat :=
  if 'A'.toNat ≤ c.toNat ∧ c.toNat ≤ 'Z'.toNat then some (c.toNat - 'A'.toNat)
  else if 'a'.toNat ≤ c.toNat ∧ c.toNat ≤ 'z'.toNat then some (c.toNat - 'a'.toNat + 26)
  else if '0'.toNat ≤ c.toNat ∧ c.toNat ≤ '9'.toNat then some (c.toNat - '0'.toNat + 52)
  else if c = '+' then some 62
  else if c = '/' then some 63
  else none

def base64Encode : Bytes → List Char
  | [] => []
  | [a] => [base64Char (a.toNat / 4), base64Char (a.toNat % 4 * 16), '=', '=']
  | [a, b] =>
      [base64Char (a.toNat / 4), base64Char (a.toNat % 4 * 16 + b.toNat / 16),
        base64Char (b.toNat % 16 * 4), '=']
  | a :: b :: c :: rest =>
      base64Char (a.toNat / 4) :: base64Char (a.toNat % 4 * 16 + b.toNat / 16) ::
        base64Char (b.toNat % 16 * 4 + c.toNat / 64) :: base64Char (c.toNat % 64) ::
        base64Encode rest

/-- Padding ends the text; the bits it leaves over are not checked. -/
def base64Quanta : List Char → Option Bytes
  | [] => some []
  | w :: x :: y :: z :: rest => do
      let w ← base64Value w
      let x ← base64Value x
      let first := UInt8.ofNat (w * 4 + x / 16)
      if y = '=' then
        if z = '=' ∧ rest = [] then return [first] else none
      else
        let y ← base64Value y
        let second := UInt8.ofNat (x % 16 * 16 + y / 4)
        if z = '=' then
          if rest = [] then return [first, second] else none
        else
          let z ← base64Value z
          let tail ← base64Quanta rest
          return first :: second :: UInt8.ofNat (y % 4 * 64 + z) :: tail
  | _ => none

def base64Decode (text : List Char) : Option Bytes :=
  base64Quanta (text.filter fun c => c ≠ '\r' && c ≠ '\n')

theorem base64Value_char : ∀ n < 64, base64Value (base64Char n) = some n ∧
    base64Char n ≠ '=' ∧ base64Char n ≠ '\r' ∧ base64Char n ≠ '\n' := by decide

theorem byte_eq {n : Nat} {b : UInt8} (h : n = b.toNat) : UInt8.ofNat n = b :=
  h ▸ UInt8.ofNat_toNat

/-- The bits of two neighbouring digits make up the byte that was cut. -/
theorem rejoined_first (a b : UInt8) :
    UInt8.ofNat (a.toNat / 4 * 4 + (a.toNat % 4 * 16 + b.toNat / 16) / 16) = a := by
  have := b.toNat_lt
  exact byte_eq (by omega)

theorem rejoined_first_last (a : UInt8) :
    UInt8.ofNat (a.toNat / 4 * 4 + a.toNat % 4 * 16 / 16) = a :=
  byte_eq (by omega)

theorem rejoined_second (a b c : UInt8) :
    UInt8.ofNat ((a.toNat % 4 * 16 + b.toNat / 16) % 16 * 16 +
      (b.toNat % 16 * 4 + c.toNat / 64) / 4) = b := by
  have := b.toNat_lt
  have := c.toNat_lt
  exact byte_eq (by omega)

theorem rejoined_second_last (a b : UInt8) :
    UInt8.ofNat ((a.toNat % 4 * 16 + b.toNat / 16) % 16 * 16 + b.toNat % 16 * 4 / 4) = b := by
  have := b.toNat_lt
  exact byte_eq (by omega)

theorem rejoined_third (b c : UInt8) :
    UInt8.ofNat ((b.toNat % 16 * 4 + c.toNat / 64) % 4 * 64 + c.toNat % 64) = c := by
  have := c.toNat_lt
  exact byte_eq (by omega)

theorem base64Quanta_encode (bytes : Bytes) : base64Quanta (base64Encode bytes) = some bytes := by
  induction bytes using base64Encode.induct with
  | case1 => rfl
  | case2 a =>
    have := a.toNat_lt
    have w := base64Value_char (a.toNat / 4) (by omega)
    have x := base64Value_char (a.toNat % 4 * 16) (by omega)
    have first := rejoined_first_last a
    simp only [base64Encode, base64Quanta, w.1, x.1, bind, Option.bind_some, and_self, if_true,
      first, pure]
  | case3 a b =>
    have := a.toNat_lt
    have := b.toNat_lt
    have w := base64Value_char (a.toNat / 4) (by omega)
    have x := base64Value_char (a.toNat % 4 * 16 + b.toNat / 16) (by omega)
    have y := base64Value_char (b.toNat % 16 * 4) (by omega)
    have first := rejoined_first a b
    have second := rejoined_second_last a b
    simp only [base64Encode, base64Quanta, w.1, x.1, y.1, bind, Option.bind_some, if_neg y.2.1,
      if_true, first, second, pure]
  | case4 a b c rest ih =>
    have := a.toNat_lt
    have := b.toNat_lt
    have := c.toNat_lt
    have w := base64Value_char (a.toNat / 4) (by omega)
    have x := base64Value_char (a.toNat % 4 * 16 + b.toNat / 16) (by omega)
    have y := base64Value_char (b.toNat % 16 * 4 + c.toNat / 64) (by omega)
    have z := base64Value_char (c.toNat % 64) (by omega)
    have first := rejoined_first a b
    have second := rejoined_second a b c
    have third := rejoined_third b c
    simp only [base64Encode, base64Quanta, w.1, x.1, y.1, z.1, bind, Option.bind_some,
      if_neg y.2.1, if_neg z.2.1, ih, first, second, third, pure]

theorem base64Encode_solid (bytes : Bytes) :
    ∀ c ∈ base64Encode bytes, c ≠ '\r' ∧ c ≠ '\n' := by
  have solid (n : Nat) (small : n < 64) : base64Char n ≠ '\r' ∧ base64Char n ≠ '\n' :=
    (base64Value_char n small).2.2
  induction bytes using base64Encode.induct with
  | case1 => simp [base64Encode]
  | case2 a =>
    have := a.toNat_lt
    simp [base64Encode, solid (a.toNat / 4) (by omega), solid (a.toNat % 4 * 16) (by omega)]
  | case3 a b =>
    have := a.toNat_lt
    have := b.toNat_lt
    simp [base64Encode, solid (a.toNat / 4) (by omega),
      solid (a.toNat % 4 * 16 + b.toNat / 16) (by omega), solid (b.toNat % 16 * 4) (by omega)]
  | case4 a b c rest ih =>
    have := a.toNat_lt
    have := b.toNat_lt
    have := c.toNat_lt
    simpa [base64Encode, solid (a.toNat / 4) (by omega),
      solid (a.toNat % 4 * 16 + b.toNat / 16) (by omega),
      solid (b.toNat % 16 * 4 + c.toNat / 64) (by omega), solid (c.toNat % 64) (by omega)] using ih

theorem base64Decode_encode (bytes : Bytes) : base64Decode (base64Encode bytes) = some bytes := by
  have kept : (base64Encode bytes).filter (fun c => c ≠ '\r' && c ≠ '\n') = base64Encode bytes := by
    rw [List.filter_eq_self]
    intro c member
    simpa using base64Encode_solid bytes c member
  rw [base64Decode, kept, base64Quanta_encode]

end Go
