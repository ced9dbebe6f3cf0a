import SSHProxyPlus.Go.Nil
import SSHProxyPlus.Go.Text

/-! Indexing byte strings, and `encoding/binary`. An index or a bound outside the string
panics. -/
namespace Go

def byteAt (s : Bytes) (i : Nat) : Except Panic UInt8 :=
  match s[i]? with
  | some b => .ok b
  | none => .error .indexOutOfRange

/-- `s[i:]`. -/
def sliceFrom (s : Bytes) (i : Nat) : Except Panic Bytes :=
  if i ≤ s.length then .ok (s.drop i) else .error .indexOutOfRange

/-- The number that four bytes spell, the most significant first. -/
def bigEndian (b0 b1 b2 b3 : UInt8) : UInt32 :=
  UInt32.ofNat (((b0.toNat * 256 + b1.toNat) * 256 + b2.toNat) * 256 + b3.toNat)

/-- `binary.BigEndian.Uint32`. -/
def bigEndianUint32 : Bytes → Except Panic UInt32
  | b0 :: b1 :: b2 :: b3 :: _ => .ok (bigEndian b0 b1 b2 b3)
  | _ => .error .indexOutOfRange

def uint32Bytes (n : UInt32) : Bytes :=
  [UInt8.ofNat (n.toNat / 2 ^ 24), UInt8.ofNat (n.toNat / 2 ^ 16), UInt8.ofNat (n.toNat / 2 ^ 8),
    UInt8.ofNat n.toNat]

@[simp] theorem length_uint32Bytes (n : UInt32) : (uint32Bytes n).length = 4 := rfl

theorem byteAt_ok {s : Bytes} {i : Nat} (inside : i < s.length) : byteAt s i = .ok s[i] := by
  rw [byteAt, List.getElem?_eq_getElem inside]

theorem sliceFrom_ok {s : Bytes} {i : Nat} (inside : i ≤ s.length) :
    sliceFrom s i = .ok (s.drop i) := if_pos inside

theorem toNat_bigEndian (b0 b1 b2 b3 : UInt8) : (bigEndian b0 b1 b2 b3).toNat =
    ((b0.toNat * 256 + b1.toNat) * 256 + b2.toNat) * 256 + b3.toNat := by
  have h0 := b0.toNat_lt
  have h1 := b1.toNat_lt
  have h2 := b2.toNat_lt
  have h3 := b3.toNat_lt
  rw [bigEndian, UInt32.toNat_ofNat']
  omega

/-- Every number is spelt by four bytes. -/
theorem bigEndian_uint32Bytes (n : UInt32) :
    bigEndian (UInt8.ofNat (n.toNat / 2 ^ 24)) (UInt8.ofNat (n.toNat / 2 ^ 16))
      (UInt8.ofNat (n.toNat / 2 ^ 8)) (UInt8.ofNat n.toNat) = n := by
  have bound := n.toNat_lt
  apply UInt32.toNat_inj.mp
  rw [toNat_bigEndian]
  simp only [UInt8.toNat_ofNat']
  omega

/-- And only by these. -/
theorem uint32Bytes_bigEndian (b0 b1 b2 b3 : UInt8) :
    uint32Bytes (bigEndian b0 b1 b2 b3) = [b0, b1, b2, b3] := by
  have h0 := b0.toNat_lt
  have h1 := b1.toNat_lt
  have h2 := b2.toNat_lt
  have h3 := b3.toNat_lt
  have each : ∀ {m : Nat} {b : UInt8}, m % 256 = b.toNat → UInt8.ofNat m = b := by
    intro m b same
    apply UInt8.toNat_inj.mp
    rw [UInt8.toNat_ofNat', same]
  unfold uint32Bytes
  rw [toNat_bigEndian]
  congr 1
  · apply each
    omega
  · congr 1
    · apply each
      omega
    · congr 1
      · apply each
        omega
      · congr 1
        apply each
        omega

theorem bigEndianUint32_ok {s : Bytes} (long : 4 ≤ s.length) :
    ∃ n, bigEndianUint32 s = .ok n ∧ uint32Bytes n = s.take 4 := by
  match s, long with
  | b0 :: b1 :: b2 :: b3 :: rest, _ => exact ⟨_, rfl, uint32Bytes_bigEndian b0 b1 b2 b3⟩

@[simp] theorem bigEndianUint32_encoded (n : UInt32) (rest : Bytes) :
    bigEndianUint32 (uint32Bytes n ++ rest) = .ok n :=
  congrArg Except.ok (bigEndian_uint32Bytes n)

theorem uint32Bytes_injective {n m : UInt32} (same : uint32Bytes n = uint32Bytes m) : n = m := by
  have read := bigEndianUint32_encoded n []
  rw [same, bigEndianUint32_encoded] at read
  exact (Except.ok.inj read).symm

end Go
