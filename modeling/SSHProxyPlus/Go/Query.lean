import SSHProxyPlus.Go.Text

/-! The variables in the query of a URL, as `net/url` reads them. -/
namespace Go

def unhex (b : UInt8) : Option UInt8 :=
  if 48 ≤ b ∧ b ≤ 57 then some (b - 48)
  else if 97 ≤ b ∧ b ≤ 102 then some (b - 87)
  else if 65 ≤ b ∧ b ≤ 70 then some (b - 55)
  else none

/-- `QueryUnescape`; `none` stands for its error. -/
def queryUnescape : Bytes → Option Bytes
  | [] => some []
  | 37 :: high :: low :: rest => do
      let high ← unhex high
      let low ← unhex low
      return (16 * high + low) :: (← queryUnescape rest)
  | b :: rest =>
      if b = 37 then none else (queryUnescape rest).map ((if b = 43 then 32 else b) :: ·)

/-- The pair that a part of the query stands for; one that can not be read is passed over. -/
def queryPair (part : Bytes) : Option (Bytes × Bytes) :=
  if 59 ∈ part ∨ part = [] then none
  else do
    let key ← queryUnescape (part.takeWhile (· != 61))
    let value ← queryUnescape ((part.dropWhile (· != 61)).drop 1)
    return (key, value)

/-- `Query().Get`: the first value of the key, or nothing. -/
def queryGet (query key : Bytes) : Bytes :=
  (((query.splitOn 38).filterMap queryPair).lookup key).getD []

/-- A byte that stands for itself in a query. -/
def plainByte (b : UInt8) : Bool := b != 37 && b != 38 && b != 43 && b != 59 && b != 61

theorem queryUnescape_plain {text : Bytes} (plain : ∀ b ∈ text, plainByte b = true) :
    queryUnescape text = some text := by
  induction text with
  | nil => rfl
  | cons b rest ih =>
    obtain ⟨first, later⟩ := List.forall_mem_cons.mp plain
    have percent : b ≠ 37 := by
      rintro rfl
      contradiction
    have plus : b ≠ 43 := by
      rintro rfl
      contradiction
    rw [queryUnescape, if_neg percent, ih later, if_neg plus]
    · rfl
    · intro high low rest' same
      exact absurd same percent

theorem queryGet_single {key value : Bytes} (plainKey : ∀ b ∈ key, plainByte b = true)
    (plainValue : ∀ b ∈ value, plainByte b = true) :
    queryGet (key ++ 61 :: value) key = value := by
  have apart {text : Bytes} (plain : ∀ b ∈ text, plainByte b = true) {b : UInt8}
      (special : plainByte b = false) : b ∉ text := fun member => by
    rw [plain b member] at special
    contradiction
  have whole : 38 ∉ key ++ 61 :: value := by
    simp [apart plainKey, apart plainValue, show plainByte 38 = false from rfl]
  have colon : 59 ∉ key ++ 61 :: value := by
    simp [apart plainKey, apart plainValue, show plainByte 59 = false from rfl]
  have keep : ∀ b ∈ key, (b != 61) = true := by
    intro b member
    rw [bne_iff_ne]
    rintro rfl
    exact apart plainKey rfl member
  have pair : queryPair (key ++ 61 :: value) = some (key, value) := by
    rw [queryPair, if_neg (by simp [colon]), List.takeWhile_append_of_pos keep,
      List.dropWhile_append_of_pos keep]
    simp [queryUnescape_plain plainKey, queryUnescape_plain plainValue]
  rw [queryGet, List.splitOn_eq_singleton whole, List.filterMap_cons_some pair, List.filterMap_nil,
    List.lookup_cons_self]
  rfl

end Go
