import SSHProxyPlus.Go.Text

/-! Buffered reading from a connection, up to a delimiter: what a read takes, what it
leaves in the reader's buffer, and when it leaves nothing. -/
namespace Go

/-- What arrives on a connection, segment by segment. -/
abbrev Conn := List Bytes

namespace Conn

/-- A read returns what arrives next, as far as there is room for it. -/
def read (room : Nat) : Conn → Option (Bytes × Conn)
  | [] => none
  | [] :: conn => read room conn
  | (b :: segment) :: conn =>
      if (b :: segment).length ≤ room then some (b :: segment, conn)
      else some ((b :: segment).take room, (b :: segment).drop room :: conn)

def pending (conn : Conn) : Nat := conn.flatten.length

theorem read_some {room : Nat} {conn rest : Conn} {data : Bytes} (positive : 0 < room)
    (got : conn.read room = some (data, rest)) :
    conn.flatten = data ++ rest.flatten ∧ data ≠ [] ∧ data.length ≤ room := by
  induction conn with
  | nil => contradiction
  | cons segment conn ih =>
    cases segment with
    | nil => exact ih got
    | cons b segment =>
      unfold read at got
      split at got
      · next fits =>
        obtain ⟨rfl, rfl⟩ := Prod.mk.inj (Option.some.inj got)
        exact ⟨rfl, List.cons_ne_nil b segment, fits⟩
      · next long =>
        obtain ⟨rfl, rfl⟩ := Prod.mk.inj (Option.some.inj got)
        refine ⟨?_, ?_, List.length_take_le room _⟩
        · rw [List.flatten_cons, List.flatten_cons, ← List.append_assoc, List.take_append_drop]
        · intro empty
          rcases List.take_eq_nil_iff.mp empty with zero | nil
          · omega
          · contradiction

theorem read_none {room : Nat} {conn : Conn} (nothing : conn.read room = none) :
    conn.flatten = [] := by
  induction conn with
  | nil => rfl
  | cons segment conn ih =>
    cases segment with
    | nil => exact ih nothing
    | cons b segment =>
      unfold read at nothing
      split at nothing
      · contradiction
      · contradiction

theorem read_pending {room : Nat} {conn rest : Conn} {data : Bytes} (positive : 0 < room)
    (got : conn.read room = some (data, rest)) : rest.pending < conn.pending := by
  obtain ⟨same, nonempty, -⟩ := read_some positive got
  have length := List.length_pos_iff.mpr nonempty
  rw [pending, pending, same, List.length_append]
  omega

end Conn

variable {delim : UInt8}

/-- The part up to and including the first delimiter, and what follows it. -/
def cut (delim : UInt8) : Bytes → Option (Bytes × Bytes)
  | [] => none
  | b :: s =>
      if b = delim then some ([b], s)
      else (cut delim s).map fun (line, rest) => (b :: line, rest)

def IsLine (delim : UInt8) (line : Bytes) : Prop := ∃ body, line = body ++ [delim] ∧ delim ∉ body

theorem cut_none {s : Bytes} (nothing : cut delim s = none) : delim ∉ s := by
  induction s with
  | nil => exact List.not_mem_nil
  | cons b s ih =>
    unfold cut at nothing
    split at nothing
    · contradiction
    · next differs =>
      have later := ih (Option.map_eq_none_iff.mp nothing)
      exact fun member => (List.mem_cons.mp member).elim (fun same => differs same.symm) later

theorem cut_some {s line rest : Bytes} (got : cut delim s = some (line, rest)) :
    s = line ++ rest ∧ IsLine delim line := by
  induction s generalizing line with
  | nil => contradiction
  | cons b s ih =>
    unfold cut at got
    split at got
    · next same =>
      obtain ⟨rfl, rfl⟩ := Prod.mk.inj (Option.some.inj got)
      exact ⟨rfl, [], same ▸ rfl, List.not_mem_nil⟩
    · next differs =>
      obtain ⟨⟨front, back⟩, found, same⟩ := Option.map_eq_some_iff.mp got
      obtain ⟨rfl, rfl⟩ := Prod.mk.inj same
      obtain ⟨split, body, rfl, absent⟩ := ih found
      refine ⟨by rw [split, List.cons_append], b :: body, rfl, fun member => ?_⟩
      exact (List.mem_cons.mp member).elim (fun same => differs same.symm) absent

/-- A text that starts with a line starts with no other. -/
theorem IsLine.unique {line line' rest rest' : Bytes} (isLine : IsLine delim line)
    (isLine' : IsLine delim line') (same : line ++ rest = line' ++ rest') :
    line = line' ∧ rest = rest' := by
  obtain ⟨body, rfl, absent⟩ := isLine
  obtain ⟨body', rfl, absent'⟩ := isLine'
  induction body generalizing body' with
  | nil =>
    cases body' with
    | nil => exact ⟨rfl, List.append_cancel_left same⟩
    | cons c body' =>
      obtain ⟨rfl, -⟩ := List.cons.inj same
      exact absurd List.mem_cons_self absent'
  | cons b body ih =>
    cases body' with
    | nil =>
      obtain ⟨rfl, -⟩ := List.cons.inj same
      exact absurd List.mem_cons_self absent
    | cons c body' =>
      obtain ⟨rfl, tail⟩ := List.cons.inj same
      obtain ⟨equal, rests⟩ := ih (fun member => absent (List.mem_cons_of_mem b member)) body'
        (fun member => absent' (List.mem_cons_of_mem b member)) tail
      exact ⟨congrArg (List.cons b) equal, rests⟩

/-- The size of the buffer that `NewReader` makes. -/
def defaultBufSize : Nat := 4096

/-- `ReadBytes`: fragments of a whole buffer pile up in `full`. With the line comes what is
left in the buffer; `none` where the connection gives out before a delimiter. -/
def readBytes (delim : UInt8) (full buffered : Bytes) (conn : Conn) :
    Option (Bytes × Bytes × Conn) :=
  match cut delim buffered with
  | some (line, left) => some (full ++ line, left, conn)
  | none =>
      if _full : defaultBufSize ≤ buffered.length then readBytes delim (full ++ buffered) [] conn
      else
        match _got : conn.read (defaultBufSize - buffered.length) with
        | none => none
        | some (data, rest) => readBytes delim full (buffered ++ data) rest
termination_by (conn.pending, buffered.length)
decreasing_by
  · refine Prod.Lex.right _ ?_
    have positive : 0 < defaultBufSize := by decide
    simp only [List.length_nil]
    omega
  · exact Prod.Lex.left _ _ (Conn.read_pending (by omega) _got)

/-- The bytes are all there: those of the line, those left in the buffer, and those to come. -/
theorem readBytes_some {full buffered line left : Bytes} {conn rest : Conn}
    (before : delim ∉ full) (got : readBytes delim full buffered conn = some (line, left, rest)) :
    full ++ buffered ++ conn.flatten = line ++ left ++ rest.flatten ∧ IsLine delim line := by
  fun_induction readBytes delim full buffered conn with
  | case1 full buffered conn front back found =>
    obtain ⟨rfl, same⟩ := Prod.mk.inj (Option.some.inj got)
    obtain ⟨rfl, rfl⟩ := Prod.mk.inj same
    obtain ⟨rfl, body, rfl, absent⟩ := cut_some found
    refine ⟨by simp, full ++ body, by simp, fun member => ?_⟩
    exact (List.mem_append.mp member).elim before absent
  | case2 full buffered conn nothing size ih =>
    have absent : delim ∉ full ++ buffered := fun member =>
      (List.mem_append.mp member).elim before (cut_none nothing)
    simpa using ih absent got
  | case3 => contradiction
  | case4 full buffered conn nothing size data next read ih =>
    obtain ⟨same, -, -⟩ := Conn.read_some (by omega) read
    obtain ⟨together, isLine⟩ := ih before got
    exact ⟨by rw [same, ← together]; simp, isLine⟩

theorem readBytes_none {full buffered : Bytes} {conn : Conn}
    (nothing : readBytes delim full buffered conn = none) :
    delim ∉ buffered ++ conn.flatten := by
  fun_induction readBytes delim full buffered conn with
  | case1 => contradiction
  | case2 full buffered conn absent size ih =>
    intro member
    rcases List.mem_append.mp member with old | later
    · exact cut_none absent old
    · exact ih nothing (List.mem_append_right [] later)
  | case3 full buffered conn absent size gone =>
    rw [Conn.read_none gone, List.append_nil]
    exact cut_none absent
  | case4 full buffered conn absent size data next read ih =>
    obtain ⟨same, -, -⟩ := Conn.read_some (by omega) read
    rw [same, ← List.append_assoc]
    exact ih nothing

/-- What successive reads return, where a new buffer is begun after each delimiter. -/
def reads (delim : UInt8) (filled : Nat) (conn : Conn) : List Bytes :=
  match _got : conn.read (defaultBufSize - filled % defaultBufSize) with
  | none => []
  | some (data, rest) =>
      data :: reads delim (if delim ∈ data then 0 else filled % defaultBufSize + data.length) rest
termination_by conn.pending
decreasing_by
  exact Conn.read_pending (Nat.sub_pos_of_lt (Nat.mod_lt _ (by decide))) _got

/-- No read returns anything that comes after a delimiter. -/
def Aligned (delim : UInt8) (filled : Nat) (conn : Conn) : Prop :=
  ∀ data ∈ reads delim filled conn, delim ∉ data.dropLast

theorem room_positive (filled : Nat) : 0 < defaultBufSize - filled % defaultBufSize :=
  Nat.sub_pos_of_lt (Nat.mod_lt _ (by decide))

theorem reads_none {filled : Nat} {conn : Conn}
    (nothing : conn.read (defaultBufSize - filled % defaultBufSize) = none) :
    reads delim filled conn = [] := by
  unfold reads
  split
  · rfl
  · next got =>
    rw [nothing] at got
    contradiction

theorem reads_some {filled : Nat} {conn rest : Conn} {data : Bytes}
    (got : conn.read (defaultBufSize - filled % defaultBufSize) = some (data, rest)) :
    reads delim filled conn = data ::
      reads delim (if delim ∈ data then 0 else filled % defaultBufSize + data.length) rest := by
  rw [reads]
  split
  · next nothing =>
    rw [got] at nothing
    contradiction
  · next same =>
    obtain ⟨rfl, rfl⟩ := Prod.mk.inj (Option.some.inj (got.symm.trans same))
    rfl

theorem reads_mod (filled : Nat) (conn : Conn) :
    reads delim (filled % defaultBufSize) conn = reads delim filled conn := by
  have room : filled % defaultBufSize % defaultBufSize = filled % defaultBufSize :=
    Nat.mod_mod _ _
  cases got : conn.read (defaultBufSize - filled % defaultBufSize) with
  | none => rw [reads_none got, reads_none (by rw [room]; exact got)]
  | some pair =>
    obtain ⟨data, rest⟩ := pair
    rw [reads_some got, reads_some (by rw [room]; exact got), room]

/-- What a read brings beyond its first delimiter is what is left after the line. -/
theorem dropLast_left {buffered data front back : Bytes} (before : delim ∉ buffered)
    (split : buffered ++ data = front ++ back) (isLine : IsLine delim front) :
    delim ∉ data.dropLast ↔ back = [] := by
  obtain ⟨body, rfl, absent⟩ := isLine
  have member : delim ∈ data := by
    have inside : delim ∈ buffered ++ data := by simp [split]
    exact (List.mem_append.mp inside).resolve_left before
  obtain ⟨front, rest, rfl, first⟩ := List.eq_append_cons_of_mem member
  have lines : IsLine delim (buffered ++ front ++ [delim]) :=
    ⟨buffered ++ front, rfl, fun h => (List.mem_append.mp h).elim before first⟩
  have whole : buffered ++ front ++ [delim] ++ rest = body ++ [delim] ++ back := by
    simpa using split
  obtain ⟨-, rfl⟩ := lines.unique ⟨body, rfl, absent⟩ whole
  constructor
  · intro clean
    by_contra more
    refine clean ?_
    rw [List.dropLast_append_of_ne_nil (List.cons_ne_nil delim rest),
      List.dropLast_cons_of_ne_nil more]
    exact List.mem_append_right front List.mem_cons_self
  · rintro rfl
    simpa using first

/-- A line is read without loss if and only if its last read ends with it. -/
theorem readBytes_aligned {full buffered line left : Bytes} {conn rest : Conn}
    (fits : buffered.length ≤ defaultBufSize)
    (got : readBytes delim full buffered conn = some (line, left, rest)) :
    (delim ∈ buffered → (∃ front, cut delim buffered = some (front, left)) ∧ rest = conn) ∧
      (delim ∉ buffered → (Aligned delim buffered.length conn ↔ left = [] ∧ Aligned delim 0 rest)) := by
  fun_induction readBytes delim full buffered conn with
  | case1 full buffered conn front back found =>
    obtain ⟨-, same⟩ := Prod.mk.inj (Option.some.inj got)
    obtain ⟨rfl, rfl⟩ := Prod.mk.inj same
    obtain ⟨rfl, body, rfl, -⟩ := cut_some found
    exact ⟨fun _ => ⟨⟨_, found⟩, rfl⟩, fun absent => absurd (by simp) absent⟩
  | case2 full buffered conn nothing size ih =>
    refine ⟨fun member => absurd member (cut_none nothing), fun _ => ?_⟩
    have exactly : buffered.length = defaultBufSize := Nat.le_antisymm fits size
    have emptied := (ih (Nat.zero_le _) got).2 List.not_mem_nil
    unfold Aligned at emptied ⊢
    rw [← reads_mod, exactly, Nat.mod_self]
    exact emptied
  | case3 => contradiction
  | case4 full buffered conn nothing size data next read ih =>
    refine ⟨fun member => absurd member (cut_none nothing), fun absent => ?_⟩
    obtain ⟨-, -, short⟩ := Conn.read_some (by omega) read
    have within : (buffered ++ data).length ≤ defaultBufSize := by
      rw [List.length_append]
      omega
    have small : buffered.length % defaultBufSize = buffered.length :=
      Nat.mod_eq_of_lt (Nat.lt_of_not_le size)
    have room : conn.read (defaultBufSize - buffered.length % defaultBufSize) = some (data, next) := by
      rw [small]
      exact read
    obtain ⟨inside, outside⟩ := ih within got
    unfold Aligned
    rw [reads_some room, List.forall_mem_cons]
    by_cases member : delim ∈ data
    · obtain ⟨⟨front, found⟩, rfl⟩ := inside (List.mem_append_right buffered member)
      obtain ⟨split, isLine⟩ := cut_some found
      rw [if_pos member, dropLast_left absent split isLine]
    · have still : delim ∉ buffered ++ data := fun h => (List.mem_append.mp h).elim absent member
      rw [if_neg member, small, ← List.length_append]
      have clean : delim ∉ data.dropLast := fun h => member (List.dropLast_subset data h)
      exact (and_iff_right clean).trans (outside still)

theorem readBytes_none_aligned {full buffered : Bytes} {conn : Conn}
    (nothing : readBytes delim full buffered conn = none) (filled : Nat) :
    Aligned delim filled conn := by
  have absent : delim ∉ conn.flatten := fun member =>
    readBytes_none nothing (List.mem_append_right buffered member)
  clear nothing
  unfold Aligned
  fun_induction reads delim filled conn with
  | case1 => exact fun data none => absurd none List.not_mem_nil
  | case2 filled conn data rest read ih =>
    obtain ⟨same, -, -⟩ := Conn.read_some (room_positive filled) read
    rw [same] at absent
    refine List.forall_mem_cons.mpr ⟨fun h => ?_, ih fun h => ?_⟩
    · exact absent (List.mem_append_left _ (List.dropLast_subset data h))
    · exact absent (List.mem_append_right data h)

end Go
