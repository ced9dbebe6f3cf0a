import SSHProxyPlus.Go.SharedSlice

/-! Removal from a slice that keeps the order: the elements behind move up by one, in place. -/
namespace Go
namespace Arrays
variable {α : Type}

/-- `append(list[:index], list[index+1:]...)`: the prefix has room for what follows it. -/
def shiftRemove (arrays : Arrays α) (header : SliceHeader) (index : Nat) :
    Arrays α × SliceHeader :=
  let old := arrays.backing header.array
  let moved := (old.elements.take header.length).drop (index + 1)
  (arrays.set header.array { old with
      elements := old.elements.take index ++ moved ++ old.elements.drop (header.length - 1) },
    { header with length := header.length - 1 })

/-- The turn of `for index, value := range list { if value == x { … break } }` that breaks. -/
def firstIndex [DecidableEq α] (arrays : Arrays α) (header : SliceHeader) (x : α) : Option Nat :=
  (List.range header.length).find? fun index => arrays.slot header.array index == some x

variable {arrays : Arrays α} {header : SliceHeader} {x : α} {index : Nat}

theorem firstIndex_some [DecidableEq α] (found : arrays.firstIndex header x = some index) :
    ∃ before after, arrays.list header = before ++ x :: after ∧ before.length = index ∧
      x ∉ before := by
  obtain ⟨here, covered, first⟩ := List.find?_range_eq_some.mp found
  have covered := List.mem_range.mp covered
  have shown : (arrays.list header)[index]? = some x := by
    rw [list_getElem?, if_pos covered]
    exact eq_of_beq here
  obtain ⟨inside, same⟩ := List.getElem?_eq_some_iff.mp shown
  refine ⟨(arrays.list header).take index, (arrays.list header).drop (index + 1), ?_, ?_, ?_⟩
  · rw [← same, ← List.drop_eq_getElem_cons inside, List.take_append_drop]
  · exact List.length_take_of_le (Nat.le_of_lt inside)
  · intro member
    obtain ⟨j, there⟩ := List.mem_iff_getElem?.mp member
    obtain ⟨before, -⟩ := List.getElem?_eq_some_iff.mp there
    have before : j < index := Nat.lt_of_lt_of_le before (List.length_take_le _ _)
    rw [List.getElem?_take_of_lt before, list_getElem?, if_pos (by omega)] at there
    have differs := first j before
    rw [there] at differs
    simp at differs

theorem firstIndex_none [DecidableEq α] (missing : arrays.firstIndex header x = none) :
    x ∉ arrays.list header := by
  intro member
  obtain ⟨j, there⟩ := List.mem_iff_getElem?.mp member
  rw [list_getElem?] at there
  obtain ⟨covered, here⟩ := Option.ite_none_right_eq_some.mp there
  have differs := List.find?_range_eq_none.mp missing j covered
  rw [here] at differs
  simp at differs

theorem shiftRemove_list {before after : List α} (within : header.Within arrays)
    (split : arrays.list header = before ++ x :: after) (place : before.length = index) :
    let (arrays', header') := arrays.shiftRemove header index
    header'.Within arrays' ∧ arrays'.list header' = before ++ after := by
  obtain ⟨allocated, written⟩ := within
  have size : header.length = before.length + (after.length + 1) := by
    rw [← length_list ⟨allocated, written⟩, split, List.length_append, List.length_cons]
  have front : (arrays.backing header.array).elements.take index = before := by
    have shorter : index ≤ header.length := by omega
    rw [← Nat.min_eq_left shorter, ← List.take_take, ← list, split, ← place, List.take_left]
  have moved : ((arrays.backing header.array).elements.take header.length).drop (index + 1) =
      after := by
    rw [← list, split, ← place, ← List.drop_drop, List.drop_left]
    rfl
  have kept : header.length - 1 = (before ++ after).length := by
    rw [List.length_append]
    omega
  simp only [shiftRemove, front, moved]
  refine ⟨⟨?_, ?_⟩, ?_⟩
  · rwa [List.length_set]
  · rw [backing_set_self allocated, List.length_append, kept]
    exact Nat.le_add_right _ _
  · rw [list, backing_set_self allocated, kept, List.take_left]

/-- `list[:index]`, where only `x` follows. -/
theorem shorten_list {before : List α} (within : header.Within arrays)
    (split : arrays.list header = before ++ [x]) (place : before.length = index) :
    ({ header with length := index } : SliceHeader).Within arrays ∧
      arrays.list { header with length := index } = before := by
  have size : header.length = before.length + 1 := by
    rw [← length_list within, split, List.length_append, List.length_singleton]
  have shorter : index ≤ header.length := by omega
  refine ⟨⟨within.allocated, Nat.le_trans shorter within.written⟩, ?_⟩
  · rw [list, ← Nat.min_eq_left shorter, ← List.take_take, ← list, split, ← place, List.take_left]

end Arrays
end Go
