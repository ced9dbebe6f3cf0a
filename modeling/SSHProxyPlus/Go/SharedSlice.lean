import Mathlib.Data.List.Basic
import SSHProxyPlus.Go.Slice

/-! Slices and the arrays behind them. Several headers may share an array: a `range` loop keeps
the header it started with, and reads the elements as they are by then. -/
namespace Go
variable {α : Type}

/-- An array, of whose elements only the first have been written so far. -/
structure BackingArray (α : Type) where
  elements : List α := []
  capacity : Nat := 0

/-- A slice that starts where its array does. -/
@[ext]
structure SliceHeader where
  array : Nat := 0
  length : Nat := 0
deriving DecidableEq

abbrev Arrays (α : Type) := List (BackingArray α)

namespace Arrays

def backing (arrays : Arrays α) (array : Nat) : BackingArray α := arrays[array]?.getD {}

def slot (arrays : Arrays α) (array index : Nat) : Option α := (arrays.backing array).elements[index]?

/-- What the header shows. -/
def list (arrays : Arrays α) (header : SliceHeader) : List α :=
  (arrays.backing header.array).elements.take header.length

/-- `append`, in place where there is room; a new array may have some to spare. -/
def push (arrays : Arrays α) (header : SliceHeader) (x : α) (spare : Nat) :
    Arrays α × SliceHeader :=
  let old := arrays.backing header.array
  if header.length < old.capacity then
    (arrays.set header.array { old with
        elements := old.elements.take header.length ++ x :: old.elements.drop (header.length + 1) },
      { header with length := header.length + 1 })
  else
    (arrays ++ [{
        elements := old.elements.take header.length ++ [x]
        capacity := header.length + 1 + spare }],
      { array := arrays.length, length := header.length + 1 })

/-- `for index, value := range list { if value == x { … break } }`, where the last element takes
the place of the one that was found, and the list loses its end. -/
def swapRemoveFirst [DecidableEq α] (arrays : Arrays α) (header : SliceHeader) (x : α) :
    Arrays α × SliceHeader :=
  let old := arrays.backing header.array
  let found := (List.range header.length).find? fun index => old.elements[index]? == some x
  match found, old.elements[header.length - 1]? with
  | some index, some last =>
      (arrays.set header.array { old with elements := old.elements.set index last },
        { header with length := header.length - 1 })
  | _, _ => (arrays, header)

/-- The same loop without the `break`. -/
def swapRemove [DecidableEq α] (arrays : Arrays α) (header : SliceHeader) (x : α) :
    Except Panic (Arrays α × SliceHeader) := do
  let old := arrays.backing header.array
  let s ← (List.range header.length).foldlM (swapRemoveTurn x) ⟨old.elements, header.length⟩
  return (arrays.set header.array { old with elements := s.backing },
    { header with length := s.length })

end Arrays

/-- Its array is there, and every element has been written. -/
structure SliceHeader.Within (header : SliceHeader) (arrays : Arrays α) : Prop where
  allocated : header.array < arrays.length
  written : header.length ≤ (arrays.backing header.array).elements.length

namespace Arrays
variable {arrays : Arrays α} {header : SliceHeader}

theorem backing_set_self {array : Nat} (allocated : array < arrays.length) (new : BackingArray α) :
    Arrays.backing (arrays.set array new) array = new := by
  simp [backing, List.getElem?_set_self allocated]

theorem backing_set_ne {array other : Nat} (apart : array ≠ other) (new : BackingArray α) :
    Arrays.backing (arrays.set array new) other = arrays.backing other := by
  simp [backing, List.getElem?_set_ne apart]

theorem backing_append {array : Nat} (allocated : array < arrays.length) (new : BackingArray α) :
    Arrays.backing (arrays ++ [new]) array = arrays.backing array := by
  simp [backing, List.getElem?_append_left allocated]

theorem backing_new (new : BackingArray α) :
    Arrays.backing (arrays ++ [new]) arrays.length = new := by
  simp [backing]

theorem list_getElem? (arrays : Arrays α) (header : SliceHeader) (i : Nat) :
    (arrays.list header)[i]? = if i < header.length then arrays.slot header.array i else none :=
  List.getElem?_take

theorem length_list (within : header.Within arrays) : (arrays.list header).length = header.length :=
  List.length_take_of_le within.written

theorem slot_written {i : Nat} (within : header.Within arrays) (covered : i < header.length) :
    ∃ x, arrays.slot header.array i = some x :=
  ⟨_, List.getElem?_eq_getElem (Nat.lt_of_lt_of_le covered within.written)⟩

/-- Whatever is written elsewhere, a slice stays within its array. -/
theorem within_kept {arrays' : Arrays α} {other : SliceHeader} (within : other.Within arrays)
    (grown : arrays.length ≤ arrays'.length)
    (written : ∀ i, (arrays.slot other.array i).isSome → (arrays'.slot other.array i).isSome) :
    other.Within arrays' := by
  refine ⟨Nat.lt_of_lt_of_le within.allocated grown, ?_⟩
  cases size : other.length with
  | zero => exact Nat.zero_le _
  | succ last =>
    obtain ⟨x, here⟩ := slot_written within (i := last) (by omega)
    obtain ⟨y, still⟩ := Option.isSome_iff_exists.mp (written last (here ▸ rfl))
    exact (List.getElem?_eq_some_iff.mp still).1

/-- What `append` makes of a slice, and what it leaves of the others. -/
structure Pushed (arrays : Arrays α) (header : SliceHeader) (x : α) (arrays' : Arrays α)
    (header' : SliceHeader) : Prop where
  length : header'.length = header.length + 1
  grown : arrays.length ≤ arrays'.length
  place : header'.array = header.array ∨ header'.array = arrays.length
  within : header'.Within arrays'
  last : arrays'.slot header'.array header.length = some x
  kept : ∀ index, index < header.length →
    arrays'.slot header'.array index = arrays.slot header.array index
  others : ∀ array index, array < arrays.length → (array = header'.array → index ≠ header.length) →
    arrays'.slot array index = arrays.slot array index

theorem push_array (arrays : Arrays α) (header : SliceHeader) (x : α) (spare : Nat) :
    (arrays.push header x spare).2.array =
      if header.length < (arrays.backing header.array).capacity then header.array
      else arrays.length := by
  unfold push
  dsimp only
  split <;> rfl

theorem push_pushed (within : header.Within arrays) (x : α) (spare : Nat) :
    Pushed arrays header x (arrays.push header x spare).1 (arrays.push header x spare).2 := by
  obtain ⟨allocated, written⟩ := within
  have front : ((arrays.backing header.array).elements.take header.length).length =
      header.length := List.length_take_of_le written
  have kept (tail : List α) {index : Nat} (before : index < header.length) :
      ((arrays.backing header.array).elements.take header.length ++ tail)[index]? =
        (arrays.backing header.array).elements[index]? := by
    rw [List.getElem?_append_left (front.symm ▸ before), List.getElem?_take_of_lt before]
  have last (tail : List α) :
      ((arrays.backing header.array).elements.take header.length ++ x :: tail)[header.length]? =
        some x := by
    rw [List.getElem?_append_right (Nat.le_of_eq front), front, Nat.sub_self]
    rfl
  unfold push
  dsimp only
  split
  · refine ⟨rfl, Nat.le_of_eq List.length_set.symm, .inl rfl, ⟨?_, ?_⟩, ?_, ?_, ?_⟩
    · rwa [List.length_set]
    · rw [backing_set_self allocated, List.length_append, front]
      exact Nat.add_le_add_left (Nat.succ_le_succ (Nat.zero_le _)) _
    · rw [slot, backing_set_self allocated]
      exact last _
    · intro index before
      rw [slot, backing_set_self allocated]
      exact kept _ before
    · intro array index _ apart
      by_cases same : array = header.array
      · subst same
        rw [slot, slot, backing_set_self allocated]
        obtain before | after := Nat.lt_or_gt_of_ne (apart rfl)
        · exact kept _ before
        · rw [List.getElem?_append_right (front.symm ▸ Nat.le_of_lt after), front]
          obtain ⟨more, rfl⟩ := Nat.exists_eq_add_of_lt after
          rw [show header.length + more + 1 - header.length = more + 1 by omega,
            List.getElem?_cons_succ, List.getElem?_drop]
          congr 1
          omega
      · rw [slot, slot, backing_set_ne (Ne.symm same)]
  · refine ⟨rfl, by simp, .inr rfl, ⟨by simp, ?_⟩, ?_, ?_, ?_⟩
    · rw [backing_new, List.length_append, front]
      exact Nat.le_refl _
    · rw [slot, backing_new]
      exact last []
    · intro index before
      rw [slot, backing_new]
      exact kept _ before
    · intro array index old _
      rw [slot, slot, backing_append old]

theorem Pushed.list {x : α} {arrays' : Arrays α} {header' : SliceHeader}
    (pushed : Pushed arrays header x arrays' header') (within : header.Within arrays) :
    arrays'.list header' = arrays.list header ++ [x] := by
  refine List.ext_getElem? fun i => ?_
  rw [list_getElem?, pushed.length, List.getElem?_append, length_list within, list_getElem?]
  split
  · next before =>
    split
    · next covered => exact pushed.kept i covered
    · next beyond =>
      obtain rfl : i = header.length := by omega
      rw [pushed.last, Nat.sub_self, List.getElem?_cons_zero]
  · next beyond =>
    rw [if_neg (by omega)]
    exact (List.getElem?_eq_none (by simp; omega)).symm

/-- A slice that shares the array, and is longer, sees the new element in place of its own. -/
theorem Pushed.list_other {x : α} {arrays' : Arrays α} {header' other : SliceHeader}
    (pushed : Pushed arrays header x arrays' header') (within : other.Within arrays) :
    arrays'.list other = if other.array = header'.array then (arrays.list other).set header.length x
      else arrays.list other := by
  refine List.ext_getElem? fun i => ?_
  split
  · next shared =>
    rw [List.getElem?_set, list_getElem?, length_list within, list_getElem?]
    by_cases here : header.length = i
    · subst here
      rw [if_pos rfl, shared, pushed.last]
    · rw [if_neg here, pushed.others other.array i within.allocated fun _ => Ne.symm here]
  · next apart =>
    rw [list_getElem?, list_getElem?,
      pushed.others other.array i within.allocated fun same => absurd same apart]

theorem Pushed.within_other {x : α} {arrays' : Arrays α} {header' other : SliceHeader}
    (pushed : Pushed arrays header x arrays' header') (within : other.Within arrays) :
    other.Within arrays' := by
  refine within_kept within pushed.grown fun i written => ?_
  by_cases here : other.array = header'.array ∧ i = header.length
  · rw [here.1, here.2, pushed.last]
    rfl
  · rwa [pushed.others other.array i within.allocated fun same last => here ⟨same, last⟩]

/-- What removing the element at `index` makes of a slice, and what it leaves of the others. -/
structure SwapRemoved (arrays : Arrays α) (header : SliceHeader) (index : Nat) (arrays' : Arrays α)
    (header' : SliceHeader) : Prop where
  array : header'.array = header.array
  length : header'.length = header.length - 1
  allocated : arrays'.length = arrays.length
  within : header'.Within arrays'
  moved : arrays'.slot header.array index = arrays.slot header.array (header.length - 1)
  others : ∀ array i, (array = header.array → i ≠ index) → arrays'.slot array i = arrays.slot array i

theorem SwapRemoved.list {index : Nat} {arrays' : Arrays α} {header' : SliceHeader} {init : List α}
    {last : α} (removed : SwapRemoved arrays header index arrays' header')
    (within : header.Within arrays)
    (split : arrays.list header = init ++ [last]) :
    arrays'.list header' = init.set index last := by
  have size : header.length = init.length + 1 := by
    rw [← length_list within, split, List.length_append, List.length_singleton]
  have slots (i : Nat) (inside : i < header.length) :
      arrays.slot header.array i = (init ++ [last])[i]? := by
    rw [← split, list_getElem?, if_pos inside]
  refine List.ext_getElem? fun i => ?_
  rw [list_getElem?, removed.length, size, Nat.add_sub_cancel, List.getElem?_set, removed.array]
  split
  · next inside =>
    split
    · next same =>
      subst same
      rw [removed.moved, slots _ (by omega), size, Nat.add_sub_cancel, if_pos inside]
      simp
    · next other =>
      rw [removed.others header.array i fun _ => Ne.symm other, slots i (by omega),
        List.getElem?_append_left inside]
  · next beyond =>
    rw [List.getElem?_eq_none (Nat.le_of_not_lt beyond)]
    split
    · next same => rw [if_neg fun inside => beyond (same ▸ inside)]
    · rfl

/-- A slice that shares the array sees the element that was moved in two places, where it is as
long as it was. -/
theorem SwapRemoved.list_other {index : Nat} {arrays' : Arrays α} {header' other : SliceHeader}
    {init : List α} {last : α} (removed : SwapRemoved arrays header index arrays' header')
    (within : header.Within arrays) (otherWithin : other.Within arrays)
    (split : arrays.list header = init ++ [last]) :
    arrays'.list other = if other.array = header.array then (arrays.list other).set index last
      else arrays.list other := by
  have size : header.length = init.length + 1 := by
    rw [← length_list within, split, List.length_append, List.length_singleton]
  have final : arrays.slot header.array (header.length - 1) = some last := by
    have shown := list_getElem? arrays header (header.length - 1)
    rw [if_pos (by omega), split, size, Nat.add_sub_cancel, List.getElem?_concat_length] at shown
    rw [size, Nat.add_sub_cancel]
    exact shown.symm
  refine List.ext_getElem? fun i => ?_
  split
  · next shared =>
    rw [List.getElem?_set, list_getElem?, length_list otherWithin, list_getElem?]
    by_cases here : index = i
    · subst here
      rw [if_pos rfl, shared, removed.moved, final]
    · rw [if_neg here, removed.others other.array i fun _ => Ne.symm here]
  · next apart =>
    rw [list_getElem?, list_getElem?, removed.others other.array i fun same => absurd same apart]

theorem SwapRemoved.within_other {index : Nat} {arrays' : Arrays α} {header' other : SliceHeader}
    (removed : SwapRemoved arrays header index arrays' header') (covered : index < header.length)
    (within : header.Within arrays) (otherWithin : other.Within arrays) : other.Within arrays' := by
  refine within_kept otherWithin (Nat.le_of_eq removed.allocated.symm) fun i written => ?_
  by_cases here : other.array = header.array ∧ i = index
  · obtain ⟨x, last⟩ := slot_written within (Nat.sub_lt (Nat.zero_lt_of_lt covered) Nat.one_pos)
    rw [here.1, here.2, removed.moved, last]
    rfl
  · rwa [removed.others other.array i fun same at_ => here ⟨same, at_⟩]

/-- The search for an element that occurs once finds it. -/
theorem find_unique [DecidableEq α] {elements : List α} {length index : Nat} {x : α}
    (covered : index < length) (here : elements[index]? = some x)
    (unique : ∀ i, i < length → elements[i]? = some x → i = index) :
    ((List.range length).find? fun i => elements[i]? == some x) = some index := by
  cases search : (List.range length).find? fun i => elements[i]? == some x with
  | none =>
    have missing := List.find?_eq_none.mp search index (List.mem_range.mpr covered)
    simp [here] at missing
  | some i =>
    have holds := List.find?_some search
    have member := List.mem_range.mp (List.mem_of_find?_eq_some search)
    rw [unique i member (eq_of_beq holds)]

theorem swapRemoveFirst_removed [DecidableEq α] {x : α} {index : Nat} (within : header.Within arrays)
    (covered : index < header.length) (here : arrays.slot header.array index = some x)
    (unique : ∀ i, i < header.length → arrays.slot header.array i = some x → i = index) :
    SwapRemoved arrays header index (arrays.swapRemoveFirst header x).1
      (arrays.swapRemoveFirst header x).2 := by
  obtain ⟨allocated, written⟩ := within
  have found := find_unique covered here unique
  have inside : header.length - 1 < (arrays.backing header.array).elements.length := by omega
  unfold swapRemoveFirst
  simp only [found, List.getElem?_eq_getElem inside]
  refine ⟨rfl, rfl, List.length_set, ⟨?_, ?_⟩, ?_, ?_⟩
  · rwa [List.length_set]
  · rw [backing_set_self allocated, List.length_set]
    exact Nat.le_trans (Nat.sub_le _ 1) written
  · rw [slot, slot, backing_set_self allocated, List.getElem?_set_self (by omega),
      List.getElem?_eq_getElem inside]
  · intro array i apart
    by_cases same : array = header.array
    · subst same
      rw [slot, slot, backing_set_self allocated, List.getElem?_set_ne (Ne.symm (apart rfl))]
    · rw [slot, slot, backing_set_ne (Ne.symm same)]

/-- Where an element occurs once at most, the loop has nothing to do after its `break`. -/
theorem swapRemove_eq_first [DecidableEq α] {x : α} {index : Nat} (within : header.Within arrays)
    (covered : index < header.length) (here : arrays.slot header.array index = some x)
    (unique : ∀ i, i < header.length → arrays.slot header.array i = some x → i = index) :
    arrays.swapRemove header x = .ok (arrays.swapRemoveFirst header x) := by
  have found := find_unique covered here unique
  have inside : header.length - 1 < (arrays.backing header.array).elements.length :=
    Nat.lt_of_lt_of_le (Nat.sub_lt (Nat.zero_lt_of_lt covered) Nat.one_pos) within.written
  obtain ⟨more, split⟩ := Nat.exists_eq_add_of_lt covered
  have ahead : ∀ i ∈ List.range index, (arrays.backing header.array).elements[i]? ≠ some x :=
    fun i range same =>
      have before : i < index := List.mem_range.mp range
      Nat.ne_of_lt before (unique i (Nat.lt_trans before covered) same)
  have turn : swapRemoveTurn x ⟨(arrays.backing header.array).elements, header.length⟩ index =
      .ok ⟨(arrays.backing header.array).elements.set index
        ((arrays.backing header.array).elements[header.length - 1]), header.length - 1⟩ := by
    have standing : (arrays.backing header.array).elements[index]? = some x := here
    simp only [swapRemoveTurn, standing, if_true, List.getElem?_eq_getElem inside, covered]
  have behind : ∀ i ∈ List.range' (index + 1) more,
      ((arrays.backing header.array).elements.set index
        ((arrays.backing header.array).elements[header.length - 1]))[i]? ≠ some x := by
    intro i range same
    obtain ⟨after, bounded⟩ := List.mem_range'_1.mp range
    rw [List.getElem?_set_ne (Nat.ne_of_lt after)] at same
    exact Nat.ne_of_gt after (unique i (by omega) same)
  have rest := @turns_absent _ _ x ⟨_, header.length - 1⟩ _ behind
  have indices : List.range header.length =
      List.range index ++ index :: List.range' (index + 1) more := by
    have joined : List.range' 0 index ++ List.range' (0 + index) (more + 1) =
        List.range' 0 (index + (more + 1)) := List.range'_append_1
    rw [List.range_eq_range', List.range_eq_range', split, Nat.add_assoc, ← joined, Nat.zero_add,
      List.range'_succ]
  rw [swapRemove, indices, List.foldlM_append, turns_absent ahead]
  simp only [bind, Except.bind, List.foldlM_cons, turn, rest]
  rw [swapRemoveFirst]
  simp only [found, List.getElem?_eq_getElem inside]
  rfl

theorem swapRemove_absent [DecidableEq α] {x : α} (within : header.Within arrays)
    (absent : x ∉ arrays.list header) : arrays.swapRemove header x = .ok (arrays, header) := by
  have notAt : ∀ i ∈ List.range header.length, (arrays.backing header.array).elements[i]? ≠ some x := by
    intro i range found
    refine absent (List.mem_of_getElem? (i := i) ?_)
    rw [list_getElem?, if_pos (List.mem_range.mp range)]
    exact found
  have kept : arrays.set header.array (arrays.backing header.array) = arrays := by
    rw [backing, List.getElem?_eq_getElem within.allocated, Option.getD_some,
      List.set_getElem_self]
  rw [swapRemove, turns_absent notAt]
  simp [bind, Except.bind, pure, Except.pure, kept]

end Arrays
end Go
