import SSHProxyPlus.Go.Nil

/-! Slices that shrink while a `range` loop runs over them: the loop keeps the length
and the backing array it started with. -/
namespace Go

variable {α : Type} [DecidableEq α]

/-- The loop's view: the backing array, and how much of it the slice still covers. -/
structure Shrinking (α : Type) where
  backing : List α
  length : Nat

/-- One turn: where the element is the one to remove, the last one of the slice takes its
place and the slice loses its end. -/
def swapRemoveTurn (x : α) (s : Shrinking α) (index : Nat) : Except Panic (Shrinking α) :=
  if s.backing[index]? = some x then
    match s.backing[s.length - 1]? with
    | some last =>
        if index < s.length then .ok ⟨s.backing.set index last, s.length - 1⟩
        else .error .indexOutOfRange
    | none => .error .indexOutOfRange
  else .ok s

/-- `for index, value := range list { if value == x { … } }`, without a `break`. -/
def swapRemove (list : List α) (x : α) : Except Panic (List α) := do
  let s ← (List.range list.length).foldlM (swapRemoveTurn x) ⟨list, list.length⟩
  return s.backing.take s.length

theorem turns_absent {x : α} {s : Shrinking α} {indices : List Nat}
    (absent : ∀ i ∈ indices, s.backing[i]? ≠ some x) :
    indices.foldlM (swapRemoveTurn x) s = .ok s := by
  induction indices with
  | nil => rfl
  | cons i indices ih =>
    have first : swapRemoveTurn x s i = .ok s := if_neg (absent i List.mem_cons_self)
    rw [List.foldlM_cons, first]
    exact ih fun j member => absent j (List.mem_cons_of_mem i member)

theorem turns_beyond {x : α} {backing : List α} {length : Nat} {indices : List Nat}
    (beyond : ∀ i ∈ indices, length ≤ i) (present : ∃ i ∈ indices, backing[i]? = some x) :
    indices.foldlM (swapRemoveTurn x) ⟨backing, length⟩ = .error .indexOutOfRange := by
  induction indices with
  | nil => simp at present
  | cons i indices ih =>
    rw [List.foldlM_cons]
    by_cases here : backing[i]? = some x
    · have out : ¬ i < length := Nat.not_lt.mpr (beyond i List.mem_cons_self)
      have failed : swapRemoveTurn x ⟨backing, length⟩ i = .error .indexOutOfRange := by
        rw [swapRemoveTurn, if_pos here]
        dsimp only
        split
        · rw [if_neg out]
        · rfl
      rw [failed]
      rfl
    · have passed : swapRemoveTurn x ⟨backing, length⟩ i = .ok ⟨backing, length⟩ := if_neg here
      rw [passed]
      refine ih (fun j member => beyond j (List.mem_cons_of_mem i member)) ?_
      obtain ⟨j, member, found⟩ := present
      obtain rfl | later := List.mem_cons.mp member
      · exact absurd found here
      · exact ⟨j, later, found⟩

/-- What lies beyond the end of the slice is not looked for in vain. -/
theorem turns_lost {x : α} (front tail : List α) {length : Nat} (short : length ≤ front.length) :
    (List.range' front.length tail.length).foldlM (swapRemoveTurn x) ⟨front ++ tail, length⟩ =
      if x ∈ tail then .error .indexOutOfRange else .ok ⟨front ++ tail, length⟩ := by
  split
  · next member =>
    obtain ⟨j, within, found⟩ := List.getElem_of_mem member
    refine turns_beyond (fun i range => ?_) ⟨front.length + j, ?_, ?_⟩
    · exact short.trans (List.mem_range'_1.mp range).1
    · exact List.mem_range'_1.mpr ⟨Nat.le_add_right _ _, Nat.add_lt_add_left within _⟩
    · rw [List.getElem?_append_right (Nat.le_add_right _ _), Nat.add_sub_cancel_left,
        List.getElem?_eq_getElem within, found]
  · next absent =>
    refine turns_absent fun i range found => absent ?_
    rw [List.getElem?_append_right (List.mem_range'_1.mp range).1] at found
    exact List.mem_of_getElem? found

/-- The turns that are left once `front` is done with: `window` is what the slice still covers,
`tail` what it has lost. -/
def turnsFrom (x : α) (front window tail : List α) : Except Panic (Shrinking α) :=
  (List.range' front.length (window.length + tail.length)).foldlM (swapRemoveTurn x)
    ⟨front ++ (window ++ tail), front.length + window.length⟩

theorem turnsFrom_next {x v : α} (other : v ≠ x) (front window tail : List α) :
    turnsFrom x front (v :: window) tail = turnsFrom x (front ++ [v]) window tail := by
  have here : (front ++ (v :: window ++ tail))[front.length]? = some v := by simp
  have passed : swapRemoveTurn x ⟨front ++ (v :: window ++ tail),
      front.length + (v :: window).length⟩ front.length =
        .ok ⟨front ++ (v :: window ++ tail), front.length + (v :: window).length⟩ := by
    rw [swapRemoveTurn, here, if_neg fun same => other (Option.some.inj same)]
  rw [turnsFrom, turnsFrom, show (v :: window).length + tail.length =
    window.length + tail.length + 1 by simp only [List.length_cons]; omega, List.range'_succ,
    List.foldlM_cons, passed]
  simp only [bind, Except.bind, List.length_append, List.length_cons, List.length_nil,
    List.append_assoc, List.cons_append, List.nil_append, Nat.zero_add, Nat.add_assoc, Nat.add_comm 1]

theorem turnsFrom_found {x last : α} (front init tail : List α) :
    turnsFrom x front (x :: (init ++ [last])) tail =
      turnsFrom x (front ++ [last]) init (last :: tail) := by
  have taken : swapRemoveTurn x ⟨front ++ (x :: (init ++ [last]) ++ tail),
      front.length + (x :: (init ++ [last])).length⟩ front.length =
        .ok ⟨front ++ [last] ++ (init ++ last :: tail), front.length + (init.length + 1)⟩ := by
    have ends : (front ++ (x :: (init ++ [last]) ++ tail))[front.length + (init.length + 1)]? =
        some last := by
      simp
    have here : (front ++ (x :: (init ++ [last]) ++ tail))[front.length]? = some x := by simp
    rw [swapRemoveTurn, here, if_pos rfl]
    simp only [List.length_cons, List.length_append, List.length_nil, Nat.zero_add]
    rw [show front.length + (init.length + 1 + 1) - 1 = front.length + (init.length + 1) by omega,
      ends]
    dsimp only
    rw [if_pos (by omega)]
    simp
  rw [turnsFrom, turnsFrom, show (x :: (init ++ [last])).length + tail.length =
    init.length + (last :: tail).length + 1 by simp; omega, List.range'_succ, List.foldlM_cons,
    taken]
  simp only [bind, Except.bind, List.length_append, List.length_singleton, Nat.add_assoc,
    Nat.add_comm 1]

/-- The last element of the slice is the one that is found. -/
theorem turnsFrom_last (x : α) (front tail : List α) :
    turnsFrom x front [x] tail = if x ∈ tail then .error .indexOutOfRange
      else .ok ⟨front ++ x :: tail, front.length⟩ := by
  have taken : swapRemoveTurn x ⟨front ++ x :: tail, front.length + 1⟩ front.length =
      .ok ⟨front ++ x :: tail, front.length⟩ := by
    simp [swapRemoveTurn]
  have lost := @turns_lost _ _ x (front ++ [x]) tail front.length (by simp)
  rw [List.append_assoc, List.singleton_append, List.length_append, List.length_singleton] at lost
  rw [turnsFrom, show [x].length + tail.length = tail.length + 1 by simp; omega,
    List.range'_succ, List.foldlM_cons]
  simp only [List.singleton_append, List.length_singleton, taken, bind, Except.bind]
  exact lost

theorem turnsFrom_skip {x : α} {before : List α} (notBefore : x ∉ before)
    (front window tail : List α) :
    turnsFrom x front (before ++ window) tail = turnsFrom x (front ++ before) window tail := by
  induction before generalizing front with
  | nil => rw [List.nil_append, List.append_nil]
  | cons v before ih =>
    obtain ⟨other, absent⟩ := not_or.mp (mt List.mem_cons.mpr notBefore)
    rw [List.cons_append, turnsFrom_next (Ne.symm other), ih absent, List.append_assoc,
      List.singleton_append]

theorem turnsFrom_nil (x : α) (front tail : List α) :
    turnsFrom x front [] tail = if x ∈ tail then .error .indexOutOfRange
      else .ok ⟨front ++ tail, front.length⟩ := by
  simpa [turnsFrom] using turns_lost front tail (Nat.le_refl front.length)

/-- Wherever the element stands, enough others follow to fill the gaps it has left before. -/
def Clears (x : α) (list : List α) : Prop :=
  ∀ before after, list = before ++ x :: after → before.count x ≤ after.length

theorem clears_cons_ne {x v : α} (other : v ≠ x) (list : List α) :
    Clears x (v :: list) ↔ Clears x list := by
  constructor
  · rintro clears before after rfl
    have room := clears (v :: before) after rfl
    rwa [List.count_cons_of_ne other] at room
  · intro clears before after same
    cases before with
    | nil => exact absurd (List.cons.inj same).1 other
    | cons w before =>
      obtain ⟨rfl, split⟩ := List.cons.inj same
      rw [List.count_cons_of_ne other]
      exact clears before after split

theorem clears_cons_self {x last : α} (init : List α) :
    Clears x (x :: (init ++ [last])) ↔ x ≠ last ∧ Clears x init := by
  constructor
  · intro clears
    constructor
    · rintro rfl
      have room := clears (x :: init) [] rfl
      simp at room
    · rintro before after rfl
      have room := clears (x :: before) (after ++ [last]) (by simp)
      simpa using room
  · rintro ⟨other, clears⟩ before after same
    cases before with
    | nil => exact Nat.zero_le _
    | cons w before =>
      obtain ⟨rfl, split⟩ := List.cons.inj same
      obtain rfl | ⟨after, final, rfl⟩ := List.eq_nil_or_concat' after
      · obtain ⟨-, ends⟩ := List.append_inj' split rfl
        exact absurd (List.cons.inj ends).1.symm other
      · have longer : init ++ [last] = (before ++ x :: after) ++ [final] := by
          rw [List.append_assoc, List.cons_append]
          exact split
        have room := clears before after (List.append_inj' longer rfl).1
        simpa using room

theorem clears_nil (x : α) : Clears x [] := fun before after same => by simp at same

theorem clears_singleton (x : α) : Clears x [x] := by
  intro before after same
  cases before with
  | nil => exact Nat.zero_le _
  | cons w before => simp at same

/-- How the loop ends, with `front` done and `tail` lost. -/
def Outcome (x : α) (front window tail : List α) (result : Except Panic (Shrinking α)) : Prop :=
  (Clears x window ∧ x ∉ tail ∧ ∃ s, result = .ok s ∧ ∀ y,
    (s.backing.take s.length).count y = front.count y + if y = x then 0 else window.count y) ∨
  (¬ (Clears x window ∧ x ∉ tail) ∧ result = .error .indexOutOfRange)

/-- By the length of what the slice still covers: a turn takes one element from its front, and,
where that is the one to remove, one from its end. -/
theorem turnsFrom_outcome (x : α) (front window tail : List α) :
    Outcome x front window tail (turnsFrom x front window tail) := by
  induction size : window.length using Nat.strong_induction_on generalizing front window tail with
  | _ n ih =>
    subst size
    cases window with
    | nil =>
      rw [turnsFrom_nil]
      split
      · next member => exact .inr ⟨fun both => both.2 member, rfl⟩
      · next absent => exact .inl ⟨clears_nil x, absent, _, rfl, fun y => by simp⟩
    | cons v window =>
      by_cases found : v = x
      · subst found
        obtain rfl | ⟨init, last, rfl⟩ := List.eq_nil_or_concat' window
        · rw [turnsFrom_last]
          split
          · next member => exact .inr ⟨fun both => both.2 member, rfl⟩
          · next absent =>
            refine .inl ⟨clears_singleton v, absent, _, rfl, fun y => ?_⟩
            rw [List.take_left]
            split
            · rfl
            · next other =>
              rw [List.count_singleton, if_neg (by simpa using Ne.symm other), Nat.add_zero]
        · have shorter : init.length < (v :: (init ++ [last])).length := by
            rw [List.length_cons, List.length_append]
            omega
          rw [turnsFrom_found]
          obtain ⟨clear, absent, s, done, counts⟩ | ⟨unclear, failed⟩ :=
            ih _ shorter (front ++ [last]) init (last :: tail) rfl
          · have other : v ≠ last := fun same => absent (same ▸ List.mem_cons_self)
            refine .inl ⟨(clears_cons_self init).mpr ⟨other, clear⟩,
              fun member => absent (List.mem_cons_of_mem last member), s, done, fun y => ?_⟩
            rw [counts y, List.count_append]
            split
            · next same => rw [List.count_singleton, if_neg (by simpa [same] using other.symm)]
            · next apart =>
              rw [List.count_cons_of_ne (Ne.symm apart), List.count_append]
              omega
          · refine .inr ⟨fun ⟨clear, absent⟩ => unclear ?_, failed⟩
            obtain ⟨other, clear⟩ := (clears_cons_self init).mp clear
            exact ⟨clear, List.not_mem_cons_of_ne_of_not_mem other absent⟩
      · rw [turnsFrom_next found]
        obtain ⟨clear, absent, s, done, counts⟩ | ⟨unclear, failed⟩ :=
          ih _ (Nat.lt_succ_self _) (front ++ [v]) window tail rfl
        · refine .inl ⟨(clears_cons_ne found window).mpr clear, absent, s, done, fun y => ?_⟩
          rw [counts y, List.count_append]
          split
          · next same => rw [List.count_singleton, if_neg (by simpa [same] using found)]
          · rw [Nat.add_assoc, ← List.count_append, List.singleton_append]
        · exact .inr ⟨fun both => unclear ⟨(clears_cons_ne found window).mp both.1, both.2⟩, failed⟩

/-- `rest` is the list without `x`, in whatever order. -/
def LeavesOthers (list : List α) (x : α) (rest : List α) : Prop :=
  ∀ y, rest.count y = if y = x then 0 else list.count y

theorem swapRemove_turnsFrom (list : List α) (x : α) :
    swapRemove list x = turnsFrom x [] list [] >>= fun s => pure (s.backing.take s.length) := by
  simp [swapRemove, turnsFrom, List.range_eq_range']

/-- The loop copes with the repetitions of an element exactly where others fill its gaps. -/
theorem swapRemove_clears (list : List α) (x : α) :
    (∃ rest, swapRemove list x = .ok rest ∧ LeavesOthers list x rest) ↔ Clears x list := by
  rw [swapRemove_turnsFrom]
  obtain ⟨clear, -, s, done, counts⟩ | ⟨unclear, failed⟩ := turnsFrom_outcome x [] list []
  · refine ⟨fun _ => clear, fun _ => ⟨_, by rw [done]; rfl, fun y => ?_⟩⟩
    rw [counts y, List.count_nil, Nat.zero_add]
  · rw [failed]
    constructor
    · rintro ⟨rest, returned, -⟩
      contradiction
    · exact fun clear => absurd ⟨clear, List.not_mem_nil⟩ unclear

/-- Elsewhere it reaches for an element that the slice has lost. -/
theorem swapRemove_unclear {list : List α} {x : α} (unclear : ¬ Clears x list) :
    swapRemove list x = .error .indexOutOfRange := by
  rw [swapRemove_turnsFrom]
  obtain ⟨clear, -, -⟩ | ⟨-, failed⟩ := turnsFrom_outcome x [] list []
  · exact absurd clear unclear
  · rw [failed]
    rfl
/-- Whatever the list, what is left of it where the loop returns is right. -/
theorem swapRemove_ok {list rest : List α} {x : α} (removed : swapRemove list x = .ok rest) :
    LeavesOthers list x rest := by
  by_cases clear : Clears x list
  · obtain ⟨rest', removed', others⟩ := (swapRemove_clears list x).mpr clear
    exact Except.ok.inj (removed'.symm.trans removed) ▸ others
  · rw [swapRemove_unclear clear] at removed
    contradiction

/-- An element that occurs once is removed, and the last one stands in its place. -/
theorem swapRemove_once {before after : List α} {x : α} (notBefore : x ∉ before)
    (notAfter : x ∉ after) :
    swapRemove (before ++ x :: after) x =
      .ok (before ++ after.getLast?.toList ++ after.dropLast) := by
  rw [swapRemove_turnsFrom, turnsFrom_skip notBefore]
  obtain rfl | ⟨init, last, rfl⟩ := List.eq_nil_or_concat' after
  · rw [turnsFrom_last, if_neg List.not_mem_nil]
    simp [bind, Except.bind, pure, Except.pure]
  · have apart : x ∉ init ∧ x ∉ [last] := not_or.mp (mt List.mem_append.mpr notAfter)
    have moved := turnsFrom_skip apart.1 ([] ++ before ++ [last]) [] [last]
    rw [List.append_nil] at moved
    rw [turnsFrom_found, moved, turnsFrom_nil, if_neg apart.2]
    simp only [bind, Except.bind, pure, Except.pure, List.take_left]
    simp

/-- Nothing else is lost, and nothing is moved out of bounds. -/
theorem swapRemove_nodup {list : List α} (distinct : list.Nodup) (x : α) :
    ∃ rest, swapRemove list x = .ok rest ∧ rest.Nodup ∧ ∀ y, y ∈ rest ↔ y ∈ list ∧ y ≠ x := by
  have clear : Clears x list := by
    rintro before after rfl
    have unique := List.nodup_iff_count_le_one.mp distinct x
    rw [List.count_append, List.count_cons_self] at unique
    omega
  obtain ⟨rest, removed, others⟩ := (swapRemove_clears list x).mpr clear
  refine ⟨rest, removed, List.nodup_iff_count_le_one.mpr fun y => ?_, fun y => ?_⟩
  · have once := List.nodup_iff_count_le_one.mp distinct y
    rw [others y]
    split
    · exact Nat.zero_le _
    · exact once
  · rw [← List.count_pos_iff, ← List.count_pos_iff, others y]
    split
    · next same => simp [same]
    · next other => simp [other]

end Go
