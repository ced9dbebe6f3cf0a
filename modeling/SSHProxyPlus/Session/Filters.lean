import SSHProxyPlus.Session.Channel

/-! Filters and callbacks taken out of a user's lists: what is left, and in which order the
filters run from then on. -/
namespace SSHProxyPlus
open Go

namespace ProxyUser

/-- Filters run in the order they were added in, whichever are removed meanwhile. -/
def KeepsOrder (user : ProxyUser) (i : Nat) : Prop :=
  ∀ function, user.channelFilters[i]? = some function →
    ∃ after, user.removeChannelFilter function = .ok after ∧ ∀ fn data, after.runFilters fn data =
      ({ user with channelFilters := user.channelFilters.eraseIdx i } : ProxyUser).runFilters fn data

theorem removeChannelFilter_ok {user : ProxyUser} {function : FilterRef} {rest : List FilterRef}
    (removed : swapRemove user.channelFilters function = .ok rest) :
    user.removeChannelFilter function = .ok { user with channelFilters := rest } := by
  rw [removeChannelFilter, removed]
  rfl

theorem runFilters_marks (user : ProxyUser) (mark : FilterRef → UInt8) (data : Bytes) :
    user.runFilters (fun f data => data ++ [mark f]) data =
      data ++ user.channelFilters.map mark := by
  obtain ⟨_, _, _, _, _, _, filters⟩ := user
  unfold runFilters
  dsimp only
  induction filters generalizing data with
  | nil => rw [List.foldl_nil, List.map_nil, List.append_nil]
  | cons f filters ih =>
    rw [List.foldl_cons, ih, List.map_cons, List.append_assoc, List.singleton_append]

/-- What filters make of data tells two lists of them apart: let one of the filters append a
one, and all others a zero. -/
theorem runFilters_agree {user other : ProxyUser} :
    (∀ fn data, user.runFilters fn data = other.runFilters fn data) ↔
      user.channelFilters = other.channelFilters := by
  constructor
  · intro agree
    have marks (mark : FilterRef → UInt8) :
        user.channelFilters.map mark = other.channelFilters.map mark := by
      have same := agree (fun f data => data ++ [mark f]) []
      rwa [runFilters_marks, runFilters_marks, List.nil_append, List.nil_append] at same
    refine List.ext_getElem? fun i => ?_
    have at_i (f : FilterRef) := congrArg (·[i]?) (marks fun g => if g = f then 1 else 0)
    simp only [List.getElem?_map] at at_i
    cases mine : user.channelFilters[i]? with
    | none =>
      have missing := at_i 0
      rw [mine] at missing
      exact (Option.map_eq_none_iff.mp missing.symm).symm
    | some f =>
      have found := at_i f
      rw [mine] at found
      obtain ⟨g, theirs, marked⟩ := Option.map_eq_some_iff.mp found.symm
      rw [theirs]
      by_contra apart
      have other : g ≠ f := fun same => apart (same ▸ rfl)
      simp [other] at marked
  · intro same fn data
    rw [runFilters, runFilters, same]

/-- The last filter takes the place of the one that is removed: the order is kept where there
is no filter between them. -/
theorem filters_keep_order (user : ProxyUser) (distinct : user.channelFilters.Nodup) {i : Nat}
    (within : i < user.channelFilters.length) :
    user.KeepsOrder i ↔ user.channelFilters.length ≤ i + 2 := by
  obtain ⟨before, f, after, split, rfl⟩ : ∃ before f after,
      user.channelFilters = before ++ f :: after ∧ before.length = i :=
    ⟨user.channelFilters.take i, user.channelFilters[i], user.channelFilters.drop (i + 1),
      by rw [List.getElem_cons_drop, List.take_append_drop], List.length_take_of_le within.le⟩
  rw [split] at distinct
  obtain ⟨unique, distinct⟩ := List.nodup_cons.mp (List.nodup_middle.mp distinct)
  have removed : user.removeChannelFilter f =
      .ok { user with channelFilters := before ++ after.getLast?.toList ++ after.dropLast } :=
    removeChannelFilter_ok <| by
      rw [split]
      exact swapRemove_once (fun found => unique (List.mem_append_left after found))
        (fun found => unique (List.mem_append_right before found))
  have here : user.channelFilters[before.length]? = some f := by
    rw [split, List.getElem?_append_right (Nat.le_refl _), Nat.sub_self, List.getElem?_cons_zero]
  have others : user.channelFilters.eraseIdx before.length = before ++ after := by
    rw [split, List.eraseIdx_append_of_length_le (Nat.le_refl _), Nat.sub_self,
      List.eraseIdx_cons_zero]
  have order : user.KeepsOrder before.length ↔
      before ++ after.getLast?.toList ++ after.dropLast = before ++ after := by
    rw [KeepsOrder, here, others]
    simp only [Option.some.injEq, forall_eq', removed, Except.ok.injEq, exists_eq_left',
      runFilters_agree]
  have size : user.channelFilters.length ≤ before.length + 2 ↔ after.length ≤ 1 := by
    rw [split, List.length_append, List.length_cons]
    omega
  rw [order, size, List.append_assoc, List.append_cancel_left_eq]
  constructor
  · intro same
    obtain rfl | ⟨init, last, rfl⟩ := List.eq_nil_or_concat' after
    · exact Nat.zero_le 1
    · cases init with
      | nil => exact Nat.le_refl 1
      | cons between init =>
        have ends : (between :: init ++ [last]).getLast? = some last := List.getLast?_concat
        rw [ends] at same
        obtain ⟨rfl, -⟩ := List.cons.inj same
        simp [List.nodup_append] at distinct
  · intro few
    match after, few with
    | [], _ => rfl
    | [last], _ => rfl

/-- The filter next to the end goes, and the last one steps in its place. -/
theorem filters_keep_order_second : ({ channelFilters := [0, 1] } : ProxyUser).KeepsOrder 0 :=
  (filters_keep_order { channelFilters := [0, 1] } (by decide) (by decide)).mpr (by decide)

/-- With three filters, the removal of the first puts the third before the second. -/
theorem first_filter_reorders :
    ¬ ∀ (user : ProxyUser), user.channelFilters.Nodup → ∀ i < user.channelFilters.length,
      user.KeepsOrder i := by
  intro always
  obtain ⟨after, removed, agree⟩ := always { channelFilters := [0, 1, 2] } (by decide) 0 (by decide) 0 rfl
  obtain rfl := Except.ok.inj removed
  exact absurd (runFilters_agree.mp agree) (by decide)

/-- The callback is gone from the list, and each of the others is in it as often as before. -/
def RemovesCallback (user : ProxyUser) (callback : CallbackRef) : Prop :=
  ∃ rest, user.removeEventCallback (some callback) = .ok { user with eventCallbacks := rest } ∧
    LeavesOthers user.eventCallbacks callback rest

def RemovesFilter (user : ProxyUser) (function : FilterRef) : Prop :=
  ∃ rest, user.removeChannelFilter function = .ok { user with channelFilters := rest } ∧
    LeavesOthers user.channelFilters function rest

theorem removal_clears (user : ProxyUser) (callback : CallbackRef) (function : FilterRef) :
    (user.RemovesCallback callback ↔ Clears callback user.eventCallbacks) ∧
      (user.RemovesFilter function ↔ Clears function user.channelFilters) := by
  rw [← swapRemove_clears, ← swapRemove_clears]
  constructor
  · refine exists_congr fun rest => and_congr_left fun _ => ?_
    rw [removeEventCallback]
    cases swapRemove user.eventCallbacks callback with
    | error panic => simp [bind, Except.bind]
    | ok left => simp [bind, Except.bind, pure, Except.pure]
  · refine exists_congr fun rest => and_congr_left fun _ => ?_
    rw [removeChannelFilter]
    cases swapRemove user.channelFilters function with
    | error panic => simp [bind, Except.bind]
    | ok left => simp [bind, Except.bind, pure, Except.pure]

/-- A callback registered twice: the second copy takes the place of the first, and is out of
range when the loop comes to where it stood. -/
theorem callback_twice_panics :
    ({ eventCallbacks := [0, 0] } : ProxyUser).removeEventCallback (some 0) =
        .error .indexOutOfRange ∧
      ¬ ∀ user callback, RemovesCallback user callback := by
  have panics : ({ eventCallbacks := [0, 0] } : ProxyUser).removeEventCallback (some 0) =
      .error .indexOutOfRange := rfl
  refine ⟨panics, fun always => ?_⟩
  obtain ⟨rest, returned, -⟩ := always { eventCallbacks := [0, 0] } 0
  exact absurd (panics.symm.trans returned) (by simp)

end ProxyUser
end SSHProxyPlus
