import SSHProxyPlus.Session.EventCalls

/-! The order of the offsets in a session's list: a call that has read the clock may be overtaken
before it has appended its event. -/
namespace SSHProxyPlus
namespace EventCalls
open Go Transition

def Ordered (state : EventCalls) : Prop :=
  (state.recorded.map (·.timeOffset)).Pairwise (· ≤ ·)

/-- No call appends its event while another one, that read the clock in an earlier millisecond,
has not appended its own. -/
def Unovertaken (state : EventCalls) : CallAction → Prop
  | .append i => ∀ call, state.calls[i]? = some call → ∀ (j : Nat) (other : EventCall),
      state.calls[j]? = some other → other.point = .stamped →
        call.event.timeOffset ≤ other.event.timeOffset
  | _ => True

/-- In order, and no call that still has to append its event is late. -/
structure InTime (state : EventCalls) : Prop where
  ordered : state.Ordered
  waiting : ∀ event ∈ state.recorded, ∀ (j : Nat) (other : EventCall),
    state.calls[j]? = some other → other.point = .stamped →
      event.timeOffset ≤ other.event.timeOffset

variable {state state' : EventCalls} {action : CallAction}

/-- The delay before the next event is not negative. -/
theorem Ordered.delay {k : Nat} {current next : SessionEvent} (ordered : state.Ordered)
    (here : state.recorded[k]? = some current) (after : state.recorded[k + 1]? = some next) :
    0 ≤ next.timeOffset.toInt - current.timeOffset.toInt := by
  obtain ⟨first, rfl⟩ := List.getElem?_eq_some_iff.mp here
  obtain ⟨second, rfl⟩ := List.getElem?_eq_some_iff.mp after
  have pair := List.pairwise_iff_getElem.mp (List.pairwise_map.mp ordered) k (k + 1) first second
    (Nat.lt_succ_self k)
  have := Int64.le_iff_toInt_le.mp pair
  omega

/-- What is recorded was stamped by now. -/
theorem Sound.recorded_le (sound : state.Sound) : ∀ event ∈ state.recorded,
    event.timeOffset ≤ state.session.getTimeOffset state.clock := by
  intro event member
  obtain ⟨i, listed, found⟩ := List.mem_filterMap.mp member
  obtain ⟨call, here, appended⟩ := sound.listed i listed
  rw [here] at found
  obtain rfl := Option.some.inj found
  refine sound.stamps i call here ?_
  rw [appended]
  decide

theorem ordered_append {i : Nat} {call : EventCall} (here : state.calls[i]? = some call)
    (recorded : state'.recorded = state.recorded ++ state.added (.append i)) :
    state'.Ordered ↔ state.Ordered ∧
      ∀ event ∈ state.recorded, event.timeOffset ≤ call.event.timeOffset := by
  unfold Ordered
  rw [recorded, added, here, List.map_append, List.pairwise_append]
  simp

theorem ordered_same (recorded : state'.recorded = state.recorded ++ []) :
    state'.Ordered ↔ state.Ordered := by
  unfold Ordered
  rw [recorded, List.append_nil]

/-- A step that adds nothing to the list has only the calls to mind that wait after it. -/
theorem InTime.carry (inTime : state.InTime) (recorded : state'.recorded = state.recorded ++ [])
    (waiting : ∀ event ∈ state.recorded, ∀ (j : Nat) (other : EventCall),
      state'.calls[j]? = some other → other.point = .stamped →
        event.timeOffset ≤ other.event.timeOffset) : state'.InTime := by
  constructor
  · exact (ordered_same recorded).mpr inTime.ordered
  · rw [recorded, List.append_nil]
    exact waiting

/-- A step keeps the calls in time exactly where it overtakes nobody. -/
theorem InTime.step_iff (sound : state.Sound) (inTime : state.InTime)
    (taken : Takes state action state') : state'.InTime ↔ state.Unovertaken action := by
  have recorded := recorded_step sound taken
  cases moves_iff.mp taken with
  | handleEvent =>
    refine iff_of_true (inTime.carry recorded ?_) trivial
    intro event member j other there stamped
    rcases getElem?_concat_cases there with ⟨-, rfl⟩ | there
    · contradiction
    · exact inTime.waiting event member j other there stamped
  | @stamp i now call here entered later =>
    refine iff_of_true (inTime.carry recorded ?_) trivial
    intro event member j other there stamped
    rcases getElem?_set_cases there with ⟨-, rfl⟩ | ⟨-, there⟩
    · exact Int64.le_trans (sound.recorded_le event member) (getTimeOffset_mono later)
    · exact inTime.waiting event member j other there stamped
  | @append i call here stamped =>
    constructor
    · intro after other' here' j other there waiting
      obtain rfl := Option.some.inj (here.symm.trans here')
      by_cases same : i = j
      · subst same
        obtain rfl := Option.some.inj (here.symm.trans there)
        exact Int64.le_refl _
      · refine after.waiting call.event ?_ j other ((List.getElem?_set_ne same).trans there) waiting
        rw [recorded, added, here]
        exact List.mem_append_right _ List.mem_cons_self
    · intro first
      refine ⟨(ordered_append here recorded).mpr ⟨inTime.ordered, ?_⟩, ?_⟩
      · intro event member
        exact inTime.waiting event member i call here stamped
      · rw [recorded, added, here]
        intro event member j other there waiting
        rcases getElem?_set_cases there with ⟨-, rfl⟩ | ⟨-, there⟩
        · contradiction
        · rcases List.mem_append.mp member with before | last
          · exact inTime.waiting event before j other there waiting
          · obtain rfl := List.mem_singleton.mp last
            exact first call here j other there waiting
  | @visit i call callback here next =>
    refine iff_of_true (inTime.carry recorded ?_) trivial
    intro event member j other there stamped
    rcases getElem?_set_cases there with ⟨-, rfl⟩ | ⟨-, there⟩
    · exact inTime.waiting event member i call here stamped
    · exact inTime.waiting event member j other there stamped

/-- Once they are out of order, or one is late, no step mends that. -/
theorem InTime.before (sound : state.Sound) (taken : Takes state action state')
    (inTime : state'.InTime) : state.InTime := by
  have recorded := recorded_step sound taken
  have listed (event : SessionEvent) (member : event ∈ state.recorded) :
      event ∈ state'.recorded := by
    rw [recorded]
    exact List.mem_append_left _ member
  cases moves_iff.mp taken with
  | handleEvent =>
    refine ⟨(ordered_same recorded).mp inTime.ordered, ?_⟩
    intro event member j other there stamped
    exact inTime.waiting event (listed event member) j other (getElem?_append_kept there) stamped
  | @stamp i now call here entered later =>
    refine ⟨(ordered_same recorded).mp inTime.ordered, ?_⟩
    intro event member j other there stamped
    have apart : i ≠ j := by
      rintro rfl
      obtain rfl := Option.some.inj (here.symm.trans there)
      rw [entered] at stamped
      contradiction
    exact inTime.waiting event (listed event member) j other
      ((List.getElem?_set_ne apart).trans there) stamped
  | @append i call here stamped =>
    obtain ⟨ordered, late⟩ := (ordered_append here recorded).mp inTime.ordered
    refine ⟨ordered, ?_⟩
    intro event member j other there waiting
    by_cases same : i = j
    · subst same
      obtain rfl := Option.some.inj (here.symm.trans there)
      exact late event member
    · exact inTime.waiting event (listed event member) j other
        ((List.getElem?_set_ne same).trans there) waiting
  | @visit i call callback here next =>
    refine ⟨(ordered_same recorded).mp inTime.ordered, ?_⟩
    intro event member j other there stamped
    by_cases same : i = j
    · subst same
      obtain rfl := Option.some.inj (here.symm.trans there)
      exact inTime.waiting event (listed event member) i (call.visit callback)
        (List.getElem?_set_self (List.getElem?_eq_some_iff.mp here).1) stamped
    · exact inTime.waiting event (listed event member) j other
        ((List.getElem?_set_ne same).trans there) stamped

theorem Initial.inTime (initial : state.Initial) : state.InTime := by
  have none : state.recorded = [] := by
    unfold recorded
    rw [initial.events]
    rfl
  constructor
  · unfold Ordered
    rw [none]
    exact List.Pairwise.nil
  · rw [none]
    exact List.forall_mem_nil _

/-- Where no call is overtaken the offsets are in order in every state; and where they are in
order once all calls have appended, no call was overtaken. -/
theorem offsets_ordered {history : List (EventCalls × CallAction)} (initial : state.Initial)
    (passes : Passes Takes state history state') :
    ((∀ entry ∈ history, entry.1.Unovertaken entry.2) →
      (∀ entry ∈ history, entry.1.Ordered) ∧ state'.Ordered) ∧
    ((∀ call ∈ state'.calls, call.point ≠ .stamped) → state'.Ordered →
      ∀ entry ∈ history, entry.1.Unovertaken entry.2) := by
  have kept (s : EventCalls) (a : CallAction) (t : EventCalls) (sound : s.Sound)
      (taken : Takes s a t) : t.Sound := sound.step taken
  have each (s : EventCalls) (a : CallAction) (t : EventCalls) (sound : s.Sound)
      (inTime : s.InTime) (taken : Takes s a t) : t.InTime ↔ s.Unovertaken a :=
    inTime.step_iff sound taken
  constructor
  · intro first
    obtain ⟨states, last⟩ :=
      (passes_keeps_iff passes kept each initial.sound initial.inTime).mpr first
    exact ⟨fun entry member => (states entry member).ordered, last.ordered⟩
  · intro done ordered
    have lost (s : EventCalls) (a : CallAction) (t : EventCalls) (sound : s.Sound)
        (taken : Takes s a t) (inTime : t.InTime) : s.InTime := inTime.before sound taken
    apply (passes_last_iff passes kept each lost initial.sound initial.inTime).mp
    refine ⟨ordered, ?_⟩
    intro event member j other there stamped
    exact absurd stamped (done other (List.mem_of_getElem? there))

/-- A session at the start of its clock. -/
def quiet : EventCalls := { session := { startTime := 0 }, clock := 0 }

theorem quiet_initial : quiet.Initial := ⟨rfl, rfl⟩

/-- Two messages are handled at a time. The second reads the clock while the first has yet to be
appended, two milliseconds after the first did. -/
theorem offsets_ordered_messages : ∃ history state',
    history.map Prod.snd =
      [.handleEvent { type := eventMessage } [], .handleEvent { type := eventMessage } [],
        .stamp 0 (10 ^ 6), .stamp 1 (3 * 10 ^ 6), .append 0, .append 1] ∧
      Passes Takes quiet history state' ∧ state'.recorded.map (·.timeOffset) = [1, 3] ∧
      state'.Ordered := by
  have passes : Passes Takes quiet [(_, .handleEvent { type := eventMessage } []),
      (_, .handleEvent { type := eventMessage } []), (_, .stamp 0 (10 ^ 6)),
      (_, .stamp 1 (3 * 10 ^ 6)), (_, .append 0), (_, .append 1)] _ :=
    ⟨rfl, _, rfl, rfl, _, rfl, rfl, _, rfl, rfl, _, rfl, rfl, _, rfl, rfl, _, rfl, rfl⟩
  refine ⟨_, _, rfl, passes, by decide, ((offsets_ordered quiet_initial passes).1 ?_).2⟩
  intro entry member
  simp only [List.mem_cons, List.not_mem_nil, or_false] at member
  rcases member with rfl | rfl | rfl | rfl | rfl | rfl
  · trivial
  · trivial
  · trivial
  · trivial
  · rintro call ⟨⟩ (_ | _ | j) other there -
    · obtain rfl := Option.some.inj there
      exact Int64.le_refl _
    · obtain rfl := Option.some.inj there
      decide
    · contradiction
  · rintro call ⟨⟩ (_ | _ | j) other there stamped
    · obtain rfl := Option.some.inj there
      contradiction
    · obtain rfl := Option.some.inj there
      exact Int64.le_refl _
    · contradiction

/-- Two events: the first is stamped, a millisecond passes, and the second is stamped and appended
before it. -/
theorem offsets_overtaken : ¬∀ state actions state', state.Initial →
    Follows Takes state actions state' → state'.Ordered := by
  intro claim
  have follows : Follows Takes quiet
      [.handleEvent { type := eventMessage } [], .handleEvent { type := eventMessage } [],
        .stamp 0 0, .stamp 1 (10 ^ 6), .append 1, .append 0] _ :=
    ⟨_, rfl, _, rfl, _, rfl, _, rfl, _, rfl, _, rfl, rfl⟩
  have ordered := claim _ _ _ quiet_initial follows
  exact absurd ordered (by unfold Ordered; decide)

end EventCalls
end SSHProxyPlus
