import SSHProxyPlus.Session.EventCalls

/-! What the callbacks are given: each that the event triggers is invoked once, but with a copy
that may have been made before the event was stamped. -/
namespace SSHProxyPlus
open Go Transition

namespace EventCall

/-- The callback at a place is for events of this type. -/
def triggersAt (call : EventCall) (n : Nat) : Bool :=
  call.callbacks[n]?.any (·.triggers call.event.type)

/-- Each callback that is for the event was invoked once with the event as it is stored, and no
other callback was. -/
def Exact (call : EventCall) : Prop :=
  call.invoked =
    ((List.range call.callbacks.length).filter call.triggersAt).map fun n => (n, call.event)

def Finished (call : EventCall) : Prop := call.visited = call.callbacks.length

/-- What holds of a call whatever comes between its steps. -/
structure Followed (call : EventCall) : Prop where
  once : call.invoked.map Prod.fst = (List.range call.visited).filter call.triggersAt
  early : call.point = .entered → ∀ copy ∈ call.invoked, copy.2 = call.event

def Alike (call : EventCall) : Prop := ∀ copy ∈ call.invoked, copy.2 = call.event

variable {call : EventCall} {callback : SessionCallback}

theorem Followed.exact_iff (followed : call.Followed) (finished : call.Finished) :
    call.Exact ↔ call.Alike := by
  have once := followed.once
  rw [finished] at once
  constructor
  · intro exact copy member
    rw [exact] at member
    obtain ⟨n, -, rfl⟩ := List.mem_map.mp member
    rfl
  · intro alike
    unfold Exact
    rw [← once, List.map_map]
    conv_lhs => rw [← List.map_id call.invoked]
    apply List.map_congr_left
    intro copy member
    rw [← alike copy member]
    rfl

theorem Followed.stamp (followed : call.Followed) (timeOffset : Int64) :
    (call.stamp timeOffset).Followed := ⟨followed.once, fun entered => nomatch entered⟩

theorem Followed.append (followed : call.Followed) : call.append.Followed :=
  ⟨followed.once, fun entered => nomatch entered⟩

theorem mem_visit {copy : Nat × SessionEvent} (member : copy ∈ (call.visit callback).invoked) :
    copy ∈ call.invoked ∨ copy = (call.visited, call.event) := by
  unfold visit at member
  split at member
  · rcases List.mem_append.mp member with before | last
    · exact .inl before
    · exact .inr (List.mem_singleton.mp last)
  · exact .inl member

theorem subset_visit : call.invoked ⊆ (call.visit callback).invoked := by
  intro copy member
  unfold visit
  split
  · exact List.mem_append_left _ member
  · exact member

/-- A copy that is made now is as the event is now. -/
theorem alike_visit : (call.visit callback).Alike ↔ call.Alike := by
  constructor
  · intro alike copy member
    exact alike copy (subset_visit member)
  · intro alike copy member
    rcases mem_visit member with before | rfl
    · exact alike copy before
    · rfl

theorem Followed.visit (followed : call.Followed)
    (next : call.callbacks[call.visited]? = some callback) : (call.visit callback).Followed := by
  have here : call.triggersAt call.visited = callback.triggers call.event.type := by
    unfold triggersAt
    rw [next]
    rfl
  constructor
  · change (if callback.triggers call.event.type then call.invoked ++ [(call.visited, call.event)]
      else call.invoked).map Prod.fst = (List.range (call.visited + 1)).filter call.triggersAt
    rw [List.range_succ, List.filter_append, List.filter_singleton, here, ← followed.once]
    cases callback.triggers call.event.type <;> simp
  · intro entered
    exact alike_visit.mpr (followed.early entered)

/-- Stamping an event changes it, unless it had this offset already. -/
theorem Followed.alike_stamp (followed : call.Followed) (entered : call.point = .entered)
    (timeOffset : Int64) : (call.stamp timeOffset).Alike ↔
      call.invoked = [] ∨ timeOffset = call.event.timeOffset := by
  constructor
  · intro alike
    cases invoked : call.invoked with
    | nil => exact .inl rfl
    | cons copy rest =>
      have member : copy ∈ call.invoked := invoked ▸ List.mem_cons_self
      have same := (followed.early entered copy member).symm.trans (alike copy member)
      exact .inr (congrArg SessionEvent.timeOffset same).symm
  · rintro (none | same) copy member
    · rw [EventCall.stamp, none] at member
      exact absurd member List.not_mem_nil
    · have unchanged : (call.stamp timeOffset).event = call.event := by
        rw [same]
        rfl
      rw [unchanged]
      exact followed.early entered copy member

end EventCall

namespace EventCalls

/-- Every event in the list whose goroutine has looked through the callbacks was delivered. -/
def Delivered (state : EventCalls) : Prop :=
  ∀ i ∈ state.events, ∀ call, state.calls[i]? = some call → call.Finished → call.Exact

/-- Nothing was invoked with an event before it is stamped, or else the stamp does not change it. -/
def Timely (state : EventCalls) : CallAction → Prop
  | .stamp i now => ∀ call, state.calls[i]? = some call →
      call.invoked = [] ∨ state.session.getTimeOffset now = call.event.timeOffset
  | _ => True

def AllFollowed (state : EventCalls) : Prop := ∀ call ∈ state.calls, call.Followed

/-- No copy differs from the event as it is now. -/
def AllAlike (state : EventCalls) : Prop := ∀ call ∈ state.calls, call.Alike

variable {state state' : EventCalls} {action : CallAction} {i : Nat} {call next : EventCall}

theorem forall_become {P : EventCall → Prop} (new : P next)
    (all : ∀ call ∈ state.calls, P call) : ∀ call ∈ (state.become i next).calls, P call :=
  each_set all new

/-- What holds of all calls after one has changed, and of that one before it, held before. -/
theorem forall_of_become {P : EventCall → Prop} (here : state.calls[i]? = some call)
    (old : P next → P call) (all : ∀ call ∈ (state.become i next).calls, P call) :
    ∀ call ∈ state.calls, P call := by
  intro other member
  obtain ⟨j, there⟩ := List.mem_iff_getElem?.mp member
  by_cases same : i = j
  · subst same
    obtain rfl := Option.some.inj (here.symm.trans there)
    exact old (all next (List.mem_of_getElem?
      (List.getElem?_set_self (List.getElem?_eq_some_iff.mp here).1)))
  · exact all other (List.mem_of_getElem? ((List.getElem?_set_ne same).trans there))

theorem AllFollowed.step (followed : state.AllFollowed) (taken : Takes state action state') :
    state'.AllFollowed := by
  cases moves_iff.mp taken with
  | handleEvent =>
    intro other member
    rcases List.mem_append.mp member with before | new
    · exact followed other before
    · obtain rfl := List.mem_singleton.mp new
      exact ⟨rfl, fun _ => List.forall_mem_nil _⟩
  | stamp here entered later =>
    have own := followed _ (List.mem_of_getElem? here)
    exact forall_become (own.stamp _) followed
  | append here stamped =>
    have own := followed _ (List.mem_of_getElem? here)
    exact forall_become own.append followed
  | visit here next =>
    have own := followed _ (List.mem_of_getElem? here)
    exact forall_become (own.visit next) followed

/-- A step keeps the copies alike exactly where it is timely. -/
theorem AllAlike.step_iff (followed : state.AllFollowed) (alike : state.AllAlike)
    (taken : Takes state action state') : state'.AllAlike ↔ state.Timely action := by
  cases moves_iff.mp taken with
  | handleEvent =>
    refine iff_of_true ?_ trivial
    intro other member
    rcases List.mem_append.mp member with before | new
    · exact alike other before
    · obtain rfl := List.mem_singleton.mp new
      exact List.forall_mem_nil _
  | @stamp i now call here entered later =>
    have own := followed call (List.mem_of_getElem? here)
    constructor
    · intro after other there
      obtain rfl := Option.some.inj (here.symm.trans there)
      have changed := after _ (List.mem_of_getElem?
        (List.getElem?_set_self (List.getElem?_eq_some_iff.mp here).1))
      exact (own.alike_stamp entered _).mp changed
    · intro timely
      exact forall_become ((own.alike_stamp entered _).mpr (timely call here)) alike
  | append here stamped =>
    refine iff_of_true ?_ trivial
    have own : EventCall.Alike _ := alike _ (List.mem_of_getElem? here)
    exact forall_become own alike
  | visit here next =>
    refine iff_of_true ?_ trivial
    have own : EventCall.Alike _ := alike _ (List.mem_of_getElem? here)
    exact forall_become (EventCall.alike_visit.mpr own) alike

/-- A copy that differs is not taken back. -/
theorem AllAlike.before (followed : state.AllFollowed) (taken : Takes state action state')
    (alike : state'.AllAlike) : state.AllAlike := by
  cases moves_iff.mp taken with
  | handleEvent =>
    intro other member
    exact alike other (List.mem_append_left _ member)
  | stamp here entered later =>
    have own := followed _ (List.mem_of_getElem? here)
    exact forall_of_become here (fun _ => own.early entered) alike
  | @append i call here stamped =>
    have own : call.append.Alike → call.Alike := id
    exact forall_of_become here own alike
  | visit here next => exact forall_of_become here EventCall.alike_visit.mp alike

theorem AllAlike.delivered (followed : state.AllFollowed) (alike : state.AllAlike) :
    state.Delivered := by
  intro i _ call here finished
  have member := List.mem_of_getElem? here
  exact ((followed call member).exact_iff finished).mpr (alike call member)

/-- Whatever comes between, each callback that is for an event is invoked once and no other is.
Where every stamp is timely the copies are the events of the list, in every state; and where they
are once all calls have come to their end, every stamp was timely. -/
theorem callbacks_delivered {history : List (EventCalls × CallAction)} (initial : state.Initial)
    (passes : Passes Takes state history state') :
    (∀ call ∈ state'.calls, call.Finished → call.invoked.map Prod.fst =
      (List.range call.callbacks.length).filter call.triggersAt) ∧
    ((∀ entry ∈ history, entry.1.Timely entry.2) →
      (∀ entry ∈ history, entry.1.Delivered) ∧ state'.Delivered) ∧
    ((∀ call ∈ state'.calls, call.point = .appended ∧ call.Finished) → state'.Delivered →
      ∀ entry ∈ history, entry.1.Timely entry.2) := by
  have kept (s : EventCalls) (a : CallAction) (t : EventCalls) (inv : s.Sound ∧ s.AllFollowed)
      (taken : Takes s a t) : t.Sound ∧ t.AllFollowed := ⟨inv.1.step taken, inv.2.step taken⟩
  have each (s : EventCalls) (a : CallAction) (t : EventCalls) (inv : s.Sound ∧ s.AllFollowed)
      (alike : s.AllAlike) (taken : Takes s a t) : t.AllAlike ↔ s.Timely a :=
    alike.step_iff inv.2 taken
  have noCalls {P : EventCall → Prop} : ∀ call ∈ state.calls, P call := by
    rw [initial.calls]
    exact List.forall_mem_nil _
  have start : state.Sound ∧ state.AllFollowed := ⟨initial.sound, noCalls⟩
  obtain ⟨followed, sound, followedLast⟩ := passes.keeps kept start
  refine ⟨?_, ?_, ?_⟩
  · intro call member finished
    have once := (followedLast call member).once
    rw [finished] at once
    exact once
  · intro timely
    obtain ⟨states, last⟩ := (passes_keeps_iff passes kept each start noCalls).mpr timely
    refine ⟨?_, last.delivered followedLast⟩
    intro entry member
    exact (states entry member).delivered (followed entry member).2
  · intro ended delivered
    have lost (s : EventCalls) (a : CallAction) (t : EventCalls) (inv : s.Sound ∧ s.AllFollowed)
        (taken : Takes s a t) (alike : t.AllAlike) : s.AllAlike := alike.before inv.2 taken
    apply (passes_last_iff passes kept each lost start noCalls).mp
    intro call member
    obtain ⟨i, here⟩ := List.mem_iff_getElem?.mp member
    obtain ⟨appended, finished⟩ := ended call member
    have exact' := delivered i (sound.unlisted i call here appended) call here finished
    exact ((followedLast call member).exact_iff finished).mp exact'

/-- The events that `add-user-callback` asks for. -/
def everyMessage : SessionCallback where
  events := some ((∅ : GoMap Bytes Bool).insert eventMessage true)

/-- A message is recorded, and then its callback is called. -/
theorem callbacks_delivered_message : ∃ history state',
    history.map Prod.snd = [.handleEvent { type := eventMessage } [everyMessage],
      .stamp 0 (10 ^ 6), .append 0, .visit 0] ∧
    Passes Takes { session := { startTime := 0 }, clock := 0 } history state' ∧
    state'.calls.map (·.invoked.length) = [1] ∧ state'.Delivered := by
  have passes : Passes Takes { session := { startTime := 0 }, clock := 0 }
      [(_, .handleEvent { type := eventMessage } [everyMessage]), (_, .stamp 0 (10 ^ 6)),
        (_, .append 0), (_, .visit 0)] _ :=
    ⟨rfl, _, rfl, rfl, _, rfl, rfl, _, rfl, rfl, _, rfl, rfl⟩
  refine ⟨_, _, rfl, passes, by decide, ((callbacks_delivered ⟨rfl, rfl⟩ passes).2.1 ?_).2⟩
  intro entry member
  simp only [List.mem_cons, List.not_mem_nil, or_false] at member
  rcases member with rfl | rfl | rfl | rfl
  · trivial
  · rintro call ⟨⟩
    exact .inl rfl
  · trivial
  · trivial

/-- The callback is called before the message is stamped, a millisecond after the start. -/
theorem callbacks_early : ¬∀ state actions state', state.Initial →
    Follows Takes state actions state' → state'.Delivered := by
  intro claim
  have follows : Follows Takes { session := { startTime := 0 }, clock := 0 }
      [.handleEvent { type := eventMessage } [everyMessage], .visit 0, .stamp 0 (10 ^ 6),
        .append 0] _ :=
    ⟨_, rfl, _, rfl, _, rfl, _, rfl, rfl⟩
  have exact' := claim _ _ _ ⟨rfl, rfl⟩ follows 0 (by decide) _ rfl rfl
  exact absurd exact' (by unfold EventCall.Exact; decide)

end EventCalls
end SSHProxyPlus
