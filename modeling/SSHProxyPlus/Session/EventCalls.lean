import SSHProxyPlus.Session.Context
import SSHProxyPlus.Transition.Pool
import SSHProxyPlus.Transition.Sequential

/-! Calls of `HandleEvent` side by side: each stamps its event and then appends it to the list of
the session, while a goroutine of its own looks through the callbacks. -/
namespace SSHProxyPlus
open Go Transition

/-- A callback of the session's user; its handler is known by its place in the list. -/
structure SessionCallback where
  events : MapVar Bytes Bool

def SessionCallback.triggers (callback : SessionCallback) (type : Bytes) : Bool :=
  match callback.events with
  | none => false
  | some events =>
      match events.lookup type with
      | some triggerEvent => triggerEvent
      | none => false

inductive CallPoint where
  | entered
  | stamped
  | appended
deriving DecidableEq

structure EventCall where
  /-- What the pointer that was passed points to. -/
  event : SessionEvent
  callbacks : List SessionCallback
  point : CallPoint := .entered
  /-- The turns that the goroutine has taken. -/
  visited : Nat := 0
  /-- The handlers that it has started, each with its copy of the event. -/
  invoked : List (Nat × SessionEvent) := []

namespace EventCall

/-- `event.TimeOffset = session.GetTimeOffset()`. -/
def stamp (call : EventCall) (timeOffset : Int64) : EventCall :=
  { call with event := { call.event with timeOffset }, point := .stamped }

def append (call : EventCall) : EventCall := { call with point := .appended }

/-- One turn of the loop over the callbacks. -/
def visit (call : EventCall) (callback : SessionCallback) : EventCall :=
  { call with
    visited := call.visited + 1
    invoked :=
      if callback.triggers call.event.type then call.invoked ++ [(call.visited, call.event)]
      else call.invoked }

end EventCall

/-- A session with the calls on it. Its list holds pointers: the calls whose events they are. -/
structure EventCalls where
  session : SessionContext
  clock : Time
  calls : List EventCall := []
  events : List Nat := []

inductive CallAction where
  | handleEvent (event : SessionEvent) (callbacks : List SessionCallback)
  | stamp (call : Nat) (now : Time)
  | append (call : Nat)
  | visit (call : Nat)

namespace EventCalls

def become (state : EventCalls) (i : Nat) (call : EventCall) : EventCalls :=
  { state with calls := state.calls.set i call }

/-- The clock does not go backwards, and the list is locked while an event is appended. -/
def step (state : EventCalls) : CallAction → Option EventCalls
  | .handleEvent event callbacks =>
      some { state with calls := state.calls ++ [{ event, callbacks }] }
  | .stamp i now => do
      let call ← state.calls[i]?
      if call.point = .entered ∧ state.clock ≤ now then
        some ({ state with clock := now }.become i (call.stamp (state.session.getTimeOffset now)))
      else none
  | .append i => do
      let call ← state.calls[i]?
      if call.point = .stamped then
        some ({ state with events := state.events ++ [i] }.become i call.append)
      else none
  | .visit i => do
      let call ← state.calls[i]?
      let callback ← call.callbacks[call.visited]?
      return state.become i (call.visit callback)

def Takes (state : EventCalls) (action : CallAction) (state' : EventCalls) : Prop :=
  state.step action = some state'

structure Initial (state : EventCalls) : Prop where
  calls : state.calls = []
  events : state.events = []

/-- The list of the session, its pointers followed. -/
def recorded (state : EventCalls) : List SessionEvent :=
  state.events.filterMap fun i => state.calls[i]?.map (·.event)

def context (state : EventCalls) : SessionContext := { state.session with events := state.recorded }

/-- The steps, one by one. -/
inductive Moves (state : EventCalls) : CallAction → EventCalls → Prop where
  | handleEvent {event : SessionEvent} {callbacks : List SessionCallback} :
      Moves state (.handleEvent event callbacks)
        { state with calls := state.calls ++ [{ event, callbacks }] }
  | stamp {i : Nat} {now : Time} {call : EventCall} (here : state.calls[i]? = some call)
      (entered : call.point = .entered) (later : state.clock ≤ now) :
      Moves state (.stamp i now)
        ({ state with clock := now }.become i (call.stamp (state.session.getTimeOffset now)))
  | append {i : Nat} {call : EventCall} (here : state.calls[i]? = some call)
      (stamped : call.point = .stamped) :
      Moves state (.append i)
        ({ state with events := state.events ++ [i] }.become i call.append)
  | visit {i : Nat} {call : EventCall} {callback : SessionCallback}
      (here : state.calls[i]? = some call)
      (next : call.callbacks[call.visited]? = some callback) :
      Moves state (.visit i) (state.become i (call.visit callback))

variable {state state' : EventCalls} {action : CallAction} {i : Nat} {call next : EventCall}

theorem moves_iff : Takes state action state' ↔ Moves state action state' := by
  constructor
  · intro taken
    unfold Takes at taken
    cases action with
    | handleEvent event callbacks =>
      obtain rfl := Option.some.inj taken
      exact .handleEvent
    | stamp i now =>
      obtain ⟨call, here, taken⟩ := Option.bind_eq_some_iff.mp taken
      split at taken
      · next ready =>
        obtain rfl := Option.some.inj taken
        exact .stamp here ready.1 ready.2
      · contradiction
    | append i =>
      obtain ⟨call, here, taken⟩ := Option.bind_eq_some_iff.mp taken
      split at taken
      · next stamped =>
        obtain rfl := Option.some.inj taken
        exact .append here stamped
      · contradiction
    | visit i =>
      obtain ⟨call, here, taken⟩ := Option.bind_eq_some_iff.mp taken
      obtain ⟨callback, next, taken⟩ := Option.bind_eq_some_iff.mp taken
      obtain rfl := Option.some.inj taken
      exact .visit here next
  · intro moves
    cases moves with
    | handleEvent => rfl
    | stamp here entered later => simp [Takes, step, here, entered, later]
    | append here stamped => simp [Takes, step, here, stamped]
    | visit here next => simp [Takes, step, here, next]

/-- Only the events of the list are looked at. -/
theorem recorded_congr {other : EventCalls} (events : other.events = state.events)
    (same : ∀ i ∈ state.events, other.calls[i]?.map (·.event) = state.calls[i]?.map (·.event)) :
    other.recorded = state.recorded := by
  unfold recorded
  rw [events]
  exact List.filterMap_congr same

theorem recorded_become (here : state.calls[i]? = some call)
    (kept : i ∈ state.events → next.event = call.event) :
    (state.become i next).recorded = state.recorded := by
  have events : (state.become i next).events = state.events := rfl
  refine recorded_congr events ?_
  intro j listed
  by_cases same : i = j
  · subst same
    have inside := (List.getElem?_eq_some_iff.mp here).1
    have there : (state.become i next).calls[i]? = some next := List.getElem?_set_self inside
    rw [there, here, Option.map_some, Option.map_some, kept listed]
  · unfold become
    rw [List.getElem?_set_ne same]

/-- What holds of every state: stamps are not ahead of the clock, and the list holds exactly the
events that were appended. -/
structure Sound (state : EventCalls) : Prop where
  stamps : ∀ (i : Nat) (call : EventCall), state.calls[i]? = some call → call.point ≠ .entered →
    call.event.timeOffset ≤ state.session.getTimeOffset state.clock
  listed : ∀ i ∈ state.events, ∃ call, state.calls[i]? = some call ∧ call.point = .appended
  unlisted : ∀ (i : Nat) (call : EventCall), state.calls[i]? = some call →
    call.point = .appended → i ∈ state.events

theorem Sound.not_listed (sound : state.Sound) (here : state.calls[i]? = some call)
    (waiting : call.point ≠ .appended) : i ∉ state.events := by
  intro listed
  obtain ⟨other, there, appended⟩ := sound.listed i listed
  obtain rfl := Option.some.inj (here.symm.trans there)
  exact waiting appended

theorem durationBetween_mono {start now later : Time} (after : now ≤ later) :
    durationBetween start now ≤ durationBetween start later := by
  have sooner : now - start ≤ later - start := Int.sub_le_sub_right after start
  exact max_le_max le_rfl (min_le_min le_rfl sooner)

theorem getTimeOffset_toInt (session : SessionContext) (now : Time) :
    (session.getTimeOffset now).toInt =
      (durationBetween session.startTime now).tdiv (10 ^ 6) := by
  have low : (-2 ^ 63 : Int) ≤ durationBetween session.startTime now := by
    unfold durationBetween
    omega
  have high : durationBetween session.startTime now < 2 ^ 63 := by
    unfold durationBetween
    omega
  apply Int64.toInt_ofInt_of_le
  · have := Int.tdiv_le_tdiv (c := 10 ^ 6) (by decide) low
    exact le_trans (by decide) this
  · have := Int.tdiv_le_tdiv (c := 10 ^ 6) (by decide) high.le
    exact lt_of_le_of_lt this (by decide)

/-- Offsets follow the clock. -/
theorem getTimeOffset_mono {session : SessionContext} {now later : Time} (after : now ≤ later) :
    session.getTimeOffset now ≤ session.getTimeOffset later := by
  rw [Int64.le_iff_toInt_le, getTimeOffset_toInt, getTimeOffset_toInt]
  exact Int.tdiv_le_tdiv (by decide) (durationBetween_mono after)

theorem Initial.sound (initial : state.Initial) : state.Sound := by
  constructor
  · intro i call here
    rw [initial.calls] at here
    contradiction
  · rw [initial.events]
    exact List.forall_mem_nil _
  · intro i call here
    rw [initial.calls] at here
    contradiction

theorem Sound.step (sound : state.Sound) (taken : Takes state action state') : state'.Sound := by
  cases moves_iff.mp taken with
  | handleEvent =>
    constructor
    · intro j other there begun
      rcases getElem?_concat_cases there with ⟨-, rfl⟩ | there
      · contradiction
      · exact sound.stamps j other there begun
    · intro j listed
      obtain ⟨other, there, appended⟩ := sound.listed j listed
      exact ⟨other, getElem?_append_kept there, appended⟩
    · intro j other there appended
      rcases getElem?_concat_cases there with ⟨-, rfl⟩ | there
      · contradiction
      · exact sound.unlisted j other there appended
  | @stamp i now call here entered later =>
    constructor
    · intro j other there begun
      rcases getElem?_set_cases there with ⟨-, rfl⟩ | ⟨-, there⟩
      · exact Int64.le_refl _
      · exact Int64.le_trans (sound.stamps j other there begun) (getTimeOffset_mono later)
    · intro j listed
      obtain ⟨other, there, appended⟩ := sound.listed j listed
      have apart : i ≠ j := by
        rintro rfl
        obtain rfl := Option.some.inj (here.symm.trans there)
        rw [entered] at appended
        contradiction
      exact ⟨other, (List.getElem?_set_ne apart).trans there, appended⟩
    · intro j other there appended
      rcases getElem?_set_cases there with ⟨-, rfl⟩ | ⟨-, there⟩
      · contradiction
      · exact sound.unlisted j other there appended
  | @append i call here stamped =>
    have inside := (List.getElem?_eq_some_iff.mp here).1
    constructor
    · intro j other there begun
      rcases getElem?_set_cases there with ⟨-, rfl⟩ | ⟨-, there⟩
      · refine sound.stamps i call here ?_
        rw [stamped]
        decide
      · exact sound.stamps j other there begun
    · intro j listed
      by_cases same : i = j
      · subst same
        exact ⟨call.append, List.getElem?_set_self inside, rfl⟩
      · have before := (List.mem_append.mp listed).resolve_right fun last =>
          same (List.mem_singleton.mp last).symm
        obtain ⟨other, there, appended⟩ := sound.listed j before
        exact ⟨other, (List.getElem?_set_ne same).trans there, appended⟩
    · intro j other there appended
      rcases getElem?_set_cases there with ⟨rfl, -⟩ | ⟨-, there⟩
      · exact List.mem_append_right _ List.mem_cons_self
      · exact List.mem_append_left _ (sound.unlisted j other there appended)
  | @visit i call callback here next =>
    have inside := (List.getElem?_eq_some_iff.mp here).1
    constructor
    · intro j other there begun
      rcases getElem?_set_cases there with ⟨-, rfl⟩ | ⟨-, there⟩
      · exact sound.stamps i call here begun
      · exact sound.stamps j other there begun
    · intro j listed
      obtain ⟨other, there, appended⟩ := sound.listed j listed
      by_cases same : i = j
      · subst same
        obtain rfl := Option.some.inj (here.symm.trans there)
        exact ⟨call.visit callback, List.getElem?_set_self inside, appended⟩
      · exact ⟨other, (List.getElem?_set_ne same).trans there, appended⟩
    · intro j other there appended
      rcases getElem?_set_cases there with ⟨rfl, rfl⟩ | ⟨-, there⟩
      · exact sound.unlisted j call here appended
      · exact sound.unlisted j other there appended

/-- What a step adds to the list. -/
def added (state : EventCalls) : CallAction → List SessionEvent
  | .append i => (state.calls[i]?.map (·.event)).toList
  | _ => []

theorem recorded_step (sound : state.Sound) (taken : Takes state action state') :
    state'.recorded = state.recorded ++ state.added action := by
  cases moves_iff.mp taken with
  | @handleEvent event callbacks =>
    refine Eq.trans ?_ (List.append_nil state.recorded).symm
    apply List.filterMap_congr
    intro i listed
    obtain ⟨call, here, -⟩ := sound.listed i listed
    rw [List.getElem?_append_left (List.getElem?_eq_some_iff.mp here).1]
  | @stamp i now call here entered later =>
    have waiting : call.point ≠ .appended := by
      rw [entered]
      decide
    refine Eq.trans ?_ (List.append_nil state.recorded).symm
    have same : (state.become i (call.stamp (state.session.getTimeOffset now))).recorded =
        state.recorded :=
      recorded_become here fun listed => absurd listed (sound.not_listed here waiting)
    exact same
  | @append i call here stamped =>
    have same : (state.become i call.append).recorded = state.recorded :=
      recorded_become here fun _ => rfl
    have last : (state.calls.set i call.append)[i]? = some call.append :=
      List.getElem?_set_self (List.getElem?_eq_some_iff.mp here).1
    unfold recorded become at same ⊢
    rw [List.filterMap_append, same, added, here]
    simp only [List.filterMap_cons, List.filterMap_nil, last]
    rfl
  | @visit i call callback here next =>
    refine Eq.trans ?_ (List.append_nil state.recorded).symm
    exact recorded_become here fun _ => rfl

/-- A call that nothing comes between records its event as `addEvent` does. -/
theorem stamp_append {now : Time} (here : state.calls[i]? = some call)
    (entered : call.point = .entered) (later : state.clock ≤ now) (sound : state.Sound) :
    ∃ state', Follows Takes state [.stamp i now, .append i] state' ∧
      state'.context = state.context.addEvent call.event now := by
  let timeOffset := state.session.getTimeOffset now
  have first := moves_iff.mpr (.stamp here entered later)
  have between : ({ state with clock := now }.become i (call.stamp timeOffset)).calls[i]? =
      some (call.stamp timeOffset) := List.getElem?_set_self (List.getElem?_eq_some_iff.mp here).1
  have second := moves_iff.mpr (.append between rfl)
  refine ⟨_, ⟨_, first, _, second, rfl⟩, ?_⟩
  have recorded := recorded_step (sound.step first) second
  have unchanged := (recorded_step sound first).trans (List.append_nil _)
  rw [unchanged, added, between] at recorded
  unfold context SessionContext.addEvent
  rw [recorded]
  rfl

end EventCalls
end SSHProxyPlus
