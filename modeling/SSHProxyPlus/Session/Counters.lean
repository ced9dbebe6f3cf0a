import Mathlib.Data.Nat.Prime.Basic
import Mathlib.Dynamics.PeriodicPts.Lemmas
import SSHProxyPlus.Session.Requests
import SSHProxyPlus.Transition.Pool
import SSHProxyPlus.Transition.Tickets

/-! The IDs of channels and requests: each goroutine takes its own from a counter of the session
that no lock protects. -/
namespace SSHProxyPlus
open Go Transition

inductive Counter where
  | channels
  | requests
deriving DecidableEq

def Counter.eventType : Counter → Bytes
  | .channels => eventNewChannel
  | .requests => eventNewRequest

/-- What is given an ID: a channel, under a name of its own, or a request, with the channel that
it arrived on and the ID that `handleRequests` was given for it. -/
inductive Numbered where
  | channel (name : Nat) (channelType extraData : Bytes)
  | request (arrivedOn : Option Nat) (channelID : Int64) (request : Request)

namespace Numbered

def counter : Numbered → Counter
  | .channel .. => .channels
  | .request .. => .requests

def arrivedOn : Numbered → Option Nat
  | .channel name .. => some name
  | .request arrivedOn .. => arrivedOn

def event (id : Int64) : Numbered → SessionEvent
  | .channel _ channelType extraData =>
      { type := eventNewChannel, channelType, channelData := extraData, channelID := id }
  | .request _ channelID arrived => {
      type := eventNewRequest
      requestType := arrived.requestType
      requestPayload := arrived.payload
      requestID := id
      channelID }

end Numbered

/-- How far a goroutine is with `id := count; count += 1`, before it handles the event. -/
inductive Point where
  | entered
  | taking (taking : Taking Int64)
  | counted (id : Int64)

namespace Point

/-- The next step, and the count after it. -/
def take (count : Int64) : Point → Option (Point × Int64)
  | .entered => some (.taking (.read count), count)
  | .taking (.read own) => some (.taking (.loaded own count), count)
  | .taking (.loaded own seen) => some (.counted own, seen + 1)
  | .counted _ => none

def label : Point → TakingStep
  | .entered => .read
  | .taking (.read _) => .load
  | .taking (.loaded _ _) => .store
  | .counted _ => .other

def underway : Point → Option (Taking Int64)
  | .taking way => some way
  | _ => none

/-- The ID that is not recorded yet. -/
def held : Point → Option Int64
  | .entered => none
  | .taking (.read own) => some own
  | .taking (.loaded own _) => some own
  | .counted id => some id

end Point

inductive Goroutine where
  | numbering (what : Numbered) (point : Point)
  /-- `forwardChannel`, before the channel is opened on the other side. -/
  | opening (channel : Nat) (channelType : Bytes) (channelID : Int64)
  /-- `handleRequests`, before the next request. -/
  | waiting (channel : Option Nat) (channelID : Int64)
  | finished

/-- What a goroutine is at once the event of an ID is recorded. -/
def Numbered.resume (id : Int64) : Numbered → Goroutine
  | .channel name channelType _ => .opening name channelType id
  | .request arrivedOn channelID _ => .waiting arrivedOn channelID

def channelTypeSupported (channelType : Bytes) : Bool := channelType = lit "session"

/-- An event of the session, and the channel that it is of, if any. -/
structure TracedEvent where
  event : SessionEvent
  channel : Option Nat

/-- A session with its counters, and the goroutines that advance them. -/
structure CountedSession where
  session : SessionContext
  channelCount : Int64 := 1
  requestCount : Int64 := 1
  recorded : List TracedEvent := []
  goroutines : List Goroutine := []
  /-- The channels that have been offered so far. -/
  offered : Nat := 0

inductive CounterAction where
  /-- `HandleClientConn` starts a `handleRequests` for the connection itself. -/
  | handleConnection
  /-- `HandleChannels` receives a channel, and starts its `forwardChannel`. -/
  | offer (channelType extraData : Bytes)
  | advance (goroutine : Nat) (now : Time)
  /-- Both sides have accepted the channel: its requests are handled in both directions. -/
  | openChannel (goroutine : Nat)
  | receive (goroutine : Nat) (request : Request)
  /-- Another goroutine handles an event of its own. -/
  | handleEvent (event : SessionEvent) (now : Time)

namespace CountedSession

def events (state : CountedSession) : List SessionEvent := state.recorded.map (·.event)

def context (state : CountedSession) : SessionContext :=
  { state.session with events := state.events }

def count (state : CountedSession) : Counter → Int64
  | .channels => state.channelCount
  | .requests => state.requestCount

def setCount (state : CountedSession) (count : Int64) : Counter → CountedSession
  | .channels => { state with channelCount := count }
  | .requests => { state with requestCount := count }

def record (state : CountedSession) (event : SessionEvent) (channel : Option Nat) (now : Time) :
    CountedSession :=
  let event := { event with timeOffset := state.session.getTimeOffset now }
  { state with recorded := state.recorded ++ [{ event, channel }] }

def become (state : CountedSession) (goroutine : Nat) (next : Goroutine) : CountedSession :=
  { state with goroutines := state.goroutines.set goroutine next }

def start (state : CountedSession) (goroutines : List Goroutine) : CountedSession :=
  { state with goroutines := state.goroutines ++ goroutines }

def step (state : CountedSession) : CounterAction → Option CountedSession
  | .handleConnection => some (state.start [.waiting none 0])
  | .offer channelType extraData =>
      let what := .channel state.offered channelType extraData
      some ({ state with offered := state.offered + 1 }.start [.numbering what .entered])
  | .advance i now =>
      match state.goroutines[i]? with
      | some (.numbering what (.counted id)) =>
          some ((state.record (what.event id) what.arrivedOn now).become i (what.resume id))
      | some (.numbering what point) =>
          (point.take (state.count what.counter)).map fun (point, count) =>
            (state.setCount count what.counter).become i (.numbering what point)
      | _ => none
  | .openChannel i =>
      match state.goroutines[i]? with
      | some (.opening channel channelType channelID) =>
          if channelTypeSupported channelType then
            let handler := .waiting (some channel) channelID
            some ((state.become i .finished).start [handler, handler])
          else none
      | _ => none
  | .receive i request =>
      match state.goroutines[i]? with
      | some (.waiting channel channelID) =>
          some (state.become i (.numbering (.request channel channelID request) .entered))
      | _ => none
  | .handleEvent event now =>
      if event.type = eventNewChannel ∨ event.type = eventNewRequest then none
      else some (state.record event none now)

/-- Nothing has been counted yet, and no goroutine is there. -/
structure Initial (state : CountedSession) : Prop where
  channelCount : state.channelCount = 1
  requestCount : state.requestCount = 1
  goroutines : state.goroutines = []
  offered : state.offered = 0
  uncounted : ∀ counter : Counter, ∀ traced ∈ state.recorded,
    traced.event.type ≠ counter.eventType

end CountedSession

def Counter.idOf (event : SessionEvent) : Counter → Int64
  | .channels => event.channelID
  | .requests => event.requestID

namespace CountedSession

/-- The IDs that the events of a kind carry. -/
def recordedIDs (state : CountedSession) (counter : Counter) : List Int64 :=
  (state.events.filter (·.type = counter.eventType)).map counter.idOf

/-- The channels that have an event, each with the ID that the event carries. -/
def channelIDs (state : CountedSession) : List (Option Nat × Int64) :=
  (state.recorded.filter (·.event.type = eventNewChannel)).map
    fun traced => (traced.channel, traced.event.channelID)

/-- The request has the ID of its channel, or none where it is of the connection itself. -/
def Belongs (state : CountedSession) (channel : Option Nat) (channelID : Int64) : Prop :=
  match channel with
  | some channel => (some channel, channelID) ∈ state.channelIDs
  | none => channelID = 0

structure Documented (state : CountedSession) : Prop where
  channelsUnique : (state.recordedIDs .channels).Nodup
  requestsUnique : (state.recordedIDs .requests).Nodup
  channelsOnce : (state.channelIDs.map Prod.fst).Nodup
  requestsBelong : ∀ traced ∈ state.recorded, traced.event.type = eventNewRequest →
    state.Belongs traced.channel traced.event.channelID

end CountedSession

namespace Goroutine

def underway (counter : Counter) : Goroutine → Option (Taking Int64)
  | .numbering what point => if what.counter = counter then point.underway else none
  | _ => none

def held (counter : Counter) : Goroutine → Option Int64
  | .numbering what point => if what.counter = counter then point.held else none
  | _ => none

end Goroutine

namespace CountedSession

/-- The IDs given so far, recorded or not. -/
def given (state : CountedSession) (counter : Counter) : Multiset Int64 :=
  ↑(state.recordedIDs counter) + Multiset.filterMap (Goroutine.held counter) ↑state.goroutines

/-- When a goroutine reads an ID no other one is between its read and its write, and not all
numbers have been given. -/
def Undisturbed (state : CountedSession) : CounterAction → Prop
  | .advance i _ => ∀ what, state.goroutines[i]? = some (.numbering what .entered) →
      (∀ goroutine ∈ state.goroutines, goroutine.underway what.counter = none) ∧
        (state.given what.counter).card < 2 ^ 64
  | _ => True

def tickets (state : CountedSession) (counter : Counter) : Tickets Int64 where
  count := state.count counter
  given := state.given counter
  underway := Multiset.filterMap (Goroutine.underway counter) ↑state.goroutines

/-- What a step is for the takers of one counter's numbers. -/
def label (state : CountedSession) (counter : Counter) : CounterAction → TakingStep
  | .advance i _ =>
      match state.goroutines[i]? with
      | some (.numbering what point) => if what.counter = counter then point.label else .other
      | _ => .other
  | _ => .other

/-- The steps, one by one. -/
inductive Moves (state : CountedSession) : CounterAction → CountedSession → Prop where
  | handleConnection : Moves state .handleConnection (state.start [.waiting none 0])
  | offer {channelType extraData : Bytes} : Moves state (.offer channelType extraData)
      ({ state with offered := state.offered + 1 }.start
        [.numbering (.channel state.offered channelType extraData) .entered])
  | take {i : Nat} {now : Time} {what : Numbered} {point point' : Point} {count : Int64}
      (here : state.goroutines[i]? = some (.numbering what point))
      (taken : point.take (state.count what.counter) = some (point', count)) :
      Moves state (.advance i now)
        ((state.setCount count what.counter).become i (.numbering what point'))
  | record {i : Nat} {now : Time} {what : Numbered} {id : Int64}
      (here : state.goroutines[i]? = some (.numbering what (.counted id))) :
      Moves state (.advance i now)
        ((state.record (what.event id) what.arrivedOn now).become i (what.resume id))
  | openChannel {i channel : Nat} {channelType : Bytes} {channelID : Int64}
      (here : state.goroutines[i]? = some (.opening channel channelType channelID)) :
      Moves state (.openChannel i) ((state.become i .finished).start
        [.waiting (some channel) channelID, .waiting (some channel) channelID])
  | receive {i : Nat} {channel : Option Nat} {channelID : Int64} {request : Request}
      (here : state.goroutines[i]? = some (.waiting channel channelID)) :
      Moves state (.receive i request)
        (state.become i (.numbering (.request channel channelID request) .entered))
  | handleEvent {event : SessionEvent} {now : Time}
      (other : ∀ counter : Counter, event.type ≠ counter.eventType) :
      Moves state (.handleEvent event now) (state.record event none now)

variable {state state' : CountedSession} {action : CounterAction} {counter : Counter}
  {goroutine next : Goroutine} {rest : Multiset Goroutine} {i : Nat}

theorem become_pool (here : state.goroutines[i]? = some goroutine) (next : Goroutine) :
    ∃ rest : Multiset Goroutine, ↑state.goroutines = goroutine ::ₘ rest ∧
      ↑(state.become i next).goroutines = next ::ₘ rest := exchange here next

@[simp] theorem recordedIDs_become : (state.become i next).recordedIDs = state.recordedIDs := rfl

@[simp] theorem recordedIDs_start {started : List Goroutine} :
    (state.start started).recordedIDs = state.recordedIDs := rfl

@[simp] theorem recordedIDs_setCount {count : Int64} :
    (state.setCount count counter).recordedIDs = state.recordedIDs := by
  cases counter <;> rfl

@[simp] theorem goroutines_setCount {count : Int64} :
    (state.setCount count counter).goroutines = state.goroutines := by
  cases counter <;> rfl

theorem count_setCount {count : Int64} {other : Counter} :
    (state.setCount count other).count counter =
      if other = counter then count else state.count counter := by
  cases other <;> cases counter <;> rfl

theorem recordedIDs_record {event : SessionEvent} {channel : Option Nat} {now : Time} :
    (state.record event channel now).recordedIDs counter = state.recordedIDs counter ++
      if event.type = counter.eventType then [counter.idOf event] else [] := by
  unfold recordedIDs events record
  rw [List.map_append, List.filter_append, List.map_append]
  congr 1
  by_cases same : event.type = counter.eventType
  · rw [if_pos same, List.map_singleton, List.filter_singleton]
    simp only [same, decide_true, cond_true, List.map_singleton]
    cases counter <;> rfl
  · simp [same]

theorem recordedIDs_numbered {what : Numbered} {id : Int64} {channel : Option Nat} {now : Time} :
    (state.record (what.event id) channel now).recordedIDs counter =
      state.recordedIDs counter ++ if what.counter = counter then [id] else [] := by
  rw [recordedIDs_record]
  cases what <;> cases counter <;> rfl

theorem tickets_of_pool (pool : ↑state.goroutines = goroutine ::ₘ rest) :
    state.tickets counter = {
      count := state.count counter
      given := ↑(state.recordedIDs counter) +
        (((goroutine.held counter).map singleton).getD 0 +
          rest.filterMap (Goroutine.held counter))
      underway := ((goroutine.underway counter).map singleton).getD 0 +
        rest.filterMap (Goroutine.underway counter) } := by
  unfold tickets given
  rw [pool, Multiset.filterMap_cons, Multiset.filterMap_cons]

/-- A goroutine with nothing to do with a counter starts, or goes on. -/
theorem tickets_start {started : List Goroutine}
    (idle : ∀ goroutine ∈ started, goroutine.held counter = none ∧
      goroutine.underway counter = none) :
    (state.start started).tickets counter = state.tickets counter := by
  have held : started.filterMap (Goroutine.held counter) = [] :=
    List.filterMap_eq_nil_iff.mpr fun goroutine member => (idle goroutine member).1
  have underway : started.filterMap (Goroutine.underway counter) = [] :=
    List.filterMap_eq_nil_iff.mpr fun goroutine member => (idle goroutine member).2
  have count : (state.start started).count counter = state.count counter := by
    cases counter <;> rfl
  unfold tickets given
  rw [count, recordedIDs_start]
  simp only [start, Multiset.filterMap_coe, List.filterMap_append, held, underway, List.append_nil]

theorem tickets_become (here : state.goroutines[i]? = some goroutine)
    (held : goroutine.held counter = next.held counter)
    (underway : goroutine.underway counter = next.underway counter) :
    (state.become i next).tickets counter = state.tickets counter := by
  obtain ⟨rest, pool, pool'⟩ := become_pool here next
  have count : (state.become i next).count counter = state.count counter := by
    cases counter <;> rfl
  rw [tickets_of_pool pool, tickets_of_pool pool', held, underway, count, recordedIDs_become]

/-- A goroutine takes the next step to its ID. -/
theorem tickets_take {what : Numbered} {point point' : Point} {count : Int64}
    (here : state.goroutines[i]? = some (.numbering what point))
    (taken : point.take (state.count what.counter) = some (point', count)) :
    Tickets.Step (· + 1) (state.tickets counter)
      (if what.counter = counter then point.label else .other)
      (((state.setCount count what.counter).become i (.numbering what point')).tickets counter) := by
  have here' : (state.setCount count what.counter).goroutines[i]? =
      some (.numbering what point) := by
    rw [goroutines_setCount]
    exact here
  obtain ⟨rest, pool, pool'⟩ := become_pool here' (.numbering what point')
  rw [goroutines_setCount] at pool
  rw [tickets_of_pool pool, tickets_of_pool pool', recordedIDs_become, recordedIDs_setCount]
  have counted :
      ((state.setCount count what.counter).become i (.numbering what point')).count counter =
      if what.counter = counter then count else state.count counter := by
    rw [← count_setCount]
    cases counter <;> rfl
  rw [counted]
  by_cases own : what.counter = counter
  · subst own
    simp only [if_true, Goroutine.held, Goroutine.underway]
    match point with
    | .entered =>
      obtain ⟨rfl, rfl⟩ := Prod.mk.inj (Option.some.inj taken)
      simpa [Point.held, Point.underway, Point.label] using Tickets.Step.read
    | .taking (.read own) =>
      obtain ⟨rfl, rfl⟩ := Prod.mk.inj (Option.some.inj taken)
      simpa [Point.held, Point.underway, Point.label] using Tickets.Step.load
    | .taking (.loaded own seen) =>
      obtain ⟨rfl, rfl⟩ := Prod.mk.inj (Option.some.inj taken)
      simpa [Point.held, Point.underway, Point.label] using Tickets.Step.store
    | .counted id => contradiction
  · simp only [if_neg own, Goroutine.held, Goroutine.underway]
    exact .other

theorem resume_idle (what : Numbered) (id : Int64) (counter : Counter) :
    (what.resume id).held counter = none ∧ (what.resume id).underway counter = none := by
  cases what <;> exact ⟨rfl, rfl⟩

/-- With its event an ID goes from the goroutine into the list. -/
theorem tickets_counted {what : Numbered} {id : Int64} {channel : Option Nat} {now : Time}
    (here : state.goroutines[i]? = some (.numbering what (.counted id))) :
    ((state.record (what.event id) channel now).become i (what.resume id)).tickets counter =
      state.tickets counter := by
  have here' : (state.record (what.event id) channel now).goroutines[i]? =
      some (.numbering what (.counted id)) := here
  obtain ⟨rest, pool, pool'⟩ := become_pool here' (what.resume id)
  replace pool : (↑state.goroutines : Multiset Goroutine) =
    .numbering what (.counted id) ::ₘ rest := pool
  have count :
      ((state.record (what.event id) channel now).become i (what.resume id)).count counter =
      state.count counter := by
    cases counter <;> rfl
  obtain ⟨held, underway⟩ := resume_idle what id counter
  rw [tickets_of_pool pool, tickets_of_pool pool', count, recordedIDs_become,
    recordedIDs_numbered, held, underway]
  simp only [Goroutine.held, Goroutine.underway, Point.held, Point.underway]
  by_cases own : what.counter = counter
  · simp [own, ← Multiset.coe_add, add_assoc]
  · simp [own]

theorem moves (taken : state.step action = some state') : Moves state action state' := by
  cases action with
  | handleConnection =>
    obtain rfl := Option.some.inj taken
    exact .handleConnection
  | offer channelType extraData =>
    obtain rfl := Option.some.inj taken
    exact .offer
  | advance i now =>
    simp only [step] at taken
    cases here : state.goroutines[i]? with
    | none =>
      simp only [here] at taken
      contradiction
    | some goroutine =>
      simp only [here] at taken
      cases goroutine with
      | numbering what point =>
        cases point with
        | counted id =>
          obtain rfl := Option.some.inj taken
          exact .record here
        | entered =>
          obtain ⟨⟨point', count⟩, advanced, rfl⟩ := Option.map_eq_some_iff.mp taken
          exact .take here advanced
        | taking way =>
          obtain ⟨⟨point', count⟩, advanced, rfl⟩ := Option.map_eq_some_iff.mp taken
          exact .take here advanced
      | opening _ _ _ => contradiction
      | waiting _ _ => contradiction
      | finished => contradiction
  | openChannel i =>
    simp only [step] at taken
    split at taken
    · next here =>
      split at taken
      · obtain rfl := Option.some.inj taken
        exact .openChannel here
      · contradiction
    · contradiction
  | receive i request =>
    simp only [step] at taken
    split at taken
    · next here =>
      obtain rfl := Option.some.inj taken
      exact .receive here
    · contradiction
  | handleEvent event now =>
    simp only [step] at taken
    split at taken
    · contradiction
    · next other =>
      obtain rfl := Option.some.inj taken
      refine .handleEvent fun counter => ?_
      cases counter with
      | channels => exact fun same => other (.inl same)
      | requests => exact fun same => other (.inr same)

/-- To the takers of one counter's numbers, a step of the session is a step of theirs. -/
theorem tickets_step (taken : state.step action = some state') :
    Tickets.Step (· + 1) (state.tickets counter) (state.label counter action)
      (state'.tickets counter) := by
  cases moves taken with
  | handleConnection =>
    rw [tickets_start]
    · exact .other
    · intro goroutine member
      obtain rfl := List.mem_singleton.mp member
      exact ⟨rfl, rfl⟩
  | offer =>
    rw [tickets_start]
    · exact .other
    · intro goroutine member
      obtain rfl := List.mem_singleton.mp member
      simp [Goroutine.held, Goroutine.underway, Point.held, Point.underway]
  | take here advanced =>
    simp only [label, here]
    exact tickets_take here advanced
  | record here =>
    simp only [label, here]
    rw [tickets_counted here]
    simpa [Point.label] using Tickets.Step.other
  | openChannel here =>
    have idle : (state.become _ .finished).tickets counter = state.tickets counter :=
      tickets_become here rfl rfl
    rw [tickets_start, idle]
    · exact .other
    · intro goroutine member
      simp only [List.mem_cons, List.not_mem_nil, or_false, or_self] at member
      obtain rfl := member
      exact ⟨rfl, rfl⟩
  | receive here =>
    rw [tickets_become here]
    · exact .other
    · simp [Goroutine.held, Point.held]
    · simp [Goroutine.underway, Point.underway]
  | @handleEvent event now other =>
    have same : (state.record event none now).tickets counter = state.tickets counter := by
      unfold tickets given
      rw [recordedIDs_record, if_neg (other counter), List.append_nil]
      cases counter <;> rfl
    rw [same]
    exact .other

theorem iterate_increment (n : Nat) (x : Int64) : (· + 1)^[n] x = x + Int64.ofNat n := by
  induction n with
  | zero => exact (Int64.add_zero x).symm
  | succ n ih =>
    rw [Function.iterate_succ_apply', ih, Int64.ofNat_add, ← Int64.add_assoc]
    rfl

/-- An `int` takes all its values before it comes back to its first. -/
theorem increment_period : Function.minimalPeriod (· + 1) (1 : Int64) = 2 ^ 64 := by
  have : Fact (Nat.Prime 2) := ⟨Nat.prime_two⟩
  apply Function.minimalPeriod_eq_prime_pow (k := 63)
  · intro half
    rw [Function.IsPeriodicPt, Function.IsFixedPt, iterate_increment] at half
    exact absurd half (by decide)
  · rw [Function.IsPeriodicPt, Function.IsFixedPt, iterate_increment]
    decide

theorem underway_eq_zero : (state.tickets counter).underway = 0 ↔
    ∀ goroutine ∈ state.goroutines, goroutine.underway counter = none := by
  unfold tickets
  rw [Multiset.filterMap_coe, Multiset.coe_eq_zero, List.filterMap_eq_nil_iff]

theorem label_advance {what : Numbered} {point : Point} {now : Time}
    (here : state.goroutines[i]? = some (.numbering what point)) :
    state.label counter (.advance i now) =
      if what.counter = counter then point.label else .other := by
  simp only [label, here]

/-- A number of a counter is read by a goroutine that has just entered. -/
theorem label_read (read : state.label counter action = .read) : ∃ i now what,
    action = .advance i now ∧ state.goroutines[i]? = some (.numbering what .entered) ∧
      what.counter = counter := by
  cases action with
  | advance i now =>
    simp only [label] at read
    split at read
    · next what point here =>
      split at read
      · next own =>
        match point, read with
        | .entered, _ => exact ⟨i, now, what, rfl, here, own⟩
        | .taking (.read _), read => contradiction
        | .taking (.loaded _ _), read => contradiction
        | .counted _, read => contradiction
      · contradiction
    · contradiction
  | _ => contradiction

theorem undisturbed_iff : state.Undisturbed action ↔
    ∀ counter, Tickets.Alone (· + 1) 1 (state.tickets counter) (state.label counter action) := by
  constructor
  · intro undisturbed counter
    cases read : state.label counter action with
    | read =>
      obtain ⟨i, now, what, rfl, here, rfl⟩ := label_read read
      obtain ⟨idle, more⟩ := undisturbed what here
      refine ⟨underway_eq_zero.mpr idle, ?_⟩
      rw [increment_period]
      exact more
    | _ => trivial
  · intro alone
    cases action with
    | advance i now =>
      intro what here
      have reads := alone what.counter
      rw [label_advance here, if_pos rfl] at reads
      obtain ⟨idle, more⟩ := reads
      rw [increment_period] at more
      exact ⟨underway_eq_zero.mp idle, more⟩
    | _ => trivial

end CountedSession

namespace Goroutine

/-- The channel that has no event yet. -/
def pending : Goroutine → Option (Option Nat)
  | .numbering (.channel name _ _) _ => some (some name)
  | _ => none

/-- The requests that a goroutine handles have the ID of their channel. -/
def Belongs (state : CountedSession) : Goroutine → Prop
  | .numbering (.request arrivedOn channelID _) _ => state.Belongs arrivedOn channelID
  | .opening name _ channelID => state.Belongs (some name) channelID
  | .waiting arrivedOn channelID => state.Belongs arrivedOn channelID
  | _ => True

end Goroutine

namespace CountedSession
variable {state state' : CountedSession} {action : CounterAction} {i : Nat}
  {goroutine next : Goroutine}

/-- The channels that were offered have one event each, or are going to have it, and requests
belong to them. -/
structure Identified (state : CountedSession) : Prop where
  named : ↑(state.channelIDs.map Prod.fst) +
    Multiset.filterMap Goroutine.pending ↑state.goroutines =
      (Multiset.range state.offered).map some
  handled : ∀ goroutine ∈ state.goroutines, goroutine.Belongs state
  recorded : ∀ traced ∈ state.recorded, traced.event.type = eventNewRequest →
    state.Belongs traced.channel traced.event.channelID

theorem newRequest_ne_newChannel : eventNewRequest ≠ eventNewChannel := by decide

theorem channelIDs_record {event : SessionEvent} {channel : Option Nat} {now : Time} :
    (state.record event channel now).channelIDs = state.channelIDs ++
      if event.type = eventNewChannel then [(channel, event.channelID)] else [] := by
  unfold channelIDs record
  rw [List.filter_append, List.map_append]
  congr 1
  by_cases same : event.type = eventNewChannel <;> simp [same]

theorem Belongs.mono {channel : Option Nat} {channelID : Int64}
    (more : state.channelIDs ⊆ state'.channelIDs) (belongs : state.Belongs channel channelID) :
    state'.Belongs channel channelID := by
  cases channel with
  | none => exact belongs
  | some name => exact more belongs

theorem handled_mono (more : state.channelIDs ⊆ state'.channelIDs)
    (belongs : goroutine.Belongs state) : goroutine.Belongs state' := by
  cases goroutine with
  | numbering what point =>
    cases what with
    | channel name channelType extraData => trivial
    | request arrivedOn channelID request => exact Belongs.mono more belongs
  | opening name channelType channelID =>
    have own : state.Belongs (some name) channelID := belongs
    exact own.mono more
  | waiting arrivedOn channelID => exact Belongs.mono more belongs
  | finished => trivial

theorem channelIDs_subset_record {event : SessionEvent} {channel : Option Nat} {now : Time} :
    state.channelIDs ⊆ (state.record event channel now).channelIDs := by
  rw [channelIDs_record]
  exact List.subset_append_left _ _

/-- After an event every request still belongs to its channel. -/
theorem Identified.record_belongs (identified : state.Identified) {event : SessionEvent}
    {channel : Option Nat} {now : Time} (belongs : event.type = eventNewRequest →
      state.Belongs channel event.channelID) :
    ∀ traced ∈ (state.record event channel now).recorded, traced.event.type = eventNewRequest →
      (state.record event channel now).Belongs traced.channel traced.event.channelID := by
  intro traced member request
  apply Belongs.mono channelIDs_subset_record
  rcases List.mem_append.mp member with before | last
  · exact identified.recorded traced before request
  · obtain rfl := List.mem_singleton.mp last
    exact belongs request

/-- An event that is not a new channel's. -/
theorem Identified.record (identified : state.Identified) {event : SessionEvent}
    {channel : Option Nat} {now : Time} (other : event.type ≠ eventNewChannel)
    (belongs : event.type = eventNewRequest → state.Belongs channel event.channelID) :
    (state.record event channel now).Identified := by
  constructor
  · rw [channelIDs_record, if_neg other, List.append_nil]
    exact identified.named
  · intro goroutine member
    exact handled_mono channelIDs_subset_record (identified.handled goroutine member)
  · exact identified.record_belongs belongs

theorem Identified.become (identified : state.Identified)
    (here : state.goroutines[i]? = some goroutine) (same : goroutine.pending = next.pending)
    (belongs : next.Belongs state) : (state.become i next).Identified := by
  constructor
  · obtain ⟨rest, pool, pool'⟩ := become_pool here next
    have named := identified.named
    rw [pool, Multiset.filterMap_cons, same, ← Multiset.filterMap_cons, ← pool'] at named
    exact named
  · exact each_set identified.handled belongs
  · exact identified.recorded

theorem Identified.start (identified : state.Identified) {started : List Goroutine}
    (unnamed : ∀ goroutine ∈ started, goroutine.pending = none)
    (belong : ∀ goroutine ∈ started, goroutine.Belongs state) :
    (state.start started).Identified := by
  constructor
  · have none : started.filterMap Goroutine.pending = [] := List.filterMap_eq_nil_iff.mpr unnamed
    have named := identified.named
    unfold CountedSession.start
    simp only [Multiset.filterMap_coe, List.filterMap_append, none, List.append_nil] at named ⊢
    exact named
  · intro goroutine member
    rcases List.mem_append.mp member with before | new
    · exact identified.handled goroutine before
    · exact belong goroutine new
  · exact identified.recorded

theorem Identified.offer (identified : state.Identified) (channelType extraData : Bytes) :
    ({ state with offered := state.offered + 1 }.start
      [.numbering (.channel state.offered channelType extraData) .entered]).Identified := by
  constructor
  · have named := identified.named
    simp only [CountedSession.start, Multiset.range_succ, Multiset.map_cons,
      ← Multiset.coe_add, Multiset.filterMap_add, ← add_assoc]
    rw [← named, add_comm, Multiset.coe_singleton, ← Multiset.singleton_add]
    rfl
  · intro goroutine member
    rcases List.mem_append.mp member with before | new
    · exact identified.handled goroutine before
    · obtain rfl := List.mem_singleton.mp new
      trivial
  · exact identified.recorded

/-- The event of a channel: its goroutine now has the ID that the event carries. -/
theorem Identified.recordChannel (identified : state.Identified) {name : Nat}
    {channelType extraData : Bytes} {id : Int64} {now : Time} (here : state.goroutines[i]? =
      some (.numbering (.channel name channelType extraData) (.counted id))) :
    ((state.record (Numbered.event id (.channel name channelType extraData)) (some name) now).become
      i (.opening name channelType id)).Identified := by
  set event := Numbered.event id (.channel name channelType extraData) with hevent
  have here' : (state.record event (some name) now).goroutines[i]? =
    some (.numbering (.channel name channelType extraData) (.counted id)) := here
  have ids : (state.record event (some name) now).channelIDs =
      state.channelIDs ++ [(some name, id)] := by
    rw [channelIDs_record]
    rfl
  constructor
  · obtain ⟨rest, pool, pool'⟩ := become_pool here' (.opening name channelType id)
    have named := identified.named
    replace pool : (↑state.goroutines : Multiset Goroutine) = _ ::ₘ rest := pool
    rw [pool, Multiset.filterMap_cons_some Goroutine.pending _ rest (b := some name) rfl] at named
    rw [pool', Multiset.filterMap_cons_none (f := Goroutine.pending) _ rest rfl]
    have kept : ((state.record event (some name) now).become i
      (.opening name channelType id)).channelIDs = state.channelIDs ++ [(some name, id)] := ids
    rw [kept, List.map_append, ← Multiset.coe_add, add_assoc]
    exact named
  · intro other member
    rcases List.mem_or_eq_of_mem_set member with before | rfl
    · exact handled_mono channelIDs_subset_record (identified.handled other before)
    · change (some name, id) ∈ (state.record event (some name) now).channelIDs
      rw [ids]
      exact List.mem_append_right _ List.mem_cons_self
  · exact identified.record_belongs fun request => absurd request.symm newRequest_ne_newChannel

theorem Identified.step (identified : state.Identified) (taken : state.step action = some state') :
    state'.Identified := by
  cases moves taken with
  | handleConnection =>
    apply identified.start
    · intro goroutine member
      obtain rfl := List.mem_singleton.mp member
      rfl
    · intro goroutine member
      obtain rfl := List.mem_singleton.mp member
      exact rfl
  | offer => exact identified.offer _ _
  | @take i now what point point' count here advanced =>
    have counted : (state.setCount count what.counter).Identified := by
      cases what.counter <;> exact ⟨identified.named, identified.handled, identified.recorded⟩
    have here' : (state.setCount count what.counter).goroutines[i]? =
        some (.numbering what point) := by
      rw [goroutines_setCount]
      exact here
    apply counted.become here'
    · cases what <;> rfl
    · have belongs := counted.handled _ (List.mem_of_getElem? here')
      cases what with
      | channel name channelType extraData => trivial
      | request arrivedOn channelID request => exact belongs
  | @record i now what id here =>
    cases what with
    | channel name channelType extraData => exact identified.recordChannel here
    | request arrivedOn channelID request =>
      have belongs := identified.handled _ (List.mem_of_getElem? here)
      have recorded : (state.record (Numbered.event id (.request arrivedOn channelID request))
          arrivedOn now).Identified := by
        apply identified.record
        · exact newRequest_ne_newChannel
        · intro _
          exact belongs
      exact recorded.become here rfl (handled_mono channelIDs_subset_record belongs)
  | openChannel here =>
    have belongs := identified.handled _ (List.mem_of_getElem? here)
    have finished : (state.become _ .finished).Identified := identified.become here rfl trivial
    apply finished.start
    · intro goroutine member
      simp only [List.mem_cons, List.not_mem_nil, or_false, or_self] at member
      obtain rfl := member
      rfl
    · intro goroutine member
      simp only [List.mem_cons, List.not_mem_nil, or_false, or_self] at member
      obtain rfl := member
      exact belongs
  | receive here =>
    have belongs := identified.handled _ (List.mem_of_getElem? here)
    exact identified.become here rfl belongs
  | handleEvent other =>
    exact identified.record (other .channels) fun request => absurd request (other .requests)

theorem Initial.identified (initial : state.Initial) : state.Identified := by
  have none : state.channelIDs = [] := by
    unfold channelIDs
    rw [List.map_eq_nil_iff, List.filter_eq_nil_iff]
    intro traced member
    have other : traced.event.type ≠ eventNewChannel := initial.uncounted .channels traced member
    simpa using other
  constructor
  · rw [none, initial.goroutines, initial.offered]
    rfl
  · rw [initial.goroutines]
    exact List.forall_mem_nil _
  · intro traced member request
    exact absurd request (initial.uncounted .requests traced member)

theorem Initial.orderly (initial : state.Initial) (counter : Counter) :
    Tickets.Orderly (· + 1) 1 (state.tickets counter) := by
  have none : state.recordedIDs counter = [] := by
    unfold recordedIDs events
    rw [List.map_eq_nil_iff, List.filter_eq_nil_iff]
    intro event member
    obtain ⟨traced, recorded, rfl⟩ := List.mem_map.mp member
    simpa using initial.uncounted counter traced recorded
  have count : state.count counter = 1 := by
    cases counter with
    | channels => exact initial.channelCount
    | requests => exact initial.requestCount
  have fresh : state.tickets counter = ⟨1, 0, 0⟩ := by
    unfold tickets given
    rw [none, count, initial.goroutines]
    rfl
  rw [fresh]
  exact Tickets.Orderly.init _ _

/-- The step that some goroutine takes. -/
def Takes (state : CountedSession) (action : CounterAction) (state' : CountedSession) : Prop :=
  state.step action = some state'

variable {history : List (CountedSession × CounterAction)}

theorem passes_identified (passes : Passes Takes state history state')
    (identified : state.Identified) : state'.Identified := by
  have kept (s : CountedSession) (a : CounterAction) (t : CountedSession)
      (identified : s.Identified) (taken : Takes s a t) : t.Identified := identified.step taken
  exact (passes.keeps kept identified).2

/-- The IDs given are different exactly where every goroutine is undisturbed. -/
theorem given_nodup_iff (initial : state.Initial) (passes : Passes Takes state history state') :
    (∀ counter, (state'.given counter).Nodup) ↔
      ∀ entry ∈ history, entry.1.Undisturbed entry.2 := by
  have each (counter : Counter) : (state'.given counter).Nodup ↔
      ∀ entry ∈ history, Tickets.Alone (· + 1) 1 (entry.1.tickets counter)
        (entry.1.label counter entry.2) := by
    have mapped := passes.map (f := fun state => state.tickets counter)
      (g := fun state action => state.label counter action)
      fun state action state' taken => tickets_step taken
    have positive : 0 < Function.minimalPeriod (· + 1) (1 : Int64) := by
      rw [increment_period]
      decide
    have distinct := Tickets.nodup_iff positive mapped (initial.orderly counter)
    rw [List.forall_mem_map] at distinct
    exact distinct
  constructor
  · intro distinct entry member
    rw [undisturbed_iff]
    intro counter
    exact (each counter).mp (distinct counter) entry member
  · intro undisturbed counter
    rw [each counter]
    intro entry member
    exact undisturbed_iff.mp (undisturbed entry member) counter

theorem Identified.documented (identified : state.Identified)
    (distinct : ∀ counter, (state.given counter).Nodup) : state.Documented := by
  have recorded (counter : Counter) : (state.recordedIDs counter).Nodup :=
    Multiset.coe_nodup.mp (Multiset.nodup_of_le (Multiset.le_add_right _ _) (distinct counter))
  constructor
  · exact recorded .channels
  · exact recorded .requests
  · apply Multiset.coe_nodup.mp
    apply Multiset.nodup_of_le (Multiset.le_add_right _ _)
    rw [identified.named]
    exact (Multiset.nodup_range state.offered).map (Option.some_injective Nat)
  · exact identified.recorded

/-- Every goroutine that read an ID has recorded its event. -/
def Settled (state : CountedSession) : Prop :=
  ∀ counter, ∀ goroutine ∈ state.goroutines, goroutine.held counter = none

theorem Documented.given_nodup (documented : state.Documented) (settled : state.Settled)
    (counter : Counter) : (state.given counter).Nodup := by
  have none : state.goroutines.filterMap (Goroutine.held counter) = [] :=
    List.filterMap_eq_nil_iff.mpr (settled counter)
  unfold given
  rw [Multiset.filterMap_coe, none, Multiset.coe_nil, add_zero, Multiset.coe_nodup]
  cases counter with
  | channels => exact documented.channelsUnique
  | requests => exact documented.requestsUnique

/-- Where every goroutine is undisturbed when it reads an ID, the IDs are as documented in all
states; and where they are once all events are recorded, every goroutine was undisturbed. -/
theorem ids_documented (initial : state.Initial) (passes : Passes Takes state history state') :
    ((∀ entry ∈ history, entry.1.Undisturbed entry.2) →
      (∀ entry ∈ history, entry.1.Documented) ∧ state'.Documented) ∧
    (state'.Settled → state'.Documented → ∀ entry ∈ history, entry.1.Undisturbed entry.2) := by
  constructor
  · intro undisturbed
    have reached {earlier : List (CountedSession × CounterAction)} {mid : CountedSession}
        (passed : Passes Takes state earlier mid)
        (calm : ∀ entry ∈ earlier, entry.1.Undisturbed entry.2) : mid.Documented :=
      (passes_identified passed initial.identified).documented
        ((given_nodup_iff initial passed).mpr calm)
    refine ⟨?_, reached passes undisturbed⟩
    intro entry member
    obtain ⟨earlier, later, rfl, passed⟩ := passes.split member
    exact reached passed fun other before => undisturbed other (List.mem_append_left _ before)
  · intro settled documented
    exact (given_nodup_iff initial passes).mp fun counter => documented.given_nodup settled counter

/-- A session before its first channel. -/
def idle : CountedSession := { session := {} }

theorem idle_initial : idle.Initial :=
  ⟨rfl, rfl, rfl, rfl, fun _ => List.forall_mem_nil _⟩

def shellRequest : Request := { requestType := lit "shell", wantReply := true, payload := [] }

/-- Of two channels the second reads the counter once the first has stored it, and before the
first is recorded; then a request arrives on the first. -/
theorem ids_documented_channels : ∃ history state',
    history.map Prod.snd = [.offer (lit "session") [], .offer (lit "session") [], .advance 0 0,
        .advance 0 0, .advance 0 0, .advance 1 0, .advance 0 0, .advance 1 0, .advance 1 0,
        .advance 1 0, .openChannel 0, .receive 2 shellRequest, .advance 2 0,
        .advance 2 0, .advance 2 0, .advance 2 0] ∧
      Passes Takes idle history state' ∧ state'.recordedIDs .channels = [1, 2] ∧
      state'.recordedIDs .requests = [1] ∧ state'.Documented := by
  have passes : Passes Takes idle
      [(_, .offer (lit "session") []), (_, .offer (lit "session") []), (_, .advance 0 0),
        (_, .advance 0 0), (_, .advance 0 0), (_, .advance 1 0), (_, .advance 0 0),
        (_, .advance 1 0), (_, .advance 1 0), (_, .advance 1 0), (_, .openChannel 0),
        (_, .receive 2 shellRequest), (_, .advance 2 0), (_, .advance 2 0),
        (_, .advance 2 0), (_, .advance 2 0)] _ :=
    ⟨rfl, _, rfl, rfl, _, rfl, rfl, _, rfl, rfl, _, rfl, rfl, _, rfl, rfl, _, rfl, rfl, _, rfl,
      rfl, _, rfl, rfl, _, rfl, rfl, _, rfl, rfl, _, rfl, rfl, _, rfl, rfl, _, rfl, rfl, _, rfl,
      rfl, _, rfl, rfl, _, rfl, rfl⟩
  refine ⟨_, _, rfl, passes, rfl, rfl, ((ids_documented idle_initial passes).1 ?_).2⟩
  intro entry member
  simp only [List.mem_cons, List.not_mem_nil, or_false] at member
  rcases member with rfl | rfl | rfl | rfl | rfl | rfl | rfl | rfl | rfl | rfl | rfl | rfl | rfl |
    rfl | rfl | rfl
  -- The three that read a counter do so while nobody else is between its read and its write.
  case inr.inr.inl | inr.inr.inr.inr.inr.inl | inr.inr.inr.inr.inr.inr.inr.inr.inr.inr.inr.inr.inl =>
    rintro what ⟨⟩
    exact ⟨by decide, by decide⟩
  all_goals first | trivial | rintro what ⟨⟩

/-- Two channels: the second reads the counter before the first has stored it. -/
theorem channelID_twice : ¬∀ state actions state', state.Initial →
    Follows Takes state actions state' → state'.Documented := by
  intro claim
  have follows : Follows Takes idle
      [.offer (lit "session") [], .offer (lit "session") [], .advance 0 0, .advance 1 0,
        .advance 0 0, .advance 0 0, .advance 0 0, .advance 1 0, .advance 1 0, .advance 1 0] _ :=
    ⟨_, rfl, _, rfl, _, rfl, _, rfl, _, rfl, _, rfl, _, rfl, _, rfl, _, rfl, _, rfl, rfl⟩
  have documented := claim _ _ _ idle_initial follows
  exact absurd documented.channelsUnique (by decide)

theorem become_here (here : state.goroutines[i]? = some goroutine) (next : Goroutine) :
    (state.become i next).goroutines[i]? = some next :=
  List.getElem?_set_self (List.getElem?_eq_some_iff.mp here).1

theorem takes_take {what : Numbered} {point point' : Point} {count : Int64} {now : Time}
    (here : state.goroutines[i]? = some (.numbering what point))
    (taken : point.take (state.count what.counter) = some (point', count)) :
    Takes state (.advance i now)
      ((state.setCount count what.counter).become i (.numbering what point')) := by
  unfold Takes step
  cases point with
  | counted id => contradiction
  | entered => simp only [here, taken, Option.map_some]
  | taking way => simp only [here, taken, Option.map_some]

/-- A goroutine that nothing comes between takes the number of the counter, and leaves it one
further. -/
theorem take_follows {what : Numbered} (now : Time)
    (here : state.goroutines[i]? = some (.numbering what .entered)) : ∃ taken : CountedSession,
    Follows Takes state (List.replicate 3 (.advance i now)) taken ∧
      taken.goroutines[i]? = some (.numbering what (.counted (state.count what.counter))) ∧
      taken.count what.counter = state.count what.counter + 1 ∧
      taken.session = state.session ∧ taken.recorded = state.recorded := by
  have goes {before : CountedSession} {point point' : Point} {count : Int64}
      (at' : before.goroutines[i]? = some (.numbering what point))
      (take : point.take (before.count what.counter) = some (point', count)) :
      ∃ after, Takes before (.advance i now) after ∧
        after.goroutines[i]? = some (.numbering what point') ∧ after.count what.counter = count ∧
        after.session = before.session ∧ after.recorded = before.recorded := by
    refine ⟨_, takes_take at' take, ?_, ?_, ?_, ?_⟩
    · apply become_here
      rw [goroutines_setCount]
      exact at'
    · cases what.counter <;> rfl
    · cases what.counter <;> rfl
    · cases what.counter <;> rfl
  obtain ⟨read, first, here, count, session, recorded⟩ := goes here rfl
  obtain ⟨loaded, second, here, count', session', recorded'⟩ := goes here rfl
  obtain ⟨stored, third, here, count'', session'', recorded''⟩ := goes here rfl
  refine ⟨stored, ⟨read, first, loaded, second, stored, third, rfl⟩, here, ?_, ?_, ?_⟩
  · rw [count'', count]
  · rw [session'', session', session]
  · rw [recorded'', recorded', recorded]

/-- A request that nothing comes between is counted and recorded as `forwardRequest` does it. -/
theorem receive_undisturbed {channel : Option Nat} {channelID : Int64}
    (here : state.goroutines[i]? = some (.waiting channel channelID)) (request : Request)
    (outcome : RequestOutcome) {before : RequestSession} {forwarded : Forwarded}
    (session : before.session = state.context) (count : before.requestCount = state.requestCount)
    (returned : before.forwardRequest channelID request outcome = .ok forwarded) :
    ∃ state', Follows Takes state (.receive i request ::
        (List.replicate 3 (.advance i outcome.recorded) ++ [.advance i outcome.recorded])) state' ∧
      forwarded.state.session = state'.context ∧
      forwarded.state.requestCount = state'.requestCount := by
  obtain ⟨counted, recorded⟩ := RequestSession.forwardRequest_records returned
  rw [count] at counted recorded
  rw [session] at recorded
  let what := Numbered.request channel channelID request
  have received : Takes state (.receive i request)
      (state.become i (.numbering what .entered)) := by
    unfold Takes step
    simp only [here, what]
  obtain ⟨taken, follows, ready, advanced, same, events⟩ :=
    take_follows outcome.recorded (become_here here (.numbering what .entered))
  have last : Takes taken (.advance i outcome.recorded)
      ((taken.record (what.event state.requestCount) channel outcome.recorded).become i
        (.waiting channel channelID)) := by
    unfold Takes step
    simp only [ready]
    rfl
  refine ⟨_, ⟨_, received, follows.snoc last⟩, ?_, ?_⟩
  · rw [recorded]
    unfold context CountedSession.events CountedSession.record CountedSession.become
    simp only [same, events, List.map_append]
    rfl
  · rw [counted]
    exact advanced.symm

end CountedSession
end SSHProxyPlus
