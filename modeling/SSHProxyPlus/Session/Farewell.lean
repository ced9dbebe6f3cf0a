import SSHProxyPlus.Session.Workload
import SSHProxyPlus.Transition.Sequential

/-! The end of a session for its viewers: which of them have been sent, or will be, all events
when the signal reaches them that the session has ended. -/
namespace SSHProxyPlus
open Go Transition

namespace Statement

/-- Of the round that tells the viewers of the end. -/
def leaves : Statement → Nat
  | .signalClients .sessionEnd | .ranging .sessionEnd _ _ | .sending .sessionEnd _ _ _ => 1
  | _ => 0

/-- A call of `End` tells the viewers of the stop event, and then of the end. -/
def takesLeave : List Statement → Bool
  | .ranging .newMessage _ _ :: .signalClients .sessionEnd :: _ => true
  | .sending .newMessage _ _ _ :: .signalClients .sessionEnd :: _ => true
  | .signalClients .sessionEnd :: _ => true
  | .ranging .sessionEnd _ _ :: _ => true
  | .sending .sessionEnd _ _ _ :: _ => true
  | _ => false

end Statement

namespace Viewing

/-- Once the viewer waits again, it will have sent this many events. -/
def Informed (viewing : Viewing) (count : Nat) : Prop :=
  viewing.registered = true → match viewing.playback.step with
    | .measured newEventIndex => newEventIndex = count
    | .sending _ newEventIndex => newEventIndex = count
    | .waiting => viewing.playback.lastEventIndex = count
    | _ => True

structure Reached (viewing : Viewing) (count : Nat) : Prop where
  informed : viewing.Informed count
  stays : viewing.playback.step ≠ .returned

/-- A viewer's signal is among the session's from when it has registered until it returns. -/
def Placed (viewing : Viewing) : Prop :=
  match viewing.playback.step with
  | .start => viewing.registered = false
  | .unregistered _ => viewing.registered = false
  | .returned => True
  | _ => viewing.registered = true

end Viewing

namespace LiveSession
open Statement
variable {live next : LiveSession} {action : LiveAction}

def TakesLeave (live : LiveSession) : Prop := ∃ thread ∈ live.threads, takesLeave thread

/-- No event is added while a call of `End` tells the viewers, or one of them is on its return;
and who registers meanwhile has measured all events. -/
def Attended (live : LiveSession) : LiveAction → Prop
  | .run thread _ => ∀ event rest, live.threads[thread]? = some (.handleEvent event :: rest) →
      ¬ live.TakesLeave ∧ ∀ viewing ∈ live.viewers,
        viewing.playback.step = .returned → viewing.registered = false
  | .view viewer _ _ => ∀ viewing newEventIndex, live.viewers[viewer]? = some viewing →
      viewing.playback.step = .unregistered newEventIndex → live.TakesLeave →
        newEventIndex = live.events.length
  | _ => True

/-- The signals are those of the registered viewers, each once. -/
structure Enrolled (live : LiveSession) : Prop where
  within : live.msgSignal.Within live.arrays
  placed : ∀ viewing ∈ live.viewers, viewing.Placed
  consistent : ∀ viewing ∈ live.viewers, viewing.playback.Consistent live.events
  slots : ∀ k < live.msgSignal.length, ∃ viewer viewing,
    live.arrays.slot live.msgSignal.array k = some viewer ∧
      live.viewers[viewer]? = some viewing ∧ viewing.registered = true
  unique : ∀ j k viewer, j < live.msgSignal.length → k < live.msgSignal.length →
    live.arrays.slot live.msgSignal.array j = some viewer →
      live.arrays.slot live.msgSignal.array k = some viewer → j = k
  found : ∀ (viewer : Nat) viewing, live.viewers[viewer]? = some viewing → viewing.registered = true →
    ∃ k < live.msgSignal.length, live.arrays.slot live.msgSignal.array k = some viewer

def AllInformed (live : LiveSession) : Prop :=
  ∀ (viewer : Nat) viewing, live.viewers[viewer]? = some viewing →
    viewing.Informed live.events.length

/-- A loop over the signals, before the turn `index`, and with `current` in hand: whom it has not
reached is still ahead. -/
structure Reaching (live : LiveSession) (header : SliceHeader) (index : Nat)
    (current : Option Nat) : Prop where
  allocated : header.array < live.arrays.length
  ahead : ∀ (viewer : Nat) viewing, live.viewers[viewer]? = some viewing →
    viewing.registered = true → ¬ viewing.Reached live.events.length →
      current = some viewer ∨ ∃ k, index ≤ k ∧ k < header.length ∧
        live.arrays.slot header.array k = some viewer
  behind : header.array = live.msgSignal.array → ∀ k < index, k < live.msgSignal.length →
    ∀ (viewer : Nat) viewing, live.arrays.slot live.msgSignal.array k = some viewer →
      live.viewers[viewer]? = some viewing →
        current = some viewer ∨ viewing.Reached live.events.length

def Returned (live : LiveSession) (viewer : Nat) : Prop :=
  ∃ viewing, live.viewers[viewer]? = some viewing ∧ viewing.playback.step = .returned

/-- All are informed, or the loop reaches them, unless it waits for ever for one that has
returned. -/
def Telling (live : LiveSession) (header : SliceHeader) (index : Nat) (current : Option Nat) :
    Prop :=
  live.AllInformed ∨ (∃ viewer, current = some viewer ∧ live.Returned viewer) ∨
    live.Reaching header index current

def HasStop (live : LiveSession) : Prop := ∃ event ∈ live.events, event.type = eventSessionStop

/-- How far a thread is with the end of the session. -/
inductive Parting (live : LiveSession) : List Statement → Prop where
  | away {thread : List Statement} (past : weights leaves thread = 0) : Parting live thread
  | handling {event : SessionEvent} {rest : List Statement} (type : event.type = eventSessionStop)
      (past : weights leaves rest = 0) :
      Parting live (.handleEvent event :: .signalClients .sessionEnd :: rest)
  | logging {index : Nat} {rest : List Statement} (stop : live.HasStop)
      (past : weights leaves rest = 0) :
      Parting live
        (.logEvent index :: .signalClients .newMessage :: .signalClients .sessionEnd :: rest)
  | announcing {rest : List Statement} (stop : live.HasStop) (past : weights leaves rest = 0) :
      Parting live (.signalClients .newMessage :: .signalClients .sessionEnd :: rest)
  | ranging {header : SliceHeader} {index : Nat} {rest : List Statement} (stop : live.HasStop)
      (past : weights leaves rest = 0) (telling : live.Telling header index none) :
      Parting live (.ranging .newMessage header index :: .signalClients .sessionEnd :: rest)
  | sending {header : SliceHeader} {index viewer : Nat} {rest : List Statement}
      (stop : live.HasStop) (past : weights leaves rest = 0)
      (telling : live.Telling header (index + 1) (some viewer)) :
      Parting live (.sending .newMessage header index viewer :: .signalClients .sessionEnd :: rest)
  | leaving {statement : Statement} {rest : List Statement} (stop : live.HasStop)
      (leaves' : leaves statement = 1) (past : weights leaves rest = 0)
      (informed : live.AllInformed) : Parting live (statement :: rest)

/-- Nobody is, or will be, told of the end before it has been sent all events. -/
structure Parted (live : LiveSession) : Prop where
  enrolled : live.Enrolled
  threads : ∀ thread ∈ live.threads, live.Parting thread
  complete : ∀ viewing ∈ live.viewers, viewing.playback.step = .returned →
    viewing.registered = true → viewing.playback.sent = live.events ∧ live.HasStop

end LiveSession

namespace Viewing
variable {viewing : Viewing} {events : List SessionEvent} {playback : Playback}

theorem sendNext_informed (viewer : Playback) (newEventIndex : Nat) (batch : List SessionEvent)
    (registered : Bool) :
    Informed ⟨viewer.sendNext newEventIndex batch, registered⟩ newEventIndex ∧
      (viewer.sendNext newEventIndex batch).step ≠ .returned ∧
      (registered = true → Placed ⟨viewer.sendNext newEventIndex batch, registered⟩) := by
  cases batch with
  | nil => exact ⟨fun _ => rfl, PlayStep.noConfusion, id⟩
  | cons event rest => exact ⟨fun _ => rfl, PlayStep.noConfusion, id⟩

/-- By itself a viewer goes on to send what it has measured, and measures anew where it has been
signalled. -/
theorem advance_cases {reply : Option Bytes} (placed : viewing.Placed)
    (consistent : viewing.playback.Consistent events)
    (registering : ∀ newEventIndex, viewing.playback.step ≠ .unregistered newEventIndex)
    (advanced : viewing.playback.advance events reply = some playback) :
    Placed { viewing with playback } ∧ playback.step ≠ .returned ∧
      viewing.playback.step ≠ .returned ∧
      (viewing.Informed events.length → Informed { viewing with playback } events.length) := by
  obtain ⟨viewer, registered⟩ := viewing
  unfold Placed at placed
  unfold Playback.advance at advanced
  dsimp only at *
  cases stands : viewer.step with
  | start =>
    rw [stands] at advanced placed
    obtain rfl := Option.some.inj advanced
    refine ⟨placed, PlayStep.noConfusion, PlayStep.noConfusion, fun _ enrolled => ?_⟩
    exact nomatch (show registered = false from placed).symm.trans enrolled
  | unregistered newEventIndex => exact absurd stands (registering newEventIndex)
  | measured newEventIndex =>
    rw [stands] at advanced placed
    obtain rfl := Option.some.inj advanced
    have sound := (consistent.sendLatestEvents stands).sound
    have ⟨within, fits⟩ := consistent.measured newEventIndex (by rw [stands]; rfl)
    unfold Playback.sendLatestEvents sliceEvents
    rw [if_pos ⟨within, fits⟩]
    obtain ⟨informed, stays, placed'⟩ := sendNext_informed viewer newEventIndex
      ((events.take newEventIndex).drop viewer.lastEventIndex) registered
    refine ⟨placed' placed, stays, PlayStep.noConfusion, fun before => ?_⟩
    have same : newEventIndex = events.length := by simpa [Informed, stands, placed] using before
    exact same ▸ informed
  | sending rest newEventIndex =>
    rw [stands] at advanced placed
    obtain rfl := Option.some.inj advanced
    refine ⟨?_, ?_, PlayStep.noConfusion, fun before => ?_⟩
    all_goals
      unfold Playback.receiveReply
      split
    · exact (sendNext_informed _ newEventIndex rest registered).2.2 placed
    · simpa [Placed, stands] using placed
    · exact (sendNext_informed _ newEventIndex rest registered).2.1
    · rw [stands]
      exact PlayStep.noConfusion
    · have same : newEventIndex = events.length := by simpa [Informed, stands, placed] using before
      exact same ▸ (sendNext_informed _ newEventIndex rest registered).1
    · exact before
  | signalled =>
    rw [stands] at advanced placed
    obtain rfl := Option.some.inj advanced
    exact ⟨placed, PlayStep.noConfusion, PlayStep.noConfusion, fun _ _ => rfl⟩
  | waiting | returned | panicked panic =>
    rw [stands] at advanced
    contradiction

end Viewing
namespace LiveSession
open Statement
variable {live next : LiveSession} {action : LiveAction}

/-- Whatever the threads have told the viewers still holds. -/
structure Keeps (live next : LiveSession) : Prop where
  informed : live.AllInformed → next.AllInformed
  telling : ∀ header index current,
    live.Telling header index current → next.Telling header index current
  stop : live.HasStop → next.HasStop

theorem Parting.keeps {thread : List Statement} (parting : live.Parting thread)
    (keeps : Keeps live next) : next.Parting thread := by
  cases parting with
  | away past => exact .away past
  | handling type past => exact .handling type past
  | logging stop past => exact .logging (keeps.stop stop) past
  | announcing stop past => exact .announcing (keeps.stop stop) past
  | ranging stop past telling => exact .ranging (keeps.stop stop) past (keeps.telling _ _ _ telling)
  | sending stop past telling => exact .sending (keeps.stop stop) past (keeps.telling _ _ _ telling)
  | leaving stop leaves past informed =>
    exact .leaving (keeps.stop stop) leaves past (keeps.informed informed)

theorem Unnoticed.keeps (unnoticed : Unnoticed live next) : Keeps live next := by
  obtain ⟨viewers, arrays, msgSignal, events⟩ := unnoticed
  have informed : live.AllInformed → next.AllInformed := by
    unfold AllInformed
    rw [viewers, events]
    exact id
  refine ⟨informed, fun header index current telling => ?_, ?_⟩
  · obtain all | ⟨viewer, same, returned⟩ | ⟨allocated, ahead, behind⟩ := telling
    · exact .inl (informed all)
    · refine .inr (.inl ⟨viewer, same, ?_⟩)
      unfold Returned
      rwa [viewers]
    · refine .inr (.inr ⟨?_, ?_, ?_⟩)
      · rwa [arrays]
      · rwa [viewers, arrays, events]
      · rwa [viewers, arrays, events, msgSignal]
  · unfold HasStop
    rw [events]
    exact id

theorem Unnoticed.enrolled (unnoticed : Unnoticed live next) (enrolled : live.Enrolled) :
    next.Enrolled := by
  obtain ⟨viewers, arrays, msgSignal, events⟩ := unnoticed
  obtain ⟨within, placed, consistent, slots, unique, found⟩ := enrolled
  exact ⟨by rwa [arrays, msgSignal], by rwa [viewers], by rwa [viewers, events],
    by rwa [viewers, arrays, msgSignal], by rwa [arrays, msgSignal],
    by rwa [viewers, arrays, msgSignal]⟩

/-- One viewer goes on, and stays registered if it was. -/
structure Goes (live next : LiveSession) (viewer : Nat) (viewing seen : Viewing) : Prop where
  here : live.viewers[viewer]? = some viewing
  viewers : next.viewers = live.viewers.set viewer seen
  arrays : next.arrays = live.arrays
  msgSignal : next.msgSignal = live.msgSignal
  events : next.events = live.events
  registered : seen.registered = viewing.registered
  stays : viewing.playback.step ≠ .returned
  informed : viewing.Informed live.events.length → seen.Informed live.events.length

theorem Goes.enrolled {viewer : Nat} {viewing seen : Viewing}
    (goes : Goes live next viewer viewing seen) (enrolled : live.Enrolled) (placed : seen.Placed)
    (consistent : seen.playback.Consistent live.events) : next.Enrolled := by
  obtain ⟨here, viewers, arrays, msgSignal, events, registered, -, -⟩ := goes
  obtain ⟨within, placed', consistent', slots, unique, found⟩ := enrolled
  refine ⟨by rwa [arrays, msgSignal], ?_, ?_, ?_, by rwa [arrays, msgSignal], ?_⟩
  · rw [viewers]
    exact each_set placed' placed
  · rw [viewers, events]
    exact each_set consistent' consistent
  · rw [msgSignal, arrays, viewers]
    intro k before
    obtain ⟨other, watching, slot, there, enlisted⟩ := slots k before
    by_cases same : other = viewer
    · subst same
      obtain rfl := Option.some.inj (here.symm.trans there)
      exact ⟨other, seen, slot,
        List.getElem?_set_self (List.getElem?_eq_some_iff.mp here).1, registered.trans enlisted⟩
    · exact ⟨other, watching, slot, by rwa [List.getElem?_set_ne (Ne.symm same)], enlisted⟩
  · rw [msgSignal, arrays, viewers]
    intro other watching there enlisted
    obtain ⟨rfl, rfl⟩ | ⟨-, there⟩ := getElem?_set_cases there
    · exact found other viewing here (registered ▸ enlisted)
    · exact found other watching there enlisted

theorem Goes.informed_all {viewer : Nat} {viewing seen : Viewing}
    (goes : Goes live next viewer viewing seen) (all : live.AllInformed) : next.AllInformed := by
  obtain ⟨here, viewers, -, -, events, -, -, informed⟩ := goes
  unfold AllInformed
  rw [viewers, events]
  intro other watching there
  obtain ⟨rfl, rfl⟩ | ⟨-, there⟩ := getElem?_set_cases there
  · exact informed (all other viewing here)
  · exact all other watching there

theorem Goes.stop {viewer : Nat} {viewing seen : Viewing}
    (goes : Goes live next viewer viewing seen) (stop : live.HasStop) : next.HasStop := by
  unfold HasStop
  rwa [goes.events]

/-- A viewer that goes on without returning leaves everyone told who was. -/
theorem Goes.keeps {viewer : Nat} {viewing seen : Viewing}
    (goes : Goes live next viewer viewing seen) (stays : seen.playback.step ≠ .returned) :
    Keeps live next := by
  refine ⟨goes.informed_all, fun header index current telling => ?_, goes.stop⟩
  obtain all | ⟨other, same, watching, there, returned⟩ | ⟨allocated, ahead, behind⟩ := telling
  · exact .inl (goes.informed_all all)
  · refine .inr (.inl ⟨other, same, watching, ?_, returned⟩)
    have apart : viewer ≠ other := by
      rintro rfl
      obtain rfl := Option.some.inj (goes.here.symm.trans there)
      exact goes.stays returned
    rwa [goes.viewers, List.getElem?_set_ne apart]
  · refine .inr (.inr ⟨by rwa [goes.arrays], ?_, ?_⟩)
    · rw [goes.viewers, goes.arrays, goes.events]
      intro other watching there enlisted missed
      obtain ⟨rfl, rfl⟩ | ⟨-, there⟩ := getElem?_set_cases there
      · exact ahead other viewing goes.here (goes.registered ▸ enlisted)
          fun reached => missed ⟨goes.informed reached.informed, stays⟩
      · exact ahead other watching there enlisted missed
    · rw [goes.viewers, goes.arrays, goes.events, goes.msgSignal]
      intro same k before within other watching slot there
      obtain ⟨rfl, rfl⟩ | ⟨-, there⟩ := getElem?_set_cases there
      · exact (behind same k before within other viewing slot goes.here).imp id
          fun reached => ⟨goes.informed reached.informed, stays⟩
      · exact behind same k before within other watching slot there

/-- One that returns does when all are informed. -/
theorem Goes.keeps_informed {viewer : Nat} {viewing seen : Viewing}
    (goes : Goes live next viewer viewing seen) (all : live.AllInformed) : Keeps live next :=
  ⟨goes.informed_all, fun _ _ _ _ => .inl (goes.informed_all all), goes.stop⟩

/-- A viewer registers. -/
structure Registers (live next : LiveSession) (viewer : Nat) (viewing seen : Viewing) : Prop where
  here : live.viewers[viewer]? = some viewing
  viewers : next.viewers = live.viewers.set viewer seen
  pushed : Arrays.Pushed live.arrays live.msgSignal viewer next.arrays next.msgSignal
  events : next.events = live.events
  before : viewing.registered = false
  after : seen.registered = true

/-- No signal is that of a viewer that has not registered. -/
theorem Enrolled.slot_ne {viewer k : Nat} {viewing : Viewing} (enrolled : live.Enrolled)
    (here : live.viewers[viewer]? = some viewing) (before : viewing.registered = false)
    (within : k < live.msgSignal.length) :
    live.arrays.slot live.msgSignal.array k ≠ some viewer := by
  intro slot
  obtain ⟨other, watching, slot', there, enlisted⟩ := enrolled.slots k within
  obtain rfl := Option.some.inj (slot.symm.trans slot')
  obtain rfl := Option.some.inj (here.symm.trans there)
  exact nomatch before.symm.trans enlisted

theorem Registers.enrolled {viewer : Nat} {viewing seen : Viewing}
    (registers : Registers live next viewer viewing seen) (enrolled : live.Enrolled)
    (placed : seen.Placed) (consistent : seen.playback.Consistent live.events) : next.Enrolled := by
  have absent {k : Nat} (before : k < live.msgSignal.length) :=
    enrolled.slot_ne registers.here registers.before before
  obtain ⟨here, viewers, pushed, events, before, after⟩ := registers
  obtain ⟨within, placed', consistent', slots, unique, found⟩ := enrolled
  have cases {k : Nat} (inside : k < live.msgSignal.length + 1) :
      k < live.msgSignal.length ∨ k = live.msgSignal.length := Nat.lt_succ_iff_lt_or_eq.mp inside
  refine ⟨pushed.within, ?_, ?_, ?_, ?_, ?_⟩
  · rw [viewers]
    exact each_set placed' placed
  · rw [viewers, events]
    exact each_set consistent' consistent
  · rw [pushed.length, viewers]
    intro k inside
    obtain old | rfl := cases inside
    · obtain ⟨other, watching, slot, there, enlisted⟩ := slots k old
      refine ⟨other, watching, (pushed.kept k old).trans slot, ?_, enlisted⟩
      have apart : viewer ≠ other := by
        rintro rfl
        exact absent old slot
      rw [List.getElem?_set_ne apart, there]
    · exact ⟨viewer, seen, pushed.last,
        List.getElem?_set_self (List.getElem?_eq_some_iff.mp here).1, after⟩
  · rw [pushed.length]
    intro j k other insideJ insideK slotJ slotK
    obtain oldJ | rfl := cases insideJ <;> obtain oldK | rfl := cases insideK
    · rw [pushed.kept j oldJ] at slotJ
      rw [pushed.kept k oldK] at slotK
      exact unique j k other oldJ oldK slotJ slotK
    · rw [pushed.kept j oldJ] at slotJ
      obtain rfl := Option.some.inj (slotK.symm.trans pushed.last)
      exact absurd slotJ (absent oldJ)
    · rw [pushed.kept k oldK] at slotK
      obtain rfl := Option.some.inj (slotJ.symm.trans pushed.last)
      exact absurd slotK (absent oldK)
    · rfl
  · rw [pushed.length, viewers]
    intro other watching there enlisted
    obtain ⟨rfl, rfl⟩ | ⟨-, there⟩ := getElem?_set_cases there
    · exact ⟨live.msgSignal.length, Nat.lt_succ_self _, pushed.last⟩
    · obtain ⟨k, old, slot⟩ := found other watching there enlisted
      exact ⟨k, Nat.lt_succ_of_lt old, (pushed.kept k old).trans slot⟩

/-- A viewer that registers with all events measured leaves everyone told who was. -/
theorem Registers.keeps {viewer : Nat} {viewing seen : Viewing}
    (registers : Registers live next viewer viewing seen) (enrolled : live.Enrolled)
    (reached : seen.Reached live.events.length)
    (stays : viewing.playback.step ≠ .returned) : Keeps live next := by
  have absent {k : Nat} (before : k < live.msgSignal.length) :=
    enrolled.slot_ne registers.here registers.before before
  obtain ⟨here, viewers, pushed, events, before, after⟩ := registers
  have informed (all : live.AllInformed) : next.AllInformed := by
    unfold AllInformed
    rw [viewers, events]
    intro other watching there
    obtain ⟨rfl, rfl⟩ | ⟨-, there⟩ := getElem?_set_cases there
    · exact reached.informed
    · exact all other watching there
  refine ⟨informed, fun header index current telling => ?_, fun stop => ?_⟩
  · obtain all | ⟨other, same, watching, there, returned⟩ | ⟨allocated, ahead, behind⟩ := telling
    · exact .inl (informed all)
    · refine .inr (.inl ⟨other, same, watching, ?_, returned⟩)
      have apart : viewer ≠ other := by
        rintro rfl
        obtain rfl := Option.some.inj (here.symm.trans there)
        exact stays returned
      rwa [viewers, List.getElem?_set_ne apart]
    · refine .inr (.inr ⟨allocated.trans_le pushed.grown, ?_, ?_⟩)
      · rw [viewers, events]
        intro other watching there enlisted missed
        obtain ⟨rfl, rfl⟩ | ⟨-, there⟩ := getElem?_set_cases there
        · exact absurd reached missed
        obtain same | ⟨k, later, covered, slot⟩ := ahead other watching there enlisted missed
        · exact .inl same
        by_cases reused : header.array = next.msgSignal.array ∧ k = live.msgSignal.length
        · -- the slot behind the signals is used anew, but the viewer is among the signals as well
          obtain ⟨same, rfl⟩ := reused
          have array : header.array = live.msgSignal.array := by
            obtain inPlace | moved := pushed.place
            · rw [same, inPlace]
            · rw [same, moved] at allocated
              exact absurd allocated (Nat.lt_irrefl _)
          obtain ⟨k, old, slot⟩ := enrolled.found other watching there enlisted
          by_cases early : k < index
          · exact (behind array k early old other watching slot there).imp id fun reached =>
              absurd reached missed
          · refine .inr ⟨k, not_lt.mp early, old.trans covered, ?_⟩
            rw [same, pushed.kept k old, slot]
        · refine .inr ⟨k, later, covered, ?_⟩
          rw [pushed.others _ _ allocated fun same last => reused ⟨same, last⟩, slot]
      · rw [viewers, events, pushed.length]
        intro same k early inside other watching slot there
        have array : header.array = live.msgSignal.array := by
          obtain inPlace | moved := pushed.place
          · rw [same, inPlace]
          · rw [same, moved] at allocated
            exact absurd allocated (Nat.lt_irrefl _)
        obtain ⟨rfl, rfl⟩ | ⟨apart, there⟩ := getElem?_set_cases there
        · exact .inr reached
        · obtain old | rfl := Nat.lt_succ_iff_lt_or_eq.mp inside
          · rw [pushed.kept k old] at slot
            exact behind array k early old other watching slot there
          · exact absurd (Option.some.inj (slot.symm.trans pushed.last)) apart
  · unfold HasStop
    rwa [events]

/-- A viewer that has been told of the end takes its signal away and returns. -/
structure Exits (live next : LiveSession) (viewer place : Nat) (viewing seen : Viewing) :
    Prop where
  here : live.viewers[viewer]? = some viewing
  viewers : next.viewers = live.viewers.set viewer seen
  covered : place < live.msgSignal.length
  slot : live.arrays.slot live.msgSignal.array place = some viewer
  removed : Arrays.SwapRemoved live.arrays live.msgSignal place next.arrays next.msgSignal
  events : next.events = live.events
  playback : seen.playback = viewing.playback
  returned : viewing.playback.step = .returned
  before : viewing.registered = true
  after : seen.registered = false

theorem Exits.enrolled {viewer place : Nat} {viewing seen : Viewing}
    (exits : Exits live next viewer place viewing seen) (enrolled : live.Enrolled) :
    next.Enrolled := by
  obtain ⟨here, viewers, covered, slot, removed, events, playback, returned, before, after⟩ := exits
  obtain ⟨within, placed, consistent, slots, unique, found⟩ := enrolled
  have others {k : Nat} (apart : k ≠ place) := removed.others live.msgSignal.array k fun _ => apart
  have elsewhere {k other : Nat} (apart : k ≠ place) (inside : k < live.msgSignal.length)
      (there : live.arrays.slot live.msgSignal.array k = some other) : viewer ≠ other := by
    rintro rfl
    exact apart (unique k place viewer inside covered there slot)
  refine ⟨removed.within, ?_, ?_, ?_, ?_, ?_⟩
  · rw [viewers]
    refine each_set placed ?_
    simp [Viewing.Placed, playback, returned]
  · rw [viewers, events]
    exact each_set consistent (playback ▸ consistent viewing (List.mem_of_getElem? here))
  · rw [removed.length, removed.array, viewers]
    intro k inside
    by_cases same : k = place
    · subst same
      obtain ⟨other, watching, last, there, enlisted⟩ := slots (live.msgSignal.length - 1) (by omega)
      refine ⟨other, watching, removed.moved.trans last, ?_, enlisted⟩
      rw [List.getElem?_set_ne (elsewhere (by omega) (by omega) last), there]
    · obtain ⟨other, watching, slot, there, enlisted⟩ := slots k (by omega)
      refine ⟨other, watching, (others same).trans slot, ?_, enlisted⟩
      rw [List.getElem?_set_ne (elsewhere same (by omega) slot), there]
  · rw [removed.length, removed.array]
    intro j k other insideJ insideK slotJ slotK
    by_cases atJ : j = place <;> by_cases atK : k = place
    · rw [atJ, atK]
    · rw [atJ, removed.moved] at slotJ
      rw [others atK] at slotK
      have same := unique _ k other (by omega) (by omega) slotJ slotK
      omega
    · rw [atK, removed.moved] at slotK
      rw [others atJ] at slotJ
      have same := unique j _ other (by omega) (by omega) slotJ slotK
      omega
    · rw [others atJ] at slotJ
      rw [others atK] at slotK
      exact unique j k other (by omega) (by omega) slotJ slotK
  · rw [removed.length, removed.array, viewers]
    intro other watching there enlisted
    obtain ⟨rfl, rfl⟩ | ⟨apart, there⟩ := getElem?_set_cases there
    · exact nomatch after.symm.trans enlisted
    obtain ⟨k, inside, slot'⟩ := found other watching there enlisted
    have off : k ≠ place := by
      rintro rfl
      exact apart (Option.some.inj (slot'.symm.trans slot))
    by_cases last : k = live.msgSignal.length - 1
    · exact ⟨place, by omega, removed.moved.trans (last ▸ slot')⟩
    · exact ⟨k, by omega, (others off).trans slot'⟩

theorem Exits.keeps {viewer place : Nat} {viewing seen : Viewing}
    (exits : Exits live next viewer place viewing seen) (enrolled : live.Enrolled) :
    Keeps live next := by
  obtain ⟨here, viewers, covered, slot, removed, events, playback, returned, before, after⟩ := exits
  have missed : ¬ viewing.Reached live.events.length := fun reached => reached.stays returned
  have informed (all : live.AllInformed) : next.AllInformed := by
    unfold AllInformed
    rw [viewers, events]
    intro other watching there
    obtain ⟨rfl, rfl⟩ | ⟨-, there⟩ := getElem?_set_cases there
    · exact fun enlisted => nomatch after.symm.trans enlisted
    · exact all other watching there
  refine ⟨informed, fun header index current telling => ?_, fun stop => ?_⟩
  · obtain all | ⟨other, same, watching, there, gone⟩ | ⟨allocated, ahead, behind⟩ := telling
    · exact .inl (informed all)
    · refine .inr (.inl ⟨other, same, ?_⟩)
      unfold Returned
      rw [viewers]
      by_cases own : other = viewer
      · subst own
        exact ⟨seen, List.getElem?_set_self (List.getElem?_eq_some_iff.mp here).1,
          playback ▸ returned⟩
      · exact ⟨watching, by rwa [List.getElem?_set_ne (Ne.symm own)], gone⟩
    by_cases inHand : current = some viewer
    · refine .inr (.inl ⟨viewer, inHand, seen, ?_, playback ▸ returned⟩)
      rw [viewers, List.getElem?_set_self (List.getElem?_eq_some_iff.mp here).1]
    -- the loop has not come to the viewer yet, nor to what takes its place
    have later (array : header.array = live.msgSignal.array) : index ≤ place := by
      by_contra early
      exact (behind array place (not_le.mp early) covered viewer viewing slot here).elim inHand missed
    refine .inr (.inr ⟨by rwa [removed.allocated], ?_, ?_⟩)
    · rw [viewers, events]
      intro other watching there enlisted unreached
      obtain ⟨rfl, rfl⟩ | ⟨apart, there⟩ := getElem?_set_cases there
      · exact nomatch after.symm.trans enlisted
      refine (ahead other watching there enlisted unreached).imp id ?_
      rintro ⟨k, from', until', slot'⟩
      refine ⟨k, from', until', ?_⟩
      rw [removed.others, slot']
      rintro array rfl
      rw [array] at slot'
      exact apart (Option.some.inj (slot'.symm.trans slot))
    · rw [viewers, events, removed.array, removed.length]
      intro array k early inside other watching slot' there
      have off : k ≠ place := by
        have bound := later array
        omega
      rw [removed.others _ _ fun _ => off] at slot'
      obtain ⟨rfl, rfl⟩ | ⟨-, there⟩ := getElem?_set_cases there
      · exact absurd (enrolled.unique k place other (by omega) covered slot' slot) off
      · exact behind array k early (by omega) other watching slot' there
  · unfold HasStop
    rwa [events]

/-- A viewer joins. -/
structure Joins (live next : LiveSession) : Prop where
  viewers : next.viewers = live.viewers ++ [({} : Viewing)]
  arrays : next.arrays = live.arrays
  msgSignal : next.msgSignal = live.msgSignal
  events : next.events = live.events

theorem Joins.enrolled (joins : Joins live next) (enrolled : live.Enrolled) : next.Enrolled := by
  obtain ⟨viewers, arrays, msgSignal, events⟩ := joins
  obtain ⟨within, placed, consistent, slots, unique, found⟩ := enrolled
  refine ⟨by rwa [arrays, msgSignal], ?_, ?_, ?_, by rwa [arrays, msgSignal], ?_⟩
  · rw [viewers]
    exact List.forall_mem_append.mpr ⟨placed, List.forall_mem_singleton.mpr rfl⟩
  · rw [viewers, events]
    exact List.forall_mem_append.mpr ⟨consistent,
      List.forall_mem_singleton.mpr (Playback.consistent_new _)⟩
  · rw [viewers, arrays, msgSignal]
    intro k inside
    obtain ⟨other, watching, slot, there, enlisted⟩ := slots k inside
    exact ⟨other, watching, slot, getElem?_append_kept there, enlisted⟩
  · rw [viewers, arrays, msgSignal]
    intro other watching there enlisted
    obtain ⟨rfl, rfl⟩ | there := getElem?_concat_cases there
    · contradiction
    · exact found other watching there enlisted

theorem Joins.keeps (joins : Joins live next) (enrolled : live.Enrolled) : Keeps live next := by
  obtain ⟨viewers, arrays, msgSignal, events⟩ := joins
  have informed (all : live.AllInformed) : next.AllInformed := by
    unfold AllInformed
    rw [viewers, events]
    intro other watching there
    obtain ⟨rfl, rfl⟩ | there := getElem?_concat_cases there
    · exact fun enlisted => nomatch enlisted
    · exact all other watching there
  refine ⟨informed, fun header index current telling => ?_, fun stop => ?_⟩
  · obtain all | ⟨other, same, watching, there, gone⟩ | ⟨allocated, ahead, behind⟩ := telling
    · exact .inl (informed all)
    · refine .inr (.inl ⟨other, same, watching, ?_, gone⟩)
      rw [viewers]
      exact getElem?_append_kept there
    · refine .inr (.inr ⟨by rwa [arrays], ?_, ?_⟩)
      · rw [viewers, arrays, events]
        intro other watching there enlisted unreached
        obtain ⟨rfl, rfl⟩ | there := getElem?_concat_cases there
        · contradiction
        · exact ahead other watching there enlisted unreached
      · rw [viewers, arrays, events, msgSignal]
        intro array k early inside other watching slot there
        obtain ⟨viewer, viewing, slot', old, -⟩ := enrolled.slots k inside
        obtain rfl := Option.some.inj (slot.symm.trans slot')
        obtain rfl := Option.some.inj ((getElem?_append_kept old).symm.trans there)
        exact behind array k early inside other _ slot old
  · unfold HasStop
    rwa [events]

/-- What a thread goes on with, and what it starts; the others keep what they were. -/
theorem Ran.threads_parting {i : Nat} {now : Time} {statement : Statement} {rest : List Statement}
    {changed : LiveSession} {left : List Statement} {spawned : List (List Statement)}
    (ran : live.Ran i now statement rest changed left spawned next)
    (others : ∀ thread ∈ live.threads, next.Parting thread) (own : next.Parting (left ++ rest))
    (starts : ∀ thread ∈ spawned, next.Parting thread) :
    ∀ thread ∈ next.threads, next.Parting thread := by
  rw [ran.next_eq] at others own starts ⊢
  exact List.forall_mem_append.mpr ⟨each_set others own, starts⟩

theorem Parting.away_cons {statement : Statement} {rest : List Statement}
    (none : weights leaves (statement :: rest) = 0) :
    weight leaves statement = 0 ∧ weights leaves rest = 0 := Nat.add_eq_zero_iff.mp none

/-- A loop that has come to the end of the signals has told everyone. -/
theorem Telling.over' {header : SliceHeader} {index : Nat}
    (telling : live.Telling header index none) (ended : ¬ index < header.length) :
    live.AllInformed := by
  obtain all | ⟨viewer, same, -⟩ | ⟨-, ahead, -⟩ := telling
  · exact all
  · contradiction
  · intro viewer viewing there enlisted
    by_contra missed
    have unreached : ¬ viewing.Reached live.events.length := fun reached =>
      missed (reached.informed enlisted)
    obtain none | ⟨k, later, covered, -⟩ := ahead viewer viewing there enlisted unreached
    · contradiction
    · omega

/-- A loop that begins has everyone ahead. -/
theorem Enrolled.telling (enrolled : live.Enrolled) : live.Telling live.msgSignal 0 none := by
  refine .inr (.inr ⟨enrolled.within.allocated, fun viewer viewing there enlisted _ => ?_, ?_⟩)
  · obtain ⟨k, inside, slot⟩ := enrolled.found viewer viewing there enlisted
    exact .inr ⟨k, Nat.zero_le k, inside, slot⟩
  · exact fun _ k early => absurd early (Nat.not_lt_zero k)

/-- The loop takes the viewer that is next in hand. -/
theorem Telling.turn {header : SliceHeader} {index viewer : Nat}
    (telling : live.Telling header index none)
    (slot : live.arrays.slot header.array index = some viewer) :
    live.Telling header (index + 1) (some viewer) := by
  obtain all | ⟨viewer, same, -⟩ | ⟨allocated, ahead, behind⟩ := telling
  · exact .inl all
  · contradiction
  · refine .inr (.inr ⟨allocated, fun other watching there enlisted missed => ?_, ?_⟩)
    · obtain none | ⟨k, later, covered, slot'⟩ := ahead other watching there enlisted missed
      · contradiction
      · obtain rfl | later := Nat.eq_or_lt_of_le later
        · exact .inl (slot.symm.trans slot')
        · exact .inr ⟨k, later, covered, slot'⟩
    · intro array k early inside other watching slot' there
      obtain early | rfl := Nat.lt_succ_iff_lt_or_eq.mp early
      · exact (behind array k early inside other watching slot' there).imp
          (fun none => absurd none nofun) id
      · rw [← array] at slot'
        exact .inl (slot.symm.trans slot')

/-- Once the viewer in hand has taken the signal, it is reached. -/
theorem Telling.reached {header : SliceHeader} {index viewer : Nat} {viewing : Viewing}
    (telling : live.Telling header index (some viewer))
    (here : live.viewers[viewer]? = some viewing) (reached : viewing.Reached live.events.length) :
    live.Telling header index none := by
  obtain all | ⟨other, same, watching, there, gone⟩ | ⟨allocated, ahead, behind⟩ := telling
  · exact .inl all
  · obtain rfl := Option.some.inj same
    obtain rfl := Option.some.inj (here.symm.trans there)
    exact absurd gone reached.stays
  · refine .inr (.inr ⟨allocated, fun other watching there enlisted missed => ?_, ?_⟩)
    · obtain same | later := ahead other watching there enlisted missed
      · obtain rfl := Option.some.inj same
        obtain rfl := Option.some.inj (here.symm.trans there)
        exact absurd reached missed
      · exact .inr later
    · intro array k early inside other watching slot there
      obtain same | reached' := behind array k early inside other watching slot there
      · obtain rfl := Option.some.inj same
        obtain rfl := Option.some.inj (here.symm.trans there)
        exact .inr reached
      · exact .inr reached'

/-- A thread that has nothing to do with the end may only come to append the stop event. -/
theorem Ran.away {i : Nat} {now : Time} {statement : Statement} {rest : List Statement}
    {changed : LiveSession} {left : List Statement} {spawned : List (List Statement)}
    (ran : live.Ran i now statement rest changed left spawned next)
    (none : weights leaves (statement :: rest) = 0) :
    next.Parting (left ++ rest) ∧ ∀ thread ∈ spawned, next.Parting thread := by
  obtain ⟨now_none, past⟩ := Parting.away_cons none
  have executes := ran.executes
  cases executes with
  | deactivate type =>
    exact ⟨.handling type ((zero_add _).trans past), fun _ none => nomatch none⟩
  | go thread => exact ⟨.away past, List.forall_mem_singleton.mpr (.away now_none)⟩
  | signalClients signal | @turn signal | @sending signal =>
    cases signal with
    | sessionEnd => contradiction
    | newMessage => exact ⟨.away ((zero_add _).trans past), fun _ none => nomatch none⟩
  | _ =>
    refine ⟨.away ?_, fun _ none => nomatch none⟩
    rw [weights_append, past]
    rfl

theorem Unnoticed.complete (unnoticed : Unnoticed live next)
    (complete : ∀ viewing ∈ live.viewers, viewing.playback.step = .returned →
      viewing.registered = true → viewing.playback.sent = live.events ∧ live.HasStop) :
    ∀ viewing ∈ next.viewers, viewing.playback.step = .returned →
      viewing.registered = true → viewing.playback.sent = next.events ∧ next.HasStop := by
  unfold HasStop at complete ⊢
  rwa [unnoticed.viewers, unnoticed.events]

/-- The steps of a thread that leave the viewers alone. -/
theorem Parted.ran_unnoticed {i : Nat} {now : Time} {statement : Statement} {rest : List Statement}
    {changed : LiveSession} {left : List Statement} {spawned : List (List Statement)}
    (parted : live.Parted) (ran : live.Ran i now statement rest changed left spawned next)
    (silent : ∀ event, statement ≠ .handleEvent event)
    (apart : ∀ signal header index viewer, statement ≠ .sending signal header index viewer) :
    next.Parted := by
  have unnoticed := ran.unnoticed silent apart
  have keeps := unnoticed.keeps
  have enrolled := unnoticed.enrolled parted.enrolled
  have restored (own : next.Parting (left ++ rest)) (starts : ∀ thread ∈ spawned, next.Parting thread) :
      next.Parted :=
    ⟨enrolled, ran.threads_parting (fun thread member => (parted.threads thread member).keeps keeps)
      own starts, unnoticed.complete parted.complete⟩
  have parting := parted.threads _ (List.mem_of_getElem? ran.here)
  have executes := ran.executes
  cases parting with
  | away none =>
    obtain ⟨own, starts⟩ := ran.away none
    exact restored own starts
  | handling => exact absurd rfl (silent _)
  | logging stop past =>
    cases executes with
    | logEvent => exact restored (.announcing (keeps.stop stop) past) fun _ none => nomatch none
  | announcing stop past =>
    cases executes with
    | signalClients =>
      have telling := keeps.telling _ _ _ parted.enrolled.telling
      exact restored (.ranging (keeps.stop stop) past telling) fun _ none => nomatch none
  | ranging stop past telling =>
    cases executes with
    | turn more slot =>
      have turned := keeps.telling _ _ _ (telling.turn slot)
      exact restored (.sending (keeps.stop stop) past turned) fun _ none => nomatch none
    | allSignalled ended =>
      exact restored (.leaving (keeps.stop stop) rfl past (keeps.informed (telling.over' ended)))
        fun _ none => nomatch none
  | sending => exact absurd rfl (apart _ _ _ _)
  | leaving stop leaves past informed =>
    have stop := keeps.stop stop
    have informed := keeps.informed informed
    cases executes with
    | signalClients signal | @turn signal =>
      cases signal with
      | newMessage => contradiction
      | sessionEnd => exact restored (.leaving stop rfl past informed) fun _ none => nomatch none
    | allSignalled => exact restored (.away past) fun _ none => nomatch none
    | sending => exact absurd rfl (apart _ _ _ _)
    | _ => contradiction

/-- A viewer that is told of a new message measures anew. -/
theorem Parted.ran_newMessage {i : Nat} {now : Time} {header : SliceHeader} {index viewer : Nat}
    {rest : List Statement} {changed : LiveSession} {viewing : Viewing} {playback : Playback}
    (parted : live.Parted)
    (ran : live.Ran i now (.sending .newMessage header index viewer) rest changed
      [.ranging .newMessage header (index + 1)] [] next)
    (goes : Goes live next viewer viewing { viewing with playback })
    (received : viewing.playback.receiveSignal .newMessage = some playback) : next.Parted := by
  have member := List.mem_of_getElem? goes.here
  have consistent := (parted.enrolled.consistent viewing member).receiveSignal received
  obtain ⟨waits, ⟨-, rfl⟩ | ⟨none, -⟩⟩ := Viewing.receiveSignal_cases received
  case inr => contradiction
  have registered : viewing.registered = true := by
    simpa [Viewing.Placed, waits] using parted.enrolled.placed viewing member
  have keeps := goes.keeps PlayStep.noConfusion
  refine ⟨goes.enrolled parted.enrolled registered consistent, ?_, ?_⟩
  · refine ran.threads_parting (fun thread old => (parted.threads thread old).keeps keeps) ?_
      fun _ none => nomatch none
    have parting := parted.threads _ (List.mem_of_getElem? ran.here)
    cases parting with
    | away none => exact .away ((zero_add _).trans (Parting.away_cons none).2)
    | sending stop past telling =>
      have here : next.viewers[viewer]? = some _ :=
        goes.viewers ▸ List.getElem?_set_self (List.getElem?_eq_some_iff.mp goes.here).1
      have reached := (keeps.telling _ _ _ telling).reached here
        ⟨fun _ => trivial, PlayStep.noConfusion⟩
      exact .ranging (keeps.stop stop) past reached
    | leaving stop leaves' => contradiction
  · rw [goes.viewers, goes.events]
    intro other member' returned enlisted
    obtain old | rfl := List.mem_or_eq_of_mem_set member'
    · exact (parted.complete other old returned enlisted).imp id goes.stop
    · contradiction

/-- A viewer that is told of the end has sent all events. -/
theorem Parted.ran_sessionEnd {i : Nat} {now : Time} {header : SliceHeader} {index viewer : Nat}
    {rest : List Statement} {changed : LiveSession} {viewing : Viewing} {playback : Playback}
    (parted : live.Parted)
    (ran : live.Ran i now (.sending .sessionEnd header index viewer) rest changed
      [.ranging .sessionEnd header (index + 1)] [] next)
    (goes : Goes live next viewer viewing { viewing with playback })
    (received : viewing.playback.receiveSignal .sessionEnd = some playback) : next.Parted := by
  have member := List.mem_of_getElem? goes.here
  have consistent := parted.enrolled.consistent viewing member
  have consistent' := consistent.receiveSignal received
  obtain ⟨waits, ⟨none, -⟩ | ⟨-, rfl⟩⟩ := Viewing.receiveSignal_cases received
  case inl => contradiction
  have parting := parted.threads _ (List.mem_of_getElem? ran.here)
  cases parting with
  | away none => exact absurd (Parting.away_cons none).1 Nat.one_ne_zero
  | leaving stop leaves' past informed =>
    have keeps := goes.keeps_informed informed
    refine ⟨goes.enrolled parted.enrolled trivial consistent', ?_, ?_⟩
    · exact ran.threads_parting (fun thread old => (parted.threads thread old).keeps keeps)
        (.leaving (keeps.stop stop) rfl past (keeps.informed informed)) fun _ none => nomatch none
    · rw [goes.viewers, goes.events]
      intro other member' returned enlisted
      obtain old | rfl := List.mem_or_eq_of_mem_set member'
      · exact (parted.complete other old returned enlisted).imp id goes.stop
      · -- it waited, and had been sent as many events as there are
        have enlisted : viewing.registered = true := enlisted
        have last : viewing.playback.lastEventIndex = live.events.length := by
          simpa [Viewing.Informed, waits, enlisted] using informed viewer viewing goes.here
        have taken := consistent.taken
        rw [waits] at taken
        refine ⟨?_, goes.stop stop⟩
        calc viewing.playback.sent
            = viewing.playback.sent ++ [] := (List.append_nil _).symm
          _ = live.events.take viewing.playback.lastEventIndex := taken
          _ = live.events := by rw [last, List.take_length]

theorem leaves_takesLeave {statement : Statement} {rest : List Statement}
    (leaving : leaves statement = 1) : takesLeave (statement :: rest) = true := by
  unfold leaves at leaving
  split at leaving
  · rfl
  · rfl
  · rfl
  · contradiction

/-- A thread that does not take leave has told nobody anything that an event could spoil. -/
theorem Parting.grows {thread : List Statement} (parting : live.Parting thread)
    (stays : takesLeave thread ≠ true) (grows : live.HasStop → next.HasStop) :
    next.Parting thread := by
  cases parting with
  | away past => exact .away past
  | handling type past => exact .handling type past
  | logging stop past => exact .logging (grows stop) past
  | announcing stop past => exact .announcing (grows stop) past
  | ranging => exact absurd rfl stays
  | sending => exact absurd rfl stays
  | leaving _ leaving => exact absurd (leaves_takesLeave leaving) stays

/-- An event is added while nobody takes leave. -/
theorem Parted.ran_handleEvent {i : Nat} {now : Time} {event : SessionEvent}
    {rest : List Statement} {changed : LiveSession} {left : List Statement}
    {spawned : List (List Statement)} (parted : live.Parted)
    (ran : live.Ran i now (.handleEvent event) rest changed left spawned next)
    (nobody : ¬ live.TakesLeave)
    (gone : ∀ viewing ∈ live.viewers, viewing.playback.step = .returned →
      viewing.registered = false) : next.Parted := by
  have parting := parted.threads _ (List.mem_of_getElem? ran.here)
  have executes := ran.executes
  have same := ran.next_eq
  cases executes with
  | handleEvent =>
    have viewers : next.viewers = live.viewers := same ▸ rfl
    obtain ⟨stamped, type', appended⟩ : ∃ stamped : SessionEvent,
        stamped.type = event.type ∧ next.events = live.events ++ [stamped] :=
      ⟨{ event with timeOffset := live.logged.session.getTimeOffset now }, rfl, same ▸ rfl⟩
    have grows : live.HasStop → next.HasStop := by
      rintro ⟨stop, member, type⟩
      exact ⟨stop, appended ▸ List.mem_append_left _ member, type⟩
    refine ⟨?_, ?_, ?_⟩
    · obtain ⟨within, placed, consistent, slots, unique, found⟩ := parted.enrolled
      have consistent : ∀ viewing ∈ next.viewers, viewing.playback.Consistent next.events := by
        rw [viewers, appended]
        exact fun viewing member => (consistent viewing member).addEvent _
      subst same
      exact ⟨within, placed, consistent, slots, unique, found⟩
    · refine ran.threads_parting (fun thread member => ?_) ?_ fun _ none => nomatch none
      · have stays : takesLeave thread ≠ true := fun takes => nobody ⟨thread, member, takes⟩
        exact (parted.threads thread member).grows stays grows
      · cases parting with
        | away none =>
          exact .away ((zero_add _).trans ((zero_add _).trans (Parting.away_cons none).2))
        | handling type past =>
          refine .logging ⟨stamped, ?_, type'.trans type⟩ past
          exact appended ▸ List.mem_append_right _ List.mem_cons_self
        | leaving _ leaving => contradiction
    · rw [viewers]
      intro viewing member returned enlisted
      exact nomatch (gone viewing member returned).symm.trans enlisted

/-- Whatever is not a step of a thread adds nothing to them but a call of `End`. -/
theorem Parted.aside (parted : live.Parted) (enrolled : next.Enrolled)
    (partings : ∀ thread ∈ live.threads, next.Parting thread)
    (threads : next.threads = live.threads ∨ next.threads = live.threads ++ [[.endSession]])
    (events : next.events = live.events)
    (complete : ∀ viewing ∈ next.viewers, viewing.playback.step = .returned →
      viewing.registered = true → viewing ∈ live.viewers) : next.Parted := by
  refine ⟨enrolled, fun thread member => ?_, fun viewing member returned enlisted => ?_⟩
  · obtain same | same := threads
    · exact partings thread (same ▸ member)
    · rw [same] at member
      obtain old | new := List.mem_append.mp member
      · exact partings thread old
      · rw [List.mem_singleton.mp new]
        exact .away rfl
  · have old := complete viewing member returned enlisted
    unfold HasStop
    rw [events]
    exact parted.complete viewing old returned enlisted

/-- Only one that has measured all events registers while a call of `End` tells the viewers. -/
theorem Parted.registers {viewer newEventIndex : Nat} {viewing : Viewing} (parted : live.Parted)
    (stands : viewing.playback.step = .unregistered newEventIndex)
    (registers : Registers live next viewer viewing
      ⟨{ viewing.playback with step := .measured newEventIndex }, true⟩)
    (threads : next.threads = live.threads)
    (measured : live.TakesLeave → newEventIndex = live.events.length) : next.Parted := by
  have member := List.mem_of_getElem? registers.here
  have consistent := (parted.enrolled.consistent viewing member).register stands
  have enrolled := registers.enrolled parted.enrolled rfl consistent
  refine parted.aside enrolled (fun thread present => ?_) (.inl threads) registers.events ?_
  · have parting := parted.threads thread present
    by_cases leave : live.TakesLeave
    · have keeps := registers.keeps parted.enrolled ⟨fun _ => measured leave, PlayStep.noConfusion⟩
        (by simp [stands])
      exact parting.keeps keeps
    · refine parting.grows (fun takes => leave ⟨thread, present, takes⟩) ?_
      unfold HasStop
      rw [registers.events]
      exact id
  · rw [registers.viewers]
    intro other member' returned _
    obtain old | rfl := List.mem_or_eq_of_mem_set member'
    · exact old
    · contradiction

/-- The steps of the viewers themselves. -/
theorem Parted.view {viewer spare : Nat} {reply : Option Bytes} {viewing seen : Viewing}
    {changed : LiveSession} (parted : live.Parted) (here : live.viewers[viewer]? = some viewing)
    (viewed : live.view viewer viewing reply spare = some (changed, seen))
    (measured : ∀ newEventIndex, viewing.playback.step = .unregistered newEventIndex →
      live.TakesLeave → newEventIndex = live.events.length) :
    Parted { changed with viewers := changed.viewers.set viewer seen } := by
  have member := List.mem_of_getElem? here
  have placed := parted.enrolled.placed viewing member
  cases views_of_view viewed with
  | @registers newEventIndex stands =>
    refine parted.registers stands ⟨here, rfl, ?_, rfl, ?_, rfl⟩ rfl (measured newEventIndex stands)
    · exact Arrays.push_pushed parted.enrolled.within viewer spare
    · simpa [Viewing.Placed, stands] using placed
  | exits returned _ enlisted =>
    obtain ⟨place, covered, slot⟩ := parted.enrolled.found viewer viewing here enlisted
    have removed := Arrays.swapRemoveFirst_removed parted.enrolled.within covered slot
      fun i inside there => parted.enrolled.unique i place viewer inside covered there slot
    have exits : Exits live { live.removeSignal viewer with
        viewers := live.viewers.set viewer { viewing with registered := false } }
        viewer place viewing { viewing with registered := false } :=
      ⟨here, rfl, covered, slot, removed, rfl, rfl, returned, enlisted, rfl⟩
    have keeps := exits.keeps parted.enrolled
    refine parted.aside (exits.enrolled parted.enrolled)
      (fun thread present => (parted.threads thread present).keeps keeps) (.inl rfl) rfl ?_
    intro other member' _ registered
    obtain old | rfl := List.mem_or_eq_of_mem_set member'
    · exact old
    · contradiction
  | @goesOn playback registering advanced =>
    have consistent := parted.enrolled.consistent viewing member
    obtain ⟨placed', stays', stays, informed⟩ :=
      Viewing.advance_cases placed consistent registering advanced
    have goes : Goes live { live with
        viewers := live.viewers.set viewer { viewing with playback } }
        viewer viewing { viewing with playback } :=
      ⟨here, rfl, rfl, rfl, rfl, rfl, stays, informed⟩
    have keeps := goes.keeps stays'
    refine parted.aside (goes.enrolled parted.enrolled placed' (consistent.advance advanced))
      (fun thread present => (parted.threads thread present).keeps keeps) (.inl rfl) rfl ?_
    intro other member' returned _
    obtain old | rfl := List.mem_or_eq_of_mem_set member'
    · exact old
    · exact absurd returned stays'

theorem Parted.perform (parted : live.Parted) (attended : live.Attended action)
    (performed : live.perform action = some next) : next.Parted := by
  cases action with
  | run i now =>
    obtain ⟨statement, rest, changed, left, spawned, ran⟩ := ran_of_perform performed
    have executes := ran.executes
    cases executes with
    | handleEvent event =>
      obtain ⟨nobody, gone⟩ := attended event rest ran.here
      exact parted.ran_handleEvent ran nobody gone
    | @sending signal header index viewer viewing playback there received =>
      have waits := (Viewing.receiveSignal_cases received).1
      have goes : Goes live next viewer viewing { viewing with playback } := by
        refine ⟨there, ran.next_eq ▸ rfl, ran.next_eq ▸ rfl, ran.next_eq ▸ rfl, ran.next_eq ▸ rfl,
          rfl, by simp [waits], fun _ => ?_⟩
        obtain ⟨-, ⟨-, rfl⟩ | ⟨-, rfl⟩⟩ := Viewing.receiveSignal_cases received
        · exact fun _ => trivial
        · exact fun _ => trivial
      cases signal with
      | newMessage => exact parted.ran_newMessage ran goes received
      | sessionEnd => exact parted.ran_sessionEnd ran goes received
    | _ =>
      exact parted.ran_unnoticed ran (fun _ => Statement.noConfusion)
        fun _ _ _ _ => Statement.noConfusion
  | stop =>
    obtain rfl := Option.some.inj performed
    have unnoticed : Unnoticed live { live with threads := live.threads ++ [[.endSession]] } :=
      ⟨rfl, rfl, rfl, rfl⟩
    exact parted.aside (unnoticed.enrolled parted.enrolled)
      (fun thread present => (parted.threads thread present).keeps unnoticed.keeps) (.inr rfl) rfl
      fun _ member _ _ => member
  | playSession =>
    obtain rfl := Option.some.inj performed
    have joins : Joins live { live with viewers := live.viewers ++ [{}] } := ⟨rfl, rfl, rfl, rfl⟩
    refine parted.aside (joins.enrolled parted.enrolled)
      (fun thread present => (parted.threads thread present).keeps (joins.keeps parted.enrolled))
      (.inl rfl) rfl fun viewing member _ enlisted => ?_
    obtain old | new := List.mem_append.mp member
    · exact old
    · rw [List.mem_singleton.mp new] at enlisted
      contradiction
  | view viewer reply spare =>
    simp only [perform, Option.bind_eq_bind, Option.bind_eq_some_iff] at performed
    obtain ⟨viewing, here, ⟨changed, seen⟩, viewed, same⟩ := performed
    obtain rfl := Option.some.inj same
    exact parted.view here viewed fun newEventIndex => attended viewing newEventIndex here

theorem leaves_unseen : Statement.Unseen leaves := ⟨rfl, fun _ => rfl⟩

/-- Nobody is at a session that begins. -/
theorem loggedIn_parted (sessionFolder : Bytes) (session : SessionContext) (files : Files)
    (connected : Option ConnectedClient) :
    (loggedIn sessionFolder session files connected).Parted := by
  refine ⟨⟨⟨Nat.one_pos, Nat.le_refl 0⟩, ?_, ?_, ?_, ?_, ?_⟩, ?_, ?_⟩
  · exact fun _ none => nomatch none
  · exact fun _ none => nomatch none
  · exact fun k none => absurd none (Nat.not_lt_zero k)
  · exact fun j _ _ none => absurd none (Nat.not_lt_zero j)
  · exact fun _ _ none => nomatch none
  · refine List.forall_mem_singleton.mpr (.away ?_)
    exact leaves_unseen.handleClientConn (fun _ _ => rfl) connected
  · exact fun _ none => nomatch none

variable {sessionFolder : Bytes} {session : SessionContext} {files : Files}

/-- Where every step is attended to, a viewer that has been told of the end has sent all events
until it returns, and the stop event is among them. -/
theorem attended_complete (reached : (runs Attended sessionFolder session files).Reachable live)
    {viewing : Viewing} (member : viewing ∈ live.viewers)
    (told : viewing.playback.step = .returned) (returning : viewing.registered = true) :
    viewing.playback.sent = live.events ∧ live.HasStop := by
  have parted : live.Parted := by
    clear member
    induction reached with
    | start first =>
      obtain ⟨-, -, connected, rfl⟩ := first
      exact loggedIn_parted sessionFolder session files connected
    | next _ step ih => exact ih.perform step.1 step.2
  exact parted.complete viewing member told returning

theorem attended_run {i : Nat} {now : Time} {statement : Statement} {rest : List Statement}
    (here : live.threads[i]? = some (statement :: rest))
    (silent : ∀ event, statement ≠ .handleEvent event) : live.Attended (.run i now) := by
  intro event rest' here'
  have same := (List.cons.inj (Option.some.inj (here.symm.trans here'))).1
  exact absurd same (silent event)

theorem attended_view {viewer spare : Nat} {reply : Option Bytes} {viewing : Viewing}
    (here : live.viewers[viewer]? = some viewing)
    (measured : ∀ newEventIndex, viewing.playback.step = .unregistered newEventIndex →
      newEventIndex = live.events.length) : live.Attended (.view viewer reply spare) := by
  intro viewing' newEventIndex here' stands _
  obtain rfl := Option.some.inj (here.symm.trans here')
  exact measured newEventIndex stands

theorem watched_handleEvent_stays {logged : LoggedSession} {viewing : Viewing} :
    ¬ (watched logged viewing
      [.handleEvent stopEvent, .signalClients .sessionEnd, .finalizeLog]).TakesLeave := by
  rintro ⟨thread, member, takes⟩
  simp [watched, handleClientConn, marked] at member
  obtain rfl | rfl := member
  · contradiction
  · contradiction

/-- A viewer waits, and is sent the stop event. -/
theorem attended_complete_watched : ∃ live viewing,
    (runs Attended (lit "logs") freshSession ∅).Reachable live ∧ viewing ∈ live.viewers ∧
      viewing.playback.sent = live.events ∧ live.HasStop := by
  let first : LoggedSession := { session := freshSession, files := ∅, path := [], isOpen := false }
  let stopped := recorded (inactive first)
  let stamped : SessionEvent := { stopEvent with timeOffset := freshSession.getTimeOffset 0 }
  let logged := stopped.logEvent stamped
  let ends : List Statement := [.signalClients .sessionEnd, .finalizeLog]
  let header : SliceHeader := { array := 1, length := 1 }
  let waits : Viewing := { playback := { step := .waiting }, registered := true }
  let sends : Viewing :=
    ⟨{ step := .sending [] 1, sent := [stamped] }, true⟩
  let sent : Playback := { lastEventIndex := 1, sent := [stamped], outcomes := [some (lit "ack")] }
  have joined : Follows (runs Attended (lit "logs") freshSession ∅).step
      (loggedIn (lit "logs") freshSession ∅ none)
      (.stop :: .playSession :: List.replicate 3 (.view 0 none 0))
      (watched first waits [.endSession]) :=
    ⟨{ loggedIn (lit "logs") freshSession ∅ none with
        threads := [Statement.handleClientConn none, [.endSession]] }, ⟨trivial, rfl⟩,
      watched first {} [.endSession], ⟨trivial, rfl⟩,
      watched first { playback := { step := .unregistered 0 } } [.endSession],
      ⟨attended_view rfl nofun, rfl⟩,
      watched first ⟨{ step := .measured 0 }, true⟩ [.endSession],
      ⟨attended_view rfl fun _ same => (PlayStep.unregistered.inj same).symm, rfl⟩,
      watched first waits [.endSession], ⟨attended_view rfl nofun, rfl⟩, rfl⟩
  have told : Follows (runs Attended (lit "logs") freshSession ∅).step
      (watched first waits [.endSession]) (List.replicate 7 (.run 1 0))
      (watched logged ⟨{ step := .signalled }, true⟩ (.ranging .newMessage header 1 :: ends)) :=
    ⟨watched first waits [.deactivate], ⟨attended_run rfl nofun, rfl⟩,
      watched (inactive first) waits (.handleEvent stopEvent :: ends),
      ⟨attended_run rfl nofun, rfl⟩,
      watched stopped waits (.logEvent 0 :: .signalClients .newMessage :: ends),
      ⟨fun _ _ _ => ⟨watched_handleEvent_stays, fun viewing member returned => by
        obtain rfl := List.mem_singleton.mp member
        contradiction⟩, rfl⟩,
      watched logged waits (.signalClients .newMessage :: ends), ⟨attended_run rfl nofun, rfl⟩,
      watched logged waits (.ranging .newMessage header 0 :: ends), ⟨attended_run rfl nofun, rfl⟩,
      watched logged waits (.sending .newMessage header 0 0 :: ends),
      ⟨attended_run rfl nofun, rfl⟩,
      watched logged ⟨{ step := .signalled }, true⟩ (.ranging .newMessage header 1 :: ends),
      ⟨attended_run rfl nofun, rfl⟩, rfl⟩
  have shown : Follows (runs Attended (lit "logs") freshSession ∅).step
      (watched logged ⟨{ step := .signalled }, true⟩ (.ranging .newMessage header 1 :: ends))
      (List.replicate 3 (.view 0 (some (lit "ack")) 0))
      (watched logged ⟨{ sent with step := .waiting }, true⟩
        (.ranging .newMessage header 1 :: ends)) :=
    ⟨watched logged ⟨{ step := .measured 1 }, true⟩ (.ranging .newMessage header 1 :: ends),
      ⟨attended_view rfl nofun, rfl⟩,
      watched logged sends (.ranging .newMessage header 1 :: ends),
      ⟨attended_view rfl nofun, rfl⟩,
      watched logged ⟨{ sent with step := .waiting }, true⟩ (.ranging .newMessage header 1 :: ends),
      ⟨attended_view rfl nofun, rfl⟩, rfl⟩
  have ended : Follows (runs Attended (lit "logs") freshSession ∅).step
      (watched logged ⟨{ sent with step := .waiting }, true⟩
        (.ranging .newMessage header 1 :: ends))
      (List.replicate 4 (.run 1 0))
      (watched logged ⟨{ sent with step := .returned }, true⟩
        [.ranging .sessionEnd header 1, .finalizeLog]) :=
    ⟨watched logged ⟨{ sent with step := .waiting }, true⟩ ends, ⟨attended_run rfl nofun, rfl⟩,
      watched logged ⟨{ sent with step := .waiting }, true⟩
        [.ranging .sessionEnd header 0, .finalizeLog], ⟨attended_run rfl nofun, rfl⟩,
      watched logged ⟨{ sent with step := .waiting }, true⟩
        [.sending .sessionEnd header 0 0, .finalizeLog], ⟨attended_run rfl nofun, rfl⟩,
      watched logged ⟨{ sent with step := .returned }, true⟩
        [.ranging .sessionEnd header 1, .finalizeLog], ⟨attended_run rfl nofun, rfl⟩, rfl⟩
  have reached := (((freshSession_reachable.follows joined).follows told).follows shown).follows ended
  exact ⟨_, _, reached, List.mem_cons_self,
    attended_complete reached List.mem_cons_self rfl rfl⟩

/-- The viewer has found no events, but registers only once the stop event has been announced: it
is told of the end without having been sent anything. -/
theorem late_viewer_unserved :
    ¬ ∀ (sessionFolder : Bytes) (session : SessionContext) (files : Files) (live : LiveSession)
      (viewing : Viewing), (runs (fun _ _ => True) sessionFolder session files).Reachable live →
        viewing ∈ live.viewers → viewing.playback.step = .returned → viewing.registered = true →
          viewing.playback.sent = live.events ∧ live.HasStop := by
  intro complete
  let first : LoggedSession := { session := freshSession, files := ∅, path := [], isOpen := false }
  let stopped := recorded (inactive first)
  let stamped : SessionEvent := { stopEvent with timeOffset := freshSession.getTimeOffset 0 }
  let logged := stopped.logEvent stamped
  let ends : List Statement := [.signalClients .sessionEnd, .finalizeLog]
  let header : SliceHeader := { array := 1, length := 1 }
  let comes : Viewing := { playback := { step := .unregistered 0 } }
  have announced : Follows (runs (fun _ _ => True) (lit "logs") freshSession ∅).step
      (loggedIn (lit "logs") freshSession ∅ none)
      (.stop :: .playSession :: .view 0 none 0 :: List.replicate 6 (.run 1 0))
      (watched logged comes ends) :=
    ⟨{ loggedIn (lit "logs") freshSession ∅ none with
        threads := [Statement.handleClientConn none, [.endSession]] }, ⟨trivial, rfl⟩,
      watched first {} [.endSession], ⟨trivial, rfl⟩,
      watched first comes [.endSession], ⟨trivial, rfl⟩,
      watched first comes [.deactivate], ⟨trivial, rfl⟩,
      watched (inactive first) comes (.handleEvent stopEvent :: ends), ⟨trivial, rfl⟩,
      watched stopped comes (.logEvent 0 :: .signalClients .newMessage :: ends), ⟨trivial, rfl⟩,
      watched logged comes (.signalClients .newMessage :: ends), ⟨trivial, rfl⟩,
      watched logged comes (.ranging .newMessage {} 0 :: ends), ⟨trivial, rfl⟩,
      watched logged comes ends, ⟨trivial, rfl⟩, rfl⟩
  have told : Follows (runs (fun _ _ => True) (lit "logs") freshSession ∅).step
      (watched logged comes ends)
      (.view 0 none 0 :: .view 0 none 0 :: List.replicate 3 (.run 1 0))
      (watched logged ⟨{ step := .returned }, true⟩ [.ranging .sessionEnd header 1, .finalizeLog]) :=
    ⟨watched logged ⟨{ step := .measured 0 }, true⟩ ends, ⟨trivial, rfl⟩,
      watched logged ⟨{ step := .waiting }, true⟩ ends, ⟨trivial, rfl⟩,
      watched logged ⟨{ step := .waiting }, true⟩ [.ranging .sessionEnd header 0, .finalizeLog],
      ⟨trivial, rfl⟩,
      watched logged ⟨{ step := .waiting }, true⟩ [.sending .sessionEnd header 0 0, .finalizeLog],
      ⟨trivial, rfl⟩,
      watched logged ⟨{ step := .returned }, true⟩ [.ranging .sessionEnd header 1, .finalizeLog],
      ⟨trivial, rfl⟩, rfl⟩
  have sent := (complete _ _ _ _ _ ((freshSession_reachable.follows announced).follows told)
    List.mem_cons_self rfl rfl).1
  exact absurd sent (List.cons_ne_nil _ _).symm

end LiveSession
end SSHProxyPlus
