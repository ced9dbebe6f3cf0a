import SSHProxyPlus.Replay.Seeking
import SSHProxyPlus.Replay.Timers

/-! What the control bar and the timers leave of the events of a session, live or not. -/
namespace SSHProxyPlus
open Go Browser

/-- An event as it was loaded, or what playing it leaves in its place. -/
def TerminalEvent.Leaves (loaded kept : TerminalEvent) : Prop := kept = loaded ∨ kept = loaded.played

namespace TerminalReader
variable {reader mid after : TerminalReader}

/-- The same events are there, played or not, and none of them can have changed the mode. -/
structure Keeps (reader after : TerminalReader) : Prop where
  events : List.Forall₂ TerminalEvent.Leaves reader.events after.events
  mode : (∀ event ∈ reader.events, event.get "live" = none) →
    after.session.get "live" = reader.session.get "live"

end TerminalReader

namespace TerminalEvent
variable {loaded mid kept : TerminalEvent}

theorem Leaves.refl (event : TerminalEvent) : event.Leaves event := Or.inl rfl

theorem Leaves.trans (first : loaded.Leaves mid) (second : mid.Leaves kept) : loaded.Leaves kept := by
  rcases first with rfl | rfl <;> rcases second with rfl | rfl
  · exact Leaves.refl _
  · exact Or.inr rfl
  · exact Or.inr rfl
  · exact Or.inr played_played

theorem Leaves.live (leaves : loaded.Leaves kept) : kept.get "live" = loaded.get "live" := by
  rcases leaves with rfl | rfl
  · rfl
  · exact played_get (by decide)

theorem Leaves.decodable (leaves : loaded.Leaves kept) : kept.Decodable ↔ loaded.Decodable := by
  rcases leaves with rfl | rfl
  · exact Iff.rfl
  · exact played_decodable

theorem Leaves.rendered (leaves : loaded.Leaves kept) : kept.rendered = loaded.rendered := by
  rcases leaves with rfl | rfl
  · rfl
  · exact played_rendered

theorem forall₂_leaves (events : List TerminalEvent) : List.Forall₂ Leaves events events :=
  List.forall₂_same.mpr fun event _ => Leaves.refl event

theorem forall₂_trans {events between kept : List TerminalEvent}
    (first : List.Forall₂ Leaves events between) (second : List.Forall₂ Leaves between kept) :
    List.Forall₂ Leaves events kept := by
  induction first generalizing kept with
  | nil => exact second
  | cons head tail ih =>
    cases second with
    | cons next rest => exact List.Forall₂.cons (head.trans next) (ih rest)

/-- Playing one of the events. -/
theorem forall₂_set (events : List TerminalEvent) {index : Nat} {event : TerminalEvent}
    (found : events[index]? = some event) :
    List.Forall₂ Leaves events (events.set index event.played) := by
  induction events generalizing index with
  | nil => exact List.Forall₂.nil
  | cons first rest ih =>
    cases index with
    | zero =>
      obtain rfl := Option.some.inj found
      exact List.Forall₂.cons (Or.inr rfl) (forall₂_leaves rest)
    | succ index => exact List.Forall₂.cons (Leaves.refl first) (ih found)

theorem forall₂_mode {events kept : List TerminalEvent} (leaves : List.Forall₂ Leaves events kept)
    (silent : ∀ event ∈ events, event.get "live" = none) : ∀ event ∈ kept, event.get "live" = none := by
  induction leaves with
  | nil => exact silent
  | cons first rest ih =>
    obtain ⟨head, tail⟩ := List.forall_mem_cons.mp silent
    exact List.forall_mem_cons.mpr ⟨first.live.trans head, ih tail⟩

/-- What can not be decoded stays so. -/
theorem forall₂_undecodable {events kept : List TerminalEvent}
    (leaves : List.Forall₂ Leaves events kept) (bad : ∃ event ∈ events, ¬ event.Decodable) :
    ∃ event ∈ kept, ¬ event.Decodable := by
  induction leaves with
  | nil => exact bad
  | cons first rest ih =>
    obtain ⟨event, member, undecodable⟩ := bad
    rcases List.mem_cons.mp member with rfl | later
    · exact ⟨_, List.mem_cons_self, fun decodable => undecodable (first.decodable.mp decodable)⟩
    · obtain ⟨other, among, still⟩ := ih ⟨event, later, undecodable⟩
      exact ⟨other, List.mem_cons_of_mem _ among, still⟩

end TerminalEvent

namespace TerminalReader
open TerminalEvent (Leaves forall₂_leaves forall₂_set forall₂_mode)
variable {reader mid after : TerminalReader}

theorem Keeps.refl (reader : TerminalReader) : Keeps reader reader :=
  ⟨forall₂_leaves reader.events, fun _ => rfl⟩

theorem Keeps.trans (first : Keeps reader mid) (second : Keeps mid after) : Keeps reader after where
  events := TerminalEvent.forall₂_trans first.events second.events
  mode silent := (second.mode (forall₂_mode first.events silent)).trans (first.mode silent)

/-- What leaves the events and the session alone. -/
theorem Keeps.frame (events : after.events = reader.events) (session : after.session = reader.session) :
    Keeps reader after where
  events := events ▸ forall₂_leaves reader.events
  mode _ := by rw [session]

theorem Keeps.bind {call : Call} {f : TerminalReader → Call} (first : Keeps reader (left call))
    (rest : ∀ mid, Keeps mid (left (f mid))) : Keeps reader (left (call >>= f)) := by
  cases call with
  | error thrown => exact first
  | ok mid => exact first.trans (rest mid)

theorem Keeps.length (keeps : Keeps reader after) : after.events.length = reader.events.length :=
  keeps.events.length_eq.symm

theorem actionEvent_keeps (reader : TerminalReader) (index : Nat) :
    Keeps reader (left (reader.actionEvent index)) := by
  cases found : reader.events[index]? with
  | none =>
    rw [actionEvent, found]
    exact Keeps.refl reader
  | some event =>
    have mode (session : Object) (silent : ∀ event ∈ reader.events, event.get "live" = none) :=
      TerminalEvent.updateSession_live (silent event (List.mem_of_getElem? found)) session
    rw [actionEvent_eq found]
    split
    · exact ⟨forall₂_set reader.events found, mode reader.session⟩
    · exact ⟨forall₂_leaves reader.events, mode reader.session⟩

theorem actionEvents_keeps (reader : TerminalReader) (index count : Nat) :
    Keeps reader (left (reader.actionEvents index count)) := by
  induction count generalizing reader index with
  | zero => exact Keeps.refl reader
  | succ count ih =>
    rw [actionEvents]
    exact (reader.actionEvent_keeps index).bind fun mid => ih mid (index + 1)

theorem writeBuffers_keeps (reader : TerminalReader) (f : Nat → Nat) : Keeps reader
    (reader.writeBuffers (fun reader => { reader with eventIndex := f reader.eventIndex }) true) := by
  rw [writeBuffers_eq]
  exact Keeps.frame rfl rfl

theorem playUpTo_keeps (reader : TerminalReader) (index newIndex : Nat) :
    Keeps reader (left (reader.playUpTo index newIndex)) := by
  have emptied : Keeps reader { reader with keystrokes := [] } := Keeps.frame rfl rfl
  have acted := emptied.trans
    (actionEvents_keeps { reader with keystrokes := [] } index (newIndex + 1 - index))
  rw [playUpTo]
  exact acted.bind fun mid => (mid.writeBuffers_keeps id).trans (Keeps.frame rfl rfl)

theorem moveToEvent_keeps (reader : TerminalReader) (eventId : Option Int) :
    Keeps reader (left (reader.moveToEvent eventId)) := by
  rcases reader.moveToEvent_cases eventId with stays | ⟨target, rfl, within, other⟩
  · exact (congrArg left stays).symm ▸ Keeps.refl reader
  · have based : Keeps reader (reader.seekBase target) := Keeps.frame rfl rfl
    rw [moveToEvent_seeks within other]
    exact based.trans (playUpTo_keeps _ _ _)

theorem processNextEvent_keeps (reader : TerminalReader) :
    Keeps reader (left reader.processNextEvent) := by
  rw [processNextEvent]
  split
  · exact Keeps.refl reader
  · split
    · refine (reader.actionEvent_keeps reader.eventIndex).bind fun mid => ?_
      split
      · exact mid.writeBuffers_keeps (· + 1)
      · exact Keeps.frame rfl rfl
    · split
      · exact Keeps.frame rfl rfl
      · exact Keeps.refl reader

theorem next_keeps (reader : TerminalReader) : Keeps reader (left reader.next) := by
  rw [next]
  split
  · split
    · exact (reader.actionEvent_keeps reader.eventIndex).bind fun mid =>
        (mid.writeBuffers_keeps id).trans (Keeps.frame rfl rfl)
    · exact reader.processNextEvent_keeps
  · exact Keeps.refl reader

theorem perform_keeps (reader : TerminalReader) {operation : ReaderOperation}
    (navigates : operation.navigates = true) : Keeps reader (left (reader.perform operation)) := by
  cases operation with
  | play | pause => exact Keeps.frame rfl rfl
  | next => exact reader.next_keeps
  | prev =>
    rw [perform, prev]
    exact reader.moveToEvent_keeps _
  | moveToEvent eventId => exact reader.moveToEvent_keeps eventId
  | processNextEvent => exact reader.processNextEvent_keeps
  | changeSpeed =>
    rw [perform, changeSpeedToNewVal]
    split
    · exact Keeps.refl reader
    · exact Keeps.frame rfl rfl
  | loadEvents | reset | setSessionModeLive | setSessionModeDisconnected => contradiction

/-- The index is that of an event, or of the next one to come. -/
def Within (reader : TerminalReader) : Prop := reader.eventIndex ≤ reader.events.length

theorem actionEvent_index (reader : TerminalReader) (index : Nat) :
    (left (reader.actionEvent index)).eventIndex = reader.eventIndex := by
  cases found : reader.events[index]? with
  | none => rw [actionEvent, found]; rfl
  | some event =>
    rw [actionEvent_eq found]
    split <;> rfl

theorem actionEvent_within {index : Nat} {mid : TerminalReader}
    (acted : reader.actionEvent index = .ok mid) :
    mid.eventIndex = reader.eventIndex ∧ mid.events.length = reader.events.length := by
  have same := reader.actionEvent_index index
  have keeps := reader.actionEvent_keeps index
  rw [acted] at same keeps
  exact ⟨same, keeps.length⟩

theorem processNextEvent_within (within : reader.Within) :
    (left reader.processNextEvent).Within := by
  rw [processNextEvent]
  split
  · exact within
  · split
    · next more =>
      cases acted : reader.actionEvent reader.eventIndex with
      | error thrown =>
        have same := reader.actionEvent_index reader.eventIndex
        have keeps := reader.actionEvent_keeps reader.eventIndex
        rw [acted] at same keeps
        exact (same.trans_le within).trans_eq keeps.length.symm
      | ok mid =>
        obtain ⟨index, length⟩ := actionEvent_within acted
        simp only [bind, Except.bind, pure, Except.pure]
        split
        · rw [writeBuffers_eq _ (· + 1)]
          change mid.eventIndex + 1 ≤ mid.events.length
          omega
        · change mid.eventIndex ≤ mid.events.length
          omega
    · split <;> exact within

theorem next_within (within : reader.Within) : (left reader.next).Within := by
  rw [next]
  split
  · next more =>
    split
    · cases acted : reader.actionEvent reader.eventIndex with
      | error thrown =>
        have same := reader.actionEvent_index reader.eventIndex
        have keeps := reader.actionEvent_keeps reader.eventIndex
        rw [acted] at same keeps
        exact (same.trans_le within).trans_eq keeps.length.symm
      | ok mid =>
        obtain ⟨index, length⟩ := actionEvent_within acted
        simp only [bind, Except.bind, pure, Except.pure, writeBuffers_id, writeBuffers_eq]
        change mid.eventIndex + 1 ≤ mid.events.length
        omega
    · exact processNextEvent_within within
  · exact within

theorem actionEvents_index (reader : TerminalReader) (index count : Nat) :
    (left (reader.actionEvents index count)).eventIndex = reader.eventIndex := by
  induction count generalizing reader index with
  | zero => rfl
  | succ count ih =>
    have first := reader.actionEvent_index index
    rw [actionEvents]
    cases acted : reader.actionEvent index with
    | error thrown => rwa [acted] at first
    | ok mid =>
      rw [acted] at first
      exact (ih mid (index + 1)).trans first

theorem moveToEvent_within (within : reader.Within) (eventId : Option Int) :
    (left (reader.moveToEvent eventId)).Within := by
  rcases reader.moveToEvent_cases eventId with stays | ⟨target, rfl, inside, other⟩
  · rw [stays]
    exact within
  · have keeps := playUpTo_keeps (reader.seekBase target) (reader.seekStart target) target
    rw [moveToEvent_seeks inside other]
    unfold Within
    rw [keeps.length]
    rw [playUpTo]
    have same := actionEvents_index { reader.seekBase target with keystrokes := [] }
      (reader.seekStart target) (target + 1 - reader.seekStart target)
    cases acted : { reader.seekBase target with keystrokes := [] }.actionEvents
        (reader.seekStart target) (target + 1 - reader.seekStart target) with
    | error thrown =>
      rw [acted] at same
      exact same.trans_le within
    | ok mid => exact inside

theorem perform_within (within : reader.Within) {operation : ReaderOperation}
    (navigates : operation.navigates = true) : (left (reader.perform operation)).Within := by
  cases operation with
  | play | pause => exact within
  | next => exact next_within within
  | prev =>
    rw [perform, prev]
    exact moveToEvent_within within _
  | moveToEvent eventId => exact moveToEvent_within within eventId
  | processNextEvent => exact processNextEvent_within within
  | changeSpeed =>
    rw [perform, changeSpeedToNewVal]
    split <;> exact within
  | loadEvents | reset | setSessionModeLive | setSessionModeDisconnected => contradiction

theorem performAll_keeps {operations : List ReaderOperation} (reader : TerminalReader)
    (navigate : ∀ operation ∈ operations, operation.navigates = true) :
    Keeps reader (reader.performAll operations) := by
  induction operations generalizing reader with
  | nil => exact Keeps.refl reader
  | cons operation operations ih =>
    obtain ⟨first, others⟩ := List.forall_mem_cons.mp navigate
    exact (reader.perform_keeps first).trans (ih _ others)

theorem performAll_within {operations : List ReaderOperation} (within : reader.Within)
    (navigate : ∀ operation ∈ operations, operation.navigates = true) :
    (reader.performAll operations).Within := by
  induction operations generalizing reader with
  | nil => exact within
  | cons operation operations ih =>
    obtain ⟨first, others⟩ := List.forall_mem_cons.mp navigate
    exact ih (perform_within within first) others

theorem reset_events (reader : TerminalReader) :
    reader.reset.events = [] ∧ reader.reset.eventIndex = 0 := by
  cases ignored : reader.ignoreResize <;>
    simp [reset, clearEvents, clearBuffers, ignored]

end TerminalReader
end SSHProxyPlus
