import SSHProxyPlus.Session.Context
import SSHProxyPlus.Transition.System

/-! Playing a session to viewers while it goes on: calls of `HandleEvent` and `End` that
append and signal, and viewers that measure, register, send and wait, in any
interleaving. -/
namespace SSHProxyPlus
open Go

inductive Signal where
  | sessionEnd
  | newMessage

/-- `events[prev_index:new_index]`. -/
def sliceEvents (events : List SessionEvent) (prevIndex newIndex : Nat) :
    Except Panic (List SessionEvent) :=
  if prevIndex ≤ newIndex ∧ newIndex ≤ events.length then
    .ok ((events.take newIndex).drop prevIndex)
  else .error .indexOutOfRange

/-- Where a call of `playSession` stands. -/
inductive PlayStep where
  | start
  | unregistered (newEventIndex : Nat)
  /-- About to call `send_latest_events`. -/
  | measured (newEventIndex : Nat)
  /-- In the write loop of an event, with the rest of the slice to follow. -/
  | sending (rest : List SessionEvent) (newEventIndex : Nat)
  | waiting
  | signalled
  | returned
  | panicked (panic : Panic)

structure Playback where
  step : PlayStep := .start
  lastEventIndex : Nat := 0
  /-- The events whose write loop has been entered. -/
  sent : List SessionEvent := []
  /-- What ended the write loops that have been left: a reply, or no reply but an error. -/
  outcomes : List (Option Bytes) := []

namespace Playback

/-- The write loop of the next event of the slice, or the end of `send_latest_events`. -/
def sendNext (viewer : Playback) (newEventIndex : Nat) : List SessionEvent → Playback
  | [] => { viewer with lastEventIndex := newEventIndex, step := .waiting }
  | event :: rest =>
      { viewer with sent := viewer.sent ++ [event], step := .sending rest newEventIndex }

def sendLatestEvents (viewer : Playback) (events : List SessionEvent) (newEventIndex : Nat) :
    Playback :=
  match sliceEvents events viewer.lastEventIndex newEventIndex with
  | .ok batch => viewer.sendNext newEventIndex batch
  | .error panic => { viewer with step := .panicked panic }

/-- A read error or an `ack` ends the write loop; on any other reply it writes again. -/
def endsLoop (reply : Option Bytes) : Bool :=
  match reply with
  | none => true
  | some ack => ack == lit "ack"

def receiveReply (viewer : Playback) (rest : List SessionEvent) (newEventIndex : Nat)
    (reply : Option Bytes) : Playback :=
  if endsLoop reply then
    { viewer with outcomes := viewer.outcomes ++ [reply] }.sendNext newEventIndex rest
  else viewer

/-- The next step of a viewer that depends on nobody else; `reply` is what its websocket
reads next. -/
def advance (viewer : Playback) (events : List SessionEvent) (reply : Option Bytes) :
    Option Playback :=
  match viewer.step with
  | .start => some { viewer with step := .unregistered events.length }
  | .unregistered newEventIndex => some { viewer with step := .measured newEventIndex }
  | .measured newEventIndex => some (viewer.sendLatestEvents events newEventIndex)
  | .sending rest newEventIndex => some (viewer.receiveReply rest newEventIndex reply)
  | .signalled => some { viewer with step := .measured events.length }
  | .waiting => none
  | .returned => none
  | .panicked _ => none

/-- A viewer takes a signal while it waits for one. -/
def receiveSignal (viewer : Playback) (signal : Signal) : Option Playback :=
  match viewer.step, signal with
  | .waiting, .sessionEnd => some { viewer with step := .returned }
  | .waiting, .newMessage => some { viewer with step := .signalled }
  | _, _ => none

end Playback

/-- A call under way: of `HandleEvent`, before it has appended, or of one of the loops that
signal the viewers. -/
inductive SessionCall where
  | handling (event : SessionEvent)
  | signalling (signal : Signal)

/-- A session that is played: its calls and its viewers. -/
structure Stage where
  session : SessionContext
  calls : List SessionCall := []
  viewers : List Playback := []

inductive StageAction where
  | handleEvent (event : SessionEvent)
  | signalSessionEnd
  | addEvent (call : Nat) (now : Time)
  /-- The array that a call ranges over changes under it when viewers come and go, so
  nothing is assumed about whom it signals, or how often. -/
  | signal (call viewer : Nat)
  | finish (call : Nat)
  | playSession
  | advance (viewer : Nat) (reply : Option Bytes)

namespace Stage

def perform (stage : Stage) : StageAction → Option Stage
  | .handleEvent event => some { stage with calls := stage.calls ++ [.handling event] }
  | .signalSessionEnd => some { stage with calls := stage.calls ++ [.signalling .sessionEnd] }
  | .addEvent call now =>
      match stage.calls[call]? with
      | some (.handling event) => some { stage with
          session := stage.session.addEvent event now
          calls := stage.calls.set call (.signalling .newMessage) }
      | _ => none
  | .signal call viewer =>
      match stage.calls[call]?, stage.viewers[viewer]? with
      | some (.signalling signal), some playback =>
          (playback.receiveSignal signal).map fun next =>
            { stage with viewers := stage.viewers.set viewer next }
      | _, _ => none
  | .finish call =>
      match stage.calls[call]? with
      | some (.signalling _) => some { stage with calls := stage.calls.eraseIdx call }
      | _ => none
  | .playSession => some { stage with viewers := stage.viewers ++ [{}] }
  | .advance viewer reply =>
      match stage.viewers[viewer]? with
      | some playback =>
          (playback.advance stage.session.events reply).map fun next =>
            { stage with viewers := stage.viewers.set viewer next }
      | none => none

/-- It starts with any session, and nobody at it. -/
def system : Transition.System Stage StageAction where
  init stage := stage.calls = [] ∧ stage.viewers = []
  step stage action next := stage.perform action = some next

end Stage

namespace PlayStep

/-- The events that are still to follow in a slice. -/
def rest (step : PlayStep) : List SessionEvent :=
  match step with
  | .sending rest _ => rest
  | _ => []

/-- Where the slice ends that is being sent, or else the last one did. -/
def upTo (step : PlayStep) (lastEventIndex : Nat) : Nat :=
  match step with
  | .sending _ newEventIndex => newEventIndex
  | _ => lastEventIndex

/-- How many write loops are entered and not left. -/
def entered (step : PlayStep) : Nat :=
  match step with
  | .sending _ _ => 1
  | _ => 0

/-- The length that was read and no slice was taken for yet. -/
def measure (step : PlayStep) : Option Nat :=
  match step with
  | .unregistered newEventIndex | .measured newEventIndex => some newEventIndex
  | _ => none

end PlayStep

namespace Playback

structure Consistent (viewer : Playback) (events : List SessionEvent) : Prop where
  taken : viewer.sent ++ viewer.step.rest =
    events.take (viewer.step.upTo viewer.lastEventIndex)
  within : viewer.step.upTo viewer.lastEventIndex ≤ events.length
  measured : ∀ newEventIndex, viewer.step.measure = some newEventIndex →
    viewer.lastEventIndex ≤ newEventIndex ∧ newEventIndex ≤ events.length
  sound : ∀ panic, viewer.step ≠ .panicked panic
  settled : viewer.sent.length = viewer.outcomes.length + viewer.step.entered
  ended : ∀ reply ∈ viewer.outcomes, endsLoop reply

variable {viewer next : Playback} {events : List SessionEvent}

theorem consistent_new (events : List SessionEvent) : ({} : Playback).Consistent events where
  taken := rfl
  within := Nat.zero_le _
  measured _ measured := by contradiction
  sound _ := PlayStep.noConfusion
  settled := rfl
  ended _ none := absurd none List.not_mem_nil

/-- Nothing that was taken of the events changes when one is added. -/
theorem Consistent.addEvent (consistent : viewer.Consistent events) (event : SessionEvent) :
    viewer.Consistent (events ++ [event]) := by
  have longer : (events ++ [event]).length = events.length + 1 := by simp
  refine { consistent with taken := ?_, within := ?_, measured := fun n measured => ?_ }
  · rw [List.take_append_of_le_length consistent.within]
    exact consistent.taken
  · exact longer ▸ Nat.le_succ_of_le consistent.within
  · obtain ⟨after, within⟩ := consistent.measured n measured
    exact ⟨after, longer ▸ Nat.le_succ_of_le within⟩

/-- Entering the next write loop, where all earlier ones are left. -/
theorem consistent_sendNext {newEventIndex : Nat} {batch : List SessionEvent}
    (taken : viewer.sent ++ batch = events.take newEventIndex)
    (within : newEventIndex ≤ events.length)
    (settled : viewer.sent.length = viewer.outcomes.length)
    (ended : ∀ reply ∈ viewer.outcomes, endsLoop reply) :
    (viewer.sendNext newEventIndex batch).Consistent events := by
  cases batch with
  | nil => exact ⟨taken, within, fun _ measured => by contradiction, fun _ => PlayStep.noConfusion,
      settled, ended⟩
  | cons event rest =>
    refine ⟨?_, within, fun _ measured => by contradiction, fun _ => PlayStep.noConfusion, ?_, ended⟩
    · exact (List.append_assoc viewer.sent [event] rest).trans taken
    · simp [sendNext, PlayStep.entered, settled]

theorem Consistent.sendLatestEvents (consistent : viewer.Consistent events) {newEventIndex : Nat}
    (stands : viewer.step = .measured newEventIndex) :
    (viewer.sendLatestEvents events newEventIndex).Consistent events := by
  obtain ⟨taken, within, measured, sound, settled, ended⟩ := consistent
  rw [stands] at taken measured settled
  obtain ⟨after, inside⟩ := measured newEventIndex rfl
  unfold Playback.sendLatestEvents sliceEvents
  rw [if_pos ⟨after, inside⟩]
  refine consistent_sendNext ?_ inside settled ended
  have front : events.take viewer.lastEventIndex =
      (events.take newEventIndex).take viewer.lastEventIndex := by
    rw [List.take_take, Nat.min_eq_left after]
  have sent : viewer.sent = events.take viewer.lastEventIndex :=
    (List.append_nil viewer.sent).symm.trans taken
  rw [sent, front, List.take_append_drop]

theorem Consistent.receiveReply (consistent : viewer.Consistent events) {newEventIndex : Nat}
    {rest : List SessionEvent} (stands : viewer.step = .sending rest newEventIndex)
    (reply : Option Bytes) :
    (viewer.receiveReply rest newEventIndex reply).Consistent events := by
  unfold Playback.receiveReply
  split
  · next ends =>
    obtain ⟨taken, within, measured, sound, settled, ended⟩ := consistent
    rw [stands] at taken within settled
    refine consistent_sendNext taken within ?_ fun other member => ?_
    · simpa [PlayStep.entered] using settled
    · rcases List.mem_append.mp member with old | new
      · exact ended other old
      · exact List.mem_singleton.mp new ▸ ends
  · exact consistent

theorem Consistent.advance (consistent : viewer.Consistent events) {reply : Option Bytes}
    (moved : viewer.advance events reply = some next) : next.Consistent events := by
  have same := consistent
  obtain ⟨taken, within, measured, sound, settled, ended⟩ := same
  unfold Playback.advance at moved
  cases stands : viewer.step with
  | start =>
    rw [stands] at moved taken within settled
    obtain rfl := Option.some.inj moved
    refine ⟨taken, within, fun n measure => ?_, fun _ => PlayStep.noConfusion, settled, ended⟩
    obtain rfl := Option.some.inj measure
    exact ⟨within, Nat.le_refl _⟩
  | unregistered newEventIndex =>
    rw [stands] at moved taken within settled measured
    obtain rfl := Option.some.inj moved
    exact ⟨taken, within, measured, fun _ => PlayStep.noConfusion, settled, ended⟩
  | measured newEventIndex =>
    rw [stands] at moved
    exact Option.some.inj moved ▸ consistent.sendLatestEvents stands
  | sending rest newEventIndex =>
    rw [stands] at moved
    exact Option.some.inj moved ▸ consistent.receiveReply stands reply
  | signalled =>
    rw [stands] at moved taken within settled
    obtain rfl := Option.some.inj moved
    refine ⟨taken, within, fun n measure => ?_, fun _ => PlayStep.noConfusion, settled, ended⟩
    obtain rfl := Option.some.inj measure
    exact ⟨within, Nat.le_refl _⟩
  | waiting =>
    rw [stands] at moved
    contradiction
  | returned =>
    rw [stands] at moved
    contradiction
  | panicked panic => exact absurd stands (sound panic)

theorem Consistent.register (consistent : viewer.Consistent events) {newEventIndex : Nat}
    (stands : viewer.step = .unregistered newEventIndex) :
    Consistent { viewer with step := .measured newEventIndex } events := by
  have advanced : viewer.advance events none =
      some { viewer with step := .measured newEventIndex } := by
    simp [Playback.advance, stands]
  exact consistent.advance advanced

theorem Consistent.receiveSignal (consistent : viewer.Consistent events) {signal : Signal}
    (received : viewer.receiveSignal signal = some next) : next.Consistent events := by
  obtain ⟨taken, within, measured, sound, settled, ended⟩ := consistent
  unfold Playback.receiveSignal at received
  split at received
  · next stands =>
    rw [stands] at taken within settled
    obtain rfl := Option.some.inj received
    exact ⟨taken, within, fun _ measured => by contradiction, fun _ => PlayStep.noConfusion, settled,
      ended⟩
  · next stands =>
    rw [stands] at taken within settled
    obtain rfl := Option.some.inj received
    exact ⟨taken, within, fun _ measured => by contradiction, fun _ => PlayStep.noConfusion, settled,
      ended⟩
  · contradiction

/-- What has been sent is a prefix of the events. -/
theorem Consistent.sent_prefix (consistent : viewer.Consistent events) : viewer.sent <+: events :=
  (List.prefix_append viewer.sent viewer.step.rest).trans
    (consistent.taken ▸ List.take_prefix _ events)

end Playback

namespace Stage
variable {stage next : Stage}

/-- Every viewer stands where it should. -/
def Orderly (stage : Stage) : Prop :=
  ∀ viewer ∈ stage.viewers, viewer.Consistent stage.session.events

theorem Orderly.perform (orderly : stage.Orderly) {action : StageAction}
    (done : stage.perform action = some next) : next.Orderly := by
  unfold Stage.perform at done
  cases action with
  | handleEvent event => exact Option.some.inj done ▸ orderly
  | signalSessionEnd => exact Option.some.inj done ▸ orderly
  | addEvent call now =>
    simp only at done
    split at done
    · obtain rfl := Option.some.inj done
      exact fun viewer member => (orderly viewer member).addEvent _
    · contradiction
  | signal call viewer =>
    simp only at done
    split at done
    · next playback _ present =>
      obtain ⟨changed, taken, rfl⟩ := Option.map_eq_some_iff.mp done
      have held := orderly _ (List.mem_of_getElem? present)
      exact Transition.each_set orderly (held.receiveSignal taken)
    · contradiction
  | finish call =>
    simp only at done
    split at done
    · exact Option.some.inj done ▸ orderly
    · contradiction
  | playSession =>
    obtain rfl := Option.some.inj done
    intro viewer member
    rcases List.mem_append.mp member with old | new
    · exact orderly viewer old
    · exact List.mem_singleton.mp new ▸ Playback.consistent_new _
  | advance viewer reply =>
    simp only at done
    split at done
    · next playback present =>
      obtain ⟨changed, moved, rfl⟩ := Option.map_eq_some_iff.mp done
      have held := orderly _ (List.mem_of_getElem? present)
      exact Transition.each_set orderly (held.advance moved)
    · contradiction

/-- Every viewer, at every moment: what it has sent is a prefix of the events, the slice it is
about to take is within bounds and none was not, and each event it has sent, but for the
one in whose write loop it is, was settled by an `ack` or a read error. -/
theorem viewers_in_order (reached : system.Reachable stage) {viewer : Playback}
    (member : viewer ∈ stage.viewers) :
    viewer.sent <+: stage.session.events ∧
      (∀ newEventIndex, viewer.step = .measured newEventIndex →
        viewer.lastEventIndex ≤ newEventIndex ∧ newEventIndex ≤ stage.session.events.length) ∧
      (∀ panic, viewer.step ≠ .panicked panic) ∧
      viewer.sent.length = viewer.outcomes.length + viewer.step.entered ∧
      ∀ reply ∈ viewer.outcomes, reply = none ∨ reply = some (lit "ack") := by
  have orderly : stage.Orderly := by
    refine reached.invariant ?_ ?_
    · rintro s ⟨-, nobody⟩ viewer member
      rw [nobody] at member
      contradiction
    · exact fun s action s' orderly done => orderly.perform done
  have consistent := orderly viewer member
  refine ⟨consistent.sent_prefix, fun newEventIndex stands => ?_, consistent.sound,
    consistent.settled, fun reply member => ?_⟩
  · exact consistent.measured newEventIndex (by rw [stands]; rfl)
  · have ends := consistent.ended reply member
    cases reply with
    | none => exact Or.inl rfl
    | some ack => exact Or.inr (congrArg some (beq_iff_eq.mp ends))

/-- An event is added while a viewer is on its way to the first, which is acknowledged at the
second try; the signal then sets the viewer off to the second. -/
theorem viewers_in_order_acknowledged : ∃ stage viewer, system.Reachable stage ∧
    viewer ∈ stage.viewers ∧ viewer.sent = stage.session.events ∧
      viewer.outcomes = [some (lit "ack")] ∧
        viewer.sent.length = viewer.outcomes.length + viewer.step.entered := by
  have steps : ∀ {s s' : Stage} (action : StageAction), system.Reachable s →
      s.perform action = some s' → system.Reachable s' :=
    fun _ before done => .next before done
  have session : system.Reachable { session := { events := [{ type := lit "session-start" }] } } :=
    .start ⟨rfl, rfl⟩
  have joined := steps .playSession session rfl
  have measured := steps (.advance 0 none) joined rfl
  have handling := steps (.handleEvent { type := lit "new-request" }) measured rfl
  have registered := steps (.advance 0 none) handling rfl
  have added := steps (.addEvent 0 7000000) registered rfl
  have sending := steps (.advance 0 none) added rfl
  have again := steps (.advance 0 (some (lit "what"))) sending rfl
  have acknowledged := steps (.advance 0 (some (lit "ack"))) again rfl
  have signalled := steps (.signal 0 0) acknowledged rfl
  have finished := steps (.finish 0) signalled rfl
  have measured' := steps (.advance 0 none) finished rfl
  have sending' := steps (.advance 0 none) measured' rfl
  exact ⟨_, _, sending', List.mem_cons_self, rfl, rfl,
    (viewers_in_order sending' List.mem_cons_self).2.2.2.1⟩

end Stage
end SSHProxyPlus
