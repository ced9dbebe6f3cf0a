import SSHProxyPlus.Page.Watching
import SSHProxyPlus.Replay.Turns

/-! The proxy and a page that watches a session stay in step, whatever is done to the reader. -/
namespace SSHProxyPlus
open Go Browser

namespace TerminalReader
variable {reader : TerminalReader}

/-- The page has put the reader into live mode. -/
def Live (reader : TerminalReader) : Prop := reader.session.get "live" = some (.flag true)

theorem Live.isLive (live : reader.Live) : reader.isLive = true := by
  simp [TerminalReader.isLive, show reader.session.get "live" = _ from live, Value.truthy]

theorem setSessionModeLive_live (reader : TerminalReader) : reader.setSessionModeLive.Live := by
  have other : "live".toList ≠ "feed_type".toList := by decide
  have kept := Object.set_ne (reader.session.set "live" (.flag true)) other (.text "live".toList)
  exact kept.trans (Object.set_get reader.session "live" (.flag true))

theorem writeBuffersCalls_always (reader : TerminalReader) : reader.writeBuffersCalls true = 1 := by
  unfold writeBuffersCalls
  split
  · rfl
  · split <;> rfl

theorem processNextEventCalls_le (reader : TerminalReader) : reader.processNextEventCalls ≤ 1 := by
  unfold processNextEventCalls
  split
  · exact Nat.zero_le 1
  · split
    · split
      · split
        · exact (writeBuffersCalls_always _).le
        · exact Nat.le_refl 1
      · exact Nat.zero_le 1
    · split
      · exact Nat.zero_le 1
      · exact Nat.le_refl 1

/-- In live mode the callback is called unless the event can not be decoded. -/
theorem processNextEventCalls_live (live : reader.Live)
    (more : reader.eventIndex < reader.events.length) (none : reader.processNextEventCalls = 0) :
    ∃ event ∈ reader.events, ¬ event.Decodable := by
  have found := List.getElem?_eq_getElem more
  refine ⟨_, List.getElem_mem more, fun decodable => ?_⟩
  have goesOn : ¬(reader.paused && !reader.isLive) = true := by simp [live.isLive]
  rw [processNextEventCalls, if_neg goesOn, if_pos more, actionEvent_acted found decodable] at none
  simp only [writeBuffersCalls_always, ite_self] at none
  contradiction

end TerminalReader

namespace WatchingPage
variable {page : WatchingPage} {event : TerminalEvent}

/-- A page that is open is live if it was told so. -/
def InMode (page : WatchingPage) : Prop :=
  page.isOpen = true → page.active = true → page.reader.Live

/-- What the handler does to the page, and what it sends. -/
structure Takes (page : WatchingPage) (event : TerminalEvent) (after : WatchingPage)
    (sent : List Bytes) : Prop where
  events : List.Forall₂ TerminalEvent.Leaves (page.reader.events ++ [event]) after.reader.events
  within : after.reader.Within
  mode : after.InMode
  acks : ∀ reply ∈ sent, reply = ackMessage
  once : sent.length ≤ 1
  stuck : sent = [] → after.active = true ∧ ∃ event ∈ after.reader.events, ¬ event.Decodable

theorem stopAfter_reader (page : WatchingPage) (event : TerminalEvent) :
    (page.stopAfter event).reader.events = page.reader.events ∧
      (page.stopAfter event).reader.eventIndex = page.reader.eventIndex ∧
      (page.stopAfter event).active = page.active := by
  unfold stopAfter sessionStop
  split
  · split <;> exact ⟨rfl, rfl, rfl⟩
  · exact ⟨rfl, rfl, rfl⟩

theorem InMode.stopAfter (mode : page.InMode) : (page.stopAfter event).InMode := by
  intro isOpen active
  unfold WatchingPage.stopAfter sessionStop at isOpen active ⊢
  split at isOpen
  · split at isOpen <;> contradiction
  · next goesOn =>
    rw [if_neg goesOn] at active ⊢
    exact mode isOpen active

theorem loadEvents_within (within : page.reader.Within) :
    page.reader.eventIndex < (page.reader.loadEvents [event]).events.length := by
  rw [TerminalReader.loadEvents, List.length_append]
  exact Nat.lt_succ_of_le within

theorem receiveEvent_returned {reader : TerminalReader} (active : page.active = true)
    (processed : (page.reader.loadEvents [event]).processNextEvent = .ok reader) :
    page.receiveEvent event = ({ page with reader }.stopAfter event, List.replicate
      (page.reader.loadEvents [event]).processNextEventCalls ackMessage) := by
  simp only [receiveEvent, active, processed, if_true]

theorem receiveEvent_thrown {reader : TerminalReader} (active : page.active = true)
    (processed : (page.reader.loadEvents [event]).processNextEvent = .error reader) :
    page.receiveEvent event = ({ page with reader }, List.replicate
      (page.reader.loadEvents [event]).processNextEventCalls ackMessage) := by
  simp only [receiveEvent, active, processed, if_true]

theorem receiveEvent_inactive (inactive : ¬ page.active = true) : page.receiveEvent event =
    ({ page with reader := page.reader.loadEvents [event] }.stopAfter event, [ackMessage]) :=
  if_neg inactive

theorem receiveEvent_once (page : WatchingPage) (event : TerminalEvent) :
    (page.receiveEvent event).2.length ≤ 1 := by
  by_cases active : page.active = true
  · have once := (page.reader.loadEvents [event]).processNextEventCalls_le
    cases processed : (page.reader.loadEvents [event]).processNextEvent with
    | ok reader => rwa [receiveEvent_returned active processed, List.length_replicate]
    | error reader => rwa [receiveEvent_thrown active processed, List.length_replicate]
  · rw [receiveEvent_inactive active]
    exact Nat.le_refl 1

theorem receiveEvent_active (page : WatchingPage) (event : TerminalEvent) :
    (page.receiveEvent event).1.active = page.active := by
  by_cases active : page.active = true
  · cases processed : (page.reader.loadEvents [event]).processNextEvent with
    | ok reader =>
      rw [receiveEvent_returned active processed]
      exact (stopAfter_reader { page with reader } event).2.2
    | error reader => rw [receiveEvent_thrown active processed]
  · rw [receiveEvent_inactive active]
    exact (stopAfter_reader _ event).2.2

theorem receiveEvent_takes (within : page.reader.Within) (isOpen : page.isOpen = true)
    (mode : page.InMode) (silent : ∀ kept ∈ page.reader.events ++ [event], kept.get "live" = none) :
    page.Takes event (page.receiveEvent event).1 (page.receiveEvent event).2 := by
  have more : page.reader.eventIndex < (page.reader.loadEvents [event]).events.length :=
    loadEvents_within within
  have inside : (page.reader.loadEvents [event]).Within := Nat.le_of_lt more
  by_cases active : page.active = true
  · have keeps := (page.reader.loadEvents [event]).processNextEvent_keeps
    have later := TerminalReader.processNextEvent_within inside
    have live : (page.reader.loadEvents [event]).Live := mode isOpen active
    have once := (page.reader.loadEvents [event]).processNextEventCalls_le
    have blocked (none : List.replicate
        (page.reader.loadEvents [event]).processNextEventCalls ackMessage = []) :=
      TerminalReader.processNextEventCalls_live live more (List.replicate_eq_nil_iff _ |>.mp none)
    have still := keeps.mode silent
    cases processed : (page.reader.loadEvents [event]).processNextEvent with
    | ok reader =>
      rw [processed] at keeps later still
      obtain ⟨events, index, same⟩ := stopAfter_reader { page with reader } event
      have lively : InMode { page with reader } := fun _ _ => still.trans live
      rw [receiveEvent_returned active processed]
      refine ⟨?_, ?_, lively.stopAfter, fun reply => List.eq_of_mem_replicate, ?_, fun none => ?_⟩
      · rw [events]
        exact keeps.events
      · rw [TerminalReader.Within, events, index]
        exact later
      · rwa [List.length_replicate]
      · refine ⟨same.trans active, ?_⟩
        rw [events]
        exact TerminalEvent.forall₂_undecodable keeps.events (blocked none)
    | error reader =>
      rw [processed] at keeps later still
      rw [receiveEvent_thrown active processed]
      refine ⟨keeps.events, later, fun _ _ => still.trans live, fun reply =>
        List.eq_of_mem_replicate, ?_, fun none => ⟨active, ?_⟩⟩
      · rwa [List.length_replicate]
      · exact TerminalEvent.forall₂_undecodable keeps.events (blocked none)
  · obtain ⟨events, index, same⟩ :=
      stopAfter_reader { page with reader := page.reader.loadEvents [event] } event
    have quiet : InMode { page with reader := page.reader.loadEvents [event] } :=
      fun _ told => absurd told active
    rw [receiveEvent_inactive active]
    refine ⟨?_, ?_, quiet.stopAfter, fun reply => List.mem_singleton.mp, Nat.le_refl 1,
      fun none => by contradiction⟩
    · rw [events]
      exact TerminalEvent.forall₂_leaves _
    · rw [TerminalReader.Within, events, index]
      exact inside

/-- A page that is told to play a session live, and has played all that it has, plays the event that
comes and acknowledges it. -/
theorem receiveEvent_acknowledged {shown : List SessionEvent} {e : SessionEvent}
    (active : page.active = true) (turned : page.reader.Turned shown)
    (playing : page.reader.paused = false)
    (last : page.reader.eventIndex = page.reader.events.length)
    (received : e.received = some event) (readable : e.Readable)
    (goesOn : e.type ≠ eventSessionStop) : ∃ after : TerminalReader,
      page.receiveEvent event = ({ page with reader := after }, [ackMessage]) ∧
      after.Turned (shown ++ [e]) ∧ after.paused = false ∧
      after.eventIndex = after.events.length := by
  have loaded : (page.reader.loadEvents [event]).Turned shown :=
    turned.frame rfl rfl rfl rfl rfl rfl
  have found : (page.reader.loadEvents [event]).events[
      (page.reader.loadEvents [event]).eventIndex]? = some event := by
    change (page.reader.events ++ [event])[page.reader.eventIndex]? = some event
    rw [last]
    exact List.getElem?_concat_length
  obtain ⟨after, processed, turned', still, events, -⟩ :=
    loaded.turn playing found ⟨event, received, TerminalEvent.Leaves.refl event⟩ readable
  have decodable := (SessionEvent.received_decodable received).mpr ⟨readable.data, readable.payload⟩
  have calls : (page.reader.loadEvents [event]).processNextEventCalls = 1 := by
    have looks : ¬((page.reader.loadEvents [event]).paused &&
        !(page.reader.loadEvents [event]).isLive) = true := by
      simp [show (page.reader.loadEvents [event]).paused = false from playing]
    have more := (List.getElem?_eq_some_iff.mp found).1
    rw [TerminalReader.processNextEventCalls, if_neg looks, if_pos more,
      TerminalReader.actionEvent_acted found decodable]
    simp only [TerminalReader.writeBuffersCalls_always, ite_self]
  have open' : ¬ event.has "type" "session-stop" = true := fun stops =>
    goesOn ((SessionEvent.received_has_type received (by decide)).mp stops)
  refine ⟨after, ?_, turned', still, ?_⟩
  · rw [receiveEvent_returned active processed, stopAfter, if_neg open', calls]
    rfl
  · rw [turned'.index, events, List.length_set, List.length_append, ← turned.index, last,
      TerminalReader.loadEvents, List.length_append]
    rfl
/-- The page reads what the proxy writes for an event. -/
theorem onMessage_message (page : WatchingPage) (e : SessionEvent) : ∃ event,
    e.received = some event ∧ page.onMessage e.message = page.receiveEvent event := by
  obtain ⟨event, received, -⟩ := SessionEvent.received_properties e
  refine ⟨event, received, ?_⟩
  have read : (parse (runes (SessionEvent.codec.marshal e))).bind TerminalEvent.construct =
    some event := received
  rw [SessionEvent.message, onMessage, read]

end WatchingPage

theorem PlayStep.entered_le (step : PlayStep) : step.entered ≤ 1 := by
  cases step <;> simp [PlayStep.entered]

theorem PlayStep.entered_pos {step : PlayStep} (entered : step.entered = 1) :
    ∃ rest newEventIndex, step = .sending rest newEventIndex := by
  cases step with
  | sending rest newEventIndex => exact ⟨rest, newEventIndex, rfl⟩
  | start | unregistered | measured | waiting | signalled | returned | panicked => contradiction

namespace Watch
variable {watch next : Watch}

/-- How the proxy and the page stand to each other, at any moment. -/
structure InStep (watch : Watch) : Prop where
  consistent : watch.playback.Consistent watch.session.events
  received : List.Forall₂ SessionEvent.KeptAs
    (watch.playback.sent.take watch.page.reader.events.length) watch.page.reader.events
  within : watch.page.reader.Within
  mode : watch.page.InMode
  acks : ∀ reply ∈ watch.toProxy, reply = ackMessage
  inFlight : watch.page.isOpen = true → watch.toPage =
    (watch.playback.sent.drop watch.page.reader.events.length).map SessionEvent.message
  once : watch.page.isOpen = true →
    watch.toPage.length + watch.toProxy.length ≤ watch.playback.step.entered
  stuck : watch.page.isOpen = true → watch.toPage = [] → watch.toProxy = [] →
    watch.playback.step.entered = 1 →
      watch.page.active = true ∧ ∃ event ∈ watch.page.reader.events, ¬ event.Decodable

theorem InStep.sent_length (inStep : watch.InStep) :
    watch.page.reader.events.length ≤ watch.playback.sent.length := by
  have size := inStep.received.length_eq
  rw [List.length_take] at size
  omega

/-- What a page that is open has not been sent, or not read, is nothing. -/
theorem InStep.idle (inStep : watch.InStep) (isOpen : watch.page.isOpen = true)
    (entered : watch.playback.step.entered = 0) : watch.toPage = [] ∧ watch.toProxy = [] := by
  have none := inStep.once isOpen
  rw [entered] at none
  exact ⟨List.eq_nil_of_length_eq_zero (by omega), List.eq_nil_of_length_eq_zero (by omega)⟩

theorem InStep.proceed (inStep : watch.InStep) {reply : Option Bytes} {playback : Playback}
    {toProxy : List Bytes} (acks : ∀ reply ∈ toProxy, reply = ackMessage)
    (quiet : watch.page.isOpen = true → watch.toPage = [] ∧ toProxy = [])
    (ends : watch.playback.step.entered = 1 → Playback.endsLoop reply = true)
    (moved : watch.playback.advance watch.session.events reply = some playback) :
    ({ watch with toProxy }.proceed playback).InStep := by
  have fits := inStep.sent_length
  obtain ⟨new, sent, written, length⟩ := Playback.advance_writes inStep.consistent ends moved
  have emptied (isOpen : watch.page.isOpen = true) : watch.toPage ++ playback.written =
      new.map SessionEvent.message := by
    rw [(quiet isOpen).1, written, List.nil_append]
  refine ⟨inStep.consistent.advance moved, ?_, inStep.within, inStep.mode, acks, fun isOpen => ?_,
    fun isOpen => ?_, fun isOpen nothing _ entered => ?_⟩
  · change List.Forall₂ _ (playback.sent.take watch.page.reader.events.length)
      watch.page.reader.events
    rw [sent, List.take_append_of_le_length fits]
    exact inStep.received
  · have caught := inStep.inFlight isOpen
    rw [(quiet isOpen).1] at caught
    have all := List.map_eq_nil_iff.mp caught.symm
    change watch.toPage ++ playback.written =
      (playback.sent.drop watch.page.reader.events.length).map SessionEvent.message
    rw [emptied isOpen, sent, List.drop_append_of_le_length fits, all, List.nil_append]
  · change (watch.toPage ++ playback.written).length + toProxy.length ≤ playback.step.entered
    rw [emptied isOpen, (quiet isOpen).2, List.length_map, length]
    exact Nat.le_refl _
  · have nothing : watch.toPage ++ playback.written = [] := nothing
    rw [emptied isOpen, List.map_eq_nil_iff] at nothing
    rw [nothing] at length
    exact absurd (length.trans entered) Nat.zero_ne_one

/-- What is on its way to a page that is open is one event, and all that is in flight. -/
theorem InStep.flying (inStep : watch.InStep) (isOpen : watch.page.isOpen = true)
    {message : SocketReply} {rest : List SocketReply} (flying : watch.toPage = message :: rest) :
    rest = [] ∧ watch.toProxy = [] ∧ watch.playback.step.entered = 1 ∧ ∃ e : SessionEvent,
      message = e.message ∧ watch.playback.sent =
        watch.playback.sent.take watch.page.reader.events.length ++ [e] := by
  have single := inStep.once isOpen
  have most := watch.playback.step.entered_le
  have sent := inStep.inFlight isOpen
  rw [flying] at single sent
  rw [List.length_cons] at single
  obtain rfl : rest = [] := List.eq_nil_of_length_eq_zero (by omega)
  obtain ⟨e, left, same⟩ := List.map_eq_singleton_iff.mp sent.symm
  have whole := List.take_append_drop watch.page.reader.events.length watch.playback.sent
  rw [left] at whole
  exact ⟨rfl, List.eq_nil_of_length_eq_zero (by omega), by omega, e, same.symm, whole.symm⟩

theorem InStep.deliver (inStep : watch.InStep) (isOpen : watch.page.isOpen = true)
    {message : SocketReply} {rest : List SocketReply} (flying : watch.toPage = message :: rest) :
    InStep { watch with
      page := (watch.page.onMessage message).1
      toPage := rest
      toProxy := watch.toProxy ++ (watch.page.onMessage message).2 } := by
  obtain ⟨rfl, noAck, entered, e, rfl, whole⟩ := inStep.flying isOpen flying
  obtain ⟨event, read, handled⟩ := watch.page.onMessage_message e
  have keptAs : List.Forall₂ SessionEvent.KeptAs watch.playback.sent
      (watch.page.reader.events ++ [event]) := by
    rw [whole]
    exact List.rel_append inStep.received
      (List.Forall₂.cons ⟨event, read, TerminalEvent.Leaves.refl event⟩ List.Forall₂.nil)
  have takes := WatchingPage.receiveEvent_takes inStep.within isOpen inStep.mode
    (SessionEvent.forall₂_live keptAs)
  have after := SessionEvent.forall₂_keptAs keptAs takes.events
  have all := after.length_eq
  rw [handled, noAck, List.nil_append]
  refine ⟨inStep.consistent, ?_, takes.within, takes.mode, takes.acks, fun _ => ?_, fun _ => ?_,
    fun _ _ none _ => takes.stuck none⟩
  · change List.Forall₂ _ (watch.playback.sent.take _) _
    rw [List.take_of_length_le all.le]
    exact after
  · change [] = (watch.playback.sent.drop _).map _
    rw [List.drop_of_length_le all.le, List.map_nil]
  · have one := takes.once
    change 0 + (watch.page.receiveEvent event).2.length ≤ watch.playback.step.entered
    omega

theorem InStep.operate (inStep : watch.InStep) {operation : ReaderOperation}
    (navigates : operation.navigates = true) : InStep { watch with
      page := { watch.page with
        reader := TerminalReader.left (watch.page.reader.perform operation) } } := by
  have keeps := watch.page.reader.perform_keeps navigates
  have silent := SessionEvent.forall₂_live inStep.received
  refine ⟨inStep.consistent, ?_, TerminalReader.perform_within inStep.within navigates,
    fun isOpen active => (keeps.mode silent).trans (inStep.mode isOpen active), inStep.acks,
    fun isOpen => ?_, inStep.once, fun isOpen page proxy entered => ?_⟩
  · change List.Forall₂ _ (watch.playback.sent.take _) _
    rw [keeps.length]
    exact SessionEvent.forall₂_keptAs inStep.received keeps.events
  · change watch.toPage = (watch.playback.sent.drop _).map _
    rw [keeps.length]
    exact inStep.inFlight isOpen
  · obtain ⟨active, bad⟩ := inStep.stuck isOpen page proxy entered
    exact ⟨active, TerminalEvent.forall₂_undecodable keeps.events bad⟩

/-- A page that is no longer open. -/
theorem InStep.shut (inStep : watch.InStep) {page : WatchingPage} {toPage : List SocketReply}
    {toProxy : List Bytes} (reader : page.reader = watch.page.reader) (closed : page.isOpen = false)
    (acks : ∀ reply ∈ toProxy, reply = ackMessage) :
    InStep { watch with page, toPage, toProxy } := by
  have shut {P : Prop} (isOpen : page.isOpen = true) : P :=
    absurd (closed.symm.trans isOpen) Bool.false_ne_true
  refine ⟨inStep.consistent, ?_, ?_, shut, acks, shut, shut, shut⟩
  · change List.Forall₂ _ (watch.playback.sent.take page.reader.events.length) page.reader.events
    rw [reader]
    exact inStep.received
  · change page.reader.Within
    rw [reader]
    exact inStep.within

theorem expired_navigate (expired : Nat) : ∀ operation ∈
    List.replicate expired ReaderOperation.processNextEvent, operation.navigates = true := by
  intro operation member
  rw [List.eq_of_mem_replicate member]
  rfl

/-- Nothing is there of the session that was watched before. -/
theorem opened_empty (active : Bool) (expired : Nat) (reader : TerminalReader) :
    let page := WatchingPage.opened active
      (reader.reset.performAll (List.replicate expired .processNextEvent))
    page.reader.events = [] ∧ page.reader.Within ∧ page.InMode := by
  obtain ⟨events, index⟩ := reader.reset_events
  have keeps := reader.reset.performAll_keeps (expired_navigate expired)
  have within := TerminalReader.performAll_within
    (show reader.reset.Within by rw [TerminalReader.Within, events, index]; exact Nat.zero_le _)
    (expired_navigate expired)
  have left : (reader.reset.performAll (List.replicate expired .processNextEvent)).events = [] := by
    have none := keeps.length
    rw [events] at none
    exact List.eq_nil_of_length_eq_zero none
  cases active with
  | true =>
    exact ⟨left, within, fun _ _ => TerminalReader.setSessionModeLive_live _⟩
  | false => exact ⟨left, within, fun _ told => absurd told Bool.false_ne_true⟩

theorem Opening.inStep {active : Bool} {expired : Nat} (opening : watch.Opening active expired) :
    watch.InStep := by
  obtain ⟨playback, toPage, toProxy, reader, page⟩ := opening
  obtain ⟨events, within, mode⟩ := opened_empty active expired reader
  rw [← page] at events within mode
  refine ⟨?_, ?_, within, mode, ?_, fun _ => ?_, fun _ => ?_, fun _ _ _ entered => ?_⟩
  · rw [playback]
    exact Playback.consistent_new _
  · rw [events, playback]
    exact List.Forall₂.nil
  · rw [toProxy]
    exact List.forall_mem_nil _
  · rw [toPage, playback, events]
    rfl
  · rw [toPage, toProxy]
    exact Nat.zero_le _
  · rw [playback] at entered
    contradiction

theorem InStep.perform (inStep : watch.InStep) {action : WatchAction}
    (done : watch.perform action = some next) : next.InStep := by
  unfold Watch.perform at done
  cases action with
  | addEvent event now =>
    obtain rfl := Option.some.inj done
    exact { inStep with consistent := inStep.consistent.addEvent _ }
  | signal signal =>
    obtain ⟨playback, taken, rfl⟩ := Option.map_eq_some_iff.mp done
    have consistent := inStep.consistent.receiveSignal taken
    unfold Playback.receiveSignal at taken
    have waits : watch.playback.step = .waiting ∧ playback.sent = watch.playback.sent ∧
        playback.step.entered = 0 := by
      split at taken
      · next stands =>
        obtain rfl := Option.some.inj taken
        exact ⟨stands, rfl, rfl⟩
      · next stands =>
        obtain rfl := Option.some.inj taken
        exact ⟨stands, rfl, rfl⟩
      · contradiction
    obtain ⟨stands, sent, entered⟩ := waits
    have none := inStep.once
    rw [stands] at none
    exact { inStep with
      consistent := consistent
      received := sent.symm ▸ inStep.received
      inFlight := sent.symm ▸ inStep.inFlight
      once := fun isOpen => entered.symm ▸ none isOpen
      stuck := fun _ _ _ one => absurd (entered.symm.trans one) Nat.zero_ne_one }
  | advance =>
    simp only at done
    split at done
    · contradiction
    · next elsewhere =>
      obtain ⟨playback, moved, rfl⟩ := Option.map_eq_some_iff.mp done
      have outside : watch.playback.step.entered = 0 := by
        have most := watch.playback.step.entered_le
        rcases Nat.le_one_iff_eq_zero_or_eq_one.mp most with zero | one
        · exact zero
        · obtain ⟨rest, newEventIndex, stands⟩ := PlayStep.entered_pos one
          exact absurd stands (elsewhere rest newEventIndex)
      exact inStep.proceed inStep.acks (fun isOpen => inStep.idle isOpen outside)
        (fun one => absurd (outside.symm.trans one) Nat.zero_ne_one) moved
  | readReply =>
    simp only at done
    split at done
    · next rest newEventIndex reply replies stands flying =>
      obtain ⟨playback, moved, rfl⟩ := Option.map_eq_some_iff.mp done
      have acks := inStep.acks
      rw [flying] at acks
      obtain ⟨rfl, others⟩ := List.forall_mem_cons.mp acks
      refine inStep.proceed others (fun isOpen => ?_) (fun _ => rfl) moved
      have single := inStep.once isOpen
      have most := watch.playback.step.entered_le
      rw [flying, List.length_cons] at single
      exact ⟨List.eq_nil_of_length_eq_zero (by omega), List.eq_nil_of_length_eq_zero (by omega)⟩
    · contradiction
  | readError =>
    simp only at done
    split at done
    · split at done
      · contradiction
      · next gone =>
        obtain ⟨playback, moved, rfl⟩ := Option.map_eq_some_iff.mp done
        exact inStep.proceed inStep.acks (fun isOpen => absurd (.inl isOpen) gone) (fun _ => rfl) moved
    · contradiction
  | deliver =>
    simp only at done
    split at done
    · contradiction
    · next message rest flying =>
      split at done
      · next isOpen => exact Option.some.inj done ▸ inStep.deliver isOpen flying
      · next closed =>
        obtain rfl := Option.some.inj done
        exact inStep.shut rfl (Bool.eq_false_iff.mpr closed) inStep.acks
  | operate operation =>
    simp only at done
    split at done
    · next navigates => exact Option.some.inj done ▸ inStep.operate navigates
    · contradiction
  | close => exact Option.some.inj done ▸ inStep.shut rfl rfl inStep.acks
  | disconnect =>
    exact Option.some.inj done ▸ inStep.shut rfl rfl (List.forall_mem_nil _)

theorem inStep_of_reachable {active : Bool} (reached : (runs active).Reachable watch) :
    watch.InStep := by
  refine reached.invariant ?_ fun s action s' inStep done => inStep.perform done
  rintro s ⟨expired, opening⟩
  exact opening.inStep

theorem InStep.events_prefix (inStep : watch.InStep) :
    watch.playback.sent.take watch.page.reader.events.length =
      watch.session.events.take watch.page.reader.events.length := by
  obtain ⟨rest, all⟩ := inStep.consistent.sent_prefix
  rw [← all, List.take_append_of_le_length inStep.sent_length]

/-- What was sent, and has not come to the page, is in flight. -/
theorem InStep.sent_flying (inStep : watch.InStep) (isOpen : watch.page.isOpen = true) :
    watch.playback.sent.length = watch.page.reader.events.length + watch.toPage.length := by
  have fits := inStep.sent_length
  rw [inStep.inFlight isOpen, List.length_map, List.length_drop]
  omega

/-- A proxy that waits for news has nothing in flight, and the page has what it looked for. -/
theorem InStep.waiting (inStep : watch.InStep) (isOpen : watch.page.isOpen = true)
    (waits : watch.playback.step = .waiting) : watch.toPage = [] ∧ watch.toProxy = [] ∧
      watch.page.reader.events.length = watch.playback.lastEventIndex := by
  have size := inStep.sent_flying isOpen
  obtain ⟨page, proxy⟩ := inStep.idle isOpen (by rw [waits]; rfl)
  obtain ⟨taken, bound, -⟩ := inStep.consistent
  rw [waits] at taken bound
  have all : watch.playback.sent = watch.session.events.take watch.playback.lastEventIndex :=
    (List.append_nil _).symm.trans taken
  have bound : watch.playback.lastEventIndex ≤ watch.session.events.length := bound
  rw [page, all, List.length_take, List.length_nil] at size
  exact ⟨page, proxy, by omega⟩

theorem InStep.blocked (inStep : watch.InStep) (isOpen : watch.page.isOpen = true)
    {rest : List SessionEvent} {newEventIndex : Nat}
    (stands : watch.playback.step = .sending rest newEventIndex) (page : watch.toPage = [])
    (proxy : watch.toProxy = []) :
    watch.page.active = true ∧ ∃ event ∈ watch.page.reader.events, ¬ event.Decodable :=
  inStep.stuck isOpen page proxy (by rw [stands]; rfl)

/-- Whatever happens to the session, the connection and the reader: the page has the first events
of the session, each once and in their order. While it is open one message at most is in flight
in either direction, and it is the next event or the acknowledgement of the last one; once the
proxy waits for a signal the page has every event up to the last one that was looked for. The proxy
waits for an answer that never comes only where an event of a live session can not be decoded. -/
theorem watched_in_step {active : Bool} (reached : (runs active).Reachable watch) :
    List.Forall₂ SessionEvent.KeptAs
        (watch.session.events.take watch.page.reader.events.length) watch.page.reader.events ∧
      (watch.page.isOpen = true →
        watch.toPage.length + watch.toProxy.length ≤ 1 ∧
        watch.playback.sent.length = watch.page.reader.events.length + watch.toPage.length ∧
        (watch.playback.step = .waiting → watch.toPage = [] ∧ watch.toProxy = [] ∧
          watch.page.reader.events.length = watch.playback.lastEventIndex) ∧
        ∀ rest newEventIndex, watch.playback.step = .sending rest newEventIndex →
          watch.toPage = [] → watch.toProxy = [] →
            watch.page.active = true ∧ ∃ event ∈ watch.page.reader.events, ¬ event.Decodable) := by
  have inStep := inStep_of_reachable reached
  refine ⟨inStep.events_prefix ▸ inStep.received, fun isOpen => ?_⟩
  exact ⟨(inStep.once isOpen).trans (PlayStep.entered_le _), inStep.sent_flying isOpen,
    inStep.waiting isOpen, fun rest newEventIndex => inStep.blocked isOpen⟩

/-- What the server writes first. -/
def prompt : SessionEvent where
  type := eventMessage
  direction := directionIncoming
  size := 2
  data := lit "$ "

/-- What is typed a second later. -/
def typed : SessionEvent where
  type := eventMessage
  direction := directionOutgoing
  size := 3
  data := lit "ls\r"
  timeOffset := 1000

/-- A page that has chosen a live session. -/
def joined : Watch where
  session := { events := [prompt, typed] }
  page := .opened true (TerminalReader.performAll (TerminalReader.reset {}) [])

/-- The first event is on its way to the page. -/
def sending : Watch := { joined with
  playback := { step := .sending [typed] 2, sent := [prompt] }, toPage := [prompt.message] }

/-- The page has acknowledged it, and the second one is on its way. -/
def answered (reader : TerminalReader) : Watch := { joined with
  page := { joined.page with reader }
  playback := { step := .sending [] 2, sent := [prompt, typed], outcomes := [some ackMessage] }
  toPage := [typed.message] }

/-- The page has acknowledged both. -/
def followed (reader : TerminalReader) : Watch := { joined with
  page := { joined.page with reader }
  playback := {
    step := .waiting
    lastEventIndex := 2
    sent := [prompt, typed]
    outcomes := [some ackMessage, some ackMessage] } }

theorem sending_readable : AllReadable sending.session.events := by
  intro e member
  rcases List.mem_cons.mp member with rfl | member
  · exact ⟨by decide, by decide⟩
  · obtain rfl := List.mem_singleton.mp member
    exact ⟨by decide, by decide⟩

/-- The event that comes to a live page is shown and acknowledged. -/
theorem deliver_acknowledged {shown : List SessionEvent} {e : SessionEvent}
    (isOpen : watch.page.isOpen = true) (active : watch.page.active = true)
    (turned : watch.page.reader.Turned shown) (playing : watch.page.reader.paused = false)
    (last : watch.page.reader.eventIndex = watch.page.reader.events.length)
    (flying : watch.toPage = [e.message]) (quiet : watch.toProxy = []) (readable : e.Readable)
    (goesOn : e.type ≠ eventSessionStop) : ∃ after : TerminalReader,
      watch.perform .deliver = some { watch with
        page := { watch.page with reader := after }, toPage := [], toProxy := [ackMessage] } ∧
      after.Turned (shown ++ [e]) ∧ after.paused = false ∧
      after.eventIndex = after.events.length := by
  obtain ⟨event, received, handled⟩ := watch.page.onMessage_message e
  obtain ⟨after, taken, facts⟩ := WatchingPage.receiveEvent_acknowledged active turned playing last
    received readable goesOn
  refine ⟨after, ?_, facts⟩
  rw [perform_deliver isOpen flying, handled, taken, quiet]
  rfl

/-- The page follows the session, event by event. -/
theorem joined_followed : ∃ first both : TerminalReader,
    sending.perform .deliver = some { sending with
      page := { joined.page with reader := first }, toPage := [], toProxy := [ackMessage] } ∧
    first.Turned [prompt] ∧
    (answered first).perform .deliver = some { answered first with
      page := { joined.page with reader := both }, toPage := [], toProxy := [ackMessage] } ∧
    both.Turned [prompt, typed] := by
  have opened : sending.page.reader.Turned [] :=
    (TerminalReader.reset_turned {}).setSessionModeLive
  obtain ⟨first, told, turned, playing, last⟩ := deliver_acknowledged rfl rfl opened rfl rfl rfl rfl
    (sending_readable prompt List.mem_cons_self) (by decide)
  obtain ⟨both, told', turned', -⟩ := @deliver_acknowledged (answered first) _ typed rfl rfl turned
    playing last rfl rfl (sending_readable typed (List.mem_cons_of_mem _ List.mem_cons_self))
    (by decide)
  exact ⟨first, both, told, turned, told', turned'⟩

theorem answered_reached : ∃ reader, reader.Turned [prompt] ∧
    (runs true).Reachable (answered reader) := by
  obtain ⟨first, -, told, turned, -⟩ := joined_followed
  have start : (runs true).Reachable joined := .start ⟨0, rfl, rfl, rfl, {}, rfl⟩
  have follows : Transition.Follows (runs true).step joined
      [.advance, .advance, .advance, .deliver, .readReply] (answered first) :=
    ⟨_, rfl, _, rfl, sending, rfl, _, told, answered first, rfl, rfl⟩
  exact ⟨first, turned, start.follows follows⟩

/-- One event has been acknowledged, and the next is in flight. -/
theorem watched_in_step_answered : ∃ reader, (runs true).Reachable (answered reader) ∧
    List.Forall₂ SessionEvent.KeptAs [prompt] reader.events ∧
    (answered reader).toPage.length + (answered reader).toProxy.length ≤ 1 := by
  obtain ⟨reader, -, reached⟩ := answered_reached
  obtain ⟨received, connected⟩ := watched_in_step reached
  obtain ⟨once, sent, -⟩ := connected rfl
  have one : reader.events.length = 1 := (Nat.succ.inj sent).symm
  have received : List.Forall₂ SessionEvent.KeptAs ([prompt, typed].take reader.events.length)
      reader.events := received
  rw [one] at received
  exact ⟨reader, reached, received, once⟩

end Watch
end SSHProxyPlus
