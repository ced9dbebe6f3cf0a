import SSHProxyPlus.Page.InStep

/-! What a page shows of a session that it watches. -/
namespace SSHProxyPlus
open Go Browser

namespace TerminalReader
variable {reader : TerminalReader}

theorem reset_plays (reader : TerminalReader) : reader.reset.Plays := by
  cases ignored : reader.ignoreResize <;>
    simp only [reset, clearEvents, clearBuffers, ignored] <;>
    exact ⟨⟨rfl, Nat.zero_le _, rfl, rfl⟩, List.forall_mem_nil _⟩

theorem loadEvents_plays (plays : reader.Plays) {event : TerminalEvent}
    (decodable : event.Decodable) : (reader.loadEvents [event]).Plays := by
  have single : ∀ events, ReaderOperation.loadEvents [event] = .loadEvents events →
      ∀ event ∈ events, event.Decodable := by
    rintro events ⟨⟩ other member
    exact List.mem_singleton.mp member ▸ decodable
  obtain ⟨after, loaded, kept⟩ := plays.perform single
  exact Except.ok.inj loaded ▸ kept

end TerminalReader

namespace WatchingPage
variable {page : WatchingPage} {event : TerminalEvent}

theorem stopAfter_plays (plays : page.reader.Plays) (event : TerminalEvent) :
    (page.stopAfter event).reader.Plays := by
  unfold stopAfter sessionStop
  split
  · split <;> exact plays.keeps rfl rfl rfl rfl rfl
  · exact plays

theorem receiveEvent_plays (plays : page.reader.Plays) (decodable : event.Decodable) :
    (page.receiveEvent event).1.reader.Plays := by
  have loaded := TerminalReader.loadEvents_plays plays decodable
  by_cases active : page.active = true
  · obtain ⟨after, processed, kept⟩ := loaded.processNextEvent
    rw [receiveEvent_returned active processed]
    have settled : ({ page with reader := after } : WatchingPage).reader.Plays := kept
    exact stopAfter_plays settled event
  · rw [receiveEvent_inactive active]
    have settled : ({ page with reader := page.reader.loadEvents [event] } :
        WatchingPage).reader.Plays := loaded
    exact stopAfter_plays settled event

theorem opened_plays (active : Bool) (expired : Nat) (reader : TerminalReader) :
    (opened active (reader.reset.performAll
      (List.replicate expired .processNextEvent))).reader.Plays := by
  have played : (reader.reset.performAll (List.replicate expired .processNextEvent)).Plays := by
    refine reader.reset_plays.performAll fun events member => ?_
    exact absurd (List.eq_of_mem_replicate member) ReaderOperation.noConfusion
  cases active <;> exact played.keeps rfl rfl rfl rfl rfl

end WatchingPage

namespace Watch
variable {watch next : Watch}

/-- What a step does to the page and to the events of the session. -/
inductive Turns (watch : Watch) (action : WatchAction) (next : Watch) : Prop where
  | aside (page : next.page.reader = watch.page.reader)
      (stays : next.page.isOpen = true → watch.page.isOpen = true)
      (active : next.page.active = watch.page.active)
      (grown : watch.session.events <+: next.session.events)
  | delivered (event : TerminalEvent) (e : SessionEvent) (isOpen : watch.page.isOpen = true)
      (received : e.received = some event)
      (page : next.page = (watch.page.receiveEvent event).1)
      (session : next.session = watch.session)
      (following : watch.session.events.take (watch.page.reader.events.length + 1) =
        watch.session.events.take watch.page.reader.events.length ++ [e])
  | operated (operation : ReaderOperation) (asked : action = .operate operation)
      (navigates : operation.navigates = true)
      (page : next.page = { watch.page with
        reader := TerminalReader.left (watch.page.reader.perform operation) })
      (session : next.session = watch.session)

theorem InStep.following (inStep : watch.InStep) {e : SessionEvent} (sent : watch.playback.sent =
      watch.playback.sent.take watch.page.reader.events.length ++ [e]) :
    watch.session.events.take (watch.page.reader.events.length + 1) =
      watch.session.events.take watch.page.reader.events.length ++ [e] := by
  have size : (watch.playback.sent.take watch.page.reader.events.length).length =
    watch.page.reader.events.length := inStep.received.length_eq
  have length := congrArg List.length sent
  rw [List.length_append, size] at length
  have all : watch.session.events.take (watch.page.reader.events.length + 1) =
      watch.playback.sent := by
    obtain ⟨rest, whole⟩ := inStep.consistent.sent_prefix
    rw [← whole]
    exact List.take_left' length
  rw [all, ← inStep.events_prefix]
  exact sent

theorem InStep.turns (inStep : watch.InStep) {action : WatchAction}
    (done : watch.perform action = some next) : watch.Turns action next := by
  unfold Watch.perform at done
  have proceeds {reply : Option Bytes} {toProxy : List Bytes}
      (moved : (watch.playback.advance watch.session.events reply).map
        { watch with toProxy }.proceed = some next) : watch.Turns action next := by
    obtain ⟨playback, -, rfl⟩ := Option.map_eq_some_iff.mp moved
    exact .aside rfl id rfl (List.prefix_refl _)
  cases action with
  | addEvent event now =>
    obtain rfl := Option.some.inj done
    exact .aside rfl id rfl (List.prefix_append _ _)
  | signal signal =>
    obtain ⟨playback, -, rfl⟩ := Option.map_eq_some_iff.mp done
    exact .aside rfl id rfl (List.prefix_refl _)
  | advance =>
    simp only at done
    split at done
    · contradiction
    · exact proceeds done
  | readReply =>
    simp only at done
    split at done
    · exact proceeds done
    · contradiction
  | readError =>
    simp only at done
    split at done
    · split at done
      · contradiction
      · exact proceeds done
    · contradiction
  | deliver =>
    simp only at done
    split at done
    · contradiction
    · next message rest flying =>
      split at done
      · next isOpen =>
        obtain ⟨-, -, -, e, rfl, sent⟩ := inStep.flying isOpen flying
        obtain ⟨event, received, handled⟩ := watch.page.onMessage_message e
        rw [handled] at done
        obtain rfl := Option.some.inj done
        exact .delivered event e isOpen received rfl rfl (inStep.following sent)
      · obtain rfl := Option.some.inj done
        exact .aside rfl id rfl (List.prefix_refl _)
  | operate operation =>
    simp only at done
    split at done
    · next navigates =>
      obtain rfl := Option.some.inj done
      exact .operated operation rfl navigates rfl rfl
    · contradiction
  | close =>
    obtain rfl := Option.some.inj done
    exact .aside rfl (fun closed => by contradiction) rfl (List.prefix_refl _)
  | disconnect =>
    obtain rfl := Option.some.inj done
    exact .aside rfl (fun closed => by contradiction) rfl (List.prefix_refl _)

/-- Where all of the session can be read, the page shows what it has played of it. -/
def Presents (watch : Watch) : Prop :=
  AllReadable watch.session.events → watch.page.reader.Plays

theorem readable_of_following {events : List SessionEvent} {n : Nat} {e : SessionEvent}
    (readable : AllReadable events) (following : events.take (n + 1) = events.take n ++ [e]) :
    e.Readable := by
  have member : e ∈ events.take (n + 1) := following ▸ List.mem_append_right _ List.mem_cons_self
  exact readable e (List.mem_of_mem_take member)

theorem Presents.turn (presents : watch.Presents) {action : WatchAction}
    (turns : watch.Turns action next) : next.Presents := by
  intro readable
  cases turns with
  | aside page stays active grown =>
    rw [page]
    exact presents fun e member => readable e (grown.mem member)
  | delivered event e isOpen received page session following =>
    rw [session] at readable
    have held := readable_of_following readable following
    have decodable := (SessionEvent.received_decodable received).mpr ⟨held.data, held.payload⟩
    rw [page]
    exact WatchingPage.receiveEvent_plays (presents readable) decodable
  | operated operation asked navigates page session =>
    rw [session] at readable
    have unloaded : ∀ events, operation = .loadEvents events →
        ∀ event ∈ events, event.Decodable := by
      rintro events rfl
      contradiction
    obtain ⟨after, performed, kept⟩ := (presents readable).perform unloaded
    rw [page, performed]
    exact kept

theorem presents_of_reachable {active : Bool} (reached : (runs active).Reachable watch) :
    watch.Presents := by
  induction reached with
  | start initial =>
    obtain ⟨expired, -, -, -, reader, page⟩ := initial
    intro _
    rw [page]
    exact WatchingPage.opened_plays active expired reader
  | next before done ih => exact ih.turn ((inStep_of_reachable before).turns done)

theorem forall₂_output {events : List SessionEvent} {kept : List TerminalEvent}
    (keptAs : List.Forall₂ SessionEvent.KeptAs events kept) :
    kept.flatMap TerminalEvent.rendered = SessionEvent.output events := by
  induction keptAs with
  | nil => rfl
  | cons first rest ih =>
    rw [List.flatMap_cons, first.rendered, ih]
    rfl

/-- Whatever is done to the reader while a session is watched that can be read: the terminal shows
the output of the events before the index, and these are the first events of the session. -/
theorem watched_shows {active : Bool} (reached : (runs active).Reachable watch)
    (readable : AllReadable watch.session.events) :
    let reader := watch.page.reader
    reader.terminal.flatten = SessionEvent.output (watch.session.events.take reader.eventIndex) ∧
      reader.eventIndex ≤ reader.events.length ∧
      reader.events.length ≤ watch.session.events.length ∧
      reader.terminalBuffer = [] ∧ reader.keystrokeBuffer = [] := by
  have inStep := inStep_of_reachable reached
  obtain ⟨shown, within, terminalBuffer, keystrokeBuffer⟩ :=
    (presents_of_reachable reached readable).shows'
  have received := inStep.received
  rw [inStep.events_prefix] at received
  have part := List.forall₂_take watch.page.reader.eventIndex received
  rw [List.take_take, Nat.min_eq_left within] at part
  have size := received.length_eq
  rw [List.length_take] at size
  exact ⟨shown.trans (forall₂_output part), within, by omega, terminalBuffer, keystrokeBuffer⟩

theorem output_prompt : SessionEvent.output [prompt, typed] = "$ ".toList := by decide

/-- The page has acknowledged what was written and what was typed. -/
theorem watched_shows_followed : ∃ reader, (runs true).Reachable (followed reader) ∧
    reader.terminal.flatten = "$ ".toList := by
  obtain ⟨first, both, told, -, told', turned⟩ := joined_followed
  have start : (runs true).Reachable joined := .start ⟨0, rfl, rfl, rfl, {}, rfl⟩
  have follows : Transition.Follows (runs true).step joined
      [.advance, .advance, .advance, .deliver, .readReply, .deliver, .readReply] (followed both) :=
    ⟨_, rfl, _, rfl, sending, rfl, _, told, answered first, rfl, _, told', followed both, rfl, rfl⟩
  have reached := start.follows follows
  have shown := (watched_shows reached sending_readable).1
  refine ⟨both, reached, shown.trans ?_⟩
  rw [show (followed both).page.reader.eventIndex = 2 from turned.index]
  exact output_prompt

end Watch
end SSHProxyPlus
