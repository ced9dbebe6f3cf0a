import SSHProxyPlus.Page.Showing

/-! A session that is watched by nobody in particular: only the timeouts of the reader expire. -/
namespace SSHProxyPlus
open Go Browser

namespace WatchingPage
variable {page : WatchingPage} {shown : List SessionEvent}

/-- What comes of the end of a session shows nothing, and closes the page's socket. -/
theorem stopAfter_turned (turned : page.reader.Turned shown) (attentive : page.reader.Attentive)
    (event : TerminalEvent) : (page.stopAfter event).reader.Turned shown ∧
      (page.stopAfter event).reader.Attentive ∧
      ((page.stopAfter event).isOpen = true → page.stopAfter event = page) := by
  unfold stopAfter sessionStop
  split
  · split
    · exact ⟨turned.setSessionModeDisconnected,
        fun _ => page.reader.setSessionModeDisconnected_isLive, fun closed => by contradiction⟩
    · exact ⟨turned.frame rfl rfl rfl rfl rfl rfl, fun paused => absurd paused Bool.false_ne_true,
        fun closed => by contradiction⟩
  · exact ⟨turned, attentive, fun _ => rfl⟩

theorem opened_turned (active : Bool) (reader : TerminalReader) :
    (opened active reader.reset).reader.Turned [] ∧ (opened active reader.reset).reader.Attentive ∧
      (active = true → (opened active reader.reset).reader.paused = false) := by
  have turned := reader.reset_turned
  have playing := reader.reset_attentive
  cases active with
  | true =>
    exact ⟨turned.setSessionModeLive, fun paused => absurd (playing.symm.trans paused) (by decide),
      fun _ => playing⟩
  | false =>
    exact ⟨turned.setSessionModeDisconnected.frame rfl rfl rfl rfl rfl rfl,
      fun _ => reader.reset.setSessionModeDisconnected_isLive, fun told => by contradiction⟩

end WatchingPage

/-- Nobody uses the control bar. -/
def WatchAction.Unattended : WatchAction → Prop
  | .operate operation => operation = .processNextEvent
  | _ => True

namespace Watch
open SessionEvent (output keystrokesOf)
variable {watch next : Watch}

/-- No timeout of an earlier session expired before the socket was opened, and nobody uses the
control bar. -/
def unattended (active : Bool) : Transition.System Watch WatchAction where
  init watch := watch.Opening active 0
  step watch action next := action.Unattended ∧ watch.perform action = some next

/-- What is shown is what was played, event by event; a live session is played as it comes. -/
structure Unaided (watch : Watch) : Prop where
  turned : watch.page.reader.Turned (watch.session.events.take watch.page.reader.eventIndex)
  attentive : watch.page.reader.Attentive
  abreast : watch.page.isOpen = true → watch.page.active = true →
    watch.page.reader.paused = false ∧
      watch.page.reader.eventIndex = watch.page.reader.events.length

theorem Unaided.index_le (unaided : watch.Unaided) :
    watch.page.reader.eventIndex ≤ watch.session.events.length := by
  have index := unaided.turned.index
  rw [List.length_take] at index
  omega

theorem Opening.unaided {active : Bool} (opening : watch.Opening active 0) : watch.Unaided := by
  have inStep := opening.inStep
  obtain ⟨playback, -, -, reader, page⟩ := opening
  obtain ⟨turned, attentive, playing⟩ := WatchingPage.opened_turned active reader
  obtain ⟨events, within, -⟩ := opened_empty active 0 reader
  have page : watch.page = .opened active reader.reset := page
  have told : watch.page.active = active := congrArg WatchingPage.active page
  have index : watch.page.reader.eventIndex = 0 := page ▸ turned.index
  have none : watch.page.reader.events = [] := page ▸ events
  refine ⟨?_, page ▸ attentive, fun _ live => ⟨page ▸ playing (told.symm.trans live), ?_⟩⟩
  · rw [index, List.take_zero]
    exact page ▸ turned
  · rw [index, none]
    rfl

theorem Unaided.aside (unaided : watch.Unaided) (page : next.page.reader = watch.page.reader)
    (stays : next.page.isOpen = true → watch.page.isOpen = true)
    (active : next.page.active = watch.page.active)
    (grown : watch.session.events <+: next.session.events) : next.Unaided := by
  have within := unaided.index_le
  obtain ⟨more, whole⟩ := grown
  refine ⟨?_, page ▸ unaided.attentive, fun isOpen told => ?_⟩
  · rw [page, ← whole, List.take_append_of_le_length within]
    exact unaided.turned
  · rw [page]
    exact unaided.abreast (stays isOpen) (active.symm.trans told)

/-- A live page plays an event as it comes. -/
theorem Unaided.plays (unaided : watch.Unaided) {event : TerminalEvent} {e : SessionEvent}
    (isOpen : watch.page.isOpen = true) (active : watch.page.active = true)
    (received : e.received = some event)
    (following : watch.session.events.take (watch.page.reader.events.length + 1) =
      watch.session.events.take watch.page.reader.events.length ++ [e])
    (readable : e.Readable) : ∃ after : TerminalReader,
      (watch.page.reader.loadEvents [event]).processNextEvent = .ok after ∧
      after.Turned (watch.session.events.take (watch.page.reader.events.length + 1)) ∧
      after.paused = false ∧ after.eventIndex = watch.page.reader.events.length + 1 ∧
      after.events.length = watch.page.reader.events.length + 1 := by
  obtain ⟨playing, index⟩ := unaided.abreast isOpen active
  have loaded : (watch.page.reader.loadEvents [event]).Turned
      (watch.session.events.take watch.page.reader.eventIndex) :=
    unaided.turned.frame rfl rfl rfl rfl rfl rfl
  have found : (watch.page.reader.loadEvents [event]).events[
      (watch.page.reader.loadEvents [event]).eventIndex]? = some event := by
    change (watch.page.reader.events ++ [event])[watch.page.reader.eventIndex]? = some event
    rw [index]
    exact List.getElem?_concat_length
  obtain ⟨after, processed, turned, still, events, -⟩ := loaded.turn playing found
    ⟨event, received, TerminalEvent.Leaves.refl event⟩ readable
  rw [index, ← following] at turned
  refine ⟨after, processed, turned, still, ?_, ?_⟩
  · have size := turned.index
    have before := unaided.turned.index
    have last := congrArg List.length following
    rw [List.length_append] at last
    rw [index] at before
    rw [size, last, ← before]
    rfl
  · rw [events, List.length_set, TerminalReader.loadEvents, List.length_append]
    rfl

/-- The event that a page receives: played at once, or kept for later. -/
theorem Unaided.delivered (unaided : watch.Unaided) {event : TerminalEvent} {e : SessionEvent}
    (isOpen : watch.page.isOpen = true) (received : e.received = some event)
    (page : next.page = (watch.page.receiveEvent event).1) (session : next.session = watch.session)
    (following : watch.session.events.take (watch.page.reader.events.length + 1) =
      watch.session.events.take watch.page.reader.events.length ++ [e])
    (readable : e.Readable) : next.Unaided := by
  have loaded : (watch.page.reader.loadEvents [event]).Turned
      (watch.session.events.take watch.page.reader.eventIndex) :=
    unaided.turned.frame rfl rfl rfl rfl rfl rfl
  by_cases active : watch.page.active = true
  · obtain ⟨after, processed, turned, still, place, events⟩ :=
      unaided.plays isOpen active received following readable
    have attentive : after.Attentive := fun paused => absurd (still.symm.trans paused) (by decide)
    have shows' : ({ watch.page with reader := after } : WatchingPage).reader.Turned
        (watch.session.events.take (watch.page.reader.events.length + 1)) := turned
    obtain ⟨settled, minding, same⟩ := WatchingPage.stopAfter_turned shows' attentive event
    rw [WatchingPage.receiveEvent_returned active processed] at page
    refine ⟨?_, page ▸ minding, fun stays told => ?_⟩
    · have at' : next.page.reader.eventIndex = watch.page.reader.events.length + 1 := by
        rw [page]
        exact (WatchingPage.stopAfter_reader _ event).2.1.trans place
      rw [at', session, page]
      exact settled
    · rw [page] at stays ⊢
      rw [same stays]
      exact ⟨still, place.trans events.symm⟩
  · have shows' : ({ watch.page with reader := watch.page.reader.loadEvents [event] } :
        WatchingPage).reader.Turned (watch.session.events.take watch.page.reader.eventIndex) := loaded
    obtain ⟨settled, minding, -⟩ := WatchingPage.stopAfter_turned shows' unaided.attentive event
    obtain ⟨-, index, same⟩ := WatchingPage.stopAfter_reader
      { watch.page with reader := watch.page.reader.loadEvents [event] } event
    rw [WatchingPage.receiveEvent_inactive active] at page
    refine ⟨?_, page ▸ minding, fun _ told => absurd ?_ active⟩
    · rw [session, page, index]
      exact settled
    · rw [page, same] at told
      exact told

/-- A timeout expires: the next event that was received is played, or nothing is shown. -/
theorem Unaided.expired (unaided : watch.Unaided) (inStep : watch.InStep)
    (readable : AllReadable watch.session.events)
    (page : next.page = { watch.page with
      reader := TerminalReader.left watch.page.reader.processNextEvent })
    (session : next.session = watch.session) : next.Unaided := by
  cases TerminalReader.processNextEvent_expires unaided.attentive with
  | turn kept playing found =>
    have received := inStep.received
    rw [inStep.events_prefix] at received
    obtain ⟨within, here⟩ := List.getElem?_eq_some_iff.mp found
    have size := received.length_eq
    have inside : watch.page.reader.eventIndex < watch.session.events.length := by
      rw [List.length_take] at size
      omega
    have keptAs : (watch.session.events[watch.page.reader.eventIndex]).KeptAs kept := by
      have paired := received.get (by rw [size]; exact within) within
      simp only [List.get_eq_getElem, List.getElem_take] at paired
      rwa [here] at paired
    obtain ⟨after, processed, turned, still, events, -⟩ :=
      unaided.turned.turn playing found keptAs (readable _ (List.getElem_mem inside))
    rw [← List.take_succ_eq_append_getElem inside] at turned
    have place : after.eventIndex = watch.page.reader.eventIndex + 1 := by
      rw [turned.index, List.length_take]
      omega
    rw [processed] at page
    refine ⟨?_, ?_, fun isOpen told => ?_⟩
    · rw [page, session]
      change after.Turned (watch.session.events.take after.eventIndex)
      rw [place]
      exact turned
    · rw [page]
      exact fun paused => absurd (still.symm.trans paused) (by decide)
    · rw [page] at isOpen told
      obtain ⟨-, index⟩ := unaided.abreast isOpen told
      exact absurd within (index ▸ Nat.lt_irrefl _)
  | still same resting =>
    refine unaided.aside (by rw [page]; exact same) (fun isOpen => ?_) (by rw [page])
      (session ▸ List.prefix_refl _)
    rw [page] at isOpen
    exact isOpen
  | pauses old same ended =>
    rw [same] at page
    refine ⟨?_, ?_, fun isOpen told => ?_⟩
    · rw [page, session]
      exact unaided.turned.frame rfl rfl rfl rfl rfl rfl
    · rw [page]
      exact fun _ => old
    · rw [page] at isOpen told
      have live := (inStep.mode isOpen told).isLive
      exact absurd (old.symm.trans live) (by decide)

theorem unattended_runs {active : Bool} (reached : (unattended active).Reachable watch) :
    (runs active).Reachable watch := by
  induction reached with
  | start initial => exact .start ⟨0, initial⟩
  | next before step ih => exact .next ih step.2

theorem unaided_of_reachable {active : Bool} (reached : (unattended active).Reachable watch)
    (readable : AllReadable watch.session.events) : watch.Unaided := by
  induction reached with
  | start initial => exact initial.unaided
  | next before step ih =>
    obtain ⟨alone, done⟩ := step
    have inStep := inStep_of_reachable (unattended_runs before)
    cases inStep.turns done with
    | aside page stays active grown =>
      exact (ih fun e member => readable e (grown.mem member)).aside page stays active grown
    | delivered event e isOpen received page session following =>
      rw [session] at readable
      exact (ih readable).delivered isOpen received page session following
        (readable_of_following readable following)
    | operated operation asked navigates page session =>
      rw [session] at readable
      rw [asked] at alone
      obtain rfl : operation = .processNextEvent := alone
      exact (ih readable).expired inStep readable page session

theorem decodable_of_readable {events : List SessionEvent} {kept : List TerminalEvent}
    (keptAs : List.Forall₂ SessionEvent.KeptAs events kept) (readable : AllReadable events) :
    ∀ event ∈ kept, event.Decodable := by
  induction keptAs with
  | nil => exact List.forall_mem_nil _
  | cons first rest ih =>
    obtain ⟨head, tail⟩ := List.forall_mem_cons.mp readable
    exact List.forall_mem_cons.mpr ⟨first.decodable head, ih tail⟩

/-- Where all of the session can be read: the terminal and the keystroke pane show the first events
of the session, each played for itself. A page that is open and watches a live session shows all
that it has received, the proxy never waits for it in vain, and each time that the proxy waits for
news the page shows every event that the proxy has looked for. -/
theorem unattended_shows {active : Bool} (reached : (unattended active).Reachable watch)
    (readable : AllReadable watch.session.events) :
    let reader := watch.page.reader
    reader.terminal.flatten = output (watch.session.events.take reader.eventIndex) ∧
      reader.keystrokes = keystrokesOf (watch.session.events.take reader.eventIndex) ∧
      (watch.page.isOpen = true → watch.page.active = true →
        reader.eventIndex = reader.events.length ∧
        (∀ rest newEventIndex, watch.playback.step = .sending rest newEventIndex →
          watch.toPage ≠ [] ∨ watch.toProxy ≠ []) ∧
        (watch.playback.step = .waiting →
          reader.eventIndex = watch.playback.lastEventIndex)) := by
  have unaided := unaided_of_reachable reached readable
  have inStep := inStep_of_reachable (unattended_runs reached)
  have received := inStep.events_prefix ▸ inStep.received
  refine ⟨unaided.turned.terminal, unaided.turned.keystrokes, fun isOpen told => ?_⟩
  obtain ⟨-, index⟩ := unaided.abreast isOpen told
  refine ⟨index, fun rest newEventIndex stands => ?_,
    fun waits => index.trans (inStep.waiting isOpen waits).2.2⟩
  by_contra silent
  obtain ⟨page, proxy⟩ := not_or.mp silent
  obtain ⟨-, event, member, undecodable⟩ :=
    inStep.blocked isOpen stands (not_not.mp page) (not_not.mp proxy)
  have taken : AllReadable (watch.session.events.take watch.page.reader.events.length) :=
    fun e among => readable e (List.mem_of_mem_take among)
  exact undecodable (decodable_of_readable received taken event member)

theorem keystrokes_typed :
    keystrokesOf [prompt, typed] = [.text "ls[CARRIAGE RETURN]".toList] := by
  have text : processKeystrokes typed.inputText = "ls[CARRIAGE RETURN]".toList := by decide
  have typing : typed.inputText ≠ [] := by decide
  have quiet : prompt.inputText = [] := by decide
  have interactive : typed.runsCommand (prompt.runsCommand false) = false := by decide
  simp [keystrokesOf, SessionEvent.keystrokeStep, SessionEvent.keystrokesIn, text, typing, quiet,
    interactive]

/-- The page has acknowledged what was written and what was typed, and shows both. -/
theorem unattended_shows_followed : ∃ reader, (unattended true).Reachable (followed reader) ∧
    reader.eventIndex = 2 ∧ reader.terminal.flatten = "$ ".toList ∧
    reader.keystrokes = [.text "ls[CARRIAGE RETURN]".toList] := by
  obtain ⟨first, both, told, -, told', -⟩ := joined_followed
  have start : (unattended true).Reachable joined := .start ⟨rfl, rfl, rfl, {}, rfl⟩
  have follows : Transition.Follows (unattended true).step joined
      [.advance, .advance, .advance, .deliver, .readReply, .deliver, .readReply] (followed both) :=
    ⟨_, ⟨trivial, rfl⟩, _, ⟨trivial, rfl⟩, sending, ⟨trivial, rfl⟩, _, ⟨trivial, told⟩,
      answered first, ⟨trivial, rfl⟩, _, ⟨trivial, told'⟩, followed both, ⟨trivial, rfl⟩, rfl⟩
  have reached := start.follows follows
  obtain ⟨terminal, keystrokes, abreast⟩ := unattended_shows reached sending_readable
  obtain ⟨-, -, waits⟩ := abreast rfl rfl
  have index : both.eventIndex = 2 := waits rfl
  rw [show (followed both).page.reader.eventIndex = 2 from index] at terminal keystrokes
  exact ⟨both, reached, index, terminal.trans output_prompt,
    keystrokes.trans keystrokes_typed⟩

end Watch
end SSHProxyPlus
