import SSHProxyPlus.Replay.Effects

/-! The terminal shows the events before the index, whatever was done to the reader. -/
namespace SSHProxyPlus
open Go Browser

/-- What a page does to its reader. -/
inductive ReaderOperation where
  | loadEvents (events : List TerminalEvent)
  | play
  | pause
  | next
  | prev
  | moveToEvent (eventId : Option Int)
  | processNextEvent
  | changeSpeed
  | reset
  | setSessionModeLive
  | setSessionModeDisconnected

namespace TerminalReader

def perform (reader : TerminalReader) : ReaderOperation → Call
  | .loadEvents events => .ok (reader.loadEvents events)
  | .play => .ok reader.play
  | .pause => .ok reader.pause
  | .next => reader.next
  | .prev => reader.prev
  | .moveToEvent eventId => reader.moveToEvent eventId
  | .processNextEvent => reader.processNextEvent
  | .changeSpeed => .ok reader.changeSpeedToNewVal
  | .reset => .ok reader.reset
  | .setSessionModeLive => .ok reader.setSessionModeLive
  | .setSessionModeDisconnected => .ok reader.setSessionModeDisconnected

/-- The reader that is left, thrown or not. -/
def left : Call → TerminalReader
  | .ok reader => reader
  | .error reader => reader

def performAll (reader : TerminalReader) (operations : List ReaderOperation) : TerminalReader :=
  operations.foldl (fun reader operation => left (reader.perform operation)) reader

/-- All that was written, one after the other, is the text of the events before the index. -/
structure Shows (reader : TerminalReader) : Prop where
  terminal : reader.terminal.flatten =
    (reader.events.take reader.eventIndex).flatMap TerminalEvent.rendered
  within : reader.eventIndex ≤ reader.events.length
  terminalBuffer : reader.terminalBuffer = []
  keystrokeBuffer : reader.keystrokeBuffer = []

def AllDecodable (reader : TerminalReader) : Prop := ∀ event ∈ reader.events, event.Decodable

variable {reader : TerminalReader} {events : List TerminalEvent} {index count : Nat}

theorem segment_append (events : List TerminalEvent) (index count : Nat) :
    events = events.take index ++ segment events index count ++ events.drop (index + count) := by
  rw [segment, List.append_assoc, ← List.drop_drop, List.take_append_drop, List.take_append_drop]

theorem playedPart_rendered : (playedPart events index count).map TerminalEvent.rendered =
    events.map TerminalEvent.rendered := by
  conv_rhs => rw [segment_append events index count]
  simp only [playedPart, List.map_append, List.map_map]
  refine congrArg (_ ++ · ++ _) (List.map_congr_left fun event _ => ?_)
  exact TerminalEvent.played_rendered

theorem playedPart_length : (playedPart events index count).length = events.length := by
  have same := congrArg List.length (@playedPart_rendered events index count)
  rwa [List.length_map, List.length_map] at same

theorem playedPart_decodable (decodable : ∀ event ∈ events, event.Decodable) :
    ∀ event ∈ playedPart events index count, event.Decodable := by
  intro event member
  rcases List.mem_append.mp member with front | back
  · rcases List.mem_append.mp front with before | inside
    · exact decodable event (List.mem_of_mem_take before)
    · obtain ⟨original, among, rfl⟩ := List.mem_map.mp inside
      have here := List.mem_of_mem_drop (List.mem_of_mem_take among)
      exact TerminalEvent.played_decodable.mpr (decodable original here)
  · exact decodable event (List.mem_of_mem_drop back)

/-- The text before an index, from the texts of all events. -/
theorem rendered_take (events : List TerminalEvent) (index : Nat) :
    (events.take index).flatMap TerminalEvent.rendered =
      ((events.map TerminalEvent.rendered).take index).flatten := by
  rw [List.flatMap_def, List.map_take]

theorem rendered_segment (events : List TerminalEvent) (index count : Nat) :
    (events.take index).flatMap TerminalEvent.rendered ++
        (segment events index count).flatMap TerminalEvent.rendered =
      (events.take (index + count)).flatMap TerminalEvent.rendered := by
  rw [segment, List.take_add, List.flatMap_append]

/-- Playing a part on top of what is shown before it, and writing it out. -/
theorem Shows.part (empty : reader.terminalBuffer = []) (f : Nat → Nat)
    (before : reader.terminal.flatten = (reader.events.take index).flatMap TerminalEvent.rendered)
    (within : index + count ≤ reader.events.length) :
    Shows { (reader.actedPart index count).writeBuffers
      (fun reader => { reader with eventIndex := f reader.eventIndex }) true with
        eventIndex := index + count } := by
  rw [writeBuffers_eq]
  refine ⟨?_, ?_, rfl, rfl⟩
  · have text : (reader.terminal ++
        if (reader.actedPart index count).terminalBuffer = [] then []
        else [(reader.actedPart index count).terminalBuffer]).flatten =
        reader.terminal.flatten ++ (reader.actedPart index count).terminalBuffer := by
      split
      · next nothing => simp [nothing]
      · simp
    refine text.trans ?_
    simp only [actedPart, empty, List.nil_append]
    rw [before, rendered_segment, rendered_take, rendered_take, playedPart_rendered]
  · exact within.trans_eq playedPart_length.symm

theorem Shows.part_one (shows' : reader.Shows) (more : reader.eventIndex < reader.events.length)
    (f : Nat → Nat) : Shows { (reader.actedPart reader.eventIndex 1).writeBuffers
      (fun reader => { reader with eventIndex := f reader.eventIndex }) true with
        eventIndex := reader.eventIndex + 1 } :=
  Shows.part shows'.terminalBuffer f shows'.terminal more

theorem acted_part {event : TerminalEvent} (found : reader.events[index]? = some event) :
    reader.acted index event = reader.actedPart index 1 := by
  have events : playedPart (reader.events.set index event.played) (index + 1) 0 =
    playedPart reader.events index 1 := playedPart_succ found
  rw [playedPart_zero] at events
  simp only [acted, actedPart, segment_succ found, ← events]
  simp [segment]

/-- A reader that shows what was played, of events that can be played. -/
structure Plays (reader : TerminalReader) : Prop where
  shows' : reader.Shows
  decodable : reader.AllDecodable

theorem Plays.keeps (plays : reader.Plays) {after : TerminalReader}
    (events : after.events = reader.events) (index : after.eventIndex = reader.eventIndex)
    (terminal : after.terminal = reader.terminal)
    (terminalBuffer : after.terminalBuffer = reader.terminalBuffer)
    (keystrokeBuffer : after.keystrokeBuffer = reader.keystrokeBuffer) : after.Plays where
  shows' :=
    { terminal := by rw [terminal, events, index, plays.shows'.terminal]
      within := by rw [events, index]; exact plays.shows'.within
      terminalBuffer := terminalBuffer.trans plays.shows'.terminalBuffer
      keystrokeBuffer := keystrokeBuffer.trans plays.shows'.keystrokeBuffer }
  decodable event member := plays.decodable event (events ▸ member)

theorem segment_decodable (decodable : reader.AllDecodable) :
    ∀ event ∈ segment reader.events index count, event.Decodable := fun event member =>
  decodable event (List.mem_of_mem_drop (List.mem_of_mem_take member))

/-- One event at the index is played on top of those before it. -/
theorem Plays.one (plays : reader.Plays) (more : reader.eventIndex < reader.events.length) :
    reader.actionEvent reader.eventIndex = .ok (reader.actedPart reader.eventIndex 1) := by
  have found := List.getElem?_eq_getElem more
  rw [actionEvent_acted found (plays.decodable _ (List.getElem_mem more)), acted_part found]

theorem actedPart_decodable (decodable : reader.AllDecodable) :
    (reader.actedPart index count).AllDecodable := playedPart_decodable decodable

theorem Plays.processNextEvent (plays : reader.Plays) :
    ∃ after, reader.processNextEvent = .ok after ∧ after.Plays := by
  unfold TerminalReader.processNextEvent
  split
  · exact ⟨reader, rfl, plays⟩
  · split
    · next more =>
      rw [plays.one more]
      simp only [bind, Except.bind, pure, Except.pure]
      split
      · refine ⟨_, rfl, ?_, ?_⟩
        · have shown := plays.shows'.part_one more (· + 1)
          rw [writeBuffers_eq _ (· + 1)] at shown ⊢
          exact shown
        · rw [writeBuffers_eq _ (· + 1)]
          exact actedPart_decodable plays.decodable
      · -- paused, but live: the event is read and nothing of it is written
        refine ⟨_, rfl, ?_, actedPart_decodable plays.decodable⟩
        refine ⟨?_, ?_, rfl, rfl⟩
        · simp only [clearBuffers, actedPart]
          rw [plays.shows'.terminal, rendered_take, rendered_take, playedPart_rendered]
        · simp only [clearBuffers, actedPart, playedPart_length]
          exact plays.shows'.within
    · split
      · exact ⟨_, rfl, plays.keeps rfl rfl rfl rfl rfl⟩
      · exact ⟨_, rfl, plays⟩

theorem Plays.next (plays : reader.Plays) : ∃ after, reader.next = .ok after ∧ after.Plays := by
  unfold TerminalReader.next
  split
  · next more =>
    split
    · rw [plays.one more]
      simp only [bind, Except.bind, pure, Except.pure, writeBuffers_id]
      refine ⟨_, rfl, ?_, ?_⟩
      · have shown := plays.shows'.part_one more id
        rw [writeBuffers_eq] at shown ⊢
        exact shown
      · rw [writeBuffers_eq]
        exact actedPart_decodable plays.decodable
    · exact plays.processNextEvent
  · exact ⟨reader, rfl, plays⟩

/-- Forward from the index, or from the first event on in an empty terminal. -/
theorem Plays.moveToEvent (plays : reader.Plays) (eventId : Option Int) :
    ∃ after, reader.moveToEvent eventId = .ok after ∧ after.Plays := by
  rcases reader.moveToEvent_cases eventId with stays | ⟨target, rfl, within, other⟩
  · exact ⟨reader, stays, plays⟩
  · have last := reader.seekStart_add target
    let base := { reader.seekBase target with keystrokes := [] }
    have decodable : base.AllDecodable := plays.decodable
    have before : base.terminal.flatten =
        (base.events.take (reader.seekStart target)).flatMap TerminalEvent.rendered := by
      simp only [base, seekBase, seekStart]
      split
      · exact plays.shows'.terminal
      · rfl
    have played : (reader.seekBase target).playUpTo (reader.seekStart target) target = _ :=
      playUpTo_acted (last.trans_le within) (segment_decodable decodable)
    rw [moveToEvent_seeks within other, played]
    refine ⟨_, rfl, ?_, ?_⟩
    · have empty : base.terminalBuffer = [] := plays.shows'.terminalBuffer
      have shown := Shows.part empty id before (last.trans_le within)
      rw [last] at shown
      exact shown
    · rw [writeBuffers_id, writeBuffers_eq]
      exact actedPart_decodable decodable

/-- Nothing that is done to the reader throws, and it goes on showing what was played. -/
theorem Plays.perform (plays : reader.Plays) {operation : ReaderOperation}
    (decodable : ∀ events, operation = .loadEvents events → ∀ event ∈ events, event.Decodable) :
    ∃ after, reader.perform operation = .ok after ∧ after.Plays := by
  cases operation with
  | loadEvents events =>
    refine ⟨_, rfl, ?_, fun event member => ?_⟩
    · obtain ⟨terminal, within, terminalBuffer, keystrokeBuffer⟩ := plays.shows'
      refine ⟨?_, ?_, terminalBuffer, keystrokeBuffer⟩
      · simp only [TerminalReader.loadEvents, List.take_append_of_le_length within, terminal]
      · simp only [TerminalReader.loadEvents, List.length_append]
        omega
    · rcases List.mem_append.mp member with old | new
      · exact plays.decodable event old
      · exact decodable events rfl event new
  | play => exact ⟨_, rfl, plays.keeps rfl rfl rfl rfl rfl⟩
  | pause => exact ⟨_, rfl, plays.keeps rfl rfl rfl rfl rfl⟩
  | next => exact plays.next
  | prev =>
    rw [TerminalReader.perform, TerminalReader.prev]
    exact plays.moveToEvent _
  | moveToEvent eventId => exact plays.moveToEvent eventId
  | processNextEvent => exact plays.processNextEvent
  | changeSpeed =>
    refine ⟨_, rfl, ?_⟩
    unfold changeSpeedToNewVal
    split
    · exact plays
    · exact plays.keeps rfl rfl rfl rfl rfl
  | reset =>
    refine ⟨_, rfl, ?_⟩
    cases ignored : reader.ignoreResize <;>
      simp only [TerminalReader.reset, clearEvents, clearBuffers, ignored] <;>
      exact ⟨⟨rfl, Nat.zero_le _, rfl, rfl⟩, List.forall_mem_nil _⟩
  | setSessionModeLive => exact ⟨_, rfl, plays.keeps rfl rfl rfl rfl rfl⟩
  | setSessionModeDisconnected => exact ⟨_, rfl, plays.keeps rfl rfl rfl rfl rfl⟩

theorem Plays.performAll {operations : List ReaderOperation} (plays : reader.Plays)
    (decodable : ∀ events, .loadEvents events ∈ operations → ∀ event ∈ events, event.Decodable) :
    (reader.performAll operations).Plays := by
  induction operations generalizing reader with
  | nil => exact plays
  | cons operation operations ih =>
    have step : ∃ after, reader.perform operation = .ok after ∧ after.Plays :=
      plays.perform fun events same => decodable events (same ▸ List.mem_cons_self)
    obtain ⟨after, performed, kept⟩ := step
    rw [TerminalReader.performAll, List.foldl_cons, performed]
    exact ih kept fun events member => decodable events (List.mem_cons_of_mem _ member)

/-- After any operations on events that can be decoded, the terminal shows the text of the events
before the index, and nothing is left in the buffers. -/
theorem performAll_shows (ignoreResize : Bool) (operations : List ReaderOperation)
    (decodable : ∀ events, .loadEvents events ∈ operations → ∀ event ∈ events, event.Decodable) :
    let reader := performAll { ignoreResize } operations
    reader.terminal.flatten = (reader.events.take reader.eventIndex).flatMap
        TerminalEvent.rendered ∧
      reader.eventIndex ≤ reader.events.length ∧
      reader.terminalBuffer = [] ∧ reader.keystrokeBuffer = [] := by
  have start : Plays { ignoreResize } :=
    ⟨⟨rfl, Nat.le_refl 0, rfl, rfl⟩, List.forall_mem_nil _⟩
  obtain ⟨terminal, within, terminalBuffer, keystrokeBuffer⟩ := (start.performAll decodable).shows'
  exact ⟨terminal, within, terminalBuffer, keystrokeBuffer⟩

end TerminalReader

/-- An incoming message of two line feeds. -/
def lineFeedsEvent : TerminalEvent :=
  ((Object.empty.set "type" (.text "new-message".toList)).set "direction"
    (.text "incoming".toList)).set "data" (.text "Cgo=".toList)

theorem lineFeedsEvent_decodable : lineFeedsEvent.Decodable := by decide

theorem performAll_shows_lineFeeds :
    let reader := TerminalReader.performAll { ignoreResize := false }
      [.loadEvents [lineFeedsEvent], .moveToEvent (some 0)]
    reader.terminal.flatten = (reader.events.take reader.eventIndex).flatMap
        TerminalEvent.rendered ∧
      reader.eventIndex ≤ reader.events.length ∧
      reader.terminalBuffer = [] ∧ reader.keystrokeBuffer = [] := by
  refine TerminalReader.performAll_shows false _ fun events member event among => ?_
  obtain rfl : events = [lineFeedsEvent] := by simpa using member
  obtain rfl := List.mem_singleton.mp among
  exact lineFeedsEvent_decodable

end SSHProxyPlus
