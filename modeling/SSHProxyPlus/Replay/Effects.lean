import SSHProxyPlus.Replay.Reader

/-! What the methods of the reader do, in terms of what each event is to be shown as. -/
namespace SSHProxyPlus
open Go Browser

namespace TerminalEvent
variable {event : TerminalEvent}

theorem kind_unique {first second : String} (type : event.has "type" first = true)
    (different : first.toList ≠ second.toList) : event.has "type" second = false :=
  Object.has_unique type different

theorem played_has (key text : String) (other : key.toList ≠ "type".toList) :
    event.played.has key text = event.has key text := by
  unfold played
  split
  · rw [Object.has, Object.delete_get_ne _ other, ← Object.has]
  · rfl

theorem played_get {key : String} (other : key.toList ≠ "type".toList) :
    event.played.get key = event.get key := by
  unfold played
  split
  · exact Object.delete_get_ne _ other
  · rfl

/-- Only the types of events that update the session are deleted. -/
theorem played_type {text : String} (start : text.toList ≠ "session-start".toList)
    (resize : text.toList ≠ "window-resize".toList) :
    event.played.has "type" text = event.has "type" text := by
  unfold played updatesSession
  split
  · next updates =>
    rw [Object.has, Object.delete_get]
    rcases Bool.or_eq_true_iff.mp updates with type | type
    · exact (kind_unique type start.symm).symm
    · exact (kind_unique type resize.symm).symm
  · rfl

theorem played_incoming : event.played.incoming = event.incoming := by
  rw [incoming, incoming, played_type (by decide) (by decide), played_has _ _ (by decide)]

theorem played_outgoing : event.played.outgoing = event.outgoing := by
  rw [outgoing, outgoing, played_type (by decide) (by decide), played_has _ _ (by decide)]

theorem played_execRequest : event.played.execRequest = event.execRequest := by
  rw [execRequest, execRequest, played_type (by decide) (by decide), played_has _ _ (by decide)]

theorem played_ptyRequest : event.played.ptyRequest = event.ptyRequest := by
  rw [ptyRequest, ptyRequest, played_type (by decide) (by decide), played_has _ _ (by decide)]

theorem played_updatesSession : event.played.updatesSession = false := by
  unfold played
  split
  · simp [updatesSession, Object.has, Object.delete_get]
  · next no => exact Bool.eq_false_iff.mpr no

theorem played_played : event.played.played = event.played := by
  conv_lhs => rw [played]
  simp [played_updatesSession]

theorem played_rendered : event.played.rendered = event.rendered := by
  rw [rendered, rendered, played_incoming, played_get (by decide)]

theorem played_typed : event.played.typed = event.typed := by
  rw [typed, typed, played_outgoing, played_execRequest, played_get (by decide),
    played_get (by decide)]

theorem played_decodable : event.played.Decodable ↔ event.Decodable := by
  rw [Decodable, Decodable, played_incoming, played_outgoing, played_execRequest,
    played_get (by decide), played_get (by decide)]

end TerminalEvent

namespace TerminalReader
open TerminalEvent hiding resize updateSession
variable {reader : TerminalReader} {index : Nat} {event : TerminalEvent}

/-- The reader after an event, before the buffers are written. -/
def acted (reader : TerminalReader) (index : Nat) (event : TerminalEvent) : TerminalReader :=
  { reader with
    events := reader.events.set index event.played
    terminalBuffer := reader.terminalBuffer ++ event.rendered
    keystrokeBuffer := reader.keystrokeBuffer ++ event.typed
    session := event.updateSession reader.session
    windowSize := event.resize reader.ignoreResize reader.windowSize }

/-- An event that can not be decoded throws; an `exec` request has named the terminal's type by
then. -/
theorem actionEvent_eq (found : reader.events[index]? = some event) :
    reader.actionEvent index =
      if event.Decodable then .ok (reader.acted index event)
      else .error { reader with session := event.updateSession reader.session } := by
  have unchanged : reader.events.set index event = reader.events := by
    obtain ⟨within, rfl⟩ := List.getElem?_eq_some_iff.mp found
    exact List.set_getElem_self within
  unfold actionEvent
  rw [found]
  by_cases start : event.has "type" "session-start" = true
  · have resize : event.has "type" "window-resize" = false := kind_unique start (by decide)
    have message : event.has "type" "new-message" = false := kind_unique start (by decide)
    have request : event.has "type" "new-request" = false := kind_unique start (by decide)
    simp [start, resize, message, request, acted, Decodable, incoming, outgoing, execRequest, played,
      updatesSession, rendered, typed, TerminalEvent.updateSession, TerminalEvent.resize,
      TerminalReader.updateSession]
  by_cases resize : event.has "type" "window-resize" = true
  · have message : event.has "type" "new-message" = false := kind_unique resize (by decide)
    have request : event.has "type" "new-request" = false := kind_unique resize (by decide)
    have rows : (event.delete "type").get "term_rows" = event.get "term_rows" :=
      Object.delete_get_ne _ (by decide)
    have cols : (event.delete "type").get "term_cols" = event.get "term_cols" :=
      Object.delete_get_ne _ (by decide)
    cases ignored : reader.ignoreResize <;>
      simp [start, resize, message, request, rows, cols, ignored, acted, Decodable, incoming,
        outgoing, execRequest, played, updatesSession, rendered, typed, TerminalEvent.updateSession,
        TerminalEvent.resize, TerminalReader.updateSession, TerminalReader.resize]
  have kept : event.played = event := by simp [played, updatesSession, start, resize]
  by_cases message : event.has "type" "new-message" = true
  · have request : event.has "type" "new-request" = false := kind_unique message (by decide)
    by_cases inward : event.has "direction" "incoming" = true
    · have outward : event.has "direction" "outgoing" = false :=
        Object.has_unique inward (by decide)
      cases data : atobProperty (event.get "data") <;>
        simp [start, resize, message, request, inward, outward, data, kept, unchanged, acted,
          Decodable, incoming, outgoing, execRequest, ptyRequest, updatesSession, rendered, typed,
          TerminalEvent.updateSession, TerminalEvent.resize]
    by_cases outward : event.has "direction" "outgoing" = true
    · cases data : atobProperty (event.get "data") with
      | none =>
        simp [start, resize, message, request, inward, outward, data, Decodable, incoming,
          outgoing, execRequest, ptyRequest, updatesSession, TerminalEvent.updateSession]
      | some decoded =>
        by_cases blank : decoded = ['\x00'] <;>
          simp [start, resize, message, request, inward, outward, data, blank, kept, unchanged,
            acted, Decodable, incoming, outgoing, execRequest, ptyRequest, updatesSession,
            rendered, typed, TerminalEvent.updateSession, TerminalEvent.resize]
    · simp [start, resize, message, request, inward, outward, kept, unchanged, acted, Decodable,
        incoming, outgoing, execRequest, ptyRequest, updatesSession, rendered, typed,
        TerminalEvent.updateSession, TerminalEvent.resize]
  by_cases request : event.has "type" "new-request" = true
  · by_cases exec : event.has "request_type" "exec" = true
    · cases payload : atobProperty (event.get "request_payload") <;>
        simp [start, resize, message, request, exec, payload, kept, unchanged, acted, Decodable,
          incoming, outgoing, execRequest, updatesSession, rendered, typed, TerminalEvent.updateSession,
          TerminalEvent.resize, setSession]
    · by_cases pty : event.has "request_type" "pty-req" = true <;>
        simp [start, resize, message, request, exec, pty, kept, unchanged, acted, Decodable,
          incoming, outgoing, execRequest, ptyRequest, updatesSession, rendered, typed,
          TerminalEvent.updateSession, TerminalEvent.resize, setSession]
  · simp [start, resize, message, request, kept, unchanged, acted, Decodable, incoming, outgoing,
      execRequest, ptyRequest, updatesSession, rendered, typed, TerminalEvent.updateSession,
      TerminalEvent.resize]

theorem actionEvent_acted (found : reader.events[index]? = some event)
    (decodable : event.Decodable) : reader.actionEvent index = .ok (reader.acted index event) := by
  rw [actionEvent_eq found, if_pos decodable]

theorem actionEvent_ok {next : TerminalReader} (found : reader.events[index]? = some event)
    (returned : reader.actionEvent index = .ok next) :
    event.Decodable ∧ next = reader.acted index event := by
  rw [actionEvent_eq found] at returned
  split at returned
  · next decodable => exact ⟨decodable, (Except.ok.inj returned).symm⟩
  · contradiction

/-- The part of the events that starts at an index. -/
def segment (events : List TerminalEvent) (index count : Nat) : List TerminalEvent :=
  (events.drop index).take count

theorem segment_succ {events : List TerminalEvent} {count : Nat}
    (found : events[index]? = some event) :
    segment events index (count + 1) = event :: segment events (index + 1) count := by
  obtain ⟨within, rfl⟩ := List.getElem?_eq_some_iff.mp found
  rw [segment, List.drop_eq_getElem_cons within, List.take_succ_cons, segment]

theorem segment_set_later {events : List TerminalEvent} {other : TerminalEvent} {count : Nat} :
    segment (events.set index other) (index + 1) count = segment events (index + 1) count := by
  rw [segment, List.drop_set_of_lt (Nat.lt_succ_self index), segment]

/-- The events with a part of them played. -/
def playedPart (events : List TerminalEvent) (index count : Nat) : List TerminalEvent :=
  events.take index ++ (segment events index count).map TerminalEvent.played ++
    events.drop (index + count)

/-- The reader after the events of a part, before the buffers are written. -/
def actedPart (reader : TerminalReader) (index count : Nat) : TerminalReader :=
  let part := segment reader.events index count
  { reader with
    events := playedPart reader.events index count
    terminalBuffer := reader.terminalBuffer ++ part.flatMap TerminalEvent.rendered
    keystrokeBuffer := reader.keystrokeBuffer ++ part.flatMap TerminalEvent.typed
    session := part.foldl (fun session event => event.updateSession session) reader.session
    windowSize := part.foldl (fun size event => event.resize reader.ignoreResize size)
      reader.windowSize }

theorem playedPart_zero (events : List TerminalEvent) (index : Nat) :
    playedPart events index 0 = events := by
  simp [playedPart, segment]

theorem playedPart_succ {events : List TerminalEvent} {count : Nat}
    (found : events[index]? = some event) :
    playedPart (events.set index event.played) (index + 1) count =
      playedPart events index (count + 1) := by
  obtain ⟨within, rfl⟩ := List.getElem?_eq_some_iff.mp found
  rw [playedPart, playedPart, segment_set_later, segment_succ found,
    List.drop_set_of_lt (by omega)]
  have front : (events.set index (TerminalEvent.played events[index])).take (index + 1) =
      events.take index ++ [TerminalEvent.played events[index]] := by
    rw [List.take_add_one, List.take_set_of_le (Nat.le_refl index)]
    simp [within]
  rw [front, show index + 1 + count = index + (count + 1) by omega]
  simp

/-- All of a part is played if all of it can be decoded. -/
theorem actionEvents_acted {count : Nat} (within : index + count ≤ reader.events.length)
    (decodable : ∀ event ∈ segment reader.events index count, event.Decodable) :
    reader.actionEvents index count = .ok (reader.actedPart index count) := by
  induction count generalizing reader index with
  | zero =>
    rw [actionEvents, actedPart, playedPart_zero]
    simp [segment]
  | succ count ih =>
    have here : index < reader.events.length := by omega
    have found : reader.events[index]? = some reader.events[index] :=
      List.getElem?_eq_getElem here
    rw [segment_succ found] at decodable
    obtain ⟨first, others⟩ := List.forall_mem_cons.mp decodable
    have rest : (reader.acted index reader.events[index]).actionEvents (index + 1) count =
        .ok ((reader.acted index reader.events[index]).actedPart (index + 1) count) := by
      refine ih (by simp only [acted, List.length_set]; omega) ?_
      simp only [acted, segment_set_later]
      exact others
    rw [actionEvents, actionEvent_acted found first]
    simp only [bind, Except.bind, rest]
    simp only [actedPart, acted, segment_set_later, segment_succ found, List.flatMap_cons,
      List.foldl_cons, List.append_assoc, playedPart_succ found]

theorem actionEvents_succ {next : TerminalReader} {count : Nat}
    (returned : reader.actionEvents index (count + 1) = .ok next) :
    ∃ mid, reader.actionEvent index = .ok mid ∧
      mid.actionEvents (index + 1) count = .ok next := by
  rw [actionEvents] at returned
  cases taken : reader.actionEvent index with
  | error thrown => rw [taken] at returned; contradiction
  | ok mid => rw [taken] at returned; exact ⟨mid, rfl, returned⟩

/-- A part is played only if all of it can be decoded. -/
theorem actionEvents_decodable {next : TerminalReader} {count : Nat}
    (within : index + count ≤ reader.events.length)
    (returned : reader.actionEvents index count = .ok next) :
    ∀ event ∈ segment reader.events index count, event.Decodable := by
  induction count generalizing reader index with
  | zero =>
    rw [segment, List.take_zero]
    exact List.forall_mem_nil _
  | succ count ih =>
    have here : index < reader.events.length := by omega
    have found : reader.events[index]? = some reader.events[index] :=
      List.getElem?_eq_getElem here
    obtain ⟨mid, first, rest⟩ := actionEvents_succ returned
    obtain ⟨decodable, rfl⟩ := actionEvent_ok found first
    have later := ih (by simp only [acted, List.length_set]; omega) rest
    simp only [acted, segment_set_later] at later
    rw [segment_succ found]
    exact List.forall_mem_cons.mpr ⟨decodable, later⟩

theorem actionEvents_ok {next : TerminalReader} {count : Nat}
    (within : index + count ≤ reader.events.length)
    (returned : reader.actionEvents index count = .ok next) :
    next = reader.actedPart index count := by
  rw [actionEvents_acted within (actionEvents_decodable within returned)] at returned
  exact (Except.ok.inj returned).symm

/-- What a written text of keystrokes adds to the pane. -/
def writtenKeystrokes (session : Object) (data : List Char) : List KeystrokeNode :=
  if data = [] then []
  else if session.has "terminal_type" "exec" then [.text (processKeystrokes data), .lineBreak]
  else [.text (processKeystrokes data)]

theorem processKeystrokes_nil : processKeystrokes [] = [] := by decide

theorem writtenKeystrokes_text (session : Object) (data : List Char) :
    (writtenKeystrokes session data).flatMap KeystrokeNode.textContent = processKeystrokes data := by
  unfold writtenKeystrokes
  split
  · next nothing => rw [nothing, processKeystrokes_nil]; rfl
  · split <;> simp [KeystrokeNode.textContent]

/-- Both buffers are written out, whatever the callback does to the index. -/
theorem writeBuffers_eq (reader : TerminalReader) (f : Nat → Nat) :
    reader.writeBuffers (fun reader => { reader with eventIndex := f reader.eventIndex }) true =
      { reader with
        eventIndex := f reader.eventIndex
        terminalBuffer := []
        keystrokeBuffer := []
        terminal := reader.terminal ++
          if reader.terminalBuffer = [] then [] else [reader.terminalBuffer]
        keystrokes := reader.keystrokes ++
          writtenKeystrokes reader.session reader.keystrokeBuffer } := by
  by_cases output : reader.terminalBuffer = [] <;> by_cases input : reader.keystrokeBuffer = [] <;>
    by_cases exec : reader.session.has "terminal_type" "exec" = true <;>
    simp [writeBuffers, writeTerminalBuffer, writeKeystrokeBuffer, writtenKeystrokes, output, input,
      exec]

theorem writeBuffers_id (reader : TerminalReader) :
    reader.writeBuffers id true =
      reader.writeBuffers (fun reader => { reader with eventIndex := id reader.eventIndex }) true :=
  rfl

/-- While it is playing, the next event is played and written. -/
theorem processNextEvent_playing (playing : reader.paused = false)
    (found : reader.events[reader.eventIndex]? = some event) :
    reader.processNextEvent =
      if event.Decodable then
        .ok ((reader.acted reader.eventIndex event).writeBuffers
          (fun reader => { reader with eventIndex := reader.eventIndex + 1 }) true)
      else .error { reader with session := event.updateSession reader.session } := by
  obtain ⟨more, -⟩ := List.getElem?_eq_some_iff.mp found
  have goesOn : ¬(reader.paused && !reader.isLive) = true := by simp [playing]
  rw [processNextEvent, if_neg goesOn, if_pos more, actionEvent_eq found]
  split
  · have still : (reader.acted reader.eventIndex event).paused = false := playing
    simp only [bind, Except.bind, pure, Except.pure, still]
    rfl
  · rfl

theorem playUpTo_acted {newIndex : Nat}
    (within : index + (newIndex + 1 - index) ≤ reader.events.length)
    (decodable : ∀ event ∈ segment reader.events index (newIndex + 1 - index), event.Decodable) :
    reader.playUpTo index newIndex =
      .ok { ({ reader with keystrokes := [] }.actedPart index (newIndex + 1 - index)).writeBuffers
        id true with eventIndex := newIndex + 1 } := by
  have played : { reader with keystrokes := [] }.actionEvents index (newIndex + 1 - index) =
    .ok ({ reader with keystrokes := [] }.actedPart index (newIndex + 1 - index)) :=
    actionEvents_acted within decodable
  rw [playUpTo, played]
  rfl

theorem playUpTo_ok {next : TerminalReader} {newIndex : Nat}
    (returned : reader.playUpTo index newIndex = .ok next) :
    ∃ mid, { reader with keystrokes := [] }.actionEvents index (newIndex + 1 - index) = .ok mid ∧
      next = { mid.writeBuffers id true with eventIndex := newIndex + 1 } := by
  rw [playUpTo] at returned
  cases taken : { reader with keystrokes := [] }.actionEvents index (newIndex + 1 - index) with
  | error thrown => rw [taken] at returned; contradiction
  | ok mid => rw [taken] at returned; exact ⟨mid, rfl, (Except.ok.inj returned).symm⟩

/-- A seek goes on from the index if its target is ahead, or else starts over. -/
def seekStart (reader : TerminalReader) (target : Nat) : Nat :=
  if target > reader.eventIndex then reader.eventIndex else 0

/-- The reader before a seek plays anything: what starts over has an empty terminal. -/
def seekBase (reader : TerminalReader) (target : Nat) : TerminalReader :=
  { reader with
    paused := true
    terminal := if target > reader.eventIndex then reader.terminal else [] }

theorem seekStart_le (reader : TerminalReader) (target : Nat) :
    reader.seekStart target ≤ target := by
  unfold seekStart
  split
  · next ahead => exact Nat.le_of_lt ahead
  · exact Nat.zero_le _

/-- A seek goes over the events up to its target. -/
theorem seekStart_add (reader : TerminalReader) (target : Nat) :
    reader.seekStart target + (target + 1 - reader.seekStart target) = target + 1 := by
  have start := reader.seekStart_le target
  omega

theorem moveToEvent_seeks {target : Nat} (within : target < reader.events.length)
    (other : target ≠ reader.eventIndex) :
    reader.moveToEvent (some target) =
      (reader.seekBase target).playUpTo (reader.seekStart target) target := by
  have inside : ¬((target : Int) < 0 ∨ (target : Int) > reader.events.length - 1 ∨
      (target : Int) = reader.eventIndex) := by omega
  rw [moveToEvent, if_neg inside]
  by_cases ahead : target > reader.eventIndex
  · have far : (target : Int) > reader.pause.eventIndex := Int.ofNat_lt.mpr ahead
    refine (if_pos far).trans ?_
    simp only [seekBase, seekStart, pause, if_pos ahead, Int.toNat_natCast]
  · have near : ¬(target : Int) > reader.pause.eventIndex := fun far =>
      ahead (Int.ofNat_lt.mp far)
    refine (if_neg near).trans ?_
    simp only [seekBase, seekStart, pause, if_neg ahead, Int.toNat_natCast]

theorem moveToEvent_cases (reader : TerminalReader) (eventId : Option Int) :
    reader.moveToEvent eventId = .ok reader ∨ ∃ target : Nat, eventId = some (target : Int) ∧
      target < reader.events.length ∧ target ≠ reader.eventIndex := by
  cases eventId with
  | none => exact .inl rfl
  | some eventId =>
    by_cases outside : eventId < 0 ∨ eventId > reader.events.length - 1 ∨ eventId = reader.eventIndex
    · exact .inl (if_pos outside)
    · obtain ⟨target, rfl⟩ := Int.eq_ofNat_of_zero_le (by omega : 0 ≤ eventId)
      exact .inr ⟨target, rfl, by omega, by omega⟩

end TerminalReader
end SSHProxyPlus
