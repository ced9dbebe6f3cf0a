import SSHProxyPlus.Replay.Turns
import SSHProxyPlus.Session.FinishedLog

/-! The log of a session, fetched by a page and played to whoever looks. -/
namespace SSHProxyPlus
open Go Browser

/-- `Object.entries(blob)`. -/
def blobProperties : Json → Option Object
  | .obj members => readMembers members Object.empty
  | _ => none

/-- What is collected of a log before it is played; `requests` of the session is left out, which
nobody reads. -/
structure ReplayQueue where
  session : Object := Object.empty.set "feed_type" (.text "old".toList)
  events : List TerminalEvent := []

/-- What `jQuery.getJSON` has for a file that holds an array. -/
def logBlobs (text : Bytes) : Option (List Json) :=
  match parse (runes text) with
  | some (.arr data) => some data
  | _ => none

namespace ReplayQueue

def push (queue : ReplayQueue) (blob : Json) : Option ReplayQueue := do
  let properties ← blobProperties blob
  if properties.has "type" "session-start" then
    return { queue with session := queue.session.assign properties }
  else
    let event ← TerminalEvent.construct blob
    return { queue with events := queue.events ++ [event] }

end ReplayQueue

/-- A blob that is no object throws, or one with a property that can not be assigned. -/
def TerminalReader.replaySessionEventList (reader : TerminalReader) (data : List Json) : Call :=
  match data.foldlM ReplayQueue.push {} with
  | some queue =>
      .ok ((reader.reset.loadEvents queue.events).updateSession queue.session).play
  | none => .error reader.reset

namespace SessionEvent
variable {e : SessionEvent}

/-- The log has the events of a session, one on each line. -/
theorem logBlobs_logText (first : SessionEvent) (events : List SessionEvent) :
    logBlobs (logText (first :: events)) = some ((first :: events).map codec.encode) := by
  rw [logText, ← sliceCodec_rows, logBlobs, runes_utf8, parse_render]
  rfl

theorem received_encode (e : SessionEvent) :
    TerminalEvent.construct (codec.encode e) = e.received := by
  rw [received, Codec.marshal, marshalText, runes_utf8, parse_render, Option.bind_some]

theorem blobProperties_encode {event : TerminalEvent} (received : e.received = some event) :
    blobProperties (codec.encode e) = some event := by
  rw [← received_encode] at received
  cases blob : codec.encode e with
  | obj members =>
    rw [blob, TerminalEvent.construct] at received
    split at received
    · contradiction
    · exact received
  | null | bool | num | str | arr =>
    rw [blob] at received
    contradiction

theorem push_other {blob : Json} {event : TerminalEvent} (queue : ReplayQueue)
    (properties : blobProperties blob = some event)
    (constructed : TerminalEvent.construct blob = some event)
    (other : event.has "type" "session-start" = false) :
    queue.push blob = some { queue with events := queue.events ++ [event] } := by
  rw [ReplayQueue.push, properties]
  simp only [Option.bind_eq_bind, Option.bind_some, other, constructed]
  rfl

theorem push_begins {blob : Json} {event : TerminalEvent} (queue : ReplayQueue)
    (properties : blobProperties blob = some event)
    (begins : event.has "type" "session-start" = true) :
    queue.push blob = some { queue with session := queue.session.assign event } := by
  rw [ReplayQueue.push, properties]
  simp only [Option.bind_eq_bind, Option.bind_some, begins, if_true]
  rfl

/-- An event that is no start goes to the end of the queue. -/
theorem push_later (later : e.type ≠ eventSessionStart) (queue : ReplayQueue) :
    ∃ event, e.received = some event ∧ queue.push (codec.encode e) =
      some { queue with events := queue.events ++ [event] } := by
  obtain ⟨event, received, -⟩ := received_properties e
  have other : ¬ event.has "type" "session-start" = true := fun start =>
    later ((received_has_type received (by decide)).mp start)
  refine ⟨event, received, ?_⟩
  exact push_other queue (blobProperties_encode received) ((received_encode e).trans received)
    (Bool.eq_false_iff.mpr other)

theorem push_start (start : e.type = eventSessionStart) (queue : ReplayQueue) :
    ∃ event, e.received = some event ∧ queue.push (codec.encode e) =
      some { queue with session := queue.session.assign event } := by
  obtain ⟨event, received, -⟩ := received_properties e
  have plain : '\uFFFD' ∉ "session-start".toList := by decide
  have begins := (received_has_type received plain).mpr start
  exact ⟨event, received, push_begins queue (blobProperties_encode received) begins⟩

/-- The events that follow the start are queued in their order. -/
theorem pushAll_later {events : List SessionEvent}
    (later : ∀ e ∈ events, e.type ≠ eventSessionStart) (queue : ReplayQueue) :
    ∃ queued, List.Forall₂ KeptAs events queued ∧
      (events.map codec.encode).foldlM ReplayQueue.push queue =
        some { queue with events := queue.events ++ queued } := by
  induction events generalizing queue with
  | nil => exact ⟨[], List.Forall₂.nil, by simp⟩
  | cons e events ih =>
    obtain ⟨head, tail⟩ := List.forall_mem_cons.mp later
    obtain ⟨event, received, pushed⟩ := push_later head queue
    obtain ⟨queued, keptAs, rest⟩ := ih tail { queue with events := queue.events ++ [event] }
    refine ⟨event :: queued, List.Forall₂.cons ⟨event, received, TerminalEvent.Leaves.refl event⟩
      keptAs, ?_⟩
    rw [List.map_cons, List.foldlM_cons, pushed]
    exact rest.trans (by simp)

/-- A start says nothing and shows nothing. -/
theorem start_silent (start : e.type = eventSessionStart) :
    e.outputText normalizeNewlines = [] ∧ e.inputText = [] ∧
      ∀ before, e.runsCommand before = before := by
  have message : e.type ≠ eventMessage := by rw [start]; decide
  have request : e.type ≠ eventNewRequest := by rw [start]; decide
  simp [outputText, inputText, runsCommand, message, request]

theorem output_start (start : e.type = eventSessionStart) (events : List SessionEvent) :
    output (e :: events) = output events := by
  rw [output, List.flatMap_cons, (start_silent start).1]
  rfl

theorem keystrokesOf_start (start : e.type = eventSessionStart) (events : List SessionEvent) :
    keystrokesOf (e :: events) = keystrokesOf events := by
  obtain ⟨-, silent, same⟩ := start_silent start
  have none : e.keystrokesIn false = [] := if_pos silent
  rw [keystrokesOf, List.foldl_cons, keystrokeStep, same, none]
  rfl

end SessionEvent

namespace TerminalReader
open SessionEvent (output keystrokesOf)
variable {reader : TerminalReader} {events : List SessionEvent} {count : Nat}

/-- A log is played: so many of the timeouts have expired. -/
structure Replays (events : List SessionEvent) (count : Nat) (reader : TerminalReader) : Prop where
  turned : reader.Turned (events.take count)
  keptAs : List.Forall₂ SessionEvent.KeptAs events reader.events
  old : reader.isLive = false
  playing : count < events.length → reader.paused = false

theorem Replays.expire (replays : Replays events count reader)
    (readable : AllReadable events) :
    Replays events (count + 1) (left reader.processNextEvent) := by
  have size := replays.keptAs.length_eq
  have index := replays.turned.index
  rw [List.length_take] at index
  have done (ended : reader.paused = false → reader.events.length ≤ reader.eventIndex) :
      events.length ≤ count := by
    by_contra more
    have more : count < events.length := Nat.lt_of_not_le more
    have rests := ended (replays.playing more)
    omega
  have whole (over' : events.length ≤ count) : events.take (count + 1) = events.take count := by
    rw [List.take_of_length_le over', List.take_of_length_le (Nat.le_succ_of_le over')]
  have attentive : reader.Attentive := fun _ => replays.old
  cases processNextEvent_expires attentive with
  | turn kept playing found =>
    obtain ⟨within, here⟩ := List.getElem?_eq_some_iff.mp found
    have inside : count < events.length := by omega
    have place : reader.eventIndex = count := by omega
    have paired := replays.keptAs.get inside (size ▸ inside)
    have same : reader.events.get ⟨count, size ▸ inside⟩ = kept := by
      subst place
      exact here
    rw [same] at paired
    obtain ⟨after, processed, turned, still, updated, session⟩ :=
      replays.turned.turn playing found paired (readable _ (List.getElem_mem inside))
    rw [List.get_eq_getElem, ← List.take_succ_eq_append_getElem inside] at turned
    rw [processed]
    refine ⟨turned, ?_, ?_, fun _ => still⟩
    · change List.Forall₂ _ events after.events
      rw [updated]
      exact SessionEvent.forall₂_keptAs replays.keptAs (TerminalEvent.forall₂_set _ found)
    · exact (isLive_updateSession (SessionEvent.KeptAs.live paired) session).trans replays.old
  | still same resting =>
    have over' := done resting
    rw [same]
    exact ⟨(whole over').symm ▸ replays.turned, replays.keptAs, replays.old,
      fun more => absurd more (by omega)⟩
  | pauses old same ended =>
    have over' := done fun _ => ended
    rw [same]
    exact ⟨(whole over').symm ▸ replays.turned.frame rfl rfl rfl rfl rfl rfl, replays.keptAs, old,
      fun more => absurd more (by omega)⟩

theorem Replays.expireAll (replays : Replays events 0 reader) (readable : AllReadable events)
    (count : Nat) :
    Replays events count (reader.performAll (List.replicate count .processNextEvent)) := by
  induction count with
  | zero => exact replays
  | succ count ih =>
    rw [List.replicate_succ', performAll, List.foldl_append]
    exact ih.expire readable

/-- What is replayed first sets the page up, and has been played by nobody. -/
theorem replaySessionEventList_replays {first : SessionEvent} (start : first.type = eventSessionStart)
    (later : ∀ e ∈ events, e.type ≠ eventSessionStart) (reader : TerminalReader) :
    ∃ played, reader.replaySessionEventList ((first :: events).map SessionEvent.codec.encode) =
      .ok played ∧ Replays events 0 played := by
  obtain ⟨event, received, pushed⟩ := SessionEvent.push_start start {}
  obtain ⟨queued, keptAs, rest⟩ := SessionEvent.pushAll_later later
    { session := (Object.empty.set "feed_type" (.text "old".toList)).assign event }
  have unlive := SessionEvent.received_live received
  have untyped := SessionEvent.received_terminalType received
  have silent {key : String} (absent : event.get key = none)
      (other : key.toList ≠ "feed_type".toList) :
      ((Object.empty.set "feed_type" (.text "old".toList)).assign event).get key = none := by
    rw [Object.assign_get, absent]
    exact Object.set_ne Object.empty other _
  have turned := reader.reset_turned
  have cleared := reader.reset_events.1
  have initial : reader.reset.session = initialSession := by
    cases ignored : reader.ignoreResize <;> simp [reset, clearEvents, clearBuffers, ignored]
  have kept {key : String} (absent : event.get key = none)
      (other : key.toList ≠ "feed_type".toList) : (reader.reset.session.assign
        ((Object.empty.set "feed_type" (.text "old".toList)).assign event)).get key =
        initialSession.get key := by
    rw [Object.assign_get, silent absent other, initial]
    rfl
  have all : ((first :: events).map SessionEvent.codec.encode).foldlM ReplayQueue.push {} =
      some { session := (Object.empty.set "feed_type" (.text "old".toList)).assign event
             events := queued } := by
    rw [List.map_cons, List.foldlM_cons, pushed]
    exact rest
  refine ⟨((reader.reset.loadEvents queued).updateSession
    ((Object.empty.set "feed_type" (.text "old".toList)).assign event)).play, ?_, ?_⟩
  · rw [replaySessionEventList, all]
  · refine ⟨?_, ?_, ?_, fun _ => rfl⟩
    · rw [List.take_zero]
      refine turned.frame rfl rfl rfl ?_ rfl rfl
      exact (kept untyped (by decide)).trans (by rw [initial])
    · change List.Forall₂ _ events (reader.reset.events ++ queued)
      rw [cleared]
      exact keptAs
    · have mode := kept unlive (by decide)
      change ((reader.reset.session.assign _).get "live").any Value.truthy = false
      rw [mode]
      decide

end TerminalReader

namespace SessionRun
open SessionEvent (output keystrokesOf)
variable (run : SessionRun)

/-- The events after the start. -/
def following (activities : List (Activity × Time)) : List SessionEvent :=
  (recorded activities ++ [(run.stopEvent, run.ended)]).map run.stamped

theorem following_later (activities : List (Activity × Time)) :
    ∀ e ∈ run.following activities, e.type ≠ eventSessionStart := by
  intro e member
  obtain ⟨source, among, rfl⟩ := List.mem_map.mp member
  rcases List.mem_append.mp among with activity | stop
  · obtain ⟨source, -, rfl⟩ := List.mem_map.mp activity
    exact source.1.event_type
  · obtain rfl := List.mem_singleton.mp stop
    exact of_decide_eq_true rfl

/-- The log as a page gets it, and what the page makes of it before any timeout has expired. -/
theorem log_replays {remoteAddr : Bytes} {start : Time} {activities : List (Activity × Time)}
    (established : run.connection = .established remoteAddr start activities [])
    (sessionFolder : Bytes) {earlier : List SessionRun}
    (fresh : ∀ last, previous earlier run.sessKey = some last → last.eventCount < 10)
    (reader : TerminalReader) :
    ∃ files finished content data played,
      filesAfter sessionFolder earlier = .ok files ∧
      run.handleClientConn sessionFolder files = .ok finished ∧
      finished.files.lookup finished.path = some content ∧
      logBlobs content = some data ∧ reader.replaySessionEventList data = .ok played ∧
      finished.session.events = run.logged ∧
      TerminalReader.Replays (run.following activities) 0 played := by
  obtain ⟨files, before, leftovers⟩ := filesAfter_left sessionFolder earlier
  obtain ⟨finished, handled, ended⟩ := run.handleClientConn_ended sessionFolder files
  have left : Left earlier run.sessKey (files.lookup (run.path sessionFolder)) :=
    leftovers run.sessKey
  have empty : files.lookup (run.path sessionFolder) = none := (if_pos fresh).mp left
  have onTime : run.afterEnd = [] := by
    rw [afterEnd, established]
    rfl
  have log : run.logged = run.stamped (run.startEvent remoteAddr, start) ::
    run.following activities := run.established_logged established
  have content := ended.log
  have events := ended.events
  rw [empty, Option.getD_none, List.nil_append, run.established_written established, log] at content
  rw [onTime, List.map_nil, List.append_nil] at events
  have begins : (run.stamped (run.startEvent remoteAddr, start)).type = eventSessionStart := rfl
  obtain ⟨played, replayed, replays⟩ := TerminalReader.replaySessionEventList_replays begins
    (run.following_later activities) reader
  exact ⟨files, finished, _, _, played, before, handled, content,
    SessionEvent.logBlobs_logText _ _, replayed, events, replays⟩

/-- What is shown of the events that follow the start, and the start with them. -/
theorem shown_with_start {remoteAddr : Bytes} {start : Time} {activities : List (Activity × Time)}
    (established : run.connection = .established remoteAddr start activities []) (count : Nat) :
    output (run.logged.take (count + 1)) = output ((run.following activities).take count) ∧
      keystrokesOf (run.logged.take (count + 1)) =
        keystrokesOf ((run.following activities).take count) := by
  have log : run.logged = run.stamped (run.startEvent remoteAddr, start) ::
    run.following activities := run.established_logged established
  have begins : (run.stamped (run.startEvent remoteAddr, start)).type = eventSessionStart := rfl
  rw [log, List.take_succ_cons]
  exact ⟨SessionEvent.output_start begins _, SessionEvent.keystrokesOf_start begins _⟩

theorem following_readable {remoteAddr : Bytes} {start : Time}
    {activities : List (Activity × Time)}
    (established : run.connection = .established remoteAddr start activities [])
    (readable : AllReadable run.logged) : AllReadable (run.following activities) := by
  rw [run.established_logged established] at readable
  exact (List.forall_mem_cons.mp readable).2

/-- A session that was connected, and had nothing handled after its end, leaves a log that a page
can fetch; however many of the timeouts have expired then, the page shows so many events of it, and
the start, as they were recorded. The last session with the same file must not have left its log
there. -/
theorem replayed_log_shows {remoteAddr : Bytes} {start : Time} {activities : List (Activity × Time)}
    (established : run.connection = .established remoteAddr start activities [])
    (sessionFolder : Bytes) {earlier : List SessionRun}
    (fresh : ∀ last, previous earlier run.sessKey = some last → last.eventCount < 10)
    (readable : AllReadable run.logged) (reader : TerminalReader) :
    ∃ files finished content data played,
      filesAfter sessionFolder earlier = .ok files ∧
      run.handleClientConn sessionFolder files = .ok finished ∧
      finished.files.lookup finished.path = some content ∧
      logBlobs content = some data ∧ reader.replaySessionEventList data = .ok played ∧
      ∀ count, let after := played.performAll (List.replicate count .processNextEvent)
        after.terminal.flatten = output (finished.session.events.take (count + 1)) ∧
          after.keystrokes = keystrokesOf (finished.session.events.take (count + 1)) := by
  obtain ⟨files, finished, content, data, played, before, handled, found, blobs, replayed, events,
    replays⟩ := run.log_replays established sessionFolder fresh reader
  refine ⟨files, finished, content, data, played, before, handled, found, blobs, replayed,
    fun count => ?_⟩
  obtain ⟨text, keys⟩ := run.shown_with_start established count
  have turned := (replays.expireAll (run.following_readable established readable) count).turned
  rw [events, text, keys]
  exact ⟨turned.terminal, turned.keystrokes⟩

/-- A client whose only message is a line of output. -/
def greeted : SessionRun where
  sessKey := lit "10.0.0.1:2222:10.0.0.2:51000"
  clientHost := lit "10.0.0.2:51000"
  username := lit "guest"
  password := lit "secret"
  user := { remoteHost := lit "127.0.0.1:22" }
  login := 0
  connection := .established (lit "10.0.0.2:51000") 0
    [(.message true false 3 (lit "hi\n") 1, 10 ^ 8)] []
  ended := 10 ^ 9

theorem greeted_readable : AllReadable greeted.logged := by
  have log : greeted.logged = greeted.stamped (greeted.startEvent (lit "10.0.0.2:51000"), 0) ::
      greeted.following [(.message true false 3 (lit "hi\n") 1, 10 ^ 8)] :=
    greeted.established_logged rfl
  rw [log]
  intro e member
  rcases List.mem_cons.mp member with rfl | member
  · exact ⟨by decide, by decide⟩
  rcases List.mem_cons.mp member with rfl | member
  · exact ⟨by decide, by decide⟩
  obtain rfl := List.mem_singleton.mp member
  exact ⟨by decide, by decide⟩

theorem greeted_fresh : ∀ last, previous [] greeted.sessKey = some last → last.eventCount < 10 := by
  intro last found
  contradiction

theorem replayed_log_shows_greeted : ∃ (finished : LoggedSession) (content : Bytes)
    (data : List Json) (played : TerminalReader),
    finished.files.lookup finished.path = some content ∧ logBlobs content = some data ∧
    TerminalReader.replaySessionEventList {} data = .ok played ∧
    (played.performAll (List.replicate 2 .processNextEvent)).terminal.flatten =
      output (finished.session.events.take 3) := by
  obtain ⟨files, finished, content, data, played, -, -, found, blobs, replayed, shows'⟩ :=
    greeted.replayed_log_shows rfl (lit "sessions") greeted_fresh greeted_readable {}
  exact ⟨finished, content, data, played, found, blobs, replayed, (shows' 2).1⟩

end SessionRun
end SSHProxyPlus
