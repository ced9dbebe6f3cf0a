import SSHProxyPlus.Session.Log

/-! Sessions from a client's login to their end, and the logs they leave. -/
namespace SSHProxyPlus
open Go

/-- What happens in a session once it is connected, and is recorded as an event. -/
inductive Activity where
  | newChannel (channelType channelData : Bytes) (channelID : Int64)
  | newRequest (requestType requestPayload : Bytes) (requestID channelID : Int64)
  | windowResize (termRows termCols : UInt32) (requestID : Int64)
  | message (incoming stderr : Bool) (bytesRead : Nat) (data : Bytes) (channelID : Int64)

namespace Activity

def event : Activity → SessionEvent
  | newChannel channelType channelData channelID =>
      { type := eventNewChannel, channelType, channelData, channelID }
  | newRequest requestType requestPayload requestID channelID =>
      { type := eventNewRequest, requestType, requestPayload, requestID, channelID }
  | windowResize termRows termCols requestID =>
      { type := eventWindowResize, termRows, termCols, requestID }
  | message incoming stderr bytesRead data channelID =>
      { type := eventMessage
        direction := if incoming then lit "incoming" else lit "outgoing"
        channelType := if stderr then lit "stderr" else lit "stdout"
        size := Int64.ofNat bytesRead
        data
        channelID }

/-- The strings in it that the other side chooses. -/
def ValidStrings : Activity → Prop
  | newChannel channelType _ _ => ValidUTF8 channelType
  | newRequest requestType _ _ _ => ValidUTF8 requestType
  | windowResize _ _ _ => True
  | message _ _ _ _ _ => True

theorem event_type (activity : Activity) : activity.event.type ≠ eventSessionStart := by
  cases activity <;> exact of_decide_eq_true rfl

end Activity

/-- How `HandleClientConn` goes. Events may still be handled after the session has ended:
stopping the proxy ends it under its threads. -/
inductive Connection where
  | dialFails
  | handshakeFails
  /-- The proxy is stopped before the start event. -/
  | stopped (remoteAddr : Bytes) (start : Time) (late : List (Activity × Time))
  | established (remoteAddr : Bytes) (start : Time) (activities late : List (Activity × Time))

/-- The handling of one client's connection, from its login on. -/
structure SessionRun where
  sessKey : Bytes
  clientHost : Bytes
  username : Bytes
  password : Bytes
  user : ProxyUser
  login : Time
  connection : Connection
  ended : Time

namespace SessionRun
variable (run : SessionRun)

def session : SessionContext :=
  ProxyContext.loggedIn { clientHost := run.clientHost } run.sessKey run.username run.password
    (some run.user) run.login

def startEvent (remoteAddr : Bytes) : SessionEvent := {
  type := eventSessionStart
  key := run.session.sessionID
  servHost := run.user.remoteHost
  clientHost := remoteAddr
  username := run.session.clientUsername
  password := run.session.clientPassword
  startTime := run.session.getStartTimeAsUnix }

def recorded (activities : List (Activity × Time)) : List (SessionEvent × Time) :=
  activities.map fun activity => (activity.1.event, activity.2)

/-- The events that are handled before `End`. -/
def beforeEnd : List (SessionEvent × Time) :=
  match run.connection with
  | .established remoteAddr start activities _ =>
      (run.startEvent remoteAddr, start) :: recorded activities
  | _ => []

def afterEnd : List (SessionEvent × Time) :=
  match run.connection with
  | .dialFails => []
  | .handshakeFails => []
  | .stopped remoteAddr start late => (run.startEvent remoteAddr, start) :: recorded late
  | .established _ _ _ late => recorded late

def handleClientConn (sessionFolder : Bytes) (files : Files) : Except Panic LoggedSession := do
  let initialized := LoggedSession.initializeLog run.session sessionFolder files
  let recorded ← initialized.handleEvents run.beforeEnd
  let ended ← recorded.endSession sessionFolder run.ended
  ended.handleEvents run.afterEnd

end SessionRun

/-- What a proxy's sessions leave on disk, one after the other. -/
def filesAfter (sessionFolder : Bytes) (sessions : List SessionRun) : Except Panic Files :=
  sessions.foldlM (fun files run => do
    let finished ← run.handleClientConn sessionFolder files
    return finished.files) ∅

/-- The log the program means to write. -/
def logText (events : List SessionEvent) : Bytes :=
  lit "[\n" ++ (lit ",\n").intercalate (events.map SessionEvent.codec.marshal) ++ lit "\n]"

theorem logEntry_start {event : SessionEvent} (start : event.type = eventSessionStart) :
    LoggedSession.logEntry event = SessionEvent.codec.marshal event := if_pos start

theorem logEntry_later {event : SessionEvent} (later : event.type ≠ eventSessionStart) :
    LoggedSession.logEntry event = lit ",\n" ++ SessionEvent.codec.marshal event := if_neg later

/-- The start event first, and a comma before every other. -/
theorem logText_entries {first : SessionEvent} (start : first.type = eventSessionStart)
    {events : List SessionEvent} (later : ∀ event ∈ events, event.type ≠ eventSessionStart) :
    logText (first :: events) =
      lit "[\n" ++ ((first :: events).map LoggedSession.logEntry).flatten ++ lit "\n]" := by
  rw [logText, List.map_cons, List.map_cons, List.flatten_cons, logEntry_start start]
  congr 2
  generalize SessionEvent.codec.marshal first = line
  induction events generalizing line with
  | nil => simp
  | cons event events ih =>
    rw [List.map_cons, List.intercalate_cons_cons, List.map_cons, List.flatten_cons,
      logEntry_later (later event List.mem_cons_self),
      ih fun e member => later e (List.mem_cons_of_mem event member)]
    simp only [List.append_assoc]

/-- A log reads as its events, whose strings are repaired. -/
theorem unmarshal_logText (first : SessionEvent) (events : List SessionEvent) :
    (sliceCodec SessionEvent.codec).unmarshal (logText (first :: events)) [] =
      some ((first :: events).map SessionEvent.repaired) := by
  rw [logText, ← sliceCodec_rows, Codec.unmarshal_render]
  exact sliceCodec_reads SessionEvent.codec_readsAs (first :: events)

/-- A second log in the same file makes it unreadable. -/
theorem unmarshal_logText_again (first : SessionEvent) (events : List SessionEvent) (rest : Bytes) :
    (sliceCodec SessionEvent.codec).unmarshal
      (logText (first :: events) ++ (lit "[" ++ rest)) [] = none := by
  rw [logText, ← sliceCodec_rows]
  exact Codec.unmarshal_trailing _ .rows _ (of_decide_eq_true rfl) (of_decide_eq_true rfl) rest []

theorem Files.rename_found {files : Files} {oldFile content : Bytes}
    (found : files.lookup oldFile = some content) (newFile : Bytes) :
    files.rename oldFile newFile = (files.erase oldFile).insert newFile content := by
  rw [rename, found]

namespace SessionRun
variable (run : SessionRun)

def filename : Bytes := run.sessKey ++ lit ".log.json"

def path (sessionFolder : Bytes) : Bytes := logPath sessionFolder run.filename

/-- An event as it is recorded. -/
def stamped (event : SessionEvent × Time) : SessionEvent :=
  { event.1 with timeOffset := run.session.getTimeOffset event.2 }

def stopEvent : SessionEvent :=
  { type := eventSessionStop, stopTime := run.session.getStopTimeAsUnix }

/-- What the log shows. -/
def logged : List SessionEvent := (run.beforeEnd ++ [(run.stopEvent, run.ended)]).map run.stamped

def eventCount : Nat := run.beforeEnd.length + 1

def written : Bytes := lit "[\n" ++ (run.logged.map LoggedSession.logEntry).flatten ++ lit "\n]"

/-- The session while its log is open, with `text` in the file. -/
def recording (sessionFolder : Bytes) (files : Files) (events : List SessionEvent) (text : Bytes) :
    LoggedSession where
  session := { run.session with events }
  files := files.insert (run.path sessionFolder) text
  path := run.path sessionFolder
  isOpen := true

variable (sessionFolder : Bytes) (files : Files)

theorem initializeLog_recording :
    LoggedSession.initializeLog run.session sessionFolder files =
      run.recording sessionFolder files []
        ((files.lookup (run.path sessionFolder)).getD [] ++ lit "[\n") := by
  unfold LoggedSession.initializeLog LoggedSession.appendToLog Files.openAppend Files.append
  simp only [if_true, Finmap.lookup_insert, Finmap.insert_insert, Option.getD_some]
  rfl

theorem handleEvent_recording (events : List SessionEvent) (text : Bytes)
    (event : SessionEvent × Time) :
    (run.recording sessionFolder files events text).handleEvent event.1 event.2 =
      .ok (run.recording sessionFolder files (events ++ [run.stamped event])
        (text ++ LoggedSession.logEntry (run.stamped event))) := by
  have stored : (run.recording sessionFolder files events text).files.append
      (run.path sessionFolder) (LoggedSession.logEntry (run.stamped event)) =
      files.insert (run.path sessionFolder)
        (text ++ LoggedSession.logEntry (run.stamped event)) := by
    simp only [Files.append, recording, Finmap.lookup_insert, Finmap.insert_insert,
      Option.getD_some]
  unfold recording at stored ⊢
  rw [← stored]
  rfl

theorem handleEvents_recording (recorded : List (SessionEvent × Time)) (events : List SessionEvent)
    (text : Bytes) :
    (run.recording sessionFolder files events text).handleEvents recorded =
      .ok (run.recording sessionFolder files (events ++ recorded.map run.stamped)
        (text ++ ((recorded.map run.stamped).map LoggedSession.logEntry).flatten)) := by
  induction recorded generalizing events text with
  | nil =>
    simp only [List.map_nil, List.flatten_nil, List.append_nil]
    rfl
  | cons event recorded ih =>
    unfold LoggedSession.handleEvents at ih ⊢
    rw [List.foldlM_cons, handleEvent_recording]
    refine (ih _ _).trans ?_
    simp only [List.map_cons, List.flatten_cons, List.append_assoc, List.singleton_append]

/-- The session as `finalizeLog` finds it. -/
def stopping (events : List SessionEvent) (text : Bytes) : LoggedSession where
  session := { run.session with active := false, stopTime := run.ended, events }
  files := files.insert (run.path sessionFolder) text
  path := run.path sessionFolder
  isOpen := true

theorem endSession_stopping (events : List SessionEvent) (text : Bytes) :
    (run.recording sessionFolder files events text).endSession sessionFolder run.ended =
      .ok ((run.stopping sessionFolder files (events ++ [run.stamped (run.stopEvent, run.ended)])
        (text ++ LoggedSession.logEntry (run.stamped (run.stopEvent, run.ended)))).finalizeLog
          sessionFolder) := by
  have stored : (run.recording sessionFolder files events text).files.append
      (run.path sessionFolder) (LoggedSession.logEntry (run.stamped (run.stopEvent, run.ended))) =
      files.insert (run.path sessionFolder)
        (text ++ LoggedSession.logEntry (run.stamped (run.stopEvent, run.ended))) := by
    simp only [Files.append, recording, Finmap.lookup_insert, Finmap.insert_insert,
      Option.getD_some]
  unfold stopping
  rw [← stored]
  rfl

theorem appendToLog_stopping (events : List SessionEvent) (text : Bytes) :
    ((run.stopping sessionFolder files events text).appendToLog (lit "\n]")).files =
      files.insert (run.path sessionFolder) (text ++ lit "\n]") := by
  simp only [LoggedSession.appendToLog, stopping, Files.append, if_true, Finmap.lookup_insert,
    Finmap.insert_insert, Option.getD_some]

theorem finalizeLog_long {events : List SessionEvent} (long : ¬ events.length < 10) (text : Bytes) :
    (run.stopping sessionFolder files events text).finalizeLog sessionFolder =
      { session := { run.session with active := false, stopTime := run.ended, events }
        files := files.insert (run.path sessionFolder) (text ++ lit "\n]")
        path := run.path sessionFolder
        isOpen := false } := by
  rw [← appendToLog_stopping]
  exact LoggedSession.finalizeLog_long long sessionFolder

theorem finalizeLog_short {events : List SessionEvent} (short : events.length < 10) (text : Bytes) :
    (run.stopping sessionFolder files events text).finalizeLog sessionFolder =
      { session := {
          run.session with
          active := false, stopTime := run.ended, events
          filename := run.path sessionFolder ++ lit ".scan" }
        files := ((files.insert (run.path sessionFolder) (text ++ lit "\n]")).erase
          (run.path sessionFolder)).insert (run.path sessionFolder ++ lit ".scan") (text ++ lit "\n]")
        path := run.path sessionFolder ++ lit ".scan"
        isOpen := false } := by
  have found : (files.insert (run.path sessionFolder) (text ++ lit "\n]")).lookup
      (run.path sessionFolder) = some (text ++ lit "\n]") := Finmap.lookup_insert _
  rw [← Files.rename_found found, ← appendToLog_stopping]
  exact LoggedSession.finalizeLog_short short sessionFolder

/-- The session once it has ended, with `text` in its log. A short log is gone from where
it was. -/
structure Ended (events : List SessionEvent) (text : Bytes) (ended : LoggedSession) : Prop where
  closed : ended.isOpen = false
  user : ended.session.user = some run.user
  startTime : ended.session.startTime = run.login
  events : ended.session.events = events
  log : ended.files.lookup ended.path = some text
  own : ended.files.lookup (run.path sessionFolder) =
    if run.eventCount < 10 then none else some text
  others : ∀ key, key ≠ run.sessKey →
    ended.files.lookup (logPath sessionFolder (key ++ lit ".log.json")) =
      files.lookup (logPath sessionFolder (key ++ lit ".log.json"))

theorem path_apart {key : Bytes} (other : key ≠ run.sessKey) :
    logPath sessionFolder (key ++ lit ".log.json") ≠ run.path sessionFolder := by
  intro same
  exact other (List.append_cancel_right (List.append_cancel_left same))

theorem scan_apart (path key : Bytes) :
    logPath sessionFolder (key ++ lit ".log.json") ≠ path ++ lit ".scan" := by
  intro same
  have last := congrArg (fun bytes : Bytes => bytes.reverse.take 2) same
  simp only [logPath, List.reverse_append] at last
  exact absurd last (of_decide_eq_false rfl)

theorem endSession_recording {events : List SessionEvent}
    (counted : (events ++ [run.stamped (run.stopEvent, run.ended)]).length = run.eventCount)
    (text : Bytes) :
    ∃ ended, (run.recording sessionFolder files events text).endSession sessionFolder run.ended =
        .ok ended ∧
      run.Ended sessionFolder files (events ++ [run.stamped (run.stopEvent, run.ended)])
        (text ++ LoggedSession.logEntry (run.stamped (run.stopEvent, run.ended)) ++ lit "\n]")
        ended := by
  refine ⟨_, run.endSession_stopping sessionFolder files events text, ?_⟩
  by_cases short : (events ++ [run.stamped (run.stopEvent, run.ended)]).length < 10
  · rw [run.finalizeLog_short sessionFolder files short]
    refine ⟨rfl, rfl, rfl, rfl, Finmap.lookup_insert _, ?_, ?_⟩
    · rw [if_pos (counted ▸ short), path, filename,
        Finmap.lookup_insert_of_ne _ (scan_apart sessionFolder _ _), Finmap.lookup_erase]
    · intro key other
      rw [Finmap.lookup_insert_of_ne _ (scan_apart sessionFolder _ key),
        Finmap.lookup_erase_ne (run.path_apart sessionFolder other),
        Finmap.lookup_insert_of_ne _ (run.path_apart sessionFolder other)]
  · rw [run.finalizeLog_long sessionFolder files short]
    refine ⟨rfl, rfl, rfl, rfl, Finmap.lookup_insert _, ?_, ?_⟩
    · rw [if_neg (counted ▸ short), Finmap.lookup_insert]
    · intro key other
      exact Finmap.lookup_insert_of_ne _ (run.path_apart sessionFolder other)

/-- What is handled after the end is recorded, but no longer logged. -/
theorem handleEvent_ended {events : List SessionEvent} {text : Bytes} {logged : LoggedSession}
    (ended : run.Ended sessionFolder files events text logged) (event : SessionEvent × Time) :
    ∃ after, logged.handleEvent event.1 event.2 = .ok after ∧
      run.Ended sessionFolder files (events ++ [run.stamped event]) text after := by
  obtain ⟨session, disk, path, isOpen⟩ := logged
  obtain ⟨closed, user, startTime, shown, log, own, others⟩ := ended
  dsimp only at closed user startTime shown log own others
  have offset : session.getTimeOffset event.2 = run.session.getTimeOffset event.2 := by
    unfold SessionContext.getTimeOffset
    rw [startTime]
    rfl
  refine ⟨⟨session.addEvent event.1 event.2, disk, path, isOpen⟩, ?_, ?_⟩
  · unfold LoggedSession.handleEvent SessionContext.handleEvent LoggedSession.logEvent
      LoggedSession.appendToLog
    simp only [user, closed]
    rfl
  · refine ⟨closed, user, startTime, ?_, log, own, others⟩
    simp only [SessionContext.addEvent, shown, offset]
    rfl

theorem handleEvents_ended (late : List (SessionEvent × Time)) {events : List SessionEvent}
    {text : Bytes} {logged : LoggedSession}
    (ended : run.Ended sessionFolder files events text logged) :
    ∃ after, logged.handleEvents late = .ok after ∧
      run.Ended sessionFolder files (events ++ late.map run.stamped) text after := by
  induction late generalizing events logged with
  | nil =>
    rw [List.map_nil, List.append_nil]
    exact ⟨logged, rfl, ended⟩
  | cons event late ih =>
    obtain ⟨next, handled, nextEnded⟩ := run.handleEvent_ended sessionFolder files ended event
    obtain ⟨after, rest, done⟩ := ih nextEnded
    refine ⟨after, ?_, ?_⟩
    · unfold LoggedSession.handleEvents at rest ⊢
      rw [List.foldlM_cons, handled]
      exact rest
    · rw [List.map_cons, ← List.singleton_append, ← List.append_assoc]
      exact done

theorem handleClientConn_ended :
    ∃ after, run.handleClientConn sessionFolder files = .ok after ∧
      run.Ended sessionFolder files (run.logged ++ run.afterEnd.map run.stamped)
        ((files.lookup (run.path sessionFolder)).getD [] ++ run.written) after := by
  have counted : (run.beforeEnd.map run.stamped ++
      [run.stamped (run.stopEvent, run.ended)]).length = run.eventCount := by
    rw [List.length_append, List.length_map, List.length_singleton, eventCount]
  obtain ⟨ended, stopped, state⟩ := run.endSession_recording sessionFolder files counted
    ((files.lookup (run.path sessionFolder)).getD [] ++ lit "[\n" ++
      ((run.beforeEnd.map run.stamped).map LoggedSession.logEntry).flatten)
  obtain ⟨after, late, done⟩ := run.handleEvents_ended sessionFolder files run.afterEnd state
  refine ⟨after, ?_, ?_⟩
  · unfold handleClientConn
    rw [initializeLog_recording]
    simp only [handleEvents_recording, List.nil_append, bind, Except.bind, stopped]
    exact late
  · have log : run.logged = run.beforeEnd.map run.stamped ++
        [run.stamped (run.stopEvent, run.ended)] := by
      rw [logged, List.map_append]
      rfl
    rw [written, log]
    simpa only [List.map_append, List.map_cons, List.map_nil, List.flatten_append,
      List.flatten_cons, List.flatten_nil, List.append_nil, List.append_assoc] using done

end SessionRun

end SSHProxyPlus
