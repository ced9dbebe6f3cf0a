import SSHProxyPlus.Session.FinishedLog
import SSHProxyPlus.Session.Requests

/-! The list of ended sessions: what `End` writes into it about a session, and the log that the
entry names. -/
namespace SSHProxyPlus
open Go

structure SessionInfoExtended where
  startTime : Int64 := 0
  stopTime : Int64 := 0
  length : Int64 := 0
  clientHost : Bytes := []
  servHost : Bytes := []
  username : Bytes := []
  password : Bytes := []
  termRows : UInt32 := 0
  termCols : UInt32 := 0
  filename : Bytes := []
  requests : Option (List Bytes) := none

namespace SessionInfoExtended

def fields : List (StructField SessionInfoExtended) := [
  field "Start_time" (some "start") intCodec startTime fun x i => { i with startTime := x },
  field "Stop_time" (some "stop") intCodec stopTime fun x i => { i with stopTime := x },
  field "Length" (some "length") intCodec length fun x i => { i with length := x },
  field "Client_host" (some "client_host") stringCodec clientHost
    fun x i => { i with clientHost := x },
  field "Serv_host" (some "server_host") stringCodec servHost fun x i => { i with servHost := x },
  field "Username" (some "username") stringCodec username fun x i => { i with username := x },
  field "Password" (some "password") stringCodec password fun x i => { i with password := x },
  field "Term_rows" (some "term_rows") uint32Codec termRows fun x i => { i with termRows := x },
  field "Term_cols" (some "term_cols") uint32Codec termCols fun x i => { i with termCols := x },
  field "Filename" (some "filename") stringCodec filename fun x i => { i with filename := x },
  field "Requests" (some "requests") (pointerCodec (sliceCodec stringCodec)) requests
    fun x i => { i with requests := x }]

def codec : Codec SessionInfoExtended := structCodec {} fields

/-- The entry as its encoding shows it. -/
def repaired (info : SessionInfoExtended) : SessionInfoExtended :=
  { info with
    clientHost := utf8 (runes info.clientHost)
    servHost := utf8 (runes info.servHost)
    username := utf8 (runes info.username)
    password := utf8 (runes info.password)
    filename := utf8 (runes info.filename)
    requests := info.requests.map (List.map fun name => utf8 (runes name)) }

theorem visible_fields : StructField.visible fields = fields := by rfl

theorem requests_readsAs (names : Option (List Bytes)) :
    (pointerCodec (sliceCodec stringCodec)).ReadsAs names
      (names.map (List.map fun name => utf8 (runes name))) := by
  cases names with
  | none => rfl
  | some names =>
    refine pointerCodec_reads (sliceCodec_reads (fun name => ?_) names) ?_
    · rfl
    · exact fun null => nomatch null

theorem codec_readsAs (info : SessionInfoExtended) : codec.ReadsAs info info.repaired := by
  refine structCodec_readsAs visible_fields (by decide) ?_
  rw [fields, StructField.readBack_int, StructField.readBack_int, StructField.readBack_int,
    StructField.readBack_text, StructField.readBack_text, StructField.readBack_text,
    StructField.readBack_text, StructField.readBack_uint32, StructField.readBack_uint32,
    StructField.readBack_text, StructField.readBack_field (requests_readsAs info.requests)]
  any_goals rfl
  intro dropped
  rw [Option.isNone_iff_eq_none.mp dropped]
  rfl

end SessionInfoExtended

/-- What the end of a session meets with: the files that paths lead to, what becomes of the call
that renames the log, and the whole seconds of a duration, which are found by way of floating
point. -/
structure Surroundings (File : Type) where
  resolve : Bytes → File
  renamed : Bool
  seconds : Int → Int64

/-- A session with its proxy, the disk and its log, which has moved if it was renamed. -/
structure ListedSession (File : Type) where
  state : RequestSession
  proxy : ProxyContext
  disk : GoMap File Bytes
  log : File
  isOpen : Bool

namespace ListedSession
variable {File : Type} [DecidableEq File] (listed : ListedSession File)
  (world : Surroundings File)

def append (file : File) (data : Bytes) : ListedSession File :=
  { listed with disk := listed.disk.insert file ((listed.disk.lookup file).getD [] ++ data) }

/-- Writing to a closed file is an error, which is only reported. -/
def appendToLog (data : Bytes) : ListedSession File :=
  if listed.isOpen then listed.append listed.log data else listed

def initializeLog (state : RequestSession) (proxy : ProxyContext) (disk : GoMap File Bytes) :
    ListedSession File :=
  let log := world.resolve (logPath proxy.sessionFolder state.session.filename)
  let disk := disk.insert log ((disk.lookup log).getD [])
  appendToLog { state, proxy, disk, log, isOpen := true } (lit "[\n")

def setSession (session : SessionContext) : ListedSession File :=
  { listed with state := { listed.state with session } }

def handleEvent (event : SessionEvent) (now : Time) : Except Panic (ListedSession File) := do
  let updatedEvent := { event with timeOffset := listed.state.session.getTimeOffset now }
  let session ← listed.state.session.handleEvent event now
  return (listed.setSession session).appendToLog (LoggedSession.logEntry updatedEvent)

/-- Events handled one at a time. -/
def handleEvents (events : List (SessionEvent × Time)) : Except Panic (ListedSession File) :=
  events.foldlM (fun listed event => listed.handleEvent event.1 event.2) listed

def rename (oldFile newFile : File) : ListedSession File :=
  match listed.disk.lookup oldFile with
  | some content =>
      { listed with
        disk := (listed.disk.erase oldFile).insert newFile content
        log := if listed.log = oldFile then newFile else listed.log }
  | none => listed

/-- The name is changed whether or not the log could be renamed. -/
def finalizeLog : ListedSession File :=
  let closed := { listed.appendToLog (lit "\n]") with isOpen := false }
  if listed.state.session.events.length < 10 then
    let oldFile := logPath listed.proxy.sessionFolder listed.state.session.filename
    let newFile := oldFile ++ lit ".scan"
    let moved :=
      if world.renamed then closed.rename (world.resolve oldFile) (world.resolve newFile)
      else closed
    moved.setSession { listed.state.session with filename := newFile }
  else closed

def info : SessionInfoExtended :=
  let session := listed.state.session
  { startTime := unixSeconds session.startTime
    stopTime := unixSeconds session.stopTime
    length := world.seconds (durationBetween session.startTime session.stopTime)
    clientHost := session.clientHost
    servHost := listed.proxy.getDefaultRemoteHost
    username := session.clientUsername
    password := session.clientPassword
    termRows := listed.state.termRows
    termCols := listed.state.termCols
    filename := session.filename
    requests :=
      if listed.state.requests = [] then none
      else some (listed.state.requests.map (·.reqType)) }

def infoAsJSON : Bytes := SessionInfoExtended.codec.marshal (listed.info world)

def sessionListPath : Bytes := logPath listed.proxy.sessionFolder (lit ".session_list")

def addSessionToSessionList : ListedSession File :=
  listed.append (world.resolve listed.sessionListPath) (listed.infoAsJSON world ++ lit "\n")

/-- `End`: nothing for a session that is not active. -/
def endSession (now : Time) : Except Panic (ListedSession File) :=
  if listed.state.session.active then do
    let stopped := { listed.state.session with active := false, stopTime := now }
    let event := { type := eventSessionStop, stopTime := stopped.getStopTimeAsUnix }
    let recorded ← (listed.setSession stopped).handleEvent event now
    let _ ← deref (if listed.state.session.linked then some () else none)
    return (recorded.finalizeLog world).addSessionToSessionList world
  else return listed

end ListedSession

namespace ListedSession
variable {File : Type} [DecidableEq File] {listed : ListedSession File} {world : Surroundings File}

theorem rename_found {oldFile newFile : File} {content : Bytes}
    (found : listed.disk.lookup oldFile = some content) (own : listed.log = oldFile) :
    listed.rename oldFile newFile =
      { listed with
        disk := (listed.disk.erase oldFile).insert newFile content, log := newFile } := by
  simp only [rename, found, own, if_true]

/-- The session once its log is closed. -/
def closeLog (listed : ListedSession File) : ListedSession File :=
  { listed.appendToLog (lit "\n]") with isOpen := false }

/-- The name that a short log is renamed to. -/
def scanFile (listed : ListedSession File) : Bytes :=
  logPath listed.proxy.sessionFolder listed.state.session.filename ++ lit ".scan"

theorem finalizeLog_long (long : ¬listed.state.session.events.length < 10) :
    listed.finalizeLog world = listed.closeLog := if_neg long

theorem finalizeLog_failed (short : listed.state.session.events.length < 10)
    (failed : world.renamed = false) : listed.finalizeLog world =
      listed.closeLog.setSession { listed.state.session with filename := listed.scanFile } := by
  unfold finalizeLog
  rw [if_pos short, failed]
  rfl

theorem finalizeLog_renamed (short : listed.state.session.events.length < 10)
    (renamed : world.renamed = true) : listed.finalizeLog world =
      (listed.closeLog.rename
        (world.resolve (logPath listed.proxy.sessionFolder listed.state.session.filename))
        (world.resolve listed.scanFile)).setSession
          { listed.state.session with filename := listed.scanFile } := by
  unfold finalizeLog
  rw [if_pos short, renamed]
  rfl

/-- Without its proxy: names are the files. -/
def logged (listed : ListedSession Bytes) : LoggedSession :=
  ⟨listed.state.session, listed.disk, listed.log, listed.isOpen⟩

theorem appendToLog_logged (listed : ListedSession Bytes) (data : Bytes) :
    (listed.appendToLog data).logged = listed.logged.appendToLog data := by
  unfold appendToLog LoggedSession.appendToLog
  rw [apply_ite logged]
  rfl

/-- Where renaming succeeds, the log is left as it is by a session that knows no failure. -/
theorem finalizeLog_logged {listed : ListedSession Bytes} {world : Surroundings Bytes}
    {content : Bytes} (names : world.resolve = id) (renamed : world.renamed = true)
    (own : listed.log = logPath listed.proxy.sessionFolder listed.state.session.filename)
    (there : listed.closeLog.disk.lookup listed.log = some content) :
    (listed.finalizeLog world).logged =
      listed.logged.finalizeLog listed.proxy.sessionFolder := by
  have closed : listed.closeLog.disk = (listed.logged.appendToLog (lit "\n]")).files :=
    congrArg LoggedSession.files (appendToLog_logged listed _)
  have stays : listed.closeLog.log = listed.log := by
    unfold closeLog appendToLog
    split <;> rfl
  by_cases short : listed.state.session.events.length < 10
  · have found : (listed.logged.appendToLog (lit "\n]")).files.lookup
        (logPath listed.proxy.sessionFolder listed.logged.session.filename) = some content := by
      rw [← closed]
      exact own ▸ there
    rw [own] at there
    rw [finalizeLog_renamed short renamed, names, id, rename_found there (stays.trans own),
      LoggedSession.finalizeLog_short short]
    simp only [Files.rename_found found]
    unfold logged setSession
    simp only [closed]
    congr 1
  · rw [finalizeLog_long short, LoggedSession.finalizeLog_long short]
    unfold logged
    rw [closed, stays]
    have kept : listed.closeLog.state = listed.state := by
      unfold closeLog appendToLog
      split <;> rfl
    rw [kept]
    rfl

end ListedSession

/-- The handling of a client's connection, up to the end of its session. What the session knows of
its requests by then is given. -/
def SessionRun.closeListed {File : Type} [DecidableEq File] (run : SessionRun)
    (world : Surroundings File) (requests : RequestSession) (proxy : ProxyContext)
    (disk : GoMap File Bytes) : Except Panic (ListedSession File) := do
  let state := { requests with session := run.session }
  let recorded ← (ListedSession.initializeLog world state proxy disk).handleEvents run.beforeEnd
  recorded.endSession world run.ended

namespace SessionRun
variable {File : Type} [DecidableEq File] (run : SessionRun) (world : Surroundings File)
  (requests : RequestSession) (proxy : ProxyContext) (disk : GoMap File Bytes)

/-- The session while its log is open, with `text` in the file. -/
def listedAt (session : SessionContext) (text : Bytes) : ListedSession File where
  state := { requests with session }
  proxy := proxy
  disk := disk.insert (world.resolve (run.path proxy.sessionFolder)) text
  log := world.resolve (run.path proxy.sessionFolder)
  isOpen := true

theorem appendToLog_listed (session : SessionContext) (text data : Bytes) :
    (run.listedAt world requests proxy disk session text).appendToLog data =
      run.listedAt world requests proxy disk session (text ++ data) := by
  simp only [ListedSession.appendToLog, ListedSession.append, listedAt, if_true,
    Finmap.lookup_insert, Finmap.insert_insert, Option.getD_some]

theorem initializeLog_listed :
    ListedSession.initializeLog world { requests with session := run.session } proxy disk =
      run.listedAt world requests proxy disk run.session
        ((disk.lookup (world.resolve (run.path proxy.sessionFolder))).getD [] ++ lit "[\n") := by
  rw [← appendToLog_listed]
  rfl

theorem handleEvent_listed {session : SessionContext} (user : session.user = some run.user)
    (startTime : session.startTime = run.login) (text : Bytes) (event : SessionEvent × Time) :
    (run.listedAt world requests proxy disk session text).handleEvent event.1 event.2 =
      .ok (run.listedAt world requests proxy disk
        { session with events := session.events ++ [run.stamped event] }
        (text ++ LoggedSession.logEntry (run.stamped event))) := by
  have offset : session.getTimeOffset event.2 = run.session.getTimeOffset event.2 := by
    unfold SessionContext.getTimeOffset
    rw [startTime]
    rfl
  rw [← appendToLog_listed]
  unfold ListedSession.handleEvent SessionContext.handleEvent
  simp only [listedAt, user, deref_some, bind, Except.bind, pure, Except.pure,
    SessionContext.addEvent, offset]
  rfl

theorem handleEvents_listed (recorded : List (SessionEvent × Time)) (events : List SessionEvent)
    (text : Bytes) :
    (run.listedAt world requests proxy disk { run.session with events } text).handleEvents recorded =
      .ok (run.listedAt world requests proxy disk
        { run.session with events := events ++ recorded.map run.stamped }
        (text ++ ((recorded.map run.stamped).map LoggedSession.logEntry).flatten)) := by
  induction recorded generalizing events text with
  | nil =>
    simp only [List.map_nil, List.flatten_nil, List.append_nil]
    rfl
  | cons event recorded ih =>
    unfold ListedSession.handleEvents at ih ⊢
    rw [List.foldlM_cons, handleEvent_listed run world requests proxy disk rfl rfl]
    refine (ih _ _).trans ?_
    simp only [List.map_cons, List.flatten_cons, List.append_assoc, List.singleton_append]

/-- The session as the list is told of it. -/
structure Finished (finished : ListedSession File) : Prop where
  state : finished.state = { requests with
    session := { run.session with
      active := false
      stopTime := run.ended
      events := run.logged
      filename :=
        if run.eventCount < 10 then run.path proxy.sessionFolder ++ lit ".scan"
        else run.filename } }
  settings : finished.proxy = proxy
  log : finished.log = world.resolve
    (if run.eventCount < 10 ∧ world.renamed = true then run.path proxy.sessionFolder ++ lit ".scan"
     else run.path proxy.sessionFolder)
  content : finished.disk.lookup finished.log = some
    ((disk.lookup (world.resolve (run.path proxy.sessionFolder))).getD [] ++ run.written)

theorem finalizeLog_finished {text : Bytes} (whole : text ++ lit "\n]" =
    (disk.lookup (world.resolve (run.path proxy.sessionFolder))).getD [] ++ run.written) :
    run.Finished world requests proxy disk ((run.listedAt world requests proxy disk
      { run.session with active := false, stopTime := run.ended, events := run.logged }
        text).finalizeLog world) := by
  have counted : run.logged.length = run.eventCount := by
    rw [logged, List.length_map, List.length_append, eventCount]
    rfl
  let closing := { run.session with active := false, stopTime := run.ended, events := run.logged }
  let content := (disk.lookup (world.resolve (run.path proxy.sessionFolder))).getD [] ++ run.written
  let closed := { run.listedAt world requests proxy disk closing content with isOpen := false }
  have closes : (run.listedAt world requests proxy disk closing text).closeLog = closed := by
    rw [ListedSession.closeLog, appendToLog_listed, whole]
  by_cases short : run.eventCount < 10
  · have few : run.logged.length < 10 := counted ▸ short
    cases renamed : world.renamed with
    | false =>
      rw [ListedSession.finalizeLog_failed few renamed, closes]
      refine ⟨?_, rfl, ?_, Finmap.lookup_insert _⟩
      · rw [if_pos short]
        rfl
      · rw [if_neg (by simp [renamed])]
        rfl
    | true =>
      let newFile := run.path proxy.sessionFolder ++ lit ".scan"
      have found : closed.disk.lookup (world.resolve (run.path proxy.sessionFolder)) =
          some content := Finmap.lookup_insert _
      have moved : closed.rename (world.resolve (run.path proxy.sessionFolder))
          (world.resolve newFile) =
          { closed with
            disk := (closed.disk.erase (world.resolve (run.path proxy.sessionFolder))).insert
              (world.resolve newFile) content
            log := world.resolve newFile } := ListedSession.rename_found found rfl
      rw [ListedSession.finalizeLog_renamed few renamed, closes]
      change run.Finished world requests proxy disk ((closed.rename
        (world.resolve (run.path proxy.sessionFolder)) (world.resolve newFile)).setSession
          { closing with filename := newFile })
      rw [moved]
      refine ⟨?_, rfl, ?_, Finmap.lookup_insert _⟩
      · rw [if_pos short]
        rfl
      · rw [if_pos ⟨short, renamed⟩]
        rfl
  · have many : ¬run.logged.length < 10 := counted ▸ short
    rw [ListedSession.finalizeLog_long many, closes]
    refine ⟨?_, rfl, ?_, Finmap.lookup_insert _⟩
    · rw [if_neg short]
      rfl
    · rw [if_neg (fun both => short both.1)]
      rfl

theorem endSession_listed (events : List SessionEvent) (text : Bytes) :
    (run.listedAt world requests proxy disk { run.session with events } text).endSession
        world run.ended =
      .ok (((run.listedAt world requests proxy disk { run.session with
        active := false
        stopTime := run.ended
        events := events ++ [run.stamped (run.stopEvent, run.ended)] }
          (text ++ LoggedSession.logEntry (run.stamped (run.stopEvent, run.ended)))).finalizeLog
            world).addSessionToSessionList world) := by
  have stopped : (run.listedAt world requests proxy disk { run.session with
      active := false, stopTime := run.ended, events } text).handleEvent run.stopEvent run.ended =
      .ok (run.listedAt world requests proxy disk { run.session with
        active := false
        stopTime := run.ended
        events := events ++ [run.stamped (run.stopEvent, run.ended)] }
          (text ++ LoggedSession.logEntry (run.stamped (run.stopEvent, run.ended)))) :=
    run.handleEvent_listed world requests proxy disk rfl rfl text (run.stopEvent, run.ended)
  have unfolded : (run.listedAt world requests proxy disk { run.session with events } text).endSession
      world run.ended =
      ((run.listedAt world requests proxy disk { run.session with
        active := false, stopTime := run.ended, events } text).handleEvent run.stopEvent run.ended >>=
          fun recorded => .ok ((recorded.finalizeLog world).addSessionToSessionList world)) := rfl
  rw [unfolded, stopped]
  rfl

/-- Every session comes to its end, and is written into the list. -/
theorem closeListed_finished : ∃ finished : ListedSession File,
    run.closeListed world requests proxy disk = .ok (finished.addSessionToSessionList world) ∧
      run.Finished world requests proxy disk finished := by
  have log : run.logged = run.beforeEnd.map run.stamped ++
      [run.stamped (run.stopEvent, run.ended)] := by
    rw [logged, List.map_append]
    rfl
  let opened := (disk.lookup (world.resolve (run.path proxy.sessionFolder))).getD [] ++ lit "[\n"
  let text := opened ++ ((run.beforeEnd.map run.stamped).map LoggedSession.logEntry).flatten ++
    LoggedSession.logEntry (run.stamped (run.stopEvent, run.ended))
  have recorded : (run.listedAt world requests proxy disk run.session opened).handleEvents
      run.beforeEnd = .ok (run.listedAt world requests proxy disk
        { run.session with events := run.beforeEnd.map run.stamped }
          (opened ++ ((run.beforeEnd.map run.stamped).map LoggedSession.logEntry).flatten)) :=
    run.handleEvents_listed world requests proxy disk run.beforeEnd [] opened
  have whole : text ++ lit "\n]" =
      (disk.lookup (world.resolve (run.path proxy.sessionFolder))).getD [] ++ run.written := by
    rw [written, log]
    simp only [text, opened, List.map_append, List.map_cons, List.map_nil, List.flatten_append,
      List.flatten_cons, List.flatten_nil, List.append_nil, List.append_assoc]
  refine ⟨_, ?_, run.finalizeLog_finished world requests proxy disk whole⟩
  have unfolded : run.closeListed world requests proxy disk =
      ((ListedSession.initializeLog world { requests with session := run.session } proxy
        disk).handleEvents run.beforeEnd >>= fun recorded =>
          recorded.endSession world run.ended) := rfl
  rw [unfolded, initializeLog_listed, recorded]
  refine (run.endSession_listed world requests proxy disk _ _).trans ?_
  rw [← log]

/-- The path that the entry in the list leads to is where the log is. -/
def PointsAtLog (ended : ListedSession File) : Prop :=
  world.resolve (logPath ended.proxy.sessionFolder (ended.info world).filename) = ended.log

/-- Either the log is long; or the folder, written twice before its name, leads to the log where
it is, renamed or not. -/
def NamesLog (sessionFolder : Bytes) : Prop :=
  10 ≤ run.eventCount ∨
    world.resolve (logPath sessionFolder (run.path sessionFolder ++ lit ".scan")) =
      world.resolve (run.path sessionFolder ++ if world.renamed then lit ".scan" else [])

theorem Finished.pointsAtLog_iff {finished : ListedSession File}
    (done : run.Finished world requests proxy disk finished) :
    PointsAtLog world (finished.addSessionToSessionList world) ↔
      run.NamesLog world proxy.sessionFolder := by
  have name : ((finished.addSessionToSessionList world).info world).filename =
      if run.eventCount < 10 then run.path proxy.sessionFolder ++ lit ".scan"
      else run.filename := congrArg (fun state => state.session.filename) done.state
  have folder : (finished.addSessionToSessionList world).proxy = proxy := done.settings
  have log : (finished.addSessionToSessionList world).log = _ := done.log
  unfold PointsAtLog NamesLog
  rw [name, folder, log]
  by_cases short : run.eventCount < 10
  · rw [if_pos short]
    cases renamed : world.renamed with
    | false => simp [short]
    | true => simp [short]
  · rw [if_neg short, if_neg (fun both => short both.1)]
    exact iff_of_true rfl (.inl (Nat.le_of_not_lt short))

/-- The log exists where it was left, the entry is the last line of the list, and its path leads
to the log exactly where the log is long, or the folder may as well be written twice. -/
theorem session_list_points_at_log : ∃ (ended : ListedSession File) (content earlier : Bytes),
    run.closeListed world requests proxy disk = .ok ended ∧
    ended.disk.lookup ended.log = some content ∧
    ended.disk.lookup (world.resolve ended.sessionListPath) =
      some (earlier ++ (ended.infoAsJSON world ++ lit "\n")) ∧
    (PointsAtLog world ended ↔ run.NamesLog world proxy.sessionFolder) := by
  obtain ⟨finished, closes, done⟩ := run.closeListed_finished world requests proxy disk
  have pointing := done.pointsAtLog_iff
  let list := world.resolve finished.sessionListPath
  let line := finished.infoAsJSON world ++ lit "\n"
  have exists' : ∃ content,
      (finished.addSessionToSessionList world).disk.lookup finished.log = some content := by
    change ∃ content, (finished.disk.insert list
      ((finished.disk.lookup list).getD [] ++ line)).lookup finished.log = some content
    rw [lookup_insert_if, done.content]
    split
    · exact ⟨_, rfl⟩
    · exact ⟨_, rfl⟩
  obtain ⟨content, found⟩ := exists'
  exact ⟨_, content, _, closes, found, Finmap.lookup_insert _, pointing⟩

/-- A client whose session ends before it is connected. -/
def brief : SessionRun where
  sessKey := lit "10.0.0.1:2222:10.0.0.2:51000"
  clientHost := lit "10.0.0.2:51000"
  username := lit "guest"
  password := []
  user := {}
  login := 0
  connection := .dialFails
  ended := 0

/-- Every name is a file of its own, and the rename succeeds. -/
def plain : Surroundings Bytes where
  resolve := id
  renamed := true
  seconds := fun duration => Int64.ofInt (duration.tdiv (10 ^ 9))

theorem brief_log_not_named : ¬∀ (run : SessionRun) (world : Surroundings Bytes)
    (requests : RequestSession) (proxy : ProxyContext) (disk : GoMap Bytes Bytes) ended,
    run.closeListed world requests proxy disk = .ok ended → PointsAtLog world ended := by
  intro claim
  obtain ⟨finished, closes, done⟩ :=
    brief.closeListed_finished plain { session := {} } (makeNewProxy none) ∅
  have points := done.pointsAtLog_iff.mp (claim _ _ _ _ _ _ closes)
  rcases points with long | same
  · exact absurd long (by decide)
  · exact absurd same (by decide +kernel)

end SessionRun
end SSHProxyPlus
