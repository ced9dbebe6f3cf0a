import SSHProxyPlus.Go.JsonArray
import SSHProxyPlus.Proxy.Sessions

/-! The log of a session: opened when the client's connection is handled, written as
events occur, closed and perhaps renamed when the session ends. -/
namespace SSHProxyPlus
open Go

/-- The files on disk, by their paths. -/
abbrev Files := GoMap Bytes Bytes

namespace Files
variable (files : Files)

/-- Opened for appending, and created where there is none. -/
def openAppend (path : Bytes) : Files := files.insert path ((files.lookup path).getD [])

def append (path data : Bytes) : Files := files.insert path ((files.lookup path).getD [] ++ data)

def rename (oldFile newFile : Bytes) : Files :=
  match files.lookup oldFile with
  | some content => (files.erase oldFile).insert newFile content
  | none => files

end Files

def logPath (sessionFolder filename : Bytes) : Bytes := sessionFolder ++ lit "/" ++ filename

/-- A session, its log and the disk. -/
structure LoggedSession where
  session : SessionContext
  files : Files
  /-- Where the log is; `log_fd` writes there until it is closed. -/
  path : Bytes
  isOpen : Bool

namespace LoggedSession

/-- Writing to a closed file is an error, which is only reported. -/
def appendToLog (logged : LoggedSession) (data : Bytes) : LoggedSession :=
  if logged.isOpen then { logged with files := logged.files.append logged.path data } else logged

def initializeLog (session : SessionContext) (sessionFolder : Bytes) (files : Files) :
    LoggedSession :=
  let path := logPath sessionFolder session.filename
  appendToLog { session, files := files.openAppend path, path, isOpen := true } (lit "[\n")

/-- What `LogEvent` writes for an event. -/
def logEntry (event : SessionEvent) : Bytes :=
  let jsonData := SessionEvent.codec.marshal event
  if event.type = eventSessionStart then jsonData else lit ",\n" ++ jsonData

def logEvent (logged : LoggedSession) (event : SessionEvent) : LoggedSession :=
  logged.appendToLog (logEntry event)

def handleEvent (logged : LoggedSession) (event : SessionEvent) (now : Time) :
    Except Panic LoggedSession := do
  let updatedEvent := { event with timeOffset := logged.session.getTimeOffset now }
  let session ← logged.session.handleEvent event now
  return { logged with session }.logEvent updatedEvent

/-- Events handled one at a time. -/
def handleEvents (logged : LoggedSession) (events : List (SessionEvent × Time)) :
    Except Panic LoggedSession :=
  events.foldlM (fun logged event => logged.handleEvent event.1 event.2) logged

def finalizeLog (logged : LoggedSession) (sessionFolder : Bytes) : LoggedSession :=
  let written := logged.appendToLog (lit "\n]")
  let session := logged.session.finalizeLog sessionFolder
  if logged.session.events.length < 10 then
    let oldFile := logPath sessionFolder logged.session.filename
    let newFile := oldFile ++ lit ".scan"
    { session, files := written.files.rename oldFile newFile, path := newFile, isOpen := false }
  else { session, files := written.files, path := logged.path, isOpen := false }

/-- `End`: nothing for a session that is not active. -/
def endSession (logged : LoggedSession) (sessionFolder : Bytes) (now : Time) :
    Except Panic LoggedSession :=
  if logged.session.active then do
    let stopped := { logged.session with active := false, stopTime := now }
    let event := { type := eventSessionStop, stopTime := stopped.getStopTimeAsUnix }
    let recorded ← { logged with session := stopped }.handleEvent event now
    let _ ← deref (if logged.session.linked then some () else none)
    return recorded.finalizeLog sessionFolder
  else return logged

@[simp] theorem appendToLog_session (logged : LoggedSession) (data : Bytes) :
    (logged.appendToLog data).session = logged.session := by
  unfold appendToLog
  split <;> rfl

/-- Logging leaves to the session what it does without a log. -/
theorem handleEvent_session (logged : LoggedSession) (event : SessionEvent) (now : Time) :
    session <$> logged.handleEvent event now = logged.session.handleEvent event now := by
  unfold handleEvent
  cases handled : logged.session.handleEvent event now with
  | error panic => rfl
  | ok session => exact congrArg Except.ok (appendToLog_session _ _)

theorem finalizeLog_session (logged : LoggedSession) (sessionFolder : Bytes) :
    (logged.finalizeLog sessionFolder).session = logged.session.finalizeLog sessionFolder := by
  unfold finalizeLog
  split <;> rfl

theorem finalizeLog_long {logged : LoggedSession} (long : ¬ logged.session.events.length < 10)
    (sessionFolder : Bytes) :
    logged.finalizeLog sessionFolder =
      { session := logged.session, files := (logged.appendToLog (lit "\n]")).files
        path := logged.path, isOpen := false } := by
  simp only [finalizeLog, SessionContext.finalizeLog, if_neg long]

theorem finalizeLog_short {logged : LoggedSession} (short : logged.session.events.length < 10)
    (sessionFolder : Bytes) :
    let oldFile := logPath sessionFolder logged.session.filename
    let newFile := oldFile ++ lit ".scan"
    logged.finalizeLog sessionFolder =
      { session := { logged.session with filename := newFile }
        files := (logged.appendToLog (lit "\n]")).files.rename oldFile newFile
        path := newFile, isOpen := false } := by
  simp only [finalizeLog, SessionContext.finalizeLog, if_pos short, logPath]

theorem endSession_session (logged : LoggedSession) (sessionFolder : Bytes) (now : Time) :
    session <$> logged.endSession sessionFolder now = logged.session.endSession sessionFolder now := by
  unfold endSession SessionContext.endSession
  cases logged.session.active with
  | false => rfl
  | true =>
    let stopped := { logged.session with active := false, stopTime := now }
    let event : SessionEvent := { type := eventSessionStop, stopTime := stopped.getStopTimeAsUnix }
    have same := handleEvent_session { logged with session := stopped } event now
    simp only [if_true]
    rw [← same]
    cases handleEvent { logged with session := stopped } event now with
    | error panic => rfl
    | ok recorded =>
      cases logged.session.linked with
      | false => rfl
      | true => exact congrArg Except.ok (finalizeLog_session _ _)

end LoggedSession

end SSHProxyPlus
