import SSHProxyPlus.Go.SharedSlice
import SSHProxyPlus.Session.Playback
import SSHProxyPlus.Session.Recording
import SSHProxyPlus.Transition.Pool

/-! A session with all that goes on in it: its threads, which record and log events and signal
the viewers, each a statement at a time; its viewers; and the proxy that may stop it. -/
namespace SSHProxyPlus
open Go Transition

namespace LoggedSession

/-- What `initializeLog` does before it writes. -/
def openLog (logged : LoggedSession) (sessionFolder : Bytes) : LoggedSession :=
  let path := logPath sessionFolder logged.session.filename
  { logged with files := logged.files.openAppend path, path, isOpen := true }

def closeLog (logged : LoggedSession) : LoggedSession := { logged with isOpen := false }

/-- What `finalizeLog` does once the log is closed. -/
def renameLog (logged : LoggedSession) (sessionFolder : Bytes) : LoggedSession :=
  if logged.session.events.length < 10 then
    let oldFile := logPath sessionFolder logged.session.filename
    let newFile := oldFile ++ lit ".scan"
    { logged with
      session := { logged.session with filename := newFile }
      files := logged.files.rename oldFile newFile
      path := newFile }
  else logged

theorem initializeLog_eq (logged : LoggedSession) (sessionFolder : Bytes) :
    initializeLog logged.session sessionFolder logged.files =
      (logged.openLog sessionFolder).appendToLog (lit "[\n") := rfl

theorem finalizeLog_eq (logged : LoggedSession) (sessionFolder : Bytes) :
    logged.finalizeLog sessionFolder =
      (logged.appendToLog (lit "\n]")).closeLog.renameLog sessionFolder := by
  obtain ⟨session, files, path, isOpen⟩ := logged
  unfold finalizeLog renameLog closeLog
  rw [appendToLog_session]
  by_cases short : session.events.length < 10
  · cases isOpen <;> simp [short, appendToLog, SessionContext.finalizeLog, logPath]
  · cases isOpen <;> simp [short, appendToLog, SessionContext.finalizeLog]

theorem renameLog_active (logged : LoggedSession) (sessionFolder : Bytes) :
    (logged.renameLog sessionFolder).session.active = logged.session.active := by
  unfold renameLog
  split <;> rfl

end LoggedSession

/-- What a thread of a session is to do: a statement of the source, or what is left of one that
takes several steps. -/
inductive Statement where
  | markThreadStarted
  | markThreadStopped
  | unlock
  | initializeLog
  | beginLog
  | handleEvent (event : SessionEvent)
  /-- The call of `LogEvent` with the event that stands there in the session's list. -/
  | logEvent (index : Nat)
  | signalClients (signal : Signal)
  /-- In the loop of `sendSignalToClients`, before a turn. -/
  | ranging (signal : Signal) (header : SliceHeader) (index : Nat)
  /-- In a turn, with the viewer's channel in hand. -/
  | sending (signal : Signal) (header : SliceHeader) (index viewer : Nat)
  | go (thread : List Statement)
  | endSession
  | deactivate
  | finalizeLog
  | closeLog
  | renameLog

/-- A viewer, and whether its signal is among the session's. -/
structure Viewing where
  playback : Playback := {}
  registered : Bool := false

/-- In place of channels the signals hold the viewers that receive from them. -/
structure LiveSession where
  logged : LoggedSession
  sessionFolder : Bytes
  threadCount : Int := 0
  locked : Bool := false
  arrays : Arrays Nat := [{}]
  msgSignal : SliceHeader := {}
  threads : List (List Statement)
  viewers : List Viewing := []

inductive LiveAction where
  | run (thread : Nat) (now : Time)
  /-- `ProxyContext.Stop` comes to this session. -/
  | stop
  | playSession
  | view (viewer : Nat) (reply : Option Bytes) (spare : Nat)

namespace LiveSession

def events (live : LiveSession) : List SessionEvent := live.logged.session.events

/-- One step of a statement: the session after it, what is left of the statement, and the threads
that it starts. -/
def execute (live : LiveSession) (now : Time) :
    Statement → Option (LiveSession × List Statement × List (List Statement))
  | .markThreadStarted =>
      if live.locked then none
      else some ({ live with threadCount := live.threadCount + 1 }, [], [])
  | .markThreadStopped =>
      if live.locked then none
      else
        let threadCount := live.threadCount - 1
        some ({ live with locked := true, threadCount },
          (if threadCount < 1 then [.endSession] else []) ++ [.unlock], [])
  | .unlock => some ({ live with locked := false }, [], [])
  | .initializeLog =>
      if live.locked then none
      else some ({ live with logged := live.logged.openLog live.sessionFolder }, [.beginLog], [])
  | .beginLog => some ({ live with logged := live.logged.appendToLog (lit "[\n") }, [], [])
  | .handleEvent event =>
      let session := live.logged.session.addEvent event now
      some ({ live with logged := { live.logged with session } },
        [.logEvent live.events.length, .signalClients .newMessage], [])
  | .logEvent index =>
      live.events[index]?.map fun event =>
        ({ live with logged := live.logged.logEvent event }, [], [])
  | .signalClients signal => some (live, [.ranging signal live.msgSignal 0], [])
  | .ranging signal header index =>
      if index < header.length then
        (live.arrays.slot header.array index).map fun viewer =>
          (live, [.sending signal header index viewer], [])
      else some (live, [], [])
  | .sending signal header index viewer => do
      let viewing ← live.viewers[viewer]?
      let playback ← viewing.playback.receiveSignal signal
      return ({ live with viewers := live.viewers.set viewer { viewing with playback } },
        [.ranging signal header (index + 1)], [])
  | .go thread => some (live, [], [thread])
  | .endSession => some (live, if live.logged.session.active then [.deactivate] else [], [])
  | .deactivate =>
      let session := { live.logged.session with active := false, stopTime := now }
      let event := { type := eventSessionStop, stopTime := session.getStopTimeAsUnix }
      some ({ live with logged := { live.logged with session } },
        [.handleEvent event, .signalClients .sessionEnd, .finalizeLog], [])
  | .finalizeLog =>
      some ({ live with logged := live.logged.appendToLog (lit "\n]") }, [.closeLog], [])
  | .closeLog => some ({ live with logged := live.logged.closeLog }, [.renameLog], [])
  | .renameLog =>
      some ({ live with logged := live.logged.renameLog live.sessionFolder }, [], [])

def makeNewSignal (live : LiveSession) (viewer spare : Nat) : LiveSession :=
  let (arrays, msgSignal) := live.arrays.push live.msgSignal viewer spare
  { live with arrays, msgSignal }

def removeSignal (live : LiveSession) (viewer : Nat) : LiveSession :=
  let (arrays, msgSignal) := live.arrays.swapRemoveFirst live.msgSignal viewer
  { live with arrays, msgSignal }

/-- What a viewer does by itself. It takes the session's mutex to add its signal, and again, on
its return, to remove it. -/
def view (live : LiveSession) (viewer : Nat) (viewing : Viewing) (reply : Option Bytes)
    (spare : Nat) : Option (LiveSession × Viewing) :=
  match viewing.playback.step with
  | .unregistered newEventIndex =>
      if live.locked then none
      else some (live.makeNewSignal viewer spare, {
        playback := { viewing.playback with step := .measured newEventIndex }
        registered := true })
  | .returned =>
      if live.locked || !viewing.registered then none
      else some (live.removeSignal viewer, { viewing with registered := false })
  | _ =>
      (viewing.playback.advance live.events reply).map fun playback =>
        (live, { viewing with playback })

def perform (live : LiveSession) : LiveAction → Option LiveSession
  | .run thread now =>
      match live.threads[thread]? with
      | some (statement :: rest) =>
          (live.execute now statement).map fun (next, left, spawned) =>
            { next with threads := live.threads.set thread (left ++ rest) ++ spawned }
      | _ => none
  | .stop => some { live with threads := live.threads ++ [[.endSession]] }
  | .playSession => some { live with viewers := live.viewers ++ [{}] }
  | .view viewer reply spare => do
      let viewing ← live.viewers[viewer]?
      let (next, viewing) ← live.view viewer viewing reply spare
      return { next with viewers := next.viewers.set viewer viewing }

end LiveSession

/-! The functions that run as threads, or within them, as far as this session can tell. What they
wait for, the other side or a goroutine, only delays them. The numbers are those that the
session's counters give them. -/

structure ForwardedRequest where
  requestType : Bytes
  requestPayload : Bytes
  requestID : Int64
  /-- The terminal's rows and columns, where the request sets them. -/
  dimensions : Option (UInt32 × UInt32) := none

/-- What a read of a channel leaves to record. -/
structure RecordedRead where
  stderr : Bool
  bytesRead : Nat
  data : Bytes

structure OpenedChannel where
  outgoingRequests : List ForwardedRequest
  incomingRequests : List ForwardedRequest
  incoming : List RecordedRead
  outgoing : List RecordedRead

structure ForwardedChannel where
  channelType : Bytes
  channelData : Bytes
  channelID : Int64
  /-- None where the channel is refused. -/
  opened : Option OpenedChannel

/-- What becomes of a connection that the other side accepts. -/
structure ConnectedClient where
  startEvent : SessionEvent
  clientChannels : List ForwardedChannel
  remoteChannels : List ForwardedChannel
  remoteRequests : List ForwardedRequest
  clientRequests : List ForwardedRequest

namespace Statement

def record (activity : Activity) : Statement := .handleEvent activity.event

/-- A function that counts itself as a thread while it runs. -/
def marked (body : List Statement) : List Statement :=
  .markThreadStarted :: body ++ [.markThreadStopped]

def forwardRequest (channelID : Int64) (request : ForwardedRequest) : List Statement :=
  marked (record (.newRequest request.requestType request.requestPayload request.requestID channelID)
    :: (request.dimensions.map fun (rows, cols) =>
      .go [record (.windowResize rows cols request.requestID)]).toList)

def handleRequests (channelID : Int64) (requests : List ForwardedRequest) : List Statement :=
  marked (requests.flatMap (forwardRequest channelID))

/-- The one direction of a channel, with its two streams. -/
def copyChannel (incoming : Bool) (channelID : Int64) (reads : List RecordedRead) :
    List Statement :=
  marked (reads.map fun read =>
    .go [record (.message incoming read.stderr read.bytesRead read.data channelID)])

def bidirectionalChannelClone (channelID : Int64) (opened : OpenedChannel) : List Statement :=
  marked [.go (copyChannel true channelID opened.incoming),
    .go (copyChannel false channelID opened.outgoing)]

def forwardChannel (channel : ForwardedChannel) : List Statement :=
  marked (record (.newChannel channel.channelType channel.channelData channel.channelID) ::
    match channel.opened with
    | none => []
    | some opened =>
        .go (handleRequests channel.channelID opened.outgoingRequests) ::
        .go (handleRequests channel.channelID opened.incomingRequests) ::
        bidirectionalChannelClone channel.channelID opened)

def handleChannels (channels : List ForwardedChannel) : List Statement :=
  marked (channels.map fun channel => .go (forwardChannel channel))

/-- Nobody is connected where the remote host does not answer, or refuses. -/
def handleClientConn (connected : Option ConnectedClient) : List Statement :=
  marked (.initializeLog ::
    match connected with
    | none => []
    | some client => [
        .handleEvent { client.startEvent with type := eventSessionStart },
        .go (handleChannels client.clientChannels),
        .go (handleChannels client.remoteChannels),
        .go (handleRequests 0 client.remoteRequests),
        .go (handleRequests 0 client.clientRequests)])

end Statement

namespace Viewing
variable {viewing : Viewing} {playback : Playback}

theorem receiveSignal_cases {signal : Signal}
    (received : viewing.playback.receiveSignal signal = some playback) :
    viewing.playback.step = .waiting ∧
      (signal = .newMessage ∧ playback = { viewing.playback with step := .signalled } ∨
        signal = .sessionEnd ∧ playback = { viewing.playback with step := .returned }) := by
  unfold Playback.receiveSignal at received
  split at received
  · next waits => exact ⟨waits, .inr ⟨rfl, (Option.some.inj received).symm⟩⟩
  · next waits => exact ⟨waits, .inl ⟨rfl, (Option.some.inj received).symm⟩⟩
  · contradiction

end Viewing

namespace LiveSession

/-- A client has logged in, and its connection is about to be handled. -/
def loggedIn (sessionFolder : Bytes) (session : SessionContext) (files : Files)
    (connected : Option ConnectedClient) : LiveSession where
  logged := { session, files, path := [], isOpen := false }
  sessionFolder
  threads := [Statement.handleClientConn connected]

/-- The runs of a session that has just begun, in which every step is `Admitted`. -/
def runs (Admitted : LiveSession → LiveAction → Prop) (sessionFolder : Bytes)
    (session : SessionContext) (files : Files) : System LiveSession LiveAction where
  init live := session.active = true ∧ session.events = [] ∧
    ∃ connected, live = loggedIn sessionFolder session files connected
  step live action next := Admitted live action ∧ live.perform action = some next

variable {live next : LiveSession}

/-- All that a step of a statement can be. -/
inductive Executes (live : LiveSession) (now : Time) :
    Statement → LiveSession → List Statement → List (List Statement) → Prop where
  | markThreadStarted (free : live.locked = false) :
      Executes live now .markThreadStarted
        { live with threadCount := live.threadCount + 1 } [] []
  | lastStopped (free : live.locked = false) (last : live.threadCount - 1 < 1) :
      Executes live now .markThreadStopped
        { live with locked := true, threadCount := live.threadCount - 1 } [.endSession, .unlock] []
  | stopped (free : live.locked = false) (more : ¬ live.threadCount - 1 < 1) :
      Executes live now .markThreadStopped
        { live with locked := true, threadCount := live.threadCount - 1 } [.unlock] []
  | unlock : Executes live now .unlock { live with locked := false } [] []
  | initializeLog (free : live.locked = false) :
      Executes live now .initializeLog
        { live with logged := live.logged.openLog live.sessionFolder } [.beginLog] []
  | beginLog :
      Executes live now .beginLog { live with logged := live.logged.appendToLog (lit "[\n") } [] []
  | handleEvent (event : SessionEvent) :
      Executes live now (.handleEvent event)
        { live with logged := {
            live.logged with
            session := live.logged.session.addEvent event now } }
        [.logEvent live.events.length, .signalClients .newMessage] []
  | logEvent {index : Nat} {event : SessionEvent} (there : live.events[index]? = some event) :
      Executes live now (.logEvent index) { live with logged := live.logged.logEvent event } [] []
  | signalClients (signal : Signal) :
      Executes live now (.signalClients signal) live [.ranging signal live.msgSignal 0] []
  | turn {signal : Signal} {header : SliceHeader} {index viewer : Nat} (more : index < header.length)
      (there : live.arrays.slot header.array index = some viewer) :
      Executes live now (.ranging signal header index) live
        [.sending signal header index viewer] []
  | allSignalled {signal : Signal} {header : SliceHeader} {index : Nat}
      (over' : ¬ index < header.length) :
      Executes live now (.ranging signal header index) live [] []
  | sending {signal : Signal} {header : SliceHeader} {index viewer : Nat} {viewing : Viewing}
      {playback : Playback} (there : live.viewers[viewer]? = some viewing)
      (received : viewing.playback.receiveSignal signal = some playback) :
      Executes live now (.sending signal header index viewer)
        { live with viewers := live.viewers.set viewer { viewing with playback } }
        [.ranging signal header (index + 1)] []
  | go (thread : List Statement) : Executes live now (.go thread) live [] [thread]
  | endActive (active : live.logged.session.active = true) :
      Executes live now .endSession live [.deactivate] []
  | endInactive (inactive : live.logged.session.active = false) :
      Executes live now .endSession live [] []
  | deactivate {event : SessionEvent} (type : event.type = eventSessionStop) :
      Executes live now .deactivate
        { live with logged := {
            live.logged with
            session := { live.logged.session with active := false, stopTime := now } } }
        [.handleEvent event, .signalClients .sessionEnd, .finalizeLog] []
  | finalizeLog :
      Executes live now .finalizeLog { live with logged := live.logged.appendToLog (lit "\n]") }
        [.closeLog] []
  | closeLog :
      Executes live now .closeLog { live with logged := live.logged.closeLog } [.renameLog] []
  | renameLog :
      Executes live now .renameLog
        { live with logged := live.logged.renameLog live.sessionFolder } [] []

theorem executes_of_execute {now : Time} {statement : Statement} {changed : LiveSession}
    {left : List Statement} {spawned : List (List Statement)}
    (executed : live.execute now statement = some (changed, left, spawned)) :
    Executes live now statement changed left spawned := by
  cases statement with
  | markThreadStarted =>
    obtain ⟨free, same⟩ := Option.ite_none_left_eq_some.mp executed
    obtain ⟨rfl, rfl, rfl⟩ := same
    exact .markThreadStarted (Bool.eq_false_iff.mpr free)
  | markThreadStopped =>
    obtain ⟨free, same⟩ := Option.ite_none_left_eq_some.mp executed
    obtain ⟨rfl, rfl, rfl⟩ := same
    have free := Bool.eq_false_iff.mpr free
    split
    · next last => exact .lastStopped free last
    · next more => exact .stopped free more
  | unlock =>
    obtain ⟨rfl, rfl, rfl⟩ := executed
    exact .unlock
  | initializeLog =>
    obtain ⟨free, same⟩ := Option.ite_none_left_eq_some.mp executed
    obtain ⟨rfl, rfl, rfl⟩ := same
    exact .initializeLog (Bool.eq_false_iff.mpr free)
  | beginLog =>
    obtain ⟨rfl, rfl, rfl⟩ := executed
    exact .beginLog
  | handleEvent event =>
    obtain ⟨rfl, rfl, rfl⟩ := executed
    exact .handleEvent event
  | logEvent index =>
    obtain ⟨event, there, same⟩ := Option.map_eq_some_iff.mp executed
    obtain ⟨rfl, rfl, rfl⟩ := same
    exact .logEvent there
  | signalClients signal =>
    obtain ⟨rfl, rfl, rfl⟩ := executed
    exact .signalClients signal
  | ranging signal header index =>
    simp only [execute] at executed
    split at executed
    · next more =>
      obtain ⟨viewer, there, same⟩ := Option.map_eq_some_iff.mp executed
      obtain ⟨rfl, rfl, rfl⟩ := same
      exact .turn more there
    · next over' =>
      obtain ⟨rfl, rfl, rfl⟩ := executed
      exact .allSignalled over'
  | sending signal header index viewer =>
    simp only [execute, Option.bind_eq_bind, Option.bind_eq_some_iff] at executed
    obtain ⟨viewing, there, playback, received, same⟩ := executed
    obtain ⟨rfl, rfl, rfl⟩ := same
    exact .sending there received
  | go thread =>
    obtain ⟨rfl, rfl, rfl⟩ := executed
    exact .go thread
  | endSession =>
    obtain ⟨rfl, rfl, rfl⟩ := executed
    split
    · next active => exact .endActive active
    · next inactive => exact .endInactive (Bool.eq_false_iff.mpr inactive)
  | deactivate =>
    obtain ⟨rfl, rfl, rfl⟩ := executed
    exact .deactivate rfl
  | finalizeLog =>
    obtain ⟨rfl, rfl, rfl⟩ := executed
    exact .finalizeLog
  | closeLog =>
    obtain ⟨rfl, rfl, rfl⟩ := executed
    exact .closeLog
  | renameLog =>
    obtain ⟨rfl, rfl, rfl⟩ := executed
    exact .renameLog

/-- A step of a thread. -/
structure Ran (live : LiveSession) (i : Nat) (now : Time) (statement : Statement)
    (rest : List Statement) (changed : LiveSession) (left : List Statement)
    (spawned : List (List Statement)) (next : LiveSession) : Prop where
  here : live.threads[i]? = some (statement :: rest)
  executes : live.Executes now statement changed left spawned
  next_eq : next = { changed with threads := live.threads.set i (left ++ rest) ++ spawned }

theorem ran_of_perform {i : Nat} {now : Time} (performed : live.perform (.run i now) = some next) :
    ∃ statement rest changed left spawned,
      live.Ran i now statement rest changed left spawned next := by
  simp only [perform] at performed
  split at performed
  · next statement rest here =>
    obtain ⟨⟨changed, left, spawned⟩, executed, rfl⟩ := Option.map_eq_some_iff.mp performed
    exact ⟨statement, rest, changed, left, spawned, here, executes_of_execute executed, rfl⟩
  · contradiction

section Steps
variable {i j : Nat} {now : Time} {statement : Statement} {rest : List Statement}
  {changed : LiveSession} {left : List Statement} {spawned : List (List Statement)}

theorem Ran.active (ran : live.Ran i now statement rest changed left spawned next)
    (other : statement ≠ .deactivate) :
    next.logged.session.active = live.logged.session.active := by
  obtain ⟨-, executes, rfl⟩ := ran
  cases executes with
  | deactivate => exact absurd rfl other
  | renameLog => exact LoggedSession.renameLog_active _ _
  | beginLog | logEvent | finalizeLog => simp [LoggedSession.logEvent]
  | _ => rfl

/-- The thread goes on with what the statement has left. -/
theorem Ran.own (ran : live.Ran i now statement rest changed left spawned next) :
    next.threads[i]? = some (left ++ rest) := by
  obtain ⟨here, -, rfl⟩ := ran
  have within := (List.getElem?_eq_some_iff.mp here).1
  rw [List.getElem?_append_left (by rwa [List.length_set]), List.getElem?_set_self within]

/-- The others are where they were. -/
theorem Ran.thread (ran : live.Ran i now statement rest changed left spawned next)
    {thread : List Statement} (there : live.threads[j]? = some thread) :
    j = i ∧ thread = statement :: rest ∨ i ≠ j ∧ next.threads[j]? = some thread := by
  obtain ⟨here, -, rfl⟩ := ran
  by_cases own : i = j
  · subst own
    exact .inl ⟨rfl, Option.some.inj (there.symm.trans here)⟩
  · have within := (List.getElem?_eq_some_iff.mp there).1
    refine .inr ⟨own, ?_⟩
    rw [List.getElem?_append_left (by rwa [List.length_set]), List.getElem?_set_ne own, there]

end Steps

/-- A step that is not one of a thread. -/
structure Aside (live next : LiveSession) : Prop where
  logged : next.logged = live.logged
  folder : next.sessionFolder = live.sessionFolder
  count : next.threadCount = live.threadCount
  threads : next.threads = live.threads ∨ next.threads = live.threads ++ [[.endSession]]

theorem Aside.thread {i : Nat} {thread : List Statement} (aside : Aside live next)
    (there : live.threads[i]? = some thread) : next.threads[i]? = some thread := by
  obtain same | same := aside.threads
  · rw [same, there]
  · exact same ▸ getElem?_append_kept there

/-- All that a viewer can do by itself. -/
inductive Views (live : LiveSession) (viewer : Nat) (viewing : Viewing) (reply : Option Bytes)
    (spare : Nat) : LiveSession → Viewing → Prop where
  | registers {newEventIndex : Nat} (stands : viewing.playback.step = .unregistered newEventIndex)
      (free : live.locked = false) :
      Views live viewer viewing reply spare (live.makeNewSignal viewer spare) {
        playback := { viewing.playback with step := .measured newEventIndex }
        registered := true }
  | exits (returned : viewing.playback.step = .returned) (free : live.locked = false)
      (enlisted : viewing.registered = true) :
      Views live viewer viewing reply spare (live.removeSignal viewer)
        { viewing with registered := false }
  | goesOn {playback : Playback}
      (registering : ∀ newEventIndex, viewing.playback.step ≠ .unregistered newEventIndex)
      (advanced : viewing.playback.advance live.events reply = some playback) :
      Views live viewer viewing reply spare live { viewing with playback }

theorem views_of_view {viewer spare : Nat} {viewing seen : Viewing} {reply : Option Bytes}
    (viewed : live.view viewer viewing reply spare = some (next, seen)) :
    live.Views viewer viewing reply spare next seen := by
  unfold view at viewed
  split at viewed
  · next newEventIndex stands =>
    obtain ⟨free, same⟩ := Option.ite_none_left_eq_some.mp viewed
    obtain ⟨rfl, rfl⟩ := same
    exact .registers stands (Bool.eq_false_iff.mpr free)
  · next returned =>
    obtain ⟨allowed, same⟩ := Option.ite_none_left_eq_some.mp viewed
    obtain ⟨rfl, rfl⟩ := same
    obtain ⟨free, absent⟩ := Bool.or_eq_false_iff.mp (Bool.eq_false_iff.mpr allowed)
    exact .exits returned free (by simpa using absent)
  · next registering _ =>
    obtain ⟨playback, advanced, same⟩ := Option.map_eq_some_iff.mp viewed
    obtain ⟨rfl, rfl⟩ := same
    exact .goesOn registering advanced

theorem view_aside {viewer spare : Nat} {viewing seen : Viewing} {reply : Option Bytes}
    (viewed : live.view viewer viewing reply spare = some (next, seen)) : Aside live next := by
  cases views_of_view viewed <;> exact ⟨rfl, rfl, rfl, .inl rfl⟩

theorem perform_cases {action : LiveAction} (performed : live.perform action = some next) :
    (∃ i now statement rest changed left spawned, action = .run i now ∧
      live.Ran i now statement rest changed left spawned next) ∨ Aside live next := by
  cases action with
  | run i now =>
    obtain ⟨statement, rest, changed, left, spawned, ran⟩ := ran_of_perform performed
    exact .inl ⟨i, now, statement, rest, changed, left, spawned, rfl, ran⟩
  | stop =>
    obtain rfl := Option.some.inj performed
    exact .inr ⟨rfl, rfl, rfl, .inr rfl⟩
  | playSession =>
    obtain rfl := Option.some.inj performed
    exact .inr ⟨rfl, rfl, rfl, .inl rfl⟩
  | view viewer reply spare =>
    simp only [perform, Option.bind_eq_bind, Option.bind_eq_some_iff] at performed
    obtain ⟨viewing, -, ⟨changed, seen⟩, viewed, same⟩ := performed
    obtain rfl := Option.some.inj same
    obtain ⟨logged, folder, count, threads⟩ := view_aside viewed
    exact .inr ⟨logged, folder, count, threads⟩

/-- Nothing changes for the viewers. -/
structure Unnoticed (live next : LiveSession) : Prop where
  viewers : next.viewers = live.viewers
  arrays : next.arrays = live.arrays
  msgSignal : next.msgSignal = live.msgSignal
  events : next.events = live.events

/-- Most statements leave the viewers alone. -/
theorem Ran.unnoticed {i : Nat} {now : Time} {statement : Statement} {rest : List Statement}
    {changed : LiveSession} {left : List Statement} {spawned : List (List Statement)}
    (ran : live.Ran i now statement rest changed left spawned next)
    (silent : ∀ event, statement ≠ .handleEvent event)
    (apart : ∀ signal header index viewer, statement ≠ .sending signal header index viewer) :
    Unnoticed live next := by
  have executes := ran.executes
  have same := ran.next_eq
  cases executes with
  | handleEvent event => exact absurd rfl (silent event)
  | sending => exact absurd rfl (apart _ _ _ _)
  | logEvent | beginLog | finalizeLog =>
    rw [same]
    refine ⟨rfl, rfl, rfl, ?_⟩
    simp [events, LoggedSession.logEvent]
  | renameLog =>
    rw [same]
    refine ⟨rfl, rfl, rfl, ?_⟩
    unfold events LoggedSession.renameLog
    dsimp only
    split <;> rfl
  | _ =>
    rw [same]
    exact ⟨rfl, rfl, rfl, rfl⟩

/-- A client has logged in. -/
def freshSession : SessionContext := { active := true, filename := lit "10.0.0.1.log.json" }

theorem freshSession_reachable {Admitted : LiveSession → LiveAction → Prop} {folder : Bytes} :
    (runs Admitted folder freshSession ∅).Reachable (loggedIn folder freshSession ∅ none) :=
  .start ⟨rfl, rfl, none, rfl⟩

def inactive (logged : LoggedSession) : LoggedSession :=
  { logged with session := { logged.session with active := false, stopTime := 0 } }

def stopEvent : SessionEvent := { type := eventSessionStop, stopTime := unixSeconds zeroTime }

def recorded (logged : LoggedSession) : LoggedSession :=
  { logged with session := logged.session.addEvent stopEvent 0 }

/-- A session in `logs` with one viewer, and a call of `Stop`. -/
def watched (logged : LoggedSession) (viewing : Viewing) (thread : List Statement) :
    LiveSession where
  logged
  sessionFolder := lit "logs"
  arrays := if viewing.registered then [{}, { elements := [0], capacity := 1 }] else [{}]
  msgSignal := if viewing.registered then { array := 1, length := 1 } else {}
  threads := [Statement.handleClientConn none, thread]
  viewers := [viewing]

end LiveSession
end SSHProxyPlus
