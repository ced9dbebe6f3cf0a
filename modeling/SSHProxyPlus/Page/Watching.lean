import SSHProxyPlus.Replay.Kept
import SSHProxyPlus.Web.SocketHandler

/-! A session that is watched: `playSession` at the proxy, `run_session_from_socket` in a page, and
between them a websocket that keeps the order of what is sent either way. -/
namespace SSHProxyPlus
open Go Browser

def ackMessage : Bytes := lit "ack"

/-- What the proxy writes for an event. -/
def SessionEvent.message (event : SessionEvent) : SocketReply :=
  .text (SessionEvent.codec.marshal event)

namespace TerminalReader
variable (reader : TerminalReader)

/-- How often `write_buffers` calls its callback. -/
def writeBuffersCalls (alwaysCallback : Bool) : Nat :=
  if reader.terminalBuffer ≠ [] then 1
  else if reader.keystrokeBuffer ≠ [] then if alwaysCallback then 1 else 0
  else 1

/-- How often `process_next_event` calls its callback. -/
def processNextEventCalls : Nat :=
  if reader.paused && !reader.isLive then 0
  else if reader.eventIndex < reader.events.length then
    match reader.actionEvent reader.eventIndex with
    | .ok reader => if !reader.paused then reader.writeBuffersCalls true else 1
    | .error _ => 0
  else if reader.isNotLive then 0
  else 1

end TerminalReader

/-- A page that watches a session; `active` is what it was told of the session in a list. -/
structure WatchingPage where
  reader : TerminalReader
  active : Bool
  isOpen : Bool := true

namespace WatchingPage
variable (page : WatchingPage)

/-- `socket.onopen`. -/
def opened (active : Bool) (reader : TerminalReader) : WatchingPage where
  reader := if active then reader.setSessionModeLive else reader.setSessionModeDisconnected.pause
  active := active

def sessionStop : WatchingPage :=
  if page.active then
    { page with isOpen := false, reader := page.reader.setSessionModeDisconnected }
  else { page with isOpen := false, reader := page.reader.play }

def stopAfter (event : TerminalEvent) : WatchingPage :=
  if event.has "type" "session-stop" then page.sessionStop else page

/-- What comes of an event, and what is sent for it. What throws ends the handler. -/
def receiveEvent (event : TerminalEvent) : WatchingPage × List Bytes :=
  let reader := page.reader.loadEvents [event]
  if page.active then
    let sent := List.replicate reader.processNextEventCalls ackMessage
    match reader.processNextEvent with
    | .ok reader => ({ page with reader }.stopAfter event, sent)
    | .error reader => ({ page with reader }, sent)
  else ({ page with reader }.stopAfter event, [ackMessage])

/-- `socket.onmessage`. -/
def onMessage : SocketReply → WatchingPage × List Bytes
  | .text data =>
      match (parse (runes data)).bind TerminalEvent.construct with
      | some event => page.receiveEvent event
      | none => (page, [])
  | .binary _ => (page, [])

end WatchingPage

/-- `toPage` and `toProxy` are in flight. -/
structure Watch where
  session : SessionContext
  playback : Playback := {}
  page : WatchingPage
  toPage : List SocketReply := []
  toProxy : List Bytes := []

inductive WatchAction where
  | addEvent (event : SessionEvent) (now : Time)
  | signal (signal : Signal)
  /-- A step of the proxy that reads nothing. -/
  | advance
  | readReply
  | readError
  | deliver
  /-- The control bar of the reader, or one of its timeouts. -/
  | operate (operation : ReaderOperation)
  /-- The page turns to another session. -/
  | close
  | disconnect

namespace Watch

/-- The proxy has taken a step, and what it writes is on its way. -/
def proceed (watch : Watch) (playback : Playback) : Watch :=
  { watch with playback, toPage := watch.toPage ++ playback.written }

/-- Reading fails once nothing more can come from the page. -/
def perform (watch : Watch) : WatchAction → Option Watch
  | .addEvent event now => some { watch with session := watch.session.addEvent event now }
  | .signal signal =>
      (watch.playback.receiveSignal signal).map fun playback => { watch with playback }
  | .advance =>
      match watch.playback.step with
      | .sending _ _ => none
      | _ => (watch.playback.advance watch.session.events none).map watch.proceed
  | .readReply =>
      match watch.playback.step, watch.toProxy with
      | .sending _ _, reply :: rest =>
          (watch.playback.advance watch.session.events (some reply)).map
            { watch with toProxy := rest }.proceed
      | _, _ => none
  | .readError =>
      match watch.playback.step with
      | .sending _ _ =>
          if watch.page.isOpen ∨ watch.toProxy ≠ [] then none
          else (watch.playback.advance watch.session.events none).map watch.proceed
      | _ => none
  | .deliver =>
      match watch.toPage with
      | [] => none
      | message :: rest =>
          if watch.page.isOpen then
            let (page, sent) := watch.page.onMessage message
            some { watch with page, toPage := rest, toProxy := watch.toProxy ++ sent }
          else some { watch with toPage := rest }
  | .operate operation =>
      if operation.navigates then some { watch with
        page := { watch.page with
          reader := TerminalReader.left (watch.page.reader.perform operation) } }
      else none
  | .close => some { watch with page := { watch.page with isOpen := false } }
  | .disconnect => some { watch with
      page := { watch.page with isOpen := false }, toPage := [], toProxy := [] }

theorem perform_deliver {watch : Watch} {message : SocketReply} {rest : List SocketReply}
    (isOpen : watch.page.isOpen = true) (flying : watch.toPage = message :: rest) :
    watch.perform .deliver = some { watch with
      page := (watch.page.onMessage message).1
      toPage := rest
      toProxy := watch.toProxy ++ (watch.page.onMessage message).2 } := by
  simp only [perform, flying, isOpen, if_true]

/-- The reader was reset before the socket was opened, and timeouts may have expired in between. -/
def Opening (active : Bool) (expired : Nat) (watch : Watch) : Prop :=
  watch.playback = {} ∧ watch.toPage = [] ∧ watch.toProxy = [] ∧
    ∃ reader : TerminalReader, watch.page = .opened active
      (reader.reset.performAll (List.replicate expired .processNextEvent))

def runs (active : Bool) : Transition.System Watch WatchAction where
  init watch := ∃ expired, watch.Opening active expired
  step watch action next := watch.perform action = some next

end Watch

namespace Playback
variable {viewer next : Playback} {events : List SessionEvent}

/-- Some events more are sent, and written: as many as there are write loops to be in. -/
def Writes (viewer next : Playback) : Prop :=
  ∃ new : List SessionEvent, next.sent = viewer.sent ++ new ∧
    next.written = new.map SessionEvent.message ∧ new.length = next.step.entered

theorem sendNext_writes (viewer : Playback) (newEventIndex : Nat) (batch : List SessionEvent) :
    viewer.Writes (viewer.sendNext newEventIndex batch) := by
  cases batch with
  | nil => exact ⟨[], (List.append_nil viewer.sent).symm, rfl, rfl⟩
  | cons event rest =>
    refine ⟨[event], rfl, ?_, rfl⟩
    simp [sendNext, written, SessionEvent.message]

theorem sendLatestEvents_writes (consistent : viewer.Consistent events)
    {newEventIndex : Nat} (stands : viewer.step = .measured newEventIndex) :
    viewer.Writes (viewer.sendLatestEvents events newEventIndex) := by
  obtain ⟨after, inside⟩ := consistent.measured newEventIndex (by rw [stands]; rfl)
  rw [sendLatestEvents, sliceEvents, if_pos ⟨after, inside⟩]
  exact viewer.sendNext_writes newEventIndex _

/-- A step of the proxy, when a write loop can only be left by it. -/
theorem advance_writes (consistent : viewer.Consistent events) {reply : Option Bytes}
    (ends : viewer.step.entered = 1 → endsLoop reply = true)
    (moved : viewer.advance events reply = some next) : viewer.Writes next := by
  have idle (step : PlayStep) (quiet : step.entered = 0)
      (silent : Playback.written { viewer with step } = []) :
      viewer.Writes { viewer with step } :=
    ⟨[], (List.append_nil viewer.sent).symm, silent, quiet.symm⟩
  unfold Playback.advance at moved
  cases stands : viewer.step with
  | start =>
    rw [stands] at moved
    exact Option.some.inj moved ▸ idle _ rfl rfl
  | unregistered newEventIndex =>
    rw [stands] at moved
    exact Option.some.inj moved ▸ idle _ rfl rfl
  | measured newEventIndex =>
    rw [stands] at moved
    exact Option.some.inj moved ▸ sendLatestEvents_writes consistent stands
  | sending rest newEventIndex =>
    rw [stands] at moved ends
    rw [← Option.some.inj moved, receiveReply, if_pos (ends rfl)]
    exact sendNext_writes _ newEventIndex rest
  | signalled =>
    rw [stands] at moved
    exact Option.some.inj moved ▸ idle _ rfl rfl
  | waiting | returned | panicked =>
    rw [stands] at moved
    contradiction

end Playback
end SSHProxyPlus
