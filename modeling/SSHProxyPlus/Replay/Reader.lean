import SSHProxyPlus.Replay.Event

/-! `TerminalReader`: the events of a session played in a terminal. When a timer fires is up
to the browser, so the speed and the delays are left out: the next event may be asked for at
any time. Drawing the status bar and the buttons changes nothing that is read here. -/
namespace SSHProxyPlus
open Go Browser

inductive KeystrokeNode where
  | text (data : List Char)
  | lineBreak

def KeystrokeNode.textContent : KeystrokeNode → List Char
  | .text data => data
  | .lineBreak => []

/-- What `reset_session` leaves. -/
def initialSession : Object :=
  (Object.empty.set "live" (.flag false)).set "feed_type" (.text "old".toList)

/-- `terminal` holds what was written since the terminal was last reset, and `windowSize` the
rows and columns it was last given; without any it has the initial size. -/
structure TerminalReader where
  events : List TerminalEvent := []
  eventIndex : Nat := 0
  paused : Bool := true
  terminalBuffer : List Char := []
  keystrokeBuffer : List Char := []
  session : Object := initialSession
  terminal : List (List Char) := []
  keystrokes : List KeystrokeNode := []
  windowSize : Option (Option Value × Option Value) := none
  ignoreResize : Bool := false

/-- A method that throws leaves the reader as it is at that point. -/
abbrev Call := Except TerminalReader TerminalReader

namespace TerminalReader
variable (reader : TerminalReader)

def isLive : Bool := (reader.session.get "live").any Value.truthy

/-- `is_live == false`; nothing but `true` and `false` is stored there by the reader. -/
def isNotLive : Bool :=
  match reader.session.get "live" with
  | some (.flag live) => !live
  | some (.number live) => live == 0
  | some (.text live) => live == []
  | none => false

/-- The text of the keystroke pane. -/
def keystrokeText : List Char := reader.keystrokes.flatMap KeystrokeNode.textContent

def loadEvents (events : List TerminalEvent) : TerminalReader :=
  { reader with events := reader.events ++ events }

def updateSession (properties : Object) : TerminalReader :=
  { reader with session := reader.session.assign properties }

def setSession (key : String) (value : Value) : TerminalReader :=
  { reader with session := reader.session.set key value }

def clearBuffers : TerminalReader := { reader with terminalBuffer := [], keystrokeBuffer := [] }

def clearEvents : TerminalReader := { reader with events := [], eventIndex := 0 }

def resize (rows cols : Option Value) : TerminalReader :=
  if reader.ignoreResize then reader else { reader with windowSize := some (rows, cols) }

def reset : TerminalReader :=
  let playing := { reader with
    paused := false
    session := initialSession
    terminal := []
    keystrokes := [] }.clearEvents
  let sized := if playing.ignoreResize then playing else { playing with windowSize := none }
  sized.clearBuffers

def writeKeystrokeBuffer (callback : TerminalReader → TerminalReader) : TerminalReader :=
  let data := processKeystrokes reader.keystrokeBuffer
  let written := reader.keystrokes ++ [.text data]
  let keystrokes :=
    if reader.session.has "terminal_type" "exec" then written ++ [.lineBreak] else written
  { callback { reader with keystrokes } with keystrokeBuffer := [] }

/-- The callback is called before the terminal has the text. -/
def writeTerminalBuffer (callback : TerminalReader → TerminalReader) : TerminalReader :=
  let data := reader.terminalBuffer
  let called := callback reader
  { called with terminal := called.terminal ++ [data], terminalBuffer := [] }

/-- `delete event.type` is seen by everybody who has the event. -/
def actionEvent (index : Nat) : Call :=
  match reader.events[index]? with
  | none => .error reader
  | some event =>
      if event.has "type" "session-start" then
        let event := event.delete "type"
        .ok ({ reader with events := reader.events.set index event }.updateSession event)
      else if event.has "type" "window-resize" then
        let event := event.delete "type"
        let updated := { reader with events := reader.events.set index event }.updateSession event
        .ok (updated.resize (event.get "term_rows") (event.get "term_cols"))
      else if event.has "type" "new-message" then
        if event.has "direction" "incoming" then
          match atobProperty (event.get "data") with
          | some decoded =>
              .ok { reader with
                terminalBuffer := reader.terminalBuffer ++ normalizeNewlines decoded }
          | none => .error reader
        else if event.has "direction" "outgoing" then
          match atobProperty (event.get "data") with
          | some decoded =>
              if decoded ≠ ['\x00'] then
                .ok { reader with keystrokeBuffer := reader.keystrokeBuffer ++ decoded }
              else .ok reader
          | none => .error reader
        else .ok reader
      else if event.has "type" "new-request" then
        if event.has "request_type" "exec" then
          let reader := reader.setSession "terminal_type" (.text "exec".toList)
          match atobProperty (event.get "request_payload") with
          | some payload =>
              .ok { reader with keystrokeBuffer := reader.keystrokeBuffer ++ payload.drop 4 }
          | none => .error reader
        else if event.has "request_type" "pty-req" then
          .ok (reader.setSession "terminal_type" (.text "pty".toList))
        else .ok reader
      else .ok reader

def writeBuffers (callback : TerminalReader → TerminalReader) (alwaysCallback : Bool) :
    TerminalReader :=
  if reader.terminalBuffer ≠ [] then
    let reader := if reader.keystrokeBuffer ≠ [] then reader.writeKeystrokeBuffer id else reader
    reader.writeTerminalBuffer callback
  else if reader.keystrokeBuffer ≠ [] then
    if alwaysCallback then reader.writeKeystrokeBuffer callback else reader.writeKeystrokeBuffer id
  else callback reader

def setSessionModeLive : TerminalReader :=
  (reader.setSession "live" (.flag true)).setSession "feed_type" (.text "live".toList)

def setSessionModeDisconnected : TerminalReader :=
  (reader.setSession "live" (.flag false)).setSession "feed_type" (.text "old".toList)

def pause : TerminalReader := { reader with paused := true }

def play : TerminalReader := { reader with paused := false }

/-- The callback of a live feed acknowledges the message to the proxy and leaves the reader
alone. -/
def processNextEvent : Call :=
  if reader.paused && !reader.isLive then .ok reader
  else if reader.eventIndex < reader.events.length then do
    let reader ← reader.actionEvent reader.eventIndex
    if !reader.paused then
      return reader.writeBuffers (fun reader => { reader with eventIndex := reader.eventIndex + 1 })
        true
    else return reader.clearBuffers
  else if reader.isNotLive then .ok reader.pause
  else .ok reader

/-- The speed itself is not modelled. -/
def changeSpeedToNewVal : TerminalReader := if reader.paused then reader else reader.pause.play

def next : Call :=
  if reader.eventIndex < reader.events.length then
    if reader.paused then do
      let reader ← reader.actionEvent reader.eventIndex
      let reader := reader.writeBuffers id true
      return { reader with eventIndex := reader.eventIndex + 1 }
    else reader.processNextEvent
  else .ok reader

/-- `for (; event_index <= new_index; event_index++)`, so many times. -/
def actionEvents : TerminalReader → Nat → Nat → Call
  | reader, _, 0 => .ok reader
  | reader, index, count + 1 => do
      let reader ← reader.actionEvent index
      actionEvents reader (index + 1) count

/-- The events from an index up to a new one, played at once into an empty keystroke pane. -/
def playUpTo (index newIndex : Nat) : Call := do
  let reader ← { reader with keystrokes := [] }.actionEvents index (newIndex + 1 - index)
  let reader := reader.writeBuffers id true
  return { reader with eventIndex := newIndex + 1 }

/-- `none` is what is not a number. It stays paused: nobody asks it to play on. -/
def moveToEvent : Option Int → Call
  | none => .ok reader
  | some eventId =>
      if eventId < 0 ∨ eventId > reader.events.length - 1 ∨ eventId = reader.eventIndex then
        .ok reader
      else
        let reader := reader.pause
        if eventId > reader.eventIndex then reader.playUpTo reader.eventIndex eventId.toNat
        else { reader with terminal := [] }.playUpTo 0 eventId.toNat

def prev : Call := reader.moveToEvent (some (max 0 ((reader.eventIndex : Int) - 2)))

end TerminalReader
end SSHProxyPlus
