import SSHProxyPlus.Browser.Value
import SSHProxyPlus.Browser.Text

/-! The events of a session as the page has them, and what each of them is to be shown as. -/
namespace SSHProxyPlus
open Go Browser

/-- The own properties of the object; `blob`, which nobody reads, is left out. -/
abbrev TerminalEvent := Object

/-- `atob` of a property; one that is missing is read as the text `undefined`. -/
def atobProperty (property : Option Value) : Option (List Char) :=
  atob ((property.map Value.toText).getD "undefined".toList)

theorem atobProperty_none : atobProperty none = none := by decide

def escape : Char := '\x1b'

/-- `.` in a regular expression. -/
def anyChar (c : Char) : Bool :=
  c ≠ '\n' && c ≠ '\r' && c ≠ '\u2028' && c ≠ '\u2029'

def exactly (text : List Char) : Pattern := text.map fun c d => d = c

def replaceList : List (Pattern × String) := [
  ([(· = escape), anyChar, (· = 'D')], "[LEFT ARROW]"),
  ([(· = escape), anyChar, (· = 'C')], "[RIGHT ARROW]"),
  ([(· = escape), anyChar, (· = 'A')], "[UP ARROW]"),
  ([(· = escape), anyChar, (· = 'B')], "[DOWN ARROW]"),
  ([(· = escape), anyChar, (· = 'F')], "[END]"),
  ([(· = escape), anyChar, (· = 'H')], "[HOME]"),
  (exactly [escape, '[', '3', '~'], "[DELETE]"),
  (exactly [escape, '[', '6', '~'], "[PAGE DOWN]"),
  (exactly [escape, '[', '5', '~'], "[PAGE UP]"),
  (exactly [escape, '[', '2', '~'], "[INSERT]"),
  (exactly [escape, 'O', 'P'], "[F1]"),
  (exactly [escape, 'O', 'Q'], "[F2]"),
  (exactly [escape, 'O', 'R'], "[F3]"),
  (exactly [escape, 'O', 'S'], "[F4]"),
  (exactly [escape, '[', '1', '5', '~'], "[F5]"),
  (exactly [escape, '[', '1', '7', '~'], "[F6]"),
  (exactly [escape, '[', '1', '8', '~'], "[F7]"),
  (exactly [escape, '[', '1', '9', '~'], "[F8]"),
  (exactly [escape, '[', '2', '0', '~'], "[F9]"),
  (exactly [escape, '[', '2', '1', '~'], "[F10]"),
  (exactly [escape, '[', '2', '3', '~'], "[F11]"),
  (exactly [escape, '[', '2', '4', '~'], "[F12]"),
  (exactly ['\t'], "[TAB]"),
  (exactly [escape], "[ESC]"),
  (exactly ['\r'], "[CARRIAGE RETURN]"),
  (exactly ['\n'], "[LINE FEED]"),
  (exactly ['\x7f'], "[BACKSPACE]")]

/-- `Ctrl` and each letter but the last; the character of code 1 belongs to `A`. -/
def signalList : List (Pattern × String) :=
  ("ABCDEFGHIJKLMNOPQRSTUVWXY".toList.zipIdx 1).map fun (letter, code) =>
    (exactly [Char.ofNat code], "[CTRL+" ++ letter.toString ++ "]")

def replaceEach (replacements : List (Pattern × String)) (data : List Char) : List Char :=
  replacements.foldl (fun data (pattern, name) => replaceFirst pattern name.toList data) data

/-- The control characters that are left; what is written for one holds none. -/
def nameControls (data : List Char) : List Char :=
  data.flatMap fun c =>
    if c.toNat < 0x20 ∧ c.toNat ≠ 9 ∧ c.toNat ≠ 10 then
      "[\\".toList ++ decimal c.toNat ++ [']']
    else [c]

/-- Every kind of key is named once in each text that is written. -/
def processKeystrokes (data : List Char) : List Char :=
  nameControls (replaceEach signalList (replaceEach replaceList data))

/-- Line ends as the terminal takes them. -/
def normalizeNewlines (data : List Char) : List Char :=
  expandNewlines (collapseNewlines false data)

namespace TerminalEvent
variable (event : TerminalEvent)

/-- `new TerminalEvent(blob)`, for what `JSON.parse` gives. The getter `time_offset` can not be
assigned to. -/
def construct : Json → Option TerminalEvent
  | .obj members =>
      if "time_offset".toList ∈ members.map Prod.fst then none
      else readMembers members Object.empty
  | _ => none

def timeOffset : Option Value := event.get "offset"

/-- The delay before the next event, at normal speed; without both offsets it is not a number. -/
def delay (next current : TerminalEvent) : Option Int :=
  match next.timeOffset, current.timeOffset with
  | some (.number next), some (.number current) => some (roundDouble (next - current))
  | _, _ => none

/-- The fields of the event go into the session, and its type is gone. -/
def updatesSession : Bool := event.has "type" "session-start" || event.has "type" "window-resize"

def incoming : Bool := event.has "type" "new-message" && event.has "direction" "incoming"

def outgoing : Bool := event.has "type" "new-message" && event.has "direction" "outgoing"

def execRequest : Bool := event.has "type" "new-request" && event.has "request_type" "exec"

def ptyRequest : Bool := event.has "type" "new-request" && event.has "request_type" "pty-req"

/-- What the event leaves in its place. -/
def played : TerminalEvent := if event.updatesSession then event.delete "type" else event

/-- The text of an incoming message, for the terminal. -/
def rendered : List Char :=
  if event.incoming then ((atobProperty (event.get "data")).map normalizeNewlines).getD [] else []

/-- What the user typed. -/
def typed : List Char :=
  if event.outgoing then
    match atobProperty (event.get "data") with
    | some data => if data ≠ ['\x00'] then data else []
    | none => []
  else if event.execRequest then
    ((atobProperty (event.get "request_payload")).map (List.drop 4)).getD []
  else []

/-- What is base64 in the event can be decoded. -/
def Decodable : Prop :=
  (event.incoming ∨ event.outgoing → atobProperty (event.get "data") ≠ none) ∧
    (event.execRequest → atobProperty (event.get "request_payload") ≠ none)

instance : Decidable event.Decodable := inferInstanceAs (Decidable (_ ∧ _))

def updateSession (session : Object) : Object :=
  if event.updatesSession then session.assign (event.delete "type")
  else if event.execRequest then session.set "terminal_type" (.text "exec".toList)
  else if event.ptyRequest then session.set "terminal_type" (.text "pty".toList)
  else session

def resize (ignoreResize : Bool) (size : Option (Option Value × Option Value)) :
    Option (Option Value × Option Value) :=
  if event.has "type" "window-resize" && !ignoreResize then
    some (event.get "term_rows", event.get "term_cols")
  else size

end TerminalEvent
end SSHProxyPlus
