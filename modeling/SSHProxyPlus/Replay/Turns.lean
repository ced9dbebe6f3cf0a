import SSHProxyPlus.Replay.Kept

/-! What a player shows of a session that it plays event by event from the first one on. -/
namespace SSHProxyPlus
open Go Browser

def requestPty : Bytes := lit "pty-req"

namespace SessionEvent
variable (e : SessionEvent)

/-- What is there for a page to decode is not missing. -/
structure Readable : Prop where
  data : e.type = eventMessage → e.direction = directionIncoming ∨ e.direction = directionOutgoing →
    e.data ≠ []
  payload : e.type = eventNewRequest → e.requestType = requestExec → e.requestPayload ≠ []

/-- Whether the session is one of a command, given whether it was. -/
def runsCommand (before : Bool) : Bool :=
  if e.type = eventNewRequest ∧ e.requestType = requestExec then true
  else if e.type = eventNewRequest ∧ e.requestType = requestPty then false
  else before

/-- The output of a session, as the terminal takes it. -/
def output (events : List SessionEvent) : List Char :=
  events.flatMap fun e => e.outputText normalizeNewlines

def runsCommandAfter (events : List SessionEvent) : Bool :=
  events.foldl (fun before e => e.runsCommand before) false

/-- What one event adds to the keystroke pane. -/
def keystrokesIn (command : Bool) : List KeystrokeNode :=
  if e.inputText = [] then []
  else if command then [.text (processKeystrokes e.inputText), .lineBreak]
  else [.text (processKeystrokes e.inputText)]

/-- Whether it is a command that runs, and the keystroke pane, after one event more. -/
def keystrokeStep (state : Bool × List KeystrokeNode) (e : SessionEvent) :
    Bool × List KeystrokeNode :=
  (e.runsCommand state.1, state.2 ++ e.keystrokesIn (e.runsCommand state.1))

/-- The keystroke pane after the events of a session. -/
def keystrokesOf (events : List SessionEvent) : List KeystrokeNode :=
  (events.foldl keystrokeStep (false, [])).2

theorem output_snoc (events : List SessionEvent) (e : SessionEvent) :
    output (events ++ [e]) = output events ++ e.outputText normalizeNewlines := by
  simp [output]

theorem runsCommandAfter_snoc (events : List SessionEvent) (e : SessionEvent) :
    runsCommandAfter (events ++ [e]) = e.runsCommand (runsCommandAfter events) := by
  simp [runsCommandAfter]

theorem keystrokes_fold (events : List SessionEvent) (state : Bool × List KeystrokeNode) :
    (events.foldl keystrokeStep state).1 =
      events.foldl (fun before e => e.runsCommand before) state.1 := by
  induction events generalizing state with
  | nil => rfl
  | cons e events ih => exact ih _

theorem keystrokesOf_snoc (events : List SessionEvent) (e : SessionEvent) :
    keystrokesOf (events ++ [e]) =
      keystrokesOf events ++ e.keystrokesIn (runsCommandAfter (events ++ [e])) := by
  have command := keystrokes_fold events (false, [])
  rw [runsCommandAfter_snoc, runsCommandAfter, ← command, keystrokesOf, List.foldl_append]
  rfl

variable {e : SessionEvent} {event kept later : TerminalEvent}

/-- A page has the event, played or not. -/
def KeptAs (e : SessionEvent) (kept : TerminalEvent) : Prop :=
  ∃ event, e.received = some event ∧ event.Leaves kept

theorem KeptAs.live (keptAs : e.KeptAs kept) : kept.get "live" = none := by
  obtain ⟨event, received, leaves⟩ := keptAs
  exact leaves.live.trans (received_live received)

theorem KeptAs.leaves (keptAs : e.KeptAs kept) (leaves : kept.Leaves later) : e.KeptAs later := by
  obtain ⟨event, received, before⟩ := keptAs
  exact ⟨event, received, before.trans leaves⟩

theorem forall₂_keptAs {events : List SessionEvent} {kept later : List TerminalEvent}
    (keptAs : List.Forall₂ KeptAs events kept)
    (leaves : List.Forall₂ TerminalEvent.Leaves kept later) : List.Forall₂ KeptAs events later := by
  induction keptAs generalizing later with
  | nil =>
    cases leaves
    exact List.Forall₂.nil
  | cons head tail ih =>
    cases leaves with
    | cons first rest => exact List.Forall₂.cons (head.leaves first) (ih rest)

theorem forall₂_live {events : List SessionEvent} {kept : List TerminalEvent}
    (keptAs : List.Forall₂ KeptAs events kept) : ∀ event ∈ kept, event.get "live" = none := by
  induction keptAs with
  | nil => exact List.forall_mem_nil _
  | cons head tail ih => exact List.forall_mem_cons.mpr ⟨head.live, ih⟩

theorem KeptAs.decodable (keptAs : e.KeptAs kept) (readable : e.Readable) : kept.Decodable := by
  obtain ⟨event, received, leaves⟩ := keptAs
  exact leaves.decodable.mpr ((received_decodable received).mpr ⟨readable.data, readable.payload⟩)

theorem KeptAs.rendered (keptAs : e.KeptAs kept) :
    kept.rendered = e.outputText normalizeNewlines := by
  obtain ⟨event, received, leaves⟩ := keptAs
  exact leaves.rendered.trans (received_rendered received)

theorem KeptAs.typed (keptAs : e.KeptAs kept) : kept.typed = e.inputText := by
  obtain ⟨event, received, rfl | rfl⟩ := keptAs
  · exact received_typed received
  · exact TerminalEvent.played_typed.trans (received_typed received)

theorem KeptAs.execRequest (keptAs : e.KeptAs kept) : kept.execRequest = true ↔
    e.type = eventNewRequest ∧ e.requestType = requestExec := by
  obtain ⟨event, received, rfl | rfl⟩ := keptAs
  · exact received_execRequest received
  · rw [TerminalEvent.played_execRequest]
    exact received_execRequest received

theorem received_ptyRequest (received : e.received = some event) : event.ptyRequest = true ↔
    e.type = eventNewRequest ∧ e.requestType = requestPty := by
  rw [TerminalEvent.ptyRequest, Bool.and_eq_true_iff, received_has_type received (by decide),
    has_field (by decide) (by decide) (received_requestType received)]
  rfl

theorem played_ptyRequest : event.played.ptyRequest = event.ptyRequest := by
  rw [TerminalEvent.ptyRequest, TerminalEvent.ptyRequest,
    TerminalEvent.played_type (by decide) (by decide), TerminalEvent.played_has _ _ (by decide)]

theorem KeptAs.ptyRequest (keptAs : e.KeptAs kept) : kept.ptyRequest = true ↔
    e.type = eventNewRequest ∧ e.requestType = requestPty := by
  obtain ⟨event, received, rfl | rfl⟩ := keptAs
  · exact received_ptyRequest received
  · rw [played_ptyRequest]
    exact received_ptyRequest received

/-- Nothing is recorded that names the type of the terminal. -/
theorem received_terminalType (received : e.received = some event) :
    event.get terminalType = none := by
  obtain ⟨other, same, -, others⟩ := received_properties e
  obtain rfl := Option.some.inj (same.symm.trans received)
  exact others _ (by decide +kernel)

theorem KeptAs.unnamed (keptAs : e.KeptAs kept) : kept.get terminalType = none := by
  obtain ⟨event, received, rfl | rfl⟩ := keptAs
  · exact received_terminalType received
  · rw [TerminalEvent.played_get (by decide)]
    exact received_terminalType received

end SessionEvent

def AllReadable (events : List SessionEvent) : Prop := ∀ e ∈ events, e.Readable

namespace TerminalEvent
variable {event : TerminalEvent}

/-- A session updater is no request. -/
theorem updatesSession_request (updates : event.updatesSession = true) :
    event.execRequest = false ∧ event.ptyRequest = false := by
  have other : event.has "type" "new-request" = false := by
    rcases Bool.or_eq_true_iff.mp updates with type | type
    · exact kind_unique type (by decide)
    · exact kind_unique type (by decide)
  simp [execRequest, ptyRequest, other]

end TerminalEvent

namespace SessionEvent
variable {e : SessionEvent} {kept : TerminalEvent}

theorem KeptAs.runsCommand (keptAs : e.KeptAs kept) (session : Object) :
    (kept.updateSession session).has terminalType "exec" =
      e.runsCommand (session.has terminalType "exec") := by
  have type : Object.get (kept.updateSession session) terminalType =
      if kept.execRequest then some (.text "exec".toList)
      else if kept.ptyRequest then some (.text "pty".toList)
      else session.get terminalType := by
    rw [TerminalEvent.updateSession_type, TerminalEvent.namedType]
    split
    · next updates =>
      obtain ⟨exec, pty⟩ := TerminalEvent.updatesSession_request updates
      rw [keptAs.unnamed, exec, pty]
      rfl
    · unfold TerminalEvent.requestedType
      split
      · rfl
      · split <;> rfl
  rw [Bool.eq_iff_iff, Object.has_iff, type]
  unfold SessionEvent.runsCommand
  simp only [← keptAs.execRequest, ← keptAs.ptyRequest]
  split
  · exact iff_of_true rfl rfl
  · split
    · exact iff_of_false (by decide) Bool.false_ne_true
    · exact Object.has_iff.symm

end SessionEvent

namespace TerminalReader
open SessionEvent (output keystrokesOf runsCommandAfter)
variable {reader : TerminalReader} {shown : List SessionEvent} {e : SessionEvent}
  {kept : TerminalEvent}

/-- The reader shows some events, each played for itself. -/
structure Turned (shown : List SessionEvent) (reader : TerminalReader) : Prop where
  index : reader.eventIndex = shown.length
  terminal : reader.terminal.flatten = output shown
  keystrokes : reader.keystrokes = keystrokesOf shown
  command : reader.session.has terminalType "exec" = runsCommandAfter shown
  terminalBuffer : reader.terminalBuffer = []
  keystrokeBuffer : reader.keystrokeBuffer = []

theorem reset_turned (reader : TerminalReader) : reader.reset.Turned [] := by
  have named : initialSession.has terminalType "exec" = false := by decide
  cases ignored : reader.ignoreResize <;>
    simp only [reset, clearEvents, clearBuffers, ignored] <;>
    exact ⟨rfl, rfl, rfl, named, rfl, rfl⟩

/-- What leaves alone all that is shown. -/
theorem Turned.frame (turned : reader.Turned shown) {after : TerminalReader}
    (index : after.eventIndex = reader.eventIndex) (terminal : after.terminal = reader.terminal)
    (keystrokes : after.keystrokes = reader.keystrokes)
    (type : after.session.get terminalType = reader.session.get terminalType)
    (terminalBuffer : after.terminalBuffer = reader.terminalBuffer)
    (keystrokeBuffer : after.keystrokeBuffer = reader.keystrokeBuffer) : after.Turned shown where
  index := index.trans turned.index
  terminal := by rw [terminal, turned.terminal]
  keystrokes := keystrokes.trans turned.keystrokes
  command := by rw [Object.has, type, ← Object.has, turned.command]
  terminalBuffer := terminalBuffer.trans turned.terminalBuffer
  keystrokeBuffer := keystrokeBuffer.trans turned.keystrokeBuffer

/-- One turn of a player that is playing. -/
theorem Turned.turn (turned : reader.Turned shown) (playing : reader.paused = false)
    (found : reader.events[reader.eventIndex]? = some kept) (keptAs : e.KeptAs kept)
    (readable : e.Readable) : ∃ after, reader.processNextEvent = .ok after ∧
      after.Turned (shown ++ [e]) ∧ after.paused = false ∧
      after.events = reader.events.set reader.eventIndex kept.played ∧
      after.session = kept.updateSession reader.session := by
  have command := keptAs.runsCommand reader.session
  rw [processNextEvent_playing playing found, if_pos (keptAs.decodable readable),
    writeBuffers_eq _ (· + 1)]
  refine ⟨_, rfl, ?_, playing, rfl, rfl⟩
  refine ⟨?_, ?_, ?_, ?_, rfl, rfl⟩
  · rw [List.length_append]
    exact congrArg (· + 1) turned.index
  · have text : ∀ buffer : List Char,
        (reader.terminal ++ if buffer = [] then [] else [buffer]).flatten =
          reader.terminal.flatten ++ buffer := by
      intro buffer
      split
      · next nothing => simp [nothing]
      · simp
    refine (text _).trans ?_
    simp only [acted, turned.terminalBuffer, List.nil_append]
    rw [turned.terminal, keptAs.rendered, SessionEvent.output_snoc]
  · simp only [acted, turned.keystrokeBuffer, List.nil_append]
    rw [turned.keystrokes, SessionEvent.keystrokesOf_snoc, SessionEvent.runsCommandAfter_snoc,
      ← turned.command, ← command, keptAs.typed]
    rfl
  · rw [SessionEvent.runsCommandAfter_snoc, ← turned.command]
    exact command

theorem isLive_of_isNotLive (old : reader.isNotLive = true) : reader.isLive = false := by
  unfold isNotLive at old
  unfold isLive
  cases mode : reader.session.get "live" with
  | none => rfl
  | some value =>
    rw [mode] at old
    cases value with
    | flag live =>
      change live = false
      simpa using old
    | number live =>
      have zero : live = 0 := by simpa using old
      rw [zero]
      decide
    | text live =>
      have empty : live = [] := by simpa using old
      rw [empty]
      decide

/-- A reader that is live has not been paused. -/
def Attentive (reader : TerminalReader) : Prop := reader.paused = true → reader.isLive = false

theorem setSession_type (session : Object) {key : String} (other : terminalType.toList ≠ key.toList)
    (value : Value) : (session.set key value).get terminalType = session.get terminalType :=
  Object.set_ne session other value

theorem Turned.setSessionModeLive (turned : reader.Turned shown) :
    reader.setSessionModeLive.Turned shown := by
  refine turned.frame rfl rfl rfl ?_ rfl rfl
  refine (setSession_type (reader.session.set "live" (.flag true)) (by decide) _).trans ?_
  exact setSession_type reader.session (by decide) _

theorem Turned.setSessionModeDisconnected (turned : reader.Turned shown) :
    reader.setSessionModeDisconnected.Turned shown := by
  refine turned.frame rfl rfl rfl ?_ rfl rfl
  refine (setSession_type (reader.session.set "live" (.flag false)) (by decide) _).trans ?_
  exact setSession_type reader.session (by decide) _

theorem setSessionModeDisconnected_isLive (reader : TerminalReader) :
    reader.setSessionModeDisconnected.isLive = false := by
  have other : "live".toList ≠ "feed_type".toList := by decide
  have kept := Object.set_ne (reader.session.set "live" (.flag false)) other (.text "old".toList)
  have mode : reader.setSessionModeDisconnected.session.get "live" = some (.flag false) :=
    kept.trans (Object.set_get reader.session "live" (.flag false))
  rw [isLive, mode]
  rfl

theorem reset_attentive (reader : TerminalReader) : reader.reset.paused = false := by
  cases ignored : reader.ignoreResize <;> simp [reset, clearEvents, clearBuffers, ignored]

/-- A timeout: a turn is taken, or nothing is shown by it. -/
inductive Expires (reader after : TerminalReader) : Prop where
  | turn (kept : TerminalEvent) (playing : reader.paused = false)
      (found : reader.events[reader.eventIndex]? = some kept)
  | still (same : after = reader) (resting : reader.paused = false →
      reader.events.length ≤ reader.eventIndex)
  | pauses (old : reader.isLive = false) (same : after = reader.pause)
      (ended : reader.events.length ≤ reader.eventIndex)

theorem processNextEvent_expires (attentive : reader.Attentive) :
    Expires reader (left reader.processNextEvent) := by
  cases playing : reader.paused with
  | true =>
    refine .still ?_ fun still => absurd (playing.symm.trans still) (by decide)
    have rests : (reader.paused && !reader.isLive) = true := by simp [playing, attentive playing]
    rw [processNextEvent, if_pos rests]
    rfl
  | false =>
    by_cases more : reader.eventIndex < reader.events.length
    · exact .turn _ playing (List.getElem?_eq_getElem more)
    · have goesOn : ¬(reader.paused && !reader.isLive) = true := by simp [playing]
      rw [processNextEvent, if_neg goesOn, if_neg more]
      split
      · next old => exact .pauses (isLive_of_isNotLive old) rfl (Nat.le_of_not_lt more)
      · exact .still rfl fun _ => Nat.le_of_not_lt more

end TerminalReader
end SSHProxyPlus
