import SSHProxyPlus.Replay.Shown
import SSHProxyPlus.Replay.TypedKeys
import SSHProxyPlus.Transition.System

/-! Seeking against playing. What a seek leaves depends on how far the reader has ever been: what
was played after the target stays in the session, since an event that updates the session does
so only once; and the pane has the keystrokes of the events that the seek itself went over,
read as one text. -/
namespace SSHProxyPlus
open Go Browser

abbrev terminalType : String := "terminal_type"

namespace TerminalEvent
variable {event : TerminalEvent}

/-- The type of terminal that a request names. -/
def requestedType (event : TerminalEvent) : Option Value :=
  if event.execRequest then some (.text "exec".toList)
  else if event.ptyRequest then some (.text "pty".toList)
  else none

/-- The type of terminal that the session gets from an event. -/
def namedType (event : TerminalEvent) : Option Value :=
  if event.updatesSession then event.get terminalType else event.requestedType

/-- What the last of the events has that have it. -/
def lastOf {β : Type} (f : TerminalEvent → Option β) (events : List TerminalEvent) : Option β :=
  events.reverse.findSome? f

/-- The session after events that were played once each, in order. -/
def sessionAfter (events : List TerminalEvent) : Object :=
  events.foldl (fun session event => event.updateSession session) initialSession

/-- The size of the window after them. -/
def sizeAfter (ignoreResize : Bool) (events : List TerminalEvent) :
    Option (Option Value × Option Value) :=
  events.foldl (fun size event => event.resize ignoreResize size) none

section Last
variable {β : Type} (f : TerminalEvent → Option β)

theorem lastOf_append (first second : List TerminalEvent) :
    lastOf f (first ++ second) = (lastOf f second).or (lastOf f first) := by
  rw [lastOf, List.reverse_append, List.findSome?_append]
  rfl

theorem lastOf_snoc (events : List TerminalEvent) (event : TerminalEvent) :
    lastOf f (events ++ [event]) = (f event).or (lastOf f events) := by
  rw [lastOf_append, lastOf, List.reverse_singleton, List.findSome?_singleton]

theorem lastOf_map (g : TerminalEvent → TerminalEvent) (events : List TerminalEvent) :
    lastOf f (events.map g) = lastOf (f ∘ g) events := by
  rw [lastOf, ← List.map_reverse, List.findSome?_map]
  rfl

end Last

theorem updateSession_type (session : Object) :
    Object.get (event.updateSession session) terminalType =
      event.namedType.or (session.get terminalType) := by
  unfold updateSession namedType requestedType
  split
  · have own : Object.get (event.delete "type") terminalType = event.get terminalType :=
      Object.delete_get_ne _ (by decide)
    rw [← own]
    exact Object.assign_get _ _ _
  · split
    · exact Object.set_get _ _ _
    · split
      · exact Object.set_get _ _ _
      · rfl

theorem foldl_type (events : List TerminalEvent) (session : Object) :
    Object.get (events.foldl (fun session event => event.updateSession session) session)
      terminalType = (lastOf namedType events).or (session.get terminalType) := by
  induction events using List.reverseRecOn with
  | nil => rfl
  | append_singleton events event ih =>
    rw [List.foldl_append, List.foldl_cons, List.foldl_nil, updateSession_type, ih, lastOf_snoc,
      Option.or_assoc]

theorem updateSession_played {key : List Char} (other : key ≠ terminalType.toList)
    (session : Object) : event.played.updateSession session key = session key := by
  rw [updateSession, if_neg (by simp [played_updatesSession])]
  split
  · exact Object.set_ne _ other _
  · split
    · exact Object.set_ne _ other _
    · rfl

theorem updateSession_congr {key : List Char} (other : key ≠ terminalType.toList)
    {session session' : Object} (same : session key = session' key) :
    event.updateSession session key = event.updateSession session' key := by
  unfold updateSession
  split
  · rw [Object.assign, Object.assign, same]
  · split
    · rw [Object.set_ne _ other, Object.set_ne _ other, same]
    · split
      · rw [Object.set_ne _ other, Object.set_ne _ other, same]
      · exact same

theorem resize_played (ignoreResize : Bool) (size : Option (Option Value × Option Value)) :
    event.played.resize ignoreResize size = size := by
  have type : event.played.has "type" "window-resize" = false :=
    (Bool.or_eq_false_iff.mp played_updatesSession).2
  simp [resize, type]

theorem sessionAfter_snoc (events : List TerminalEvent) (event : TerminalEvent) :
    sessionAfter (events ++ [event]) = event.updateSession (sessionAfter events) := by
  simp [sessionAfter]

theorem sizeAfter_snoc (ignoreResize : Bool) (events : List TerminalEvent)
    (event : TerminalEvent) : sizeAfter ignoreResize (events ++ [event]) =
      event.resize ignoreResize (sizeAfter ignoreResize events) := by
  simp [sizeAfter]

/-- A request names its type each time, another event the first time. -/
theorem played_namedType : event.played.namedType = event.requestedType := by
  rw [namedType, if_neg (by simp [played_updatesSession]), requestedType, requestedType,
    played_execRequest, played_ptyRequest]

end TerminalEvent

namespace TerminalReader
open TerminalEvent
variable {recorded : List TerminalEvent} {reader next : TerminalReader} {far cursor : Nat}

/-- The events once those before an index have been played. -/
def faded (far : Nat) (recorded : List TerminalEvent) : List TerminalEvent :=
  (recorded.take far).map TerminalEvent.played ++ recorded.drop far

theorem faded_length (far : Nat) (recorded : List TerminalEvent) :
    (faded far recorded).length = recorded.length := by
  rw [faded, List.length_append, List.length_map, ← List.length_append, List.take_append_drop]

theorem length_front (within : far ≤ recorded.length) :
    ((recorded.take far).map TerminalEvent.played).length = far := by
  rw [List.length_map, List.length_take, Nat.min_eq_left within]

theorem faded_before (before : cursor < far) (within : cursor < recorded.length) :
    (faded far recorded)[cursor]? = some recorded[cursor].played := by
  have inside : cursor < ((recorded.take far).map TerminalEvent.played).length := by
    rw [List.length_map, List.length_take]
    omega
  rw [faded, List.getElem?_append_left inside, List.getElem?_map,
    List.getElem?_take_of_lt before, List.getElem?_eq_getElem within]
  rfl

theorem faded_at (within : far < recorded.length) :
    (faded far recorded)[far]? = some recorded[far] := by
  have front := length_front (Nat.le_of_lt within)
  rw [faded, List.getElem?_append_right (Nat.le_of_eq front), front, Nat.sub_self,
    List.getElem?_drop, Nat.add_zero, List.getElem?_eq_getElem within]

theorem take_succ_getElem (within : far < recorded.length) :
    recorded.take (far + 1) = recorded.take far ++ [recorded[far]] := by
  rw [List.take_add_one, List.getElem?_eq_getElem within]
  rfl

theorem faded_set (within : far < recorded.length) :
    (faded far recorded).set far recorded[far].played = faded (far + 1) recorded := by
  have front := length_front (Nat.le_of_lt within)
  rw [faded, List.set_append_right _ _ (Nat.le_of_eq front), front, Nat.sub_self,
    List.drop_eq_getElem_cons within, List.set_cons_zero, faded, take_succ_getElem within,
    List.map_append, List.append_assoc]
  rfl

/-- What playing has left so far: the events up to `far` were played, and of late those before
the cursor. Which type of terminal was named last depends on the route. -/
structure Follows (recorded : List TerminalEvent) (far cursor : Nat) (reader : TerminalReader) :
    Prop where
  events : reader.events = faded far recorded
  behind : cursor ≤ far
  within : far ≤ recorded.length
  decodable : ∀ event ∈ recorded.take far, event.Decodable
  session : ∀ key, key ≠ terminalType.toList →
    reader.session key = sessionAfter (recorded.take far) key
  size : reader.windowSize = sizeAfter reader.ignoreResize (recorded.take far)

/-- A new reader, nothing played yet. -/
theorem Follows.start (events : reader.events = recorded)
    (session : reader.session = sessionAfter []) (size : reader.windowSize = none) :
    Follows recorded 0 0 reader where
  events := events
  behind := Nat.le_refl 0
  within := Nat.zero_le _
  decodable := List.forall_mem_nil _
  session key _ := congrFun session key
  size := size

/-- An event that was played before: it only asks for its type of terminal again. -/
theorem Follows.again (follows : Follows recorded far cursor reader) (before : cursor < far)
    (acted : reader.actionEvent cursor = .ok next) : Follows recorded far (cursor + 1) next := by
  obtain ⟨events, behind, within, decodable, session, size⟩ := follows
  have more : cursor < recorded.length := by omega
  have here : reader.events[cursor]? = some recorded[cursor].played :=
    events ▸ faded_before before more
  obtain ⟨-, rfl⟩ := actionEvent_ok here acted
  have unchanged : reader.events.set cursor recorded[cursor].played.played = reader.events := by
    obtain ⟨inside, same⟩ := List.getElem?_eq_some_iff.mp here
    rw [TerminalEvent.played_played, ← same]
    exact List.set_getElem_self inside
  refine ⟨unchanged.trans events, before, within, decodable, fun key other => ?_, ?_⟩
  · exact (TerminalEvent.updateSession_played other _).trans (session key other)
  · exact (TerminalEvent.resize_played _ _).trans size

/-- An event that is played for the first time. -/
theorem Follows.first (follows : Follows recorded far far reader) (more : far < recorded.length)
    (acted : reader.actionEvent far = .ok next) : Follows recorded (far + 1) (far + 1) next := by
  obtain ⟨events, behind, within, decodable, session, size⟩ := follows
  have here : reader.events[far]? = some recorded[far] := events ▸ faded_at more
  obtain ⟨readable, rfl⟩ := actionEvent_ok here acted
  refine ⟨?_, Nat.le_refl _, more, ?_, fun key other => ?_, ?_⟩
  · rw [← faded_set more, ← events]
    rfl
  · rw [take_succ_getElem more]
    intro event member
    rcases List.mem_append.mp member with old | new
    · exact decodable event old
    · exact List.mem_singleton.mp new ▸ readable
  · rw [take_succ_getElem more, TerminalEvent.sessionAfter_snoc]
    exact TerminalEvent.updateSession_congr other (session key other)
  · rw [take_succ_getElem more, TerminalEvent.sizeAfter_snoc]
    exact congrArg (recorded[far].resize reader.ignoreResize) size

/-- One event at the cursor. -/
theorem Follows.act (follows : Follows recorded far cursor reader)
    (more : cursor < recorded.length) (acted : reader.actionEvent cursor = .ok next) :
    Follows recorded (max far (cursor + 1)) (cursor + 1) next := by
  rcases Nat.lt_or_eq_of_le follows.behind with before | rfl
  · rw [Nat.max_eq_left before]
    exact follows.again before acted
  · rw [Nat.max_eq_right (Nat.le_succ _)]
    exact follows.first more acted

/-- All that counts is the events, the session and the window. -/
theorem Follows.frame (follows : Follows recorded far cursor reader)
    (events : next.events = reader.events) (session : next.session = reader.session)
    (size : next.windowSize = reader.windowSize)
    (ignores : next.ignoreResize = reader.ignoreResize) : Follows recorded far cursor next where
  events := events.trans follows.events
  behind := follows.behind
  within := follows.within
  decodable := follows.decodable
  session key other := session ▸ follows.session key other
  size := by rw [size, ignores, follows.size]

/-- A part from the cursor on. -/
theorem Follows.acts {count : Nat} (follows : Follows recorded far cursor reader)
    (more : cursor + count ≤ recorded.length)
    (acted : reader.actionEvents cursor count = .ok next) :
    Follows recorded (max far (cursor + count)) (cursor + count) next := by
  induction count generalizing reader far cursor with
  | zero =>
    obtain rfl := Except.ok.inj acted
    rw [Nat.add_zero, Nat.max_eq_left follows.behind]
    exact follows
  | succ count ih =>
    obtain ⟨mid, first, rest⟩ := actionEvents_succ acted
    have after := ih (follows.act (by omega) first) (by omega) rest
    rw [show cursor + 1 + count = cursor + (count + 1) by omega] at after
    rwa [show max (max far (cursor + 1)) (cursor + (count + 1)) =
      max far (cursor + (count + 1)) by omega] at after

/-- Starting over. -/
theorem Follows.restart (follows : Follows recorded far cursor reader) :
    Follows recorded far 0 reader := { follows with behind := Nat.zero_le far }

/-- A reader that was only played, stepped and sought in. -/
structure Navigated (recorded : List TerminalEvent) (ignoreResize : Bool) (far : Nat)
    (reader : TerminalReader) : Prop where
  follows : Follows recorded far reader.eventIndex reader
  keystrokeBuffer : reader.keystrokeBuffer = []
  ignores : reader.ignoreResize = ignoreResize

variable {ignoreResize : Bool}

theorem Navigated.length (navigated : Navigated recorded ignoreResize far reader) :
    reader.events.length = recorded.length := by
  rw [navigated.follows.events, faded_length]

/-- What leaves the events, the index and the session alone. -/
theorem Navigated.still (navigated : Navigated recorded ignoreResize far reader)
    (events : next.events = reader.events) (index : next.eventIndex = reader.eventIndex)
    (session : next.session = reader.session) (size : next.windowSize = reader.windowSize)
    (ignores : next.ignoreResize = reader.ignoreResize)
    (empty : next.keystrokeBuffer = reader.keystrokeBuffer) :
    Navigated recorded ignoreResize (max far next.eventIndex) next := by
  rw [index, Nat.max_eq_left navigated.follows.behind]
  refine ⟨?_, empty.trans navigated.keystrokeBuffer, ignores.trans navigated.ignores⟩
  rw [index]
  exact navigated.follows.frame events session size ignores

/-- One event at the index, before it is written. -/
theorem Navigated.act (navigated : Navigated recorded ignoreResize far reader)
    (more : reader.eventIndex < reader.events.length)
    (acted : reader.actionEvent reader.eventIndex = .ok next) :
    Follows recorded (max far (reader.eventIndex + 1)) (reader.eventIndex + 1) next ∧
      next.eventIndex = reader.eventIndex ∧ next.ignoreResize = ignoreResize := by
  have follows := navigated.follows.act (navigated.length ▸ more) acted
  obtain ⟨-, rfl⟩ := actionEvent_ok (List.getElem?_eq_getElem more) acted
  exact ⟨follows, rfl, navigated.ignores⟩

/-- Writing out what was played. -/
theorem Follows.written (follows : Follows recorded far cursor reader)
    (ignores : reader.ignoreResize = ignoreResize) (f : Nat → Nat) :
    Navigated recorded ignoreResize far
      { reader.writeBuffers (fun reader => { reader with eventIndex := f reader.eventIndex }) true
        with eventIndex := cursor } := by
  rw [writeBuffers_eq]
  exact ⟨follows.frame rfl rfl rfl rfl, rfl, ignores⟩

theorem Navigated.processNextEvent (navigated : Navigated recorded ignoreResize far reader)
    (old : reader.isLive = false) (returned : reader.processNextEvent = .ok next) :
    Navigated recorded ignoreResize (max far next.eventIndex) next := by
  cases playing : reader.paused with
  | true =>
    rw [TerminalReader.processNextEvent, playing, old] at returned
    obtain rfl := Except.ok.inj returned
    exact navigated.still rfl rfl rfl rfl rfl rfl
  | false =>
    by_cases more : reader.eventIndex < reader.events.length
    · have found := List.getElem?_eq_getElem more
      rw [processNextEvent_playing playing found] at returned
      split at returned
      · next decodable =>
        obtain ⟨follows, -, ignores⟩ := navigated.act more (actionEvent_acted found decodable)
        obtain rfl := Except.ok.inj returned
        have written := follows.written ignores (· + 1)
        rw [writeBuffers_eq _ (· + 1)] at written ⊢
        exact written
      · contradiction
    · rw [TerminalReader.processNextEvent, playing, Bool.false_and, if_neg Bool.false_ne_true,
        if_neg more] at returned
      split at returned <;> obtain rfl := Except.ok.inj returned <;>
        exact navigated.still rfl rfl rfl rfl rfl rfl

theorem Navigated.nextEvent (navigated : Navigated recorded ignoreResize far reader)
    (old : reader.isLive = false) (returned : reader.next = .ok next) :
    Navigated recorded ignoreResize (max far next.eventIndex) next := by
  unfold TerminalReader.next at returned
  split at returned
  · next more =>
    split at returned
    · cases taken : reader.actionEvent reader.eventIndex with
      | error thrown => rw [taken] at returned; contradiction
      | ok mid =>
        obtain ⟨follows, index, ignores⟩ := navigated.act more taken
        rw [taken] at returned
        simp only [bind, Except.bind, pure, Except.pure] at returned
        obtain rfl := Except.ok.inj returned
        have written := follows.written ignores id
        rw [writeBuffers_id, writeBuffers_eq]
        rw [writeBuffers_eq, ← index] at written
        exact written
    · exact navigated.processNextEvent old returned
  · obtain rfl := Except.ok.inj returned
    exact navigated.still rfl rfl rfl rfl rfl rfl

/-- A seek starts over, or goes on from the index. -/
theorem Navigated.seekBase (navigated : Navigated recorded ignoreResize far reader)
    (target : Nat) : Follows recorded far (reader.seekStart target)
      { reader.seekBase target with keystrokes := [] } := by
  unfold seekStart
  split
  · exact navigated.follows.frame rfl rfl rfl rfl
  · exact navigated.follows.restart.frame rfl rfl rfl rfl

/-- What a seek plays before it writes anything. -/
theorem Navigated.seek_acted (navigated : Navigated recorded ignoreResize far reader)
    {target : Nat} (within : target < reader.events.length) (other : target ≠ reader.eventIndex)
    (moved : reader.moveToEvent (some target) = .ok next) :
    ∃ mid, next = { mid.writeBuffers id true with eventIndex := target + 1 } ∧
      mid = { reader.seekBase target with keystrokes := [] }.actedPart (reader.seekStart target)
        (target + 1 - reader.seekStart target) ∧
      Follows recorded (max far (target + 1)) (target + 1) mid ∧
      mid.ignoreResize = ignoreResize := by
  rw [moveToEvent_seeks within other] at moved
  obtain ⟨mid, acted, rfl⟩ := playUpTo_ok moved
  have last := reader.seekStart_add target
  have inside : target + 1 ≤ recorded.length := navigated.length ▸ within
  have after := (navigated.seekBase target).acts (last.trans_le inside) acted
  rw [last] at after
  have result : mid = { reader.seekBase target with keystrokes := [] }.actedPart
      (reader.seekStart target) (target + 1 - reader.seekStart target) :=
    actionEvents_ok (last.trans_le within) acted
  exact ⟨mid, rfl, result, after, result ▸ navigated.ignores⟩

theorem Navigated.moveToEvent (navigated : Navigated recorded ignoreResize far reader)
    {eventId : Option Int} (returned : reader.moveToEvent eventId = .ok next) :
    Navigated recorded ignoreResize (max far next.eventIndex) next := by
  rcases reader.moveToEvent_cases eventId with stays | ⟨target, rfl, within, other⟩
  · obtain rfl := Except.ok.inj (stays.symm.trans returned)
    exact navigated.still rfl rfl rfl rfl rfl rfl
  · obtain ⟨mid, rfl, -, after, ignores⟩ := navigated.seek_acted within other returned
    rw [writeBuffers_id]
    exact after.written ignores id

end TerminalReader

/-- What is asked for to play, step and seek. -/
def ReaderOperation.navigates : ReaderOperation → Bool
  | .play | .pause | .next | .prev | .moveToEvent _ | .processNextEvent | .changeSpeed => true
  | .loadEvents _ | .reset | .setSessionModeLive | .setSessionModeDisconnected => false

namespace TerminalReader
open TerminalEvent
variable {recorded : List TerminalEvent} {reader next : TerminalReader} {far : Nat}
  {ignoreResize : Bool}

theorem Navigated.perform (navigated : Navigated recorded ignoreResize far reader)
    (old : reader.isLive = false) {operation : ReaderOperation}
    (navigates : operation.navigates = true) (returned : reader.perform operation = .ok next) :
    Navigated recorded ignoreResize (max far next.eventIndex) next := by
  cases operation with
  | play | pause =>
    obtain rfl := Except.ok.inj returned
    exact navigated.still rfl rfl rfl rfl rfl rfl
  | next => exact navigated.nextEvent old returned
  | prev =>
    rw [TerminalReader.perform, prev] at returned
    exact navigated.moveToEvent returned
  | moveToEvent eventId => exact navigated.moveToEvent returned
  | processNextEvent => exact navigated.processNextEvent old returned
  | changeSpeed =>
    obtain rfl := Except.ok.inj returned
    unfold changeSpeedToNewVal
    split <;> exact navigated.still rfl rfl rfl rfl rfl rfl
  | loadEvents | reset | setSessionModeLive | setSessionModeDisconnected => contradiction

/-- What does not depend on whether an event was played. -/
theorem segment_faded {β : Type} (f : TerminalEvent → β) (same : ∀ event, f event.played = f event)
    (far index count : Nat) (recorded : List TerminalEvent) :
    (segment (faded far recorded) index count).map f = (segment recorded index count).map f := by
  have all : (faded far recorded).map f = recorded.map f := by
    rw [faded, List.map_append, List.map_map, show f ∘ TerminalEvent.played = f from funext same,
      ← List.map_append, List.take_append_drop]
  rw [segment, List.map_take, List.map_drop, all, segment, List.map_take, List.map_drop]

/-- Those of a part of the events that were played already, and those that were not. -/
theorem segment_split (within : far ≤ recorded.length) (start last : Nat) :
    segment (faded far recorded) start (last - start) =
      ((recorded.take (min last far)).drop start).map TerminalEvent.played ++
        (recorded.take last).drop (max far start) := by
  have front := length_front within
  have taken : ((recorded.take (min last far)).map TerminalEvent.played).length = min last far := by
    rw [List.length_map, List.length_take]
    omega
  rw [segment, ← List.drop_take, faded, List.take_append, front, ← List.map_take, List.take_take,
    ← List.drop_take, List.drop_append, taken, List.map_drop, List.drop_drop]
  refine congrArg _ ?_
  rcases Nat.le_total far last with reached | short
  · rw [Nat.min_eq_right reached, show far + (start - far) = max far start by omega]
  · have beyond : ∀ index, far ≤ index → (recorded.take last).drop index = [] := by
      intro index after
      rw [List.drop_eq_nil_iff, List.length_take]
      omega
    rw [beyond _ (Nat.le_add_right _ _), beyond _ (Nat.le_max_left _ _)]

theorem foldl_faded_type (within : far ≤ recorded.length) (start last : Nat) (session : Object) :
    Object.get ((segment (faded far recorded) start (last - start)).foldl
        (fun session event => event.updateSession session) session) terminalType =
      (lastOf namedType ((recorded.take last).drop (max far start))).or
        ((lastOf requestedType ((recorded.take (min last far)).drop start)).or
          (session.get terminalType)) := by
  have again : namedType ∘ TerminalEvent.played = requestedType :=
    funext fun event => TerminalEvent.played_namedType
  rw [TerminalEvent.foldl_type, segment_split within, lastOf_append, lastOf_map, again,
    Option.or_assoc]

/-- What a seek leaves: the text of what it went over itself, and the session and the window of
all that was ever played. -/
structure SoughtTo (recorded : List TerminalEvent) (ignoreResize : Bool) (far : Nat)
    (reader : TerminalReader) (target : Nat) (sought : TerminalReader) : Prop where
  keystrokes : sought.keystrokeText = processKeystrokes
    ((segment recorded (reader.seekStart target)
      (target + 1 - reader.seekStart target)).flatMap TerminalEvent.typed)
  fields : ∀ key, key ≠ terminalType.toList →
    sought.session key = sessionAfter (recorded.take (max far (target + 1))) key
  type : sought.session.get terminalType =
    (lastOf namedType
      ((recorded.take (target + 1)).drop (max far (reader.seekStart target)))).or
        ((lastOf requestedType
          ((recorded.take (min (target + 1) far)).drop (reader.seekStart target))).or
            (reader.session.get terminalType))
  size : sought.windowSize = sizeAfter ignoreResize (recorded.take (max far (target + 1)))

theorem Navigated.sought (navigated : Navigated recorded ignoreResize far reader) {target : Nat}
    (within : target < recorded.length) (other : target ≠ reader.eventIndex)
    (moved : reader.moveToEvent (some target) = .ok next) :
    SoughtTo recorded ignoreResize far reader target next := by
  have inside : target < reader.events.length := navigated.length.symm ▸ within
  obtain ⟨mid, rfl, result, after, ignores⟩ := navigated.seek_acted inside other moved
  rw [writeBuffers_id, writeBuffers_eq]
  refine ⟨?_, after.session, ?_, ?_⟩
  · have typed : mid.keystrokeBuffer = (segment recorded (reader.seekStart target)
        (target + 1 - reader.seekStart target)).flatMap TerminalEvent.typed := by
      rw [result]
      simp only [actedPart, TerminalReader.seekBase, navigated.keystrokeBuffer, List.nil_append,
        navigated.follows.events]
      rw [List.flatMap_def, segment_faded _ fun event => TerminalEvent.played_typed, ←
        List.flatMap_def]
    have empty : mid.keystrokes = [] := by rw [result]; rfl
    rw [← typed, keystrokeText, empty, List.nil_append]
    exact writtenKeystrokes_text _ _
  · have type := foldl_faded_type navigated.follows.within (reader.seekStart target) (target + 1)
      reader.session
    rw [← navigated.follows.events] at type
    rw [result]
    exact type
  · exact ignores ▸ after.size

/-- So many events, one by one. -/
def playOn (reader : TerminalReader) : Nat → Call
  | 0 => .ok reader
  | count + 1 => do (← reader.playOn count).processNextEvent

/-- What playing leaves. -/
structure PlayedTo (recorded : List TerminalEvent) (ignoreResize : Bool) (count : Nat)
    (player : TerminalReader) : Prop where
  follows : Follows recorded count count player
  eventIndex : player.eventIndex = count
  playing : player.paused = false
  keystrokeBuffer : player.keystrokeBuffer = []
  ignores : player.ignoreResize = ignoreResize
  keystrokes : player.keystrokeText =
    (recorded.take count).flatMap fun event => processKeystrokes event.typed
  session : player.session = sessionAfter (recorded.take count)

variable {count : Nat} {player : TerminalReader}

theorem PlayedTo.found (played : PlayedTo recorded ignoreResize count player)
    (more : count < recorded.length) :
    player.events[player.eventIndex]? = some recorded[count] := by
  rw [played.eventIndex, played.follows.events]
  exact faded_at more

theorem PlayedTo.step (played : PlayedTo recorded ignoreResize count player)
    (more : count < recorded.length) (returned : player.processNextEvent = .ok next) :
    PlayedTo recorded ignoreResize (count + 1) next := by
  have found := played.found more
  rw [processNextEvent_playing played.playing found] at returned
  split at returned
  · next decodable =>
    have acted := actionEvent_acted found decodable
    rw [played.eventIndex] at acted returned
    have first := played.follows.first more acted
    obtain rfl := Except.ok.inj returned
    rw [writeBuffers_eq _ (· + 1)]
    refine ⟨first.frame rfl rfl rfl rfl, congrArg (· + 1) played.eventIndex, played.playing, rfl,
      played.ignores, ?_, ?_⟩
    · have typed : (player.acted count recorded[count]).keystrokeBuffer =
          recorded[count].typed := by
        rw [TerminalReader.acted, played.keystrokeBuffer, List.nil_append]
      rw [keystrokeText, List.flatMap_append, typed, writtenKeystrokes_text, take_succ_getElem more,
        List.flatMap_append, ← played.keystrokes, List.flatMap_singleton]
      rfl
    · rw [take_succ_getElem more, TerminalEvent.sessionAfter_snoc, ← played.session]
      rfl
  · contradiction

section Conditions
variable {target : Nat}

end Conditions

end TerminalReader

end SSHProxyPlus
