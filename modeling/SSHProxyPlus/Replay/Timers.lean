import SSHProxyPlus.Replay.Recorded
import SSHProxyPlus.Replay.Seeking
import SSHProxyPlus.Transition.Sequential

/-! The timeouts of a recorded session that is played. A timeout that was set fires some time
later, as none is ever cleared; firing takes it away and asks for the next event. -/
namespace SSHProxyPlus
open Go Browser

/-- The numbers that speeds, delays and times are; nothing is assumed of them. -/
class PageNumber (ν : Type) where
  zero : ν
  one : ν
  tenth : ν
  add : ν → ν → ν
  sub : ν → ν → ν
  mul : ν → ν → ν
  div : ν → ν → ν
  max : ν → ν → ν
  negative : ν → Bool
  isNaN : ν → Bool
  parseInt : ν → ν
  toFixed : ν → ν
  ofProperty : Option Value → ν

open PageNumber

/-- `timeout` tells whether the handle of a timeout is kept, `pending` counts those that are
still to fire. -/
structure TimedPlayer (ν : Type) [PageNumber ν] where
  reader : TerminalReader := {}
  curEvent : Option TerminalEvent := none
  speed : ν := one
  timeout : Bool := false
  timeoutDelaySpeed : ν := one
  timeoutDelay : ν := zero
  timeoutTimestamp : ν := zero
  timeoutDelaySaved : ν := zero
  pending : Nat := 0

/-- A method that throws leaves the player as it is at that point. -/
abbrev TimedCall (ν : Type) [PageNumber ν] := Except (TimedPlayer ν) (TimedPlayer ν)

/-- What the user does, and what the browser does when a timeout is due. -/
inductive PlayerAction (ν : Type) where
  | play
  | pause
  | next
  | prev
  | moveToEvent (eventId : Option Int)
  | updateSpeed (value : ν)
  | changeSpeed (newVal : ν)
  | increaseSpeed (amount : ν)
  | decreaseSpeed (amount : ν)
  | expire

namespace PlayerAction
variable {ν : Type}

/-- What an action asks of the reader. -/
def operation : PlayerAction ν → Option ReaderOperation
  | .play => some .play
  | .pause => some .pause
  | .next => some .next
  | .prev => some .prev
  | .moveToEvent eventId => some (.moveToEvent eventId)
  | .updateSpeed _ => none
  | .changeSpeed _ | .increaseSpeed _ | .decreaseSpeed _ => some .changeSpeed
  | .expire => some .processNextEvent

theorem operation_navigates {action : PlayerAction ν} {asked : ReaderOperation}
    (same : action.operation = some asked) : asked.navigates = true := by
  cases action <;> cases same <;> rfl

end PlayerAction

namespace TimedPlayer
variable {ν : Type} [PageNumber ν] (player : TimedPlayer ν) (now : ν)

def withReader : Call → TimedCall ν
  | .ok reader => .ok { player with reader }
  | .error reader => .error { player with reader }

/-- `setTimeout`. -/
def setTimeout (delay : ν) : TimedPlayer ν :=
  { player with
    timeout := true, pending := player.pending + 1, timeoutDelay := delay, timeoutTimestamp := now }

/-- Without a delay it is negative. `#cur_event` is undefined until an event is played. -/
def startTimerForNextEvent (inDelay : Option ν) : TimedCall ν :=
  match inDelay.filter fun delay => !negative delay with
  | some delay => .ok (player.setTimeout now delay)
  | none =>
      match player.reader.events[player.reader.eventIndex + 1]? with
      | none => .ok (player.setTimeout now zero)
      | some nextEvent =>
          match player.curEvent with
          | none => .error player
          | some curEvent =>
              let delay := div (sub (ofProperty nextEvent.timeOffset)
                (ofProperty curEvent.timeOffset)) player.speed
              .ok ({ player with timeoutDelaySpeed := player.speed }.setTimeout now
                (parseInt (toFixed delay)))

def timeToNextEvent : ν :=
  max (sub player.timeoutDelay (sub now player.timeoutTimestamp)) zero

/-- The timeout itself is not cleared. -/
def resetTimeout (clearDelaySpeed : Bool) : TimedPlayer ν :=
  { player with
    timeout := false
    timeoutDelaySaved := player.timeToNextEvent now
    timeoutDelay := zero
    timeoutTimestamp := zero
    timeoutDelaySpeed := if clearDelaySpeed then one else player.timeoutDelaySpeed }

def newDelay : ν :=
  parseInt (div (mul player.timeoutDelaySpeed player.timeoutDelaySaved) player.speed)

def resumeWithNewDelay : TimedCall ν := do
  let started ← player.startTimerForNextEvent now (some player.newDelay)
  return { started with
    timeoutDelaySaved := player.newDelay, timeoutDelaySpeed := started.speed }

def play : TimedCall ν := { player with reader := player.reader.play }.resumeWithNewDelay now

def pause : TimedPlayer ν := { player with reader := player.reader.pause }.resetTimeout now false

/-- The callback is called once, whatever there is to write. -/
def processNextEvent : TimedCall ν :=
  if player.reader.paused && !player.reader.isLive then .ok player
  else
    match player.reader.events[player.reader.eventIndex]? with
    | some event =>
        let player := { player with curEvent := some event }
        match player.reader.actionEvent player.reader.eventIndex with
        | .error reader => .error { player with reader }
        | .ok reader =>
            let player := { player with reader }
            if !reader.paused then do
              let started ← player.startTimerForNextEvent now none
              return { started with
                reader := started.reader.writeBuffers
                  (fun reader => { reader with eventIndex := reader.eventIndex + 1 }) true }
            else .ok { player with reader := reader.clearBuffers }
    | none => if player.reader.isNotLive then .ok (player.pause now) else .ok player

def next : TimedCall ν :=
  if player.reader.eventIndex < player.reader.events.length then
    let player := player.resetTimeout now true
    if player.reader.paused then player.withReader player.reader.next
    else player.processNextEvent now
  else .ok player

/-- An event that can be moved to. -/
def seeks : Option Int → Bool
  | none => false
  | some eventId => !(eventId < 0 || eventId > player.reader.events.length - 1 ||
      eventId = player.reader.eventIndex)

def moveToEvent (eventId : Option Int) : TimedCall ν :=
  if player.seeks eventId then
    let player := player.pause now
    player.withReader (player.reader.moveToEvent eventId)
  else .ok player

def prev : TimedCall ν :=
  player.moveToEvent now (some (Max.max 0 ((player.reader.eventIndex : Int) - 2)))

def updateSpeed (value : ν) : TimedPlayer ν :=
  if isNaN value then player else { player with speed := value }

def changeSpeedToNewVal (newVal : ν) : TimedCall ν :=
  if player.reader.paused then .ok (player.updateSpeed newVal)
  else ((player.pause now).updateSpeed newVal).play now

def increaseSpeed (amount : ν) : TimedCall ν :=
  player.changeSpeedToNewVal now (add amount player.speed)

def decreaseSpeed (amount : ν) : TimedCall ν :=
  let newVal := max (sub player.speed amount) tenth
  { player with speed := newVal }.changeSpeedToNewVal now newVal

/-- A timeout fires. -/
def expire : TimedCall ν := { player with pending := player.pending - 1 }.processNextEvent now

def act : PlayerAction ν → TimedCall ν
  | .play => player.play now
  | .pause => .ok (player.pause now)
  | .next => player.next now
  | .prev => player.prev now
  | .moveToEvent eventId => player.moveToEvent now eventId
  | .updateSpeed value => .ok (player.updateSpeed value)
  | .changeSpeed newVal => player.changeSpeedToNewVal now newVal
  | .increaseSpeed amount => player.increaseSpeed now amount
  | .decreaseSpeed amount => player.decreaseSpeed now amount
  | .expire => player.expire now

/-- The player that is left, thrown or not. -/
def left : TimedCall ν → TimedPlayer ν
  | .ok player => player
  | .error player => player

/-- An action at some time. A timeout fires only if one is pending. -/
def Steps (player : TimedPlayer ν) (timed : ν × PlayerAction ν) (next : TimedPlayer ν) : Prop :=
  (timed.2 = .expire → 0 < player.pending) ∧ next = left (player.act timed.1 timed.2)

/-- A timeout that fires now would process an event. -/
def Processes (player : TimedPlayer ν) : Prop :=
  ¬ (player.reader.paused && !player.reader.isLive) ∧
    player.reader.eventIndex < player.reader.events.length

def OneClock (player : TimedPlayer ν) : Prop := player.Processes → player.pending ≤ 1

/-- A recorded session: it is not live, and no event makes it so. -/
def Recorded (reader : TerminalReader) : Prop :=
  reader.isLive = false ∧ ∀ event ∈ reader.events, event.get "live" = none

/-- Events of a recorded session are loaded, and nothing has been played. -/
structure Loaded (player : TimedPlayer ν) : Prop where
  recorded : Recorded player.reader
  unplayed : player.pending = 0

/-- Starting the timer throws, as its delay would be taken from an event before the first. -/
def RestartThrows (player : TimedPlayer ν) : Prop :=
  negative player.newDelay = true ∧
    player.reader.eventIndex + 1 < player.reader.events.length ∧ player.curEvent = none

/-- It can be played on with one timeout in the end. -/
def Restarts (player : TimedPlayer ν) : Prop :=
  player.reader.events.length ≤ player.reader.eventIndex ∨ player.pending = 0 ∨
    player.pending = 1 ∧ player.RestartThrows

/-- No timeout is pending when another one is set, or nothing is left to be played. -/
def Clear (player : TimedPlayer ν) : ν × PlayerAction ν → Prop
  | (_, .play) => player.Restarts
  | (now, .changeSpeed newVal) =>
      player.reader.paused = true ∨ ((player.pause now).updateSpeed newVal).Restarts
  | (now, .increaseSpeed amount) =>
      player.reader.paused = true ∨
        ((player.pause now).updateSpeed (add amount player.speed)).Restarts
  | (now, .decreaseSpeed amount) =>
      player.reader.paused = true ∨
        (({ player with speed := max (sub player.speed amount) tenth }.pause now).updateSpeed
          (max (sub player.speed amount) tenth)).Restarts
  | (_, .next) =>
      player.reader.paused = true ∨
        player.reader.events.length ≤ player.reader.eventIndex + 1 ∨ player.pending = 0 ∨
          ∃ event, player.reader.events[player.reader.eventIndex]? = some event ∧
            ¬ event.Decodable
  | _ => True

end TimedPlayer

namespace TerminalEvent
variable {event : TerminalEvent}

theorem updateSession_live (absent : event.get "live" = none) (session : Object) :
    (event.updateSession session).get "live" = session.get "live" := by
  unfold updateSession
  split
  · have gone : (event.delete "type").get "live" = none :=
      (Object.delete_get_ne _ (by decide)).trans absent
    rw [Object.assign_get, gone]
    rfl
  · split
    · exact Object.set_ne _ (by decide) _
    · split
      · exact Object.set_ne _ (by decide) _
      · rfl

end TerminalEvent

namespace TerminalReader
variable {reader mid after : TerminalReader} {index : Nat}

/-- Events were acted, or texts written: that is all a step does to a recorded session. -/
structure Stays (reader after : TerminalReader) : Prop where
  paused : after.paused = reader.paused
  length : after.events.length = reader.events.length
  recorded : TimedPlayer.Recorded reader → TimedPlayer.Recorded after

theorem Stays.refl (reader : TerminalReader) : Stays reader reader := ⟨rfl, rfl, id⟩

theorem Stays.trans (first : Stays reader mid) (second : Stays mid after) : Stays reader after :=
  ⟨second.paused.trans first.paused, second.length.trans first.length,
    second.recorded ∘ first.recorded⟩

/-- What leaves the events and the session alone. -/
theorem Stays.frame (paused : after.paused = reader.paused) (events : after.events = reader.events)
    (session : after.session = reader.session) : Stays reader after where
  paused := paused
  length := congrArg List.length events
  recorded recorded := by
    rw [TimedPlayer.Recorded, isLive, events, session]
    exact recorded

theorem Stays.bind {call : Call} {f : TerminalReader → Call} (first : Stays reader (left call))
    (rest : ∀ mid, Stays mid (left (f mid))) : Stays reader (left (call >>= f)) := by
  cases call with
  | error thrown => exact first
  | ok mid => exact first.trans (rest mid)

theorem isLive_updateSession {event : TerminalEvent} (absent : event.get "live" = none)
    (same : after.session = event.updateSession reader.session) :
    after.isLive = reader.isLive := by
  rw [isLive, isLive, same, TerminalEvent.updateSession_live absent]

theorem actionEvent_stays (reader : TerminalReader) (index : Nat) :
    Stays reader (left (reader.actionEvent index)) := by
  cases found : reader.events[index]? with
  | none =>
    rw [actionEvent, found]
    exact Stays.refl reader
  | some event =>
    have member := List.mem_of_getElem? found
    rw [actionEvent_eq found]
    split
    · refine ⟨rfl, List.length_set, fun ⟨old, absent⟩ => ⟨?_, fun other among => ?_⟩⟩
      · exact (isLive_updateSession (absent event member) rfl).trans old
      · rcases List.mem_or_eq_of_mem_set among with among | rfl
        · exact absent other among
        · exact (TerminalEvent.played_get (by decide)).trans (absent event member)
    · exact ⟨rfl, rfl, fun ⟨old, absent⟩ =>
        ⟨(isLive_updateSession (absent event member) rfl).trans old, absent⟩⟩

theorem actionEvents_stays (reader : TerminalReader) (index count : Nat) :
    Stays reader (left (reader.actionEvents index count)) := by
  induction count generalizing reader index with
  | zero => exact Stays.refl reader
  | succ count ih =>
    rw [actionEvents]
    exact (reader.actionEvent_stays index).bind fun mid => ih mid (index + 1)

theorem writeBuffers_stays (reader : TerminalReader) (f : Nat → Nat) : Stays reader
    (reader.writeBuffers (fun reader => { reader with eventIndex := f reader.eventIndex }) true) := by
  rw [writeBuffers_eq]
  exact Stays.frame rfl rfl rfl

theorem playUpTo_stays (reader : TerminalReader) (index newIndex : Nat) :
    Stays reader (left (reader.playUpTo index newIndex)) := by
  have emptied : Stays reader { reader with keystrokes := [] } := Stays.frame rfl rfl rfl
  have acted := emptied.trans
    (actionEvents_stays { reader with keystrokes := [] } index (newIndex + 1 - index))
  rw [playUpTo]
  exact acted.bind fun mid => (mid.writeBuffers_stays id).trans (Stays.frame rfl rfl rfl)

/-- A seek pauses, if it does anything. -/
theorem moveToEvent_stays (reader : TerminalReader) (eventId : Option Int) :
    left (reader.moveToEvent eventId) = reader ∨
      Stays reader.pause (left (reader.moveToEvent eventId)) := by
  rcases reader.moveToEvent_cases eventId with stays | ⟨target, rfl, within, other⟩
  · exact .inl (congrArg left stays)
  · have based : Stays reader.pause (reader.seekBase target) := Stays.frame rfl rfl rfl
    rw [moveToEvent_seeks within other]
    exact .inr (based.trans (playUpTo_stays _ _ _))

theorem next_stays (paused : reader.paused = true) : Stays reader (left reader.next) := by
  rw [next, if_pos paused]
  split
  · exact (reader.actionEvent_stays reader.eventIndex).bind fun mid =>
      (mid.writeBuffers_stays id).trans (Stays.frame rfl rfl rfl)
  · exact Stays.refl reader

theorem processNextEvent_recorded (recorded : TimedPlayer.Recorded reader) :
    TimedPlayer.Recorded (left reader.processNextEvent) := by
  rw [processNextEvent]
  split
  · exact recorded
  · split
    · refine Stays.recorded (Stays.bind (reader.actionEvent_stays _) fun mid => ?_) recorded
      split
      · exact mid.writeBuffers_stays (· + 1)
      · exact Stays.frame rfl rfl rfl
    · split <;> exact recorded

theorem perform_recorded (recorded : TimedPlayer.Recorded reader) {operation : ReaderOperation}
    (navigates : operation.navigates = true) :
    TimedPlayer.Recorded (left (reader.perform operation)) := by
  have moved (eventId : Option Int) :
      TimedPlayer.Recorded (left (reader.moveToEvent eventId)) := by
    rcases reader.moveToEvent_stays eventId with same | stays
    · exact same.symm ▸ recorded
    · exact stays.recorded recorded
  cases operation with
  | play | pause => exact recorded
  | next =>
    cases playing : reader.paused with
    | true => exact (next_stays playing).recorded recorded
    | false =>
      rw [perform, next, playing]
      split
      · exact processNextEvent_recorded recorded
      · exact recorded
  | prev =>
    rw [perform, prev]
    exact moved _
  | moveToEvent eventId => exact moved eventId
  | processNextEvent => exact processNextEvent_recorded recorded
  | changeSpeed =>
    rw [perform, changeSpeedToNewVal]
    split <;> exact recorded
  | loadEvents | reset | setSessionModeLive | setSessionModeDisconnected => contradiction

end TerminalReader

namespace TimedPlayer
variable {ν : Type} [PageNumber ν] {player : TimedPlayer ν} {now : ν}

theorem withReader_reader (player : TimedPlayer ν) (call : Call) :
    (left (player.withReader call)).reader = TerminalReader.left call := by
  cases call <;> rfl

/-- Starting the timer sets one timeout, unless it throws and sets none. -/
theorem startTimer_sets (inDelay : Option ν)
    (known : ¬ (inDelay.filter (fun delay => !negative delay) = none ∧
      player.reader.eventIndex + 1 < player.reader.events.length ∧ player.curEvent = none)) :
    ∃ started, player.startTimerForNextEvent now inDelay = .ok started ∧
      started.reader = player.reader ∧ started.pending = player.pending + 1 := by
  unfold startTimerForNextEvent
  split
  · exact ⟨_, rfl, rfl, rfl⟩
  · next negative' =>
    split
    · exact ⟨_, rfl, rfl, rfl⟩
    · next nextEvent found =>
      obtain ⟨more, -⟩ := List.getElem?_eq_some_iff.mp found
      split
      · next unknown => exact absurd ⟨negative', more, unknown⟩ known
      · exact ⟨_, rfl, rfl, rfl⟩

theorem startTimer_throws {inDelay : Option ν}
    (negative' : inDelay.filter (fun delay => !negative delay) = none)
    (more : player.reader.eventIndex + 1 < player.reader.events.length)
    (unknown : player.curEvent = none) :
    player.startTimerForNextEvent now inDelay = .error player := by
  unfold startTimerForNextEvent
  rw [negative', List.getElem?_eq_getElem more, unknown]

/-- Playing sets one timeout, unless starting the timer throws. -/
theorem play_spec (player : TimedPlayer ν) (now : ν) :
    (left (player.play now)).reader = player.reader.play ∧
      (player.RestartThrows → (left (player.play now)).pending = player.pending) ∧
      (¬ player.RestartThrows → (left (player.play now)).pending = player.pending + 1) := by
  have filtered : (some player.newDelay).filter (fun delay => !negative delay) = none ↔
      negative player.newDelay = true := by simp
  let playing : TimedPlayer ν := { player with reader := player.reader.play }
  by_cases throws : player.RestartThrows
  · obtain ⟨negative', more, unknown⟩ := throws
    have thrown : playing.startTimerForNextEvent now (some player.newDelay) = .error playing :=
      startTimer_throws (filtered.mpr negative') more unknown
    have same : player.play now = .error playing := by
      rw [play, resumeWithNewDelay]
      exact congrArg (· >>= _) thrown
    rw [same]
    exact ⟨rfl, fun _ => rfl, fun other => absurd ⟨negative', more, unknown⟩ other⟩
  · have known : ¬ ((some player.newDelay).filter (fun delay => !negative delay) = none ∧
        playing.reader.eventIndex + 1 < playing.reader.events.length ∧ playing.curEvent = none) :=
      fun ⟨negative', more, unknown⟩ => throws ⟨filtered.mp negative', more, unknown⟩
    obtain ⟨started, set, reader, pending⟩ :
        ∃ started, playing.startTimerForNextEvent now (some player.newDelay) = .ok started ∧
          started.reader = playing.reader ∧ started.pending = playing.pending + 1 :=
      startTimer_sets _ known
    have same : player.play now = .ok { started with
        timeoutDelaySaved := player.newDelay, timeoutDelaySpeed := started.speed } := by
      rw [play, resumeWithNewDelay]
      exact congrArg (· >>= _) set
    rw [same]
    exact ⟨reader, fun other => absurd other throws, fun _ => pending⟩

/-- While it is playing, the next event is played, and a timeout set for the one after it. -/
theorem processNextEvent_spec (now : ν) (playing : player.reader.paused = false) {event : TerminalEvent}
    (found : player.reader.events[player.reader.eventIndex]? = some event) :
    (left (player.processNextEvent now)).reader =
        TerminalReader.left player.reader.processNextEvent ∧
      (event.Decodable → (left (player.processNextEvent now)).pending = player.pending + 1) ∧
      (¬ event.Decodable → (left (player.processNextEvent now)).pending = player.pending) := by
  have goesOn : ¬ (player.reader.paused && !player.reader.isLive) = true := by simp [playing]
  rw [TerminalReader.processNextEvent_playing playing found, processNextEvent, if_neg goesOn, found]
  simp only [TerminalReader.actionEvent_eq found]
  by_cases decodable : event.Decodable
  · let acted : TimedPlayer ν := { player with
      curEvent := some event, reader := player.reader.acted player.reader.eventIndex event }
    obtain ⟨started, set, reader, pending⟩ :
        ∃ started, acted.startTimerForNextEvent now none = .ok started ∧
          started.reader = acted.reader ∧ started.pending = acted.pending + 1 :=
      startTimer_sets none fun ⟨_, _, unknown⟩ => Option.some_ne_none event unknown
    have still : acted.reader.paused = false := playing
    simp only [if_pos decodable, Bool.not_false, if_true, show
      (player.reader.acted player.reader.eventIndex event).paused = false from playing]
    have same : (acted.startTimerForNextEvent now none >>= fun started =>
        (pure { started with reader := started.reader.writeBuffers (fun reader =>
          { reader with eventIndex := reader.eventIndex + 1 }) true } : TimedCall ν)) =
        .ok { started with reader := acted.reader.writeBuffers (fun reader =>
          { reader with eventIndex := reader.eventIndex + 1 }) true } := by
      rw [set, ← reader]
      rfl
    refine ⟨congrArg (fun call => (left call).reader) same,
      fun _ => (congrArg (fun call => (left call).pending) same).trans pending,
      fun other => absurd decodable other⟩
  · simp only [if_neg decodable]
    exact ⟨rfl, fun other => absurd other decodable, fun _ => rfl⟩

theorem Recorded.still (recorded : Recorded player.reader) :
    (player.reader.paused && !player.reader.isLive) = player.reader.paused := by
  rw [recorded.1, Bool.not_false, Bool.and_true]

theorem processNextEvent_reader (recorded : Recorded player.reader) :
    (left (player.processNextEvent now)).reader =
      TerminalReader.left player.reader.processNextEvent := by
  cases playing : player.reader.paused with
  | true =>
    have still := recorded.still.trans playing
    rw [processNextEvent, if_pos still, TerminalReader.processNextEvent, if_pos still]
    rfl
  | false =>
    cases found : player.reader.events[player.reader.eventIndex]? with
    | some event => exact (processNextEvent_spec now playing found).1
    | none =>
      have goesOn : ¬ (player.reader.paused && !player.reader.isLive) = true := by
        simp [playing]
      have over' : ¬ player.reader.eventIndex < player.reader.events.length :=
        Nat.not_lt.mpr (List.getElem?_eq_none_iff.mp found)
      rw [processNextEvent, if_neg goesOn, found, TerminalReader.processNextEvent, if_neg goesOn,
        if_neg over']
      dsimp only
      split <;> rfl

theorem updateSpeed_same (player : TimedPlayer ν) (value : ν) :
    (player.updateSpeed value).reader = player.reader ∧
      (player.updateSpeed value).pending = player.pending ∧
      (player.updateSpeed value).curEvent = player.curEvent := by
  unfold updateSpeed
  split <;> exact ⟨rfl, rfl, rfl⟩

theorem changeSpeed_reader (player : TimedPlayer ν) (newVal : ν) :
    (left (player.changeSpeedToNewVal now newVal)).reader = player.reader.changeSpeedToNewVal := by
  rw [changeSpeedToNewVal, TerminalReader.changeSpeedToNewVal]
  split
  · exact (player.updateSpeed_same newVal).1
  · rw [(play_spec _ now).1, ((player.pause now).updateSpeed_same newVal).1]
    rfl

theorem seeks_iff (player : TimedPlayer ν) (eventId : Int) : player.seeks (some eventId) = true ↔
    ¬ (eventId < 0 ∨ eventId > player.reader.events.length - 1 ∨
      eventId = player.reader.eventIndex) := by
  simp [seeks, and_assoc]

/-- A seek to an event asks the reader, which pauses by itself. -/
theorem moveToEvent_reader (player : TimedPlayer ν) (eventId : Option Int) :
    (left (player.moveToEvent now eventId)).reader =
      TerminalReader.left (player.reader.moveToEvent eventId) := by
  rw [moveToEvent]
  split
  · next seeks' =>
    have paused : player.reader.pause.moveToEvent eventId = player.reader.moveToEvent eventId := by
      cases eventId with
      | none => exact absurd seeks' (by simp [seeks])
      | some eventId =>
        have inside := (player.seeks_iff eventId).mp seeks'
        rw [TerminalReader.moveToEvent, TerminalReader.moveToEvent, if_neg inside]
        exact if_neg inside
    rw [← paused]
    exact withReader_reader _ _
  · next stays =>
    cases eventId with
    | none => rfl
    | some eventId =>
      have outside := not_not.mp fun inside => stays ((player.seeks_iff eventId).mpr inside)
      rw [TerminalReader.moveToEvent, if_pos outside]
      rfl

theorem next_reader (recorded : Recorded player.reader) :
    (left (player.next now)).reader = TerminalReader.left player.reader.next := by
  rw [next]
  split
  · next more =>
    by_cases paused : player.reader.paused = true
    · refine (congrArg (fun call => (left call).reader) (if_pos paused)).trans ?_
      exact withReader_reader _ _
    · refine (congrArg (fun call => (left call).reader) (if_neg paused)).trans ?_
      rw [TerminalReader.next, if_pos more, if_neg paused]
      have reset : Recorded (player.resetTimeout now true).reader := recorded
      exact processNextEvent_reader reset
  · next over' =>
    rw [TerminalReader.next, if_neg over']
    rfl

/-- The reader of a player does what is asked of a reader, whatever the timer does. -/
theorem act_reader (recorded : Recorded player.reader) (action : PlayerAction ν) :
    (left (player.act now action)).reader = match action.operation with
      | some asked => TerminalReader.left (player.reader.perform asked)
      | none => player.reader := by
  cases action with
  | play => exact (player.play_spec now).1
  | pause => rfl
  | next => exact next_reader recorded
  | prev => exact player.moveToEvent_reader _
  | moveToEvent eventId => exact player.moveToEvent_reader eventId
  | updateSpeed value => exact (player.updateSpeed_same value).1
  | changeSpeed newVal | increaseSpeed amount | decreaseSpeed amount => exact changeSpeed_reader _ _
  | expire =>
    have fired : Recorded { player with pending := player.pending - 1 }.reader := recorded
    exact processNextEvent_reader fired

theorem act_recorded (recorded : Recorded player.reader) (now : ν) (action : PlayerAction ν) :
    Recorded (left (player.act now action)).reader := by
  rw [act_reader recorded]
  cases asked : action.operation with
  | none => exact recorded
  | some operation =>
    exact TerminalReader.perform_recorded recorded (PlayerAction.operation_navigates asked)

theorem oneClock_iff (recorded : Recorded player.reader) : player.OneClock ↔
    player.reader.paused = true ∨ player.reader.events.length ≤ player.reader.eventIndex ∨
      player.pending ≤ 1 := by
  rw [OneClock, Processes, recorded.still, imp_iff_not_or, not_and_or, not_not, Nat.not_lt,
    or_assoc]

theorem oneClock_paused (recorded : Recorded player.reader)
    (paused : player.reader.paused = true) : player.OneClock :=
  (oneClock_iff recorded).mpr (.inl paused)

/-- What keeps the reader and the timeouts keeps one clock. -/
theorem oneClock_same {after : TimedPlayer ν} (recorded : Recorded player.reader)
    (reader : after.reader = player.reader) (pending : after.pending = player.pending)
    (clock : player.OneClock) : after.OneClock := by
  rw [oneClock_iff (reader ▸ recorded), reader, pending]
  exact (oneClock_iff recorded).mp clock

/-- Playing goes on with one clock exactly if no other timeout is left. -/
theorem oneClock_play (recorded : Recorded player.reader) :
    (left (player.play now)).OneClock ↔ player.Restarts := by
  obtain ⟨reader, thrown, set⟩ := player.play_spec now
  have playing : Recorded (left (player.play now)).reader := reader ▸ recorded
  rw [oneClock_iff playing, reader, Restarts]
  have lowered : ¬ player.reader.play.paused = true := Bool.false_ne_true
  rw [or_iff_right lowered]
  refine or_congr_right ?_
  by_cases throws : player.RestartThrows
  · rw [thrown throws]
    simp only [throws, and_true]
    omega
  · rw [set throws]
    simp only [throws, and_false, or_false]
    omega

theorem oneClock_changeSpeed (recorded : Recorded player.reader) (clock : player.OneClock)
    (newVal : ν) : (left (player.changeSpeedToNewVal now newVal)).OneClock ↔
      player.reader.paused = true ∨ ((player.pause now).updateSpeed newVal).Restarts := by
  rw [changeSpeedToNewVal]
  split
  · next paused =>
    obtain ⟨reader, pending, -⟩ := player.updateSpeed_same newVal
    exact iff_of_true (oneClock_same recorded reader pending clock) (.inl paused)
  · next playing =>
    have paused : Recorded ((player.pause now).updateSpeed newVal).reader := by
      rw [((player.pause now).updateSpeed_same newVal).1]
      exact recorded
    rw [oneClock_play paused, or_iff_right playing]

theorem oneClock_seek (recorded : Recorded player.reader) (clock : player.OneClock)
    (eventId : Option Int) : (left (player.moveToEvent now eventId)).OneClock := by
  rw [moveToEvent]
  split
  · have paused : Recorded player.reader.pause := recorded
    have reader := (player.pause now).withReader_reader (player.reader.pause.moveToEvent eventId)
    have stays : TerminalReader.Stays player.reader.pause
        (TerminalReader.left (player.reader.pause.moveToEvent eventId)) := by
      rcases player.reader.pause.moveToEvent_stays eventId with same | stays
      · rw [same]
        exact TerminalReader.Stays.refl _
      · exact stays
    rw [← reader] at stays
    exact oneClock_paused (stays.recorded paused) stays.paused
  · exact clock

/-- The next event asked for while it is playing. -/
theorem oneClock_process (now : ν) (recorded : Recorded player.reader)
    (playing : player.reader.paused = false) {event : TerminalEvent}
    (found : player.reader.events[player.reader.eventIndex]? = some event) :
    (left (player.processNextEvent now)).OneClock ↔
      if event.Decodable then
        player.reader.events.length ≤ player.reader.eventIndex + 1 ∨ player.pending = 0
      else player.pending ≤ 1 := by
  obtain ⟨reader, set, thrown⟩ := processNextEvent_spec now playing found
  obtain ⟨more, -⟩ := List.getElem?_eq_some_iff.mp found
  have after : Recorded (left (player.processNextEvent now)).reader :=
    reader ▸ TerminalReader.processNextEvent_recorded recorded
  rw [oneClock_iff after, reader, TerminalReader.processNextEvent_playing playing found]
  split
  · next decodable =>
    rw [set decodable, TerminalReader.left, TerminalReader.writeBuffers_eq _ (· + 1)]
    simp [TerminalReader.acted, playing]
  · next undecodable =>
    rw [thrown undecodable, TerminalReader.left]
    simp only [playing, Bool.false_eq_true, false_or]
    omega

theorem oneClock_next (recorded : Recorded player.reader) (clock : player.OneClock) :
    (left (player.next now)).OneClock ↔ player.Clear (now, .next) := by
  have all := (oneClock_iff recorded).mp clock
  unfold next Clear
  split
  · next more =>
    have found := List.getElem?_eq_getElem more
    cases playing : player.reader.paused with
    | true =>
      have reader := (player.resetTimeout now true).withReader_reader player.reader.next
      have stays := TerminalReader.next_stays playing
      rw [← reader] at stays
      have paused := oneClock_paused (stays.recorded recorded) (stays.paused.trans playing)
      refine iff_of_true ?_ (.inl rfl)
      simp only [resetTimeout, playing] at paused ⊢
      exact paused
    | false =>
      have reset : Recorded (player.resetTimeout now true).reader := recorded
      have processed := oneClock_process now reset playing found
      refine Iff.trans ?_ (processed.trans ?_)
      · simp only [resetTimeout, playing]
        exact Iff.rfl
      · change ite _ (_ ∨ player.pending = 0) (player.pending ≤ 1) ↔ _
        rw [playing] at all
        split
        · next decodable => simp [found, decodable, resetTimeout]
        · next undecodable =>
          have small : player.pending ≤ 1 := by
            rcases all with paused | over' | small
            · contradiction
            · exact absurd more (Nat.not_lt.mpr over')
            · exact small
          exact iff_of_true small (.inr (.inr (.inr ⟨_, found, undecodable⟩)))
  · next over' =>
    exact iff_of_true clock (.inr (.inl (by omega)))

/-- A timeout that fires sets at most one in its place. -/
theorem oneClock_expire (recorded : Recorded player.reader) (clock : player.OneClock)
    (fires : 0 < player.pending) : (left (player.expire now)).OneClock := by
  have fired : Recorded { player with pending := player.pending - 1 }.reader := recorded
  have all := (oneClock_iff recorded).mp clock
  have after := act_recorded recorded now .expire
  cases playing : player.reader.paused with
  | true =>
    refine oneClock_paused after ?_
    have still := recorded.still.trans playing
    change (left (player.expire now)).reader.paused = true
    rw [expire, processNextEvent, if_pos still]
    exact playing
  | false =>
    cases found : player.reader.events[player.reader.eventIndex]? with
    | some event =>
      obtain ⟨more, -⟩ := List.getElem?_eq_some_iff.mp found
      have last : player.pending - 1 = 0 := by
        simp only [playing, Bool.false_eq_true, false_or] at all
        omega
      refine (oneClock_process now fired playing found).mpr ?_
      split
      · exact .inr last
      · exact Nat.le_trans (Nat.le_of_eq last) (Nat.zero_le 1)
    | none =>
      have over' := List.getElem?_eq_none_iff.mp found
      have goesOn : ¬ (player.reader.paused && !player.reader.isLive) = true := by
        simp [playing]
      have fell : left (player.expire now) = { player with pending := player.pending - 1 } ∨
          left (player.expire now) =
            { player with pending := player.pending - 1 }.pause now := by
        rw [expire, processNextEvent, if_neg goesOn, found]
        dsimp only
        split
        · exact .inr rfl
        · exact .inl rfl
      rcases fell with same | same
      · rw [same]
        exact (oneClock_iff fired).mpr (.inr (.inl over'))
      · rw [same]
        exact oneClock_paused fired rfl

/-- A step keeps one clock exactly if it is clear. -/
theorem oneClock_step {timed : ν × PlayerAction ν} {next : TimedPlayer ν}
    (recorded : Recorded player.reader) (clock : player.OneClock)
    (step : player.Steps timed next) : next.OneClock ↔ player.Clear timed := by
  obtain ⟨now, action⟩ := timed
  obtain ⟨fires, rfl⟩ := step
  cases action with
  | play => exact oneClock_play recorded
  | pause => exact iff_of_true (oneClock_paused recorded rfl) trivial
  | next => exact oneClock_next recorded clock
  | prev => exact iff_of_true (oneClock_seek recorded clock _) trivial
  | moveToEvent eventId => exact iff_of_true (oneClock_seek recorded clock eventId) trivial
  | updateSpeed value =>
    obtain ⟨reader, pending, -⟩ := player.updateSpeed_same value
    exact iff_of_true (oneClock_same recorded reader pending clock) trivial
  | changeSpeed newVal => exact oneClock_changeSpeed recorded clock newVal
  | increaseSpeed amount => exact oneClock_changeSpeed recorded clock _
  | decreaseSpeed amount =>
    have slowed : Recorded { player with speed := max (sub player.speed amount) tenth }.reader :=
      recorded
    exact oneClock_changeSpeed slowed clock _
  | expire => exact iff_of_true (oneClock_expire recorded clock (fires rfl)) trivial

end TimedPlayer

open TimedPlayer in
/-- There is one clock all along exactly if each step of the run is clear. -/
theorem one_clock_iff {ν : Type} [PageNumber ν] {start final : TimedPlayer ν}
    {history : List (TimedPlayer ν × (ν × PlayerAction ν))} (loaded : start.Loaded)
    (run : Transition.Passes TimedPlayer.Steps start history final) :
    ((∀ entry ∈ history, entry.1.OneClock) ∧ final.OneClock) ↔
      ∀ entry ∈ history, entry.1.Clear entry.2 := by
  have kept : ∀ (player : TimedPlayer ν) timed next, TimedPlayer.Recorded player.reader →
      player.Steps timed next → TimedPlayer.Recorded next.reader := by
    rintro player timed next recorded ⟨-, rfl⟩
    exact act_recorded recorded timed.1 timed.2
  have unplayed : start.OneClock := by
    rw [oneClock_iff loaded.recorded, loaded.unplayed]
    exact .inr (.inr (Nat.zero_le 1))
  exact Transition.passes_keeps_iff run kept (fun _ _ _ => oneClock_step) loaded.recorded unplayed

/-- Rationals in place of floating point; `none` is not a number. -/
instance rationalNumber : PageNumber (Option Rat) where
  zero := some 0
  one := some 1
  tenth := some (1 / 10)
  add a b := a.bind fun a => b.map (a + ·)
  sub a b := a.bind fun a => b.map (a - ·)
  mul a b := a.bind fun a => b.map (a * ·)
  div a b := a.bind fun a => b.bind fun b => if b = 0 then none else some (a / b)
  max a b := a.bind fun a => b.map (Max.max a)
  negative a := a.any fun a => decide (a < 0)
  isNaN a := a.isNone
  parseInt a := a.map fun a => if a < 0 then (a.ceil : Rat) else a.floor
  toFixed a := a.map fun a =>
    if a < 0 then -((-a + 1 / 2).floor : Rat) else (a + 1 / 2).floor
  ofProperty
    | some (.number n) => some n
    | _ => none

/-- Two events, a second apart, as the page has them loaded. -/
def twoEventsPlayer : TimedPlayer (Option Rat) where
  reader := TerminalReader.loadEvents {}
    [lineFeedsEvent.set "offset" (.number 1000), lineFeedsEvent.set "offset" (.number 2000)]

theorem twoEventsPlayer_loaded : twoEventsPlayer.Loaded := by
  refine ⟨⟨by decide, ?_⟩, rfl⟩
  simp only [twoEventsPlayer, TerminalReader.loadEvents, List.nil_append, List.forall_mem_cons]
  exact ⟨by decide, by decide, List.forall_mem_nil _⟩

/-- It is played, and its timeout fires. -/
def startedPlayer : TimedPlayer (Option Rat) :=
  TimedPlayer.left (twoEventsPlayer.act (some 0) .play)

def advancedPlayer : TimedPlayer (Option Rat) :=
  TimedPlayer.left (startedPlayer.act (some 4) .expire)

/-- It is paused instead, and played again before the timeout fires. -/
def pausedPlayer : TimedPlayer (Option Rat) :=
  TimedPlayer.left (startedPlayer.act (some 0) .pause)

def resumedPlayer : TimedPlayer (Option Rat) :=
  TimedPlayer.left (pausedPlayer.act (some 0) .play)

def advancedHistory : List (TimedPlayer (Option Rat) × (Option Rat × PlayerAction (Option Rat))) :=
  [(twoEventsPlayer, some 0, .play), (startedPlayer, some 4, .expire)]

theorem one_clock_iff_advanced :
    ((∀ entry ∈ advancedHistory, entry.1.OneClock) ∧ advancedPlayer.OneClock) ↔
      ∀ entry ∈ advancedHistory, entry.1.Clear entry.2 := by
  have fires : 0 < startedPlayer.pending := by decide +kernel
  have run : Transition.Passes TimedPlayer.Steps twoEventsPlayer advancedHistory advancedPlayer :=
    ⟨rfl, startedPlayer, ⟨nofun, rfl⟩, rfl, advancedPlayer, ⟨fun _ => fires, rfl⟩, rfl⟩
  exact one_clock_iff twoEventsPlayer_loaded run

theorem two_clocks : ¬ ∀ (start final : TimedPlayer (Option Rat)) history, start.Loaded →
    Transition.Passes TimedPlayer.Steps start history final →
      (∀ entry ∈ history, entry.1.OneClock) ∧ final.OneClock := by
  intro claim
  have run : Transition.Passes TimedPlayer.Steps twoEventsPlayer
      [(twoEventsPlayer, some 0, .play), (startedPlayer, some 0, .pause),
        (pausedPlayer, some 0, .play)] resumedPlayer :=
    ⟨rfl, startedPlayer, ⟨nofun, rfl⟩, rfl, pausedPlayer, ⟨nofun, rfl⟩, rfl, resumedPlayer,
      ⟨nofun, rfl⟩, rfl⟩
  obtain ⟨-, clock⟩ := claim _ _ _ twoEventsPlayer_loaded run
  have processes : resumedPlayer.Processes := ⟨by decide +kernel, by decide +kernel⟩
  have pending : resumedPlayer.pending = 2 := by decide +kernel
  have few := clock processes
  omega

end SSHProxyPlus
