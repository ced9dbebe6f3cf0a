import SSHProxyPlus.Page.Unattended
import SSHProxyPlus.Transition.Settling

/-! A session that nothing is added to, and a page that nobody touches: the proxy and the page go on
for so long as there is something to send. -/
namespace SSHProxyPlus
open Go Browser Transition

namespace Playback
variable (viewer : Playback) (events : List SessionEvent)

/-- How many of the events will have been sent when the proxy waits for news again. -/
def aim : Nat :=
  match viewer.step with
  | .start | .signalled => events.length
  | .unregistered newEventIndex | .measured newEventIndex | .sending _ newEventIndex => newEventIndex
  | .waiting | .returned | .panicked _ => viewer.lastEventIndex

/-- The steps until then at most, and those of the page with them. -/
def ahead : Nat :=
  match viewer.step with
  | .start => 2 * (events.length - viewer.lastEventIndex) + 3
  | .signalled => 2 * (events.length - viewer.lastEventIndex) + 2
  | .unregistered newEventIndex => 2 * (newEventIndex - viewer.lastEventIndex) + 2
  | .measured newEventIndex => 2 * (newEventIndex - viewer.lastEventIndex) + 1
  | .sending rest _ => 2 * rest.length
  | .waiting | .returned | .panicked _ => 0

variable {viewer events} {next : Playback}

theorem sendNext_ahead (viewer : Playback) (events : List SessionEvent) (newEventIndex : Nat)
    (batch : List SessionEvent) :
    (viewer.sendNext newEventIndex batch).ahead events +
        2 * (viewer.sendNext newEventIndex batch).written.length = 2 * batch.length ∧
      (viewer.sendNext newEventIndex batch).aim events = newEventIndex := by
  cases batch with
  | nil => exact ⟨rfl, rfl⟩
  | cons event rest =>
    refine ⟨?_, rfl⟩
    simp only [sendNext, ahead, written, List.getLast?_append, List.getLast?_singleton,
      Option.some_or, Option.toList_some, List.map_cons, List.map_nil, List.length_cons,
      List.length_nil]
    omega

/-- What the proxy does by itself brings it nearer to where it waits. -/
theorem advance_ahead (consistent : viewer.Consistent events) {reply : Option Bytes}
    (outside : viewer.step.entered = 0) (moved : viewer.advance events reply = some next) :
    next.ahead events + 2 * next.written.length < viewer.ahead events ∧
      next.aim events = viewer.aim events := by
  unfold Playback.advance at moved
  cases stands : viewer.step with
  | start =>
    rw [stands] at moved
    obtain rfl := Option.some.inj moved
    simp [ahead, aim, written, stands]
  | unregistered newEventIndex =>
    rw [stands] at moved
    obtain rfl := Option.some.inj moved
    simp [ahead, aim, written, stands]
  | measured newEventIndex =>
    rw [stands] at moved
    obtain ⟨after, inside⟩ := consistent.measured newEventIndex (by rw [stands]; rfl)
    simp only [sendLatestEvents, sliceEvents, if_pos (And.intro after inside),
      Option.some.injEq] at moved
    obtain ⟨less, same⟩ := viewer.sendNext_ahead events newEventIndex
      ((events.take newEventIndex).drop viewer.lastEventIndex)
    rw [List.length_drop, List.length_take, Nat.min_eq_left inside] at less
    rw [← moved, less, same, ahead, aim, stands]
    exact ⟨Nat.lt_succ_self _, rfl⟩
  | sending rest newEventIndex =>
    rw [stands] at outside
    contradiction
  | signalled =>
    rw [stands] at moved
    obtain rfl := Option.some.inj moved
    simp [ahead, aim, written, stands]
  | waiting | returned | panicked =>
    rw [stands] at moved
    contradiction

/-- An acknowledgement brings it nearer too. -/
theorem receiveReply_ahead (events : List SessionEvent) {rest : List SessionEvent} {newEventIndex : Nat} {reply : Option Bytes}
    (stands : viewer.step = .sending rest newEventIndex) (ends : endsLoop reply = true) :
    (viewer.receiveReply rest newEventIndex reply).ahead events +
        2 * (viewer.receiveReply rest newEventIndex reply).written.length = viewer.ahead events ∧
      (viewer.receiveReply rest newEventIndex reply).aim events = viewer.aim events := by
  rw [receiveReply, if_pos ends]
  obtain ⟨less, same⟩ := sendNext_ahead
    { viewer with outcomes := viewer.outcomes ++ [reply] } events newEventIndex rest
  rw [less, same, ahead, aim, stands]
  exact ⟨rfl, rfl⟩

end Playback

/-- What the proxy and the page do of themselves. -/
def WatchAction.automatic : WatchAction → Bool
  | .advance | .readReply | .deliver => true
  | _ => false

namespace Watch
open SessionEvent (output keystrokesOf)
variable {watch next : Watch} {action : WatchAction}

/-- The steps of a session and a page that are left alone. -/
def leftAlone (watch : Watch) (action : WatchAction) (next : Watch) : Prop :=
  action.automatic = true ∧ watch.perform action = some next

def ahead (watch : Watch) : Nat :=
  watch.playback.ahead watch.session.events + 2 * watch.toPage.length + watch.toProxy.length

/-- All that such a step can be. -/
inductive Goes (watch next : Watch) : Prop where
  | advance (outside : watch.playback.step.entered = 0) (playback : Playback)
      (moved : watch.playback.advance watch.session.events none = some playback)
      (after : next = watch.proceed playback)
  | readReply (rest : List SessionEvent) (newEventIndex : Nat) (reply : Bytes)
      (replies : List Bytes) (stands : watch.playback.step = .sending rest newEventIndex)
      (flying : watch.toProxy = reply :: replies)
      (after : next = { watch with toProxy := replies }.proceed
        (watch.playback.receiveReply rest newEventIndex (some reply)))
  | deliver (message : SocketReply) (rest : List SocketReply)
      (flying : watch.toPage = message :: rest) (isOpen : watch.page.isOpen = true)
      (after : next = { watch with
        page := (watch.page.onMessage message).1
        toPage := rest
        toProxy := watch.toProxy ++ (watch.page.onMessage message).2 })
  | drop (message : SocketReply) (rest : List SocketReply)
      (flying : watch.toPage = message :: rest) (closed : watch.page.isOpen = false)
      (after : next = { watch with toPage := rest })

theorem leftAlone_goes (alone : watch.leftAlone action next) : watch.Goes next := by
  obtain ⟨auto, done⟩ := alone
  cases action with
  | advance =>
    rw [perform] at done
    split at done
    · contradiction
    · next elsewhere =>
      obtain ⟨playback, moved, rfl⟩ := Option.map_eq_some_iff.mp done
      refine .advance ?_ playback moved rfl
      cases stands : watch.playback.step with
      | sending rest newEventIndex => exact absurd stands (elsewhere rest newEventIndex)
      | start | unregistered | measured | waiting | signalled | returned | panicked => rfl
  | readReply =>
    rw [perform] at done
    split at done
    · next rest newEventIndex reply replies stands flying =>
      obtain ⟨playback, moved, rfl⟩ := Option.map_eq_some_iff.mp done
      rw [Playback.advance, stands] at moved
      obtain rfl := Option.some.inj moved
      exact .readReply rest newEventIndex reply replies stands flying rfl
    · contradiction
  | deliver =>
    cases flying : watch.toPage with
    | nil =>
      rw [perform, flying] at done
      contradiction
    | cons message rest =>
      by_cases isOpen : watch.page.isOpen = true
      · rw [perform_deliver isOpen flying] at done
        exact .deliver message rest flying isOpen (Option.some.inj done).symm
      · simp only [perform, flying, if_neg isOpen] at done
        exact .drop message rest flying (Bool.eq_false_iff.mpr isOpen) (Option.some.inj done).symm
  | addEvent | signal | readError | operate | close | disconnect => contradiction

theorem leftAlone_unattended (alone : watch.leftAlone action next) : action.Unattended := by
  cases action with
  | operate operation => exact absurd alone.1 Bool.false_ne_true
  | addEvent | signal | advance | readReply | readError | deliver | close | disconnect => trivial

/-- The last event that the page has played is the end of the session. -/
def Ended (watch : Watch) : Prop :=
  ∃ n e, watch.page.reader.eventIndex = n + 1 ∧ watch.session.events[n]? = some e ∧
    e.type = eventSessionStop

theorem Goes.session (goes : watch.Goes next) : next.session = watch.session := by
  cases goes with
  | advance outside playback moved after => rw [after, proceed]
  | readReply rest newEventIndex reply replies stands flying after => rw [after, proceed]
  | deliver message rest flying isOpen after => rw [after]
  | drop message rest flying closed after => rw [after]

theorem Goes.ahead (goes : watch.Goes next) (inStep : watch.InStep) :
    next.ahead < watch.ahead ∧
      next.playback.aim next.session.events = watch.playback.aim watch.session.events := by
  cases goes with
  | advance outside playback moved after =>
    obtain ⟨less, same⟩ := Playback.advance_ahead inStep.consistent outside moved
    refine ⟨?_, after ▸ same⟩
    rw [after]
    simp only [Watch.ahead, proceed, List.length_append]
    omega
  | readReply rest newEventIndex reply replies stands flying after =>
    have acks := inStep.acks
    rw [flying] at acks
    obtain ⟨rfl, -⟩ := List.forall_mem_cons.mp acks
    obtain ⟨less, same⟩ := Playback.receiveReply_ahead watch.session.events stands
      (show Playback.endsLoop (some ackMessage) = true from rfl)
    refine ⟨?_, after ▸ same⟩
    rw [after]
    simp only [Watch.ahead, proceed, List.length_append, flying, List.length_cons]
    omega
  | deliver message rest flying isOpen after =>
    obtain ⟨rfl, noAck, -, e, rfl, -⟩ := inStep.flying isOpen flying
    obtain ⟨event, -, handled⟩ := watch.page.onMessage_message e
    have once := watch.page.receiveEvent_once event
    rw [after, handled]
    refine ⟨?_, rfl⟩
    simp only [Watch.ahead, noAck, flying, List.length_cons, List.length_nil, List.nil_append]
    omega
  | drop message rest flying closed after =>
    rw [after]
    refine ⟨?_, rfl⟩
    simp only [Watch.ahead, flying, List.length_cons]
    omega

/-- The page is closed by the end of the session alone. -/
theorem Goes.ended (goes : watch.Goes next) (inStep : watch.InStep) (unaided : watch.Unaided)
    (readable : AllReadable watch.session.events) (active : watch.page.active = true)
    (before : watch.page.isOpen = true ∨ watch.Ended) : next.page.isOpen = true ∨ next.Ended := by
  cases goes with
  | advance outside playback moved after => exact after ▸ before
  | readReply rest newEventIndex reply replies stands flying after => exact after ▸ before
  | deliver message rest flying isOpen after =>
    obtain ⟨rfl, -, -, e, rfl, sent⟩ := inStep.flying isOpen flying
    obtain ⟨event, received, handled⟩ := watch.page.onMessage_message e
    have following := inStep.following sent
    obtain ⟨reader, processed, -, -, index, -⟩ := unaided.plays isOpen active received following
      (readable_of_following readable following)
    rw [handled, WatchingPage.receiveEvent_returned active processed] at after
    rw [after]
    by_cases stops : event.has "type" "session-stop" = true
    · refine .inr ⟨watch.page.reader.events.length, e, ?_, ?_, ?_⟩
      · exact (WatchingPage.stopAfter_reader _ event).2.1.trans index
      · have here := congrArg (·[watch.page.reader.events.length]?) following
        have size := inStep.received.length_eq
        rw [inStep.events_prefix] at size
        simp only [List.getElem?_take_of_succ] at here
        rw [here, List.getElem?_append_right size.le, size, Nat.sub_self]
        rfl
      · exact (SessionEvent.received_has_type received (by decide)).mp stops
    · exact .inl ((congrArg WatchingPage.isOpen (if_neg stops)).trans isOpen)
  | drop message rest flying closed after => exact after ▸ before

/-- Nothing is left to do: the proxy waits for news, or the session has ended for it. -/
theorem atRest_playback (rests : AtRest leftAlone watch) (inStep : watch.InStep)
    (readable : AllReadable watch.session.events) (isOpen : watch.page.isOpen = true) :
    watch.toPage = [] ∧ watch.playback.step.entered = 0 ∧
      watch.playback.sent.length = watch.playback.aim watch.session.events := by
  have none {action : WatchAction} (auto : action.automatic = true) :
      watch.perform action = none := by
    by_contra possible
    obtain ⟨next, done⟩ := Option.ne_none_iff_exists'.mp possible
    exact rests action next ⟨auto, done⟩
  have toPage : watch.toPage = [] := by
    by_contra flying
    obtain ⟨message, rest, flying⟩ := List.exists_cons_of_ne_nil flying
    exact Option.some_ne_none _ ((perform_deliver isOpen flying).symm.trans (none rfl))
  obtain ⟨taken, within, -, sound, -, -⟩ := inStep.consistent
  have stays (halts : watch.playback.advance watch.session.events Option.none ≠ Option.none)
      (outside : ∀ rest newEventIndex, watch.playback.step ≠ .sending rest newEventIndex) : False := by
    have still : watch.perform .advance = Option.none := none rfl
    rw [perform] at still
    split at still
    · next rest newEventIndex stands => exact outside rest newEventIndex stands
    · exact halts (Option.map_eq_none_iff.mp still)
  have sent (quiet : watch.playback.step.rest = [])
      (here : watch.playback.step.upTo watch.playback.lastEventIndex =
        watch.playback.lastEventIndex) :
      watch.playback.sent.length = watch.playback.lastEventIndex := by
    rw [quiet, List.append_nil, here] at taken
    rw [taken, List.length_take, Nat.min_eq_left (here ▸ within)]
  cases stands : watch.playback.step with
  | start | unregistered | measured | signalled =>
    refine (stays ?_ ?_).elim
    · simp [Playback.advance, stands]
    · simp [stands]
  | sending rest newEventIndex =>
    have toProxy : watch.toProxy = [] := by
      by_contra flying
      obtain ⟨reply, replies, flying⟩ := List.exists_cons_of_ne_nil flying
      have still : watch.perform .readReply = Option.none := none rfl
      simp [perform, stands, flying, Playback.advance] at still
    obtain ⟨-, event, member, undecodable⟩ := inStep.blocked isOpen stands toPage toProxy
    have received := inStep.events_prefix ▸ inStep.received
    have taken : AllReadable (watch.session.events.take watch.page.reader.events.length) :=
      fun e among => readable e (List.mem_of_mem_take among)
    exact absurd (decodable_of_readable received taken event member) undecodable
  | waiting | returned =>
    refine ⟨toPage, rfl, ?_⟩
    rw [Playback.aim, stands]
    exact sent (by rw [stands]; rfl) (by rw [stands]; rfl)
  | panicked panic => exact absurd stands (sound panic)

/-- Where a session is watched live, and all of it can be read. -/
structure Following (watch : Watch) : Prop where
  reached : (unattended true).Reachable watch
  active : watch.page.active = true
  readable : AllReadable watch.session.events

theorem Following.inStep (following : watch.Following) : watch.InStep :=
  inStep_of_reachable (unattended_runs following.reached)

theorem Following.unaided (following : watch.Following) : watch.Unaided :=
  unaided_of_reachable following.reached following.readable

theorem Goes.active (goes : watch.Goes next) (inStep : watch.InStep) :
    next.page.active = watch.page.active := by
  cases goes with
  | advance outside playback moved after => rw [after, proceed]
  | readReply rest newEventIndex reply replies stands flying after => rw [after, proceed]
  | deliver message rest flying isOpen after =>
    obtain ⟨-, -, -, e, rfl, -⟩ := inStep.flying isOpen flying
    obtain ⟨event, -, handled⟩ := watch.page.onMessage_message e
    rw [after, handled]
    exact watch.page.receiveEvent_active event
  | drop message rest flying closed after => rw [after]

theorem leftAlone_lowers : Lowers leftAlone Following Watch.ahead where
  kept watch action next following alone := by
    have goes := leftAlone_goes alone
    refine ⟨following.reached.next ⟨leftAlone_unattended alone, alone.2⟩,
      (goes.active following.inStep).trans following.active, ?_⟩
    rw [goes.session]
    exact following.readable
  less watch action next following alone :=
    ((leftAlone_goes alone).ahead following.inStep).1

theorem Following.follows {actions : List WatchAction} (following : watch.Following)
    (follows : Follows leftAlone watch actions next) (before : watch.page.isOpen = true ∨ watch.Ended) :
    next.session = watch.session ∧
      next.playback.aim next.session.events = watch.playback.aim watch.session.events ∧
      (next.page.isOpen = true ∨ next.Ended) := by
  induction actions generalizing watch with
  | nil =>
    obtain rfl := follows
    exact ⟨rfl, rfl, before⟩
  | cons action actions ih =>
    obtain ⟨mid, alone, later⟩ := follows
    have goes := leftAlone_goes alone
    have still := leftAlone_lowers.kept watch action mid following alone
    obtain ⟨session, aim, ends⟩ := ih still later
      (goes.ended following.inStep following.unaided following.readable following.active before)
    exact ⟨session.trans goes.session, aim.trans (goes.ahead following.inStep).2, ends⟩

/-- Where nothing is left to do, the page shows all that was meant for it, or it is closed. -/
theorem Following.rested {actions : List WatchAction} (following : watch.Following)
    (isOpen : watch.page.isOpen = true) (follows : Follows leftAlone watch actions next)
    (rests : AtRest leftAlone next) :
    next.page.reader.eventIndex = watch.playback.aim watch.session.events ∨ next.Ended := by
  obtain ⟨after, -⟩ := leftAlone_lowers.follows following follows
  obtain ⟨session, aim, ends⟩ := following.follows follows (.inl isOpen)
  rcases ends with stays | ended
  · have inStep := after.inStep
    obtain ⟨toPage, -, sent⟩ := atRest_playback rests inStep after.readable stays
    have flown := inStep.sent_flying stays
    rw [toPage, List.length_nil, Nat.add_zero] at flown
    obtain ⟨-, index⟩ := after.unaided.abreast stays after.active
    exact .inl (index.trans (flown.symm.trans (sent.trans aim)))
  · exact .inr ended

/-- A live session that is watched and left alone comes to be shown. The proxy and the page take no
more steps than are ahead of them, whichever order they take them in, and come to where nothing is
left to do; the page then shows all the events that the proxy meant to send, or it has been closed
by the end of the session, which is the last event that it shows. -/
theorem left_alone_shows (reached : (unattended true).Reachable watch)
    (readable : AllReadable watch.session.events) (isOpen : watch.page.isOpen = true)
    (active : watch.page.active = true) :
    (∃ actions next, Follows leftAlone watch actions next ∧ AtRest leftAlone next) ∧
      ∀ actions next, Follows leftAlone watch actions next →
        actions.length ≤ watch.ahead ∧
        (AtRest leftAlone next →
          let events := watch.session.events
          let shown := next.page.reader.eventIndex
          next.page.reader.terminal.flatten = output (events.take shown) ∧
            next.page.reader.keystrokes = keystrokesOf (events.take shown) ∧
            (shown = watch.playback.aim events ∨
              ∃ n e, shown = n + 1 ∧ events[n]? = some e ∧ e.type = eventSessionStop)) := by
  have following : watch.Following := ⟨reached, active, readable⟩
  refine ⟨leftAlone_lowers.settles following, fun actions next follows => ?_⟩
  obtain ⟨after, bound⟩ := leftAlone_lowers.follows following follows
  obtain ⟨session, -, -⟩ := following.follows follows (.inl isOpen)
  refine ⟨by omega, fun rests => ?_⟩
  have unaided := after.unaided
  have terminal := unaided.turned.terminal
  have keystrokes := unaided.turned.keystrokes
  rw [session] at terminal keystrokes
  refine ⟨terminal, keystrokes, ?_⟩
  rcases following.rested isOpen follows rests with all | ⟨n, e, index, found, stop⟩
  · exact .inl all
  · exact .inr ⟨n, e, index, session ▸ found, stop⟩

/-- The page comes to show both events of a session that it joins. -/
theorem left_alone_shows_joined : ∃ actions next, Follows leftAlone joined actions next ∧
    next.page.reader.eventIndex = 2 ∧ next.page.reader.terminal.flatten = "$ ".toList ∧
    next.page.reader.keystrokes = [.text "ls[CARRIAGE RETURN]".toList] := by
  have start : (unattended true).Reachable joined := .start ⟨rfl, rfl, rfl, {}, rfl⟩
  obtain ⟨⟨actions, next, follows, rests⟩, all⟩ :=
    left_alone_shows start sending_readable rfl rfl
  obtain ⟨terminal, keystrokes, aim | ⟨n, e, -, found, stop⟩⟩ := (all actions next follows).2 rests
  · rw [aim] at terminal keystrokes
    exact ⟨actions, next, follows, aim, terminal.trans output_prompt,
      keystrokes.trans keystrokes_typed⟩
  · rcases List.mem_cons.mp (List.mem_of_getElem? found) with rfl | member
    · exact absurd stop (by decide)
    · obtain rfl := List.mem_singleton.mp member
      exact absurd stop (by decide)

end Watch
end SSHProxyPlus
