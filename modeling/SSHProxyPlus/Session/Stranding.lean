import SSHProxyPlus.Session.Enrollment

/-! Whether a session that is over leaves viewers behind that wait for its signals. -/
namespace SSHProxyPlus
open Go Transition

namespace Statement

/-- Of a call of `HandleEvent` or `End` that has not returned. -/
def inCall : Statement → Nat
  | .logEvent _ | .signalClients _ | .ranging .. | .sending .. | .deactivate | .finalizeLog
  | .closeLog | .renameLog => 1
  | _ => 0

/-- The viewers are still to be told of the end. -/
def tells : Statement → Nat
  | .signalClients .sessionEnd => 1
  | _ => 0

theorem tells_le_inCall (statement : Statement) : tells statement ≤ inCall statement := by
  unfold tells
  split
  · exact Nat.le_refl 1
  · exact Nat.zero_le _

end Statement

namespace LiveSession
open Statement

/-- The session has ended: calls of `End` and of `HandleEvent` have returned. -/
def Over (live : LiveSession) : Prop :=
  live.logged.session.active = false ∧ total inCall live.threads = 0

/-- No loop that tells of the end is still to begin. -/
def Announced (live : LiveSession) : Prop :=
  live.logged.session.active = false ∧ total tells live.threads = 0

instance (live : LiveSession) : Decidable live.Over := inferInstanceAs (Decidable (_ ∧ _))

instance (live : LiveSession) : Decidable live.Announced := inferInstanceAs (Decidable (_ ∧ _))

/-- Viewers register before the last loop that tells of the end begins. -/
def Early (live : LiveSession) : LiveAction → Prop
  | .view viewer _ _ =>
      live.Announced → ∀ viewing ∈ live.viewers[viewer]?, viewing.registering = false
  | _ => True

instance (live : LiveSession) : (action : LiveAction) → Decidable (live.Early action)
  | .view viewer _ _ => inferInstanceAs (Decidable (live.Announced →
      ∀ viewing ∈ live.viewers[viewer]?, viewing.registering = false))
  | .run .. | .stop | .playSession => isTrue trivial

/-- A loop that tells of the end comes to the viewer. -/
def Ahead (live : LiveSession) (viewer : Nat) : List Statement → Prop
  | .ranging .sessionEnd header index :: _ =>
      ∃ k, index ≤ k ∧ k < header.length ∧ live.arrays.slot header.array k = some viewer
  | .sending .sessionEnd header index current :: _ => current = viewer ∨
      ∃ k, index < k ∧ k < header.length ∧ live.arrays.slot header.array k = some viewer
  | _ => False

/-- The viewer's signal is among the session's, and it has not been told of the end. -/
def Attends (live : LiveSession) (viewer : Nat) : Prop :=
  ∃ viewing, live.viewers[viewer]? = some viewing ∧ viewing.registered = true ∧
    viewing.playback.step ≠ .returned

/-- Once the end is announced, some loop comes to each viewer that is not told of it yet. -/
structure Awaited (live : LiveSession) : Prop where
  enrolled : live.Enrolled
  ahead : live.Announced → ∀ viewer, live.Attends viewer →
    ∃ (i : Nat) (thread : List Statement), live.threads[i]? = some thread ∧
      live.Ahead viewer thread

variable {live next : LiveSession} {action : LiveAction} {sessionFolder : Bytes}
  {session : SessionContext} {files : Files}

/-- The end is announced as a loop takes the signals. -/
theorem Ran.announced {i : Nat} {now : Time} {statement : Statement} {rest : List Statement}
    {changed : LiveSession} {left : List Statement} {spawned : List (List Statement)}
    (ran : live.Ran i now statement rest changed left spawned next) (announced : next.Announced) :
    live.Announced ∨ statement = .signalClients .sessionEnd := by
  obtain ⟨inactive, none⟩ := announced
  have sums := ran.sums tells
  have active := ran.active
  have executes := ran.executes
  cases executes with
  | deactivate => simp [weight, weights, tells, none] at sums
  | signalClients signal =>
    cases signal with
    | sessionEnd => exact .inr rfl
    | newMessage =>
      simp [weight, weights, tells, none] at sums
      exact .inl ⟨(active (by simp)).symm.trans inactive, sums.symm⟩
  | go thread =>
    simp [weight, none, total_singleton] at sums
    exact .inl ⟨(active (by simp)).symm.trans inactive, by omega⟩
  | _ =>
    simp [weight, weights, tells, none] at sums
    exact .inl ⟨(active (by simp)).symm.trans inactive, sums.symm⟩

/-- Only a viewer that registers is new among those that are still to be told. -/
theorem Stirs.attends (stirs : Stirs live next action) (announced : live.Announced)
    (early : live.Early action) {viewer : Nat} (attends : next.Attends viewer) :
    live.Attends viewer := by
  obtain ⟨watching, there, enlisted, stays⟩ := attends
  cases stirs with
  | unnoticed same => exact ⟨watching, same.viewers ▸ there, enlisted, stays⟩
  | records viewers => exact ⟨watching, viewers ▸ there, enlisted, stays⟩
  | takes here received goes | goesOn advanced placed stays' goes =>
    rw [goes.viewers] at there
    obtain ⟨rfl, rfl⟩ | ⟨-, there⟩ := getElem?_set_cases there
    · exact ⟨_, goes.here, enlisted, goes.stays⟩
    · exact ⟨watching, there, enlisted, stays⟩
  | joins joins =>
    rw [joins.viewers] at there
    obtain ⟨-, rfl⟩ | there := getElem?_concat_cases there
    · contradiction
    · exact ⟨watching, there, enlisted, stays⟩
  | registers stands registers =>
    have late := early announced _ (Option.mem_def.mpr registers.here)
    simp [Viewing.registering, stands] at late
  | exits exits =>
    rw [exits.viewers] at there
    obtain ⟨-, rfl⟩ | ⟨-, there⟩ := getElem?_set_cases there
    · contradiction
    · exact ⟨watching, there, enlisted, stays⟩

/-- The slots of those that are still to be told keep what they hold. -/
theorem Stirs.slot (stirs : Stirs live next action) (announced : live.Announced)
    (early : live.Early action) {viewer array k : Nat} (attends : next.Attends viewer)
    (slot : live.arrays.slot array k = some viewer) : next.arrays.slot array k = some viewer := by
  cases stirs with
  | unnoticed same => rwa [same.arrays]
  | records _ arrays => rwa [arrays]
  | takes here received goes | goesOn advanced placed stays goes => rwa [goes.arrays]
  | joins joins => rwa [joins.arrays]
  | registers stands registers =>
    have late := early announced _ (Option.mem_def.mpr registers.here)
    simp [Viewing.registering, stands] at late
  | @exits other place _ _ viewing exits =>
    rw [exits.removed.others, slot]
    rintro rfl rfl
    -- it would be the viewer that leaves
    obtain rfl := Option.some.inj (slot.symm.trans exits.slot)
    obtain ⟨watching, there, enlisted, -⟩ := attends
    rw [exits.viewers, List.getElem?_set_self (List.getElem?_eq_some_iff.mp exits.here).1] at there
    obtain rfl := Option.some.inj there
    contradiction

theorem Ahead.stirs {viewer : Nat} {thread : List Statement} (ahead : live.Ahead viewer thread)
    (stirs : Stirs live next action) (announced : live.Announced) (early : live.Early action)
    (attends : next.Attends viewer) : next.Ahead viewer thread := by
  have kept {array k : Nat} (slot : live.arrays.slot array k = some viewer) :=
    stirs.slot announced early attends slot
  unfold Ahead at ahead ⊢
  split at ahead
  · obtain ⟨k, later, covered, slot⟩ := ahead
    exact ⟨k, later, covered, kept slot⟩
  · obtain same | ⟨k, later, covered, slot⟩ := ahead
    · exact .inl same
    · exact .inr ⟨k, later, covered, kept slot⟩
  · contradiction

/-- The loop goes on towards the viewer, until it tells it. -/
theorem Ahead.ran {viewer i : Nat} {now : Time} {statement : Statement} {rest : List Statement}
    {changed : LiveSession} {left : List Statement} {spawned : List (List Statement)}
    (ahead : live.Ahead viewer (statement :: rest))
    (ran : live.Ran i now statement rest changed left spawned next)
    (attends : next.Attends viewer) : next.Ahead viewer (left ++ rest) := by
  have same := ran.next_eq
  have executes := ran.executes
  cases executes with
  | @turn signal header index current more slot =>
    cases signal with
    | newMessage => contradiction
    | sessionEnd =>
      have arrays : next.arrays = live.arrays := same ▸ rfl
      obtain ⟨k, later, covered, there⟩ := ahead
      obtain rfl | later := Nat.eq_or_lt_of_le later
      · exact .inl (Option.some.inj (slot.symm.trans there))
      · exact .inr ⟨k, later, covered, arrays.symm ▸ there⟩
  | @allSignalled signal header index ended =>
    cases signal with
    | newMessage => contradiction
    | sessionEnd =>
      obtain ⟨k, later, covered, -⟩ := ahead
      exact absurd (Nat.lt_of_le_of_lt later covered) ended
  | @sending signal header index current viewing playback there received =>
    cases signal with
    | newMessage => contradiction
    | sessionEnd =>
      have arrays : next.arrays = live.arrays := same ▸ rfl
      have viewers : next.viewers = live.viewers.set current { viewing with playback } :=
        same ▸ rfl
      obtain rfl | ⟨k, later, covered, slot⟩ := ahead
      · obtain ⟨-, ⟨none, -⟩ | ⟨-, rfl⟩⟩ := Viewing.receiveSignal_cases received
        · contradiction
        · obtain ⟨watching, told, -, stays⟩ := attends
          rw [viewers, List.getElem?_set_self (List.getElem?_eq_some_iff.mp there).1] at told
          obtain rfl := Option.some.inj told
          exact absurd rfl stays
      · exact ⟨k, later, covered, arrays.symm ▸ slot⟩
  | _ => contradiction

theorem Awaited.ran {i : Nat} {now : Time} {statement : Statement} {rest : List Statement}
    {changed : LiveSession} {left : List Statement} {spawned : List (List Statement)}
    (awaited : live.Awaited) (enrolled : next.Enrolled)
    (stirs : Stirs live next (.run i now))
    (ran : live.Ran i now statement rest changed left spawned next) : next.Awaited := by
  refine ⟨enrolled, fun announced viewer attends => ?_⟩
  obtain before | rfl := ran.announced announced
  · obtain ⟨j, thread, there, ahead⟩ := awaited.ahead before viewer
      (stirs.attends before trivial attends)
    obtain ⟨rfl, rfl⟩ | ⟨-, still⟩ := ran.thread there
    · exact ⟨j, left ++ rest, ran.own, ahead.ran ran attends⟩
    · exact ⟨j, thread, still, ahead.stirs stirs before trivial attends⟩
  · -- the loop that begins has everyone ahead
    obtain ⟨watching, there, enlisted, -⟩ := attends
    obtain ⟨k, inside, slot⟩ := enrolled.found viewer watching there enlisted
    refine ⟨i, left ++ rest, ran.own, ?_⟩
    have same := ran.next_eq
    have executes := ran.executes
    cases executes with
    | signalClients =>
      have msgSignal : next.msgSignal = live.msgSignal := same ▸ rfl
      exact ⟨k, Nat.zero_le k, msgSignal ▸ inside, msgSignal ▸ slot⟩

theorem Awaited.perform (awaited : live.Awaited) (early : live.Early action)
    (performed : live.perform action = some next) : next.Awaited := by
  have enrolled := awaited.enrolled.perform performed
  have stirs := awaited.enrolled.stirs performed
  obtain ⟨i, now, statement, rest, changed, left, spawned, rfl, ran⟩ | aside :=
    perform_cases performed
  · exact awaited.ran enrolled stirs ran
  · refine ⟨enrolled, fun announced viewer attends => ?_⟩
    have before : live.Announced := by
      rw [Announced, aside.total tells rfl, aside.logged] at announced
      exact announced
    obtain ⟨j, thread, there, ahead⟩ := awaited.ahead before viewer
      (stirs.attends before early attends)
    exact ⟨j, thread, aside.thread there, ahead.stirs stirs before early attends⟩

/-- Where every viewer registers before the end is announced, none waits once the session is
over. -/
theorem early_nobody_waits (reached : (runs Early sessionFolder session files).Reachable live)
    (over' : live.Over) : ∀ viewing ∈ live.viewers, viewing.playback.step ≠ .waiting := by
  have awaited : live.Awaited := by
    clear over'
    induction reached with
    | start first =>
      obtain ⟨active, -, connected, rfl⟩ := first
      exact ⟨loggedIn_enrolled _ _ _ _, fun announced => nomatch active.symm.trans announced.1⟩
    | next _ step ih => exact ih.perform step.1 step.2
  obtain ⟨inactive, returned⟩ := over'
  intro viewing member waits
  obtain ⟨viewer, there⟩ := List.mem_iff_getElem?.mp member
  have announced : live.Announced :=
    ⟨inactive, Nat.le_zero.mp (returned ▸ total_mono tells_le_inCall live.threads)⟩
  have enlisted : viewing.registered = true := by
    simpa [Viewing.Placed, waits] using awaited.enrolled.placed viewing member
  obtain ⟨i, thread, here, ahead⟩ := awaited.ahead announced viewer
    ⟨viewing, there, enlisted, by simp [waits]⟩
  have none : weights inCall thread = 0 :=
    Nat.le_zero.mp (returned ▸ weights_le_total (f := inCall) here)
  unfold Ahead at ahead
  split at ahead
  · exact absurd (Nat.add_eq_zero_iff.mp none).1 Nat.one_ne_zero
  · exact absurd (Nat.add_eq_zero_iff.mp none).1 Nat.one_ne_zero
  · contradiction

/-- A step, if it is early. -/
def performEarly (live : LiveSession) (action : LiveAction) : Option LiveSession :=
  if live.Early action then live.perform action else none

theorem performEarly_step {sessionFolder : Bytes} {session : SessionContext} {files : Files}
    (live : LiveSession) (action : LiveAction) (next : LiveSession)
    (performed : live.performEarly action = some next) :
    (runs Early sessionFolder session files).step live action next :=
  Option.ite_none_right_eq_some.mp performed

/-- A viewer comes, waits, and is told of the stop event and of the end of a session that is not
connected. -/
def watchedEnd : List LiveAction :=
  .playSession :: List.replicate 3 (.view 0 none 0) ++ List.replicate 11 (.run 0 0) ++
    List.replicate 3 (.view 0 (some (lit "ack")) 0) ++ List.replicate 9 (.run 0 0) ++
    [.view 0 none 0]

theorem early_nobody_waits_watched : ∃ live, (runs Early (lit "logs") freshSession ∅).Reachable live ∧
    live.Over ∧ live.viewers.length = 1 ∧
    ∀ viewing ∈ live.viewers, viewing.playback.step ≠ .waiting := by
  have ran : ((watchedEnd.foldlM performEarly (loggedIn (lit "logs") freshSession ∅ none)).any
      fun live => live.Over ∧ live.viewers.length = 1) = true := by decide +kernel
  obtain ⟨live, same, facts⟩ := (Option.any_eq_true _ _).mp ran
  obtain ⟨over', one⟩ := of_decide_eq_true facts
  have reached := freshSession_reachable.foldlM performEarly_step same
  exact ⟨live, reached, over', one, early_nobody_waits reached over'⟩

/-- A viewer comes once the session has ended, and is sent the stop event. -/
def lateVisit : List LiveAction :=
  List.replicate 16 (.run 0 0) ++ .playSession :: List.replicate 4 (.view 0 (some (lit "ack")) 0)

theorem late_viewer_waits : ¬ ∀ (sessionFolder : Bytes) (session : SessionContext) (files : Files)
    (live : LiveSession), (runs (fun _ _ => True) sessionFolder session files).Reachable live →
      live.Over → ∀ viewing ∈ live.viewers, viewing.playback.step ≠ .waiting := by
  intro claim
  have ran : ∃ live, lateVisit.foldlM perform (loggedIn (lit "logs") freshSession ∅ none) =
      some live ∧ live.Over ∧ live.viewers[0]?.map (fun viewing => viewing.playback.step) =
        some .waiting := ⟨_, rfl, by decide +kernel, rfl⟩
  obtain ⟨live, same, over', waits⟩ := ran
  obtain ⟨viewing, here, stands⟩ := Option.map_eq_some_iff.mp waits
  have reached : (runs (fun _ _ => True) (lit "logs") freshSession ∅).Reachable live :=
    freshSession_reachable.foldlM (fun _ _ _ performed => ⟨trivial, performed⟩) same
  exact claim _ _ _ live reached over' viewing (List.mem_of_getElem? here) stands

end LiveSession
end SSHProxyPlus
