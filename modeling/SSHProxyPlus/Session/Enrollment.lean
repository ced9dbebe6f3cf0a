import SSHProxyPlus.Session.Farewell

/-! What each step of a session does to its viewers, and leaves of its threads; whatever it is, the
signals stay those of the viewers that are registered. -/
namespace SSHProxyPlus
open Go Transition

/-- The viewer is about to add its signal. -/
def Viewing.registering (viewing : Viewing) : Bool :=
  match viewing.playback.step with
  | .unregistered _ => true
  | _ => false

namespace LiveSession
variable {live next : LiveSession} {action : LiveAction}

/-- All that a step can do to the viewers. -/
inductive Stirs (live next : LiveSession) : LiveAction → Prop where
  | unnoticed {action : LiveAction} (same : Unnoticed live next) : Stirs live next action
  | records {action : LiveAction} {stamped : SessionEvent} (viewers : next.viewers = live.viewers)
      (arrays : next.arrays = live.arrays) (msgSignal : next.msgSignal = live.msgSignal)
      (events : next.events = live.events ++ [stamped]) : Stirs live next action
  | takes {i : Nat} {now : Time} {signal : Signal} {header : SliceHeader} {index viewer : Nat}
      {rest : List Statement} {viewing : Viewing} {playback : Playback}
      (here : live.threads[i]? = some (.sending signal header index viewer :: rest))
      (received : viewing.playback.receiveSignal signal = some playback)
      (goes : Goes live next viewer viewing { viewing with playback }) :
      Stirs live next (.run i now)
  | joins (joins : Joins live next) : Stirs live next .playSession
  | registers {viewer newEventIndex : Nat} {reply : Option Bytes} {spare : Nat} {viewing : Viewing}
      (stands : viewing.playback.step = .unregistered newEventIndex)
      (registers : Registers live next viewer viewing
        ⟨{ viewing.playback with step := .measured newEventIndex }, true⟩)
      (room : next.msgSignal.array = live.msgSignal.array →
        live.msgSignal.length < (live.arrays.backing live.msgSignal.array).capacity) :
      Stirs live next (.view viewer reply spare)
  | exits {viewer place : Nat} {reply : Option Bytes} {spare : Nat} {viewing : Viewing}
      (exits : Exits live next viewer place viewing { viewing with registered := false }) :
      Stirs live next (.view viewer reply spare)
  | goesOn {viewer : Nat} {reply : Option Bytes} {spare : Nat} {viewing : Viewing}
      {playback : Playback} (advanced : viewing.playback.advance live.events reply = some playback)
      (placed : Viewing.Placed { viewing with playback }) (stays : playback.step ≠ .returned)
      (goes : Goes live next viewer viewing { viewing with playback }) :
      Stirs live next (.view viewer reply spare)

theorem Enrolled.view_stirs {viewer spare : Nat} {reply : Option Bytes} {viewing seen : Viewing}
    {changed : LiveSession} (enrolled : live.Enrolled) (here : live.viewers[viewer]? = some viewing)
    (viewed : live.view viewer viewing reply spare = some (changed, seen)) :
    Stirs live { changed with viewers := changed.viewers.set viewer seen }
      (.view viewer reply spare) := by
  have member := List.mem_of_getElem? here
  have placed := enrolled.placed viewing member
  cases views_of_view viewed with
  | registers stands =>
    refine .registers stands ⟨here, rfl, ?_, rfl, ?_, rfl⟩ fun same => ?_
    · exact Arrays.push_pushed enrolled.within viewer spare
    · simpa [Viewing.Placed, stands] using placed
    · by_contra full
      have moved := live.arrays.push_array live.msgSignal viewer spare
      rw [if_neg full] at moved
      exact absurd enrolled.within.allocated (Nat.not_lt.mpr (Nat.le_of_eq (moved.symm.trans same)))
  | exits returned _ enlisted =>
    obtain ⟨place, covered, slot⟩ := enrolled.found viewer viewing here enlisted
    have removed := Arrays.swapRemoveFirst_removed enrolled.within covered slot
      fun i inside there => enrolled.unique i place viewer inside covered there slot
    exact .exits ⟨here, rfl, covered, slot, removed, rfl, rfl, returned, enlisted, rfl⟩
  | goesOn registering advanced =>
    obtain ⟨placed', stays', stays, informed⟩ :=
      Viewing.advance_cases placed (enrolled.consistent viewing member) registering advanced
    exact .goesOn advanced placed' stays' ⟨here, rfl, rfl, rfl, rfl, rfl, stays, informed⟩

theorem Enrolled.stirs (enrolled : live.Enrolled) (performed : live.perform action = some next) :
    Stirs live next action := by
  cases action with
  | run i now =>
    obtain ⟨statement, rest, changed, left, spawned, ran⟩ := ran_of_perform performed
    have executes := ran.executes
    have same := ran.next_eq
    cases executes with
    | handleEvent event =>
      have appended : next.events = live.events ++
          [{ event with timeOffset := live.logged.session.getTimeOffset now }] := same ▸ rfl
      exact .records (same ▸ rfl) (same ▸ rfl) (same ▸ rfl) appended
    | sending there received =>
      have waits := (Viewing.receiveSignal_cases received).1
      refine .takes ran.here received ⟨there, same ▸ rfl, same ▸ rfl, same ▸ rfl, same ▸ rfl, rfl,
        by simp [waits], fun _ => ?_⟩
      obtain ⟨-, ⟨-, rfl⟩ | ⟨-, rfl⟩⟩ := Viewing.receiveSignal_cases received
      · exact fun _ => trivial
      · exact fun _ => trivial
    | _ =>
      exact .unnoticed (ran.unnoticed (fun _ => Statement.noConfusion)
        fun _ _ _ _ => Statement.noConfusion)
  | stop =>
    obtain rfl := Option.some.inj performed
    exact .unnoticed ⟨rfl, rfl, rfl, rfl⟩
  | playSession =>
    obtain rfl := Option.some.inj performed
    exact .joins ⟨rfl, rfl, rfl, rfl⟩
  | view viewer reply spare =>
    simp only [perform, Option.bind_eq_bind, Option.bind_eq_some_iff] at performed
    obtain ⟨viewing, here, ⟨changed, seen⟩, viewed, same⟩ := performed
    obtain rfl := Option.some.inj same
    exact enrolled.view_stirs here viewed

/-- A viewer that takes a signal is where it was among them. -/
theorem Enrolled.placed_signal {viewer : Nat} {viewing : Viewing} {signal : Signal}
    {playback : Playback} (enrolled : live.Enrolled)
    (here : live.viewers[viewer]? = some viewing)
    (received : viewing.playback.receiveSignal signal = some playback) :
    viewing.registered = true ∧ Viewing.Placed { viewing with playback } := by
  obtain ⟨waits, ⟨-, rfl⟩ | ⟨-, rfl⟩⟩ := Viewing.receiveSignal_cases received <;>
    have registered : viewing.registered = true := by
      simpa [Viewing.Placed, waits] using enrolled.placed viewing (List.mem_of_getElem? here)
  · exact ⟨registered, registered⟩
  · exact ⟨registered, trivial⟩

theorem Enrolled.perform (enrolled : live.Enrolled) (performed : live.perform action = some next) :
    next.Enrolled := by
  cases enrolled.stirs performed with
  | unnoticed same => exact same.enrolled enrolled
  | records viewers arrays msgSignal events =>
    obtain ⟨within, placed, consistent, slots, unique, found⟩ := enrolled
    refine ⟨by rwa [arrays, msgSignal], by rwa [viewers], ?_, by rwa [viewers, arrays, msgSignal],
      by rwa [arrays, msgSignal], by rwa [viewers, arrays, msgSignal]⟩
    rw [viewers, events]
    exact fun viewing member => (consistent viewing member).addEvent _
  | takes here received goes =>
    have consistent := enrolled.consistent _ (List.mem_of_getElem? goes.here)
    exact goes.enrolled enrolled (enrolled.placed_signal goes.here received).2
      (consistent.receiveSignal received)
  | joins joins => exact joins.enrolled enrolled
  | registers stands registers room =>
    have consistent := enrolled.consistent _ (List.mem_of_getElem? registers.here)
    exact registers.enrolled enrolled rfl (consistent.register stands)
  | exits exits => exact exits.enrolled enrolled
  | goesOn advanced placed stays goes =>
    have consistent := enrolled.consistent _ (List.mem_of_getElem? goes.here)
    exact goes.enrolled enrolled placed (consistent.advance advanced)

theorem loggedIn_enrolled (sessionFolder : Bytes) (session : SessionContext) (files : Files)
    (connected : Option ConnectedClient) :
    (loggedIn sessionFolder session files connected).Enrolled :=
  (loggedIn_parted sessionFolder session files connected).enrolled

end LiveSession
end SSHProxyPlus
