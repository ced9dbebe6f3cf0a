import SSHProxyPlus.Session.Enrollment

/-! When no thread of a session waits for a viewer that waits for its client: the viewers are
signalled by one call at a time, and only once each of them has been acknowledged all it sent. -/
namespace SSHProxyPlus
open Go Transition

/-- In the write loop of an event, where only the client's reply leads on. -/
def Viewing.Writing (viewing : Viewing) : Prop :=
  ∃ rest newEventIndex, viewing.playback.step = .sending rest newEventIndex

namespace Statement

/-- In the loop of `sendSignalToClients`. -/
def loops : Statement → Nat
  | .ranging .. | .sending .. => 1
  | _ => 0

theorem loops_unseen : Unseen loops := ⟨rfl, fun _ => rfl⟩

/-- The signals that a thread goes over while it is in that loop. -/
def goesOver : List Statement → Option SliceHeader
  | .ranging _ header _ :: _ | .sending _ header _ _ :: _ => some header
  | _ => none

end Statement

namespace LiveSession
open Statement
variable {live next : LiveSession} {action : LiveAction}

/-- The thread has the viewer's channel in hand. -/
def AtChannel (live : LiveSession) (thread viewer : Nat) : Prop :=
  ∃ signal header index rest,
    live.threads[thread]? = some (.sending signal header index viewer :: rest)

/-- The thread waits for a viewer that waits for its client. -/
def Awaits (live : LiveSession) (thread : Nat) : Prop :=
  ∃ viewer viewing, live.AtChannel thread viewer ∧ live.viewers[viewer]? = some viewing ∧
    viewing.Writing

/-- A call of `sendSignalToClients` begins while no other is under way, and once every registered
viewer waits for its signal; and no viewer registers while a call goes over more signals than are
left. -/
def Unhurried (live : LiveSession) : LiveAction → Prop
  | .run thread _ => ∀ signal rest, live.threads[thread]? = some (.signalClients signal :: rest) →
      (∀ other ∈ live.threads, goesOver other = none) ∧
        ∀ viewing ∈ live.viewers, viewing.registered = true → viewing.playback.step = .waiting
  | .view viewer _ _ => ∀ viewing newEventIndex, live.viewers[viewer]? = some viewing →
      viewing.playback.step = .unregistered newEventIndex → ∀ thread ∈ live.threads,
        ∀ header, goesOver thread = some header → header.length ≤ live.msgSignal.length
  | _ => True

theorem unhurried_run {i : Nat} {now : Time} {statement : Statement} {rest : List Statement}
    (here : live.threads[i]? = some (statement :: rest))
    (silent : ∀ signal, statement ≠ .signalClients signal) : live.Unhurried (.run i now) := by
  intro signal later there
  obtain ⟨rfl, -⟩ := List.cons.inj (Option.some.inj (here.symm.trans there))
  exact absurd rfl (silent signal)

theorem unhurried_view {viewer spare : Nat} {reply : Option Bytes}
    (out : ∀ thread ∈ live.threads, goesOver thread = none) :
    live.Unhurried (.view viewer reply spare) := by
  intro _ _ _ _ thread member header over'
  rw [out thread member] at over'
  contradiction

def Waits (live : LiveSession) (viewer : Nat) : Prop :=
  ∃ viewing, live.viewers[viewer]? = some viewing ∧ viewing.playback.step = .waiting

/-- A loop over the signals, before the turn `index`, and with `current` in hand: those it still
comes to are different, and wait for their signals. -/
structure Turn (live : LiveSession) (header : SliceHeader) (index : Nat)
    (current : Option Nat) : Prop where
  within : header.Within live.arrays
  waits : ∀ k viewer, index ≤ k → k < header.length →
    live.arrays.slot header.array k = some viewer → live.Waits viewer
  apart : ∀ j k viewer, index ≤ j → j < header.length → index ≤ k → k < header.length →
    live.arrays.slot header.array j = some viewer →
      live.arrays.slot header.array k = some viewer → j = k
  current : ∀ viewer, current = some viewer → live.Waits viewer ∧
    ∀ k, index ≤ k → k < header.length → live.arrays.slot header.array k ≠ some viewer

/-- A thread is in no such loop, or in one that those ahead of it wait for. -/
inductive Turning (live : LiveSession) : List Statement → Prop where
  | elsewhere {thread : List Statement} (none : weights loops thread = 0) : Turning live thread
  | ranging {signal : Signal} {header : SliceHeader} {index : Nat} {rest : List Statement}
      (turn : live.Turn header index none) (past : weights loops rest = 0) :
      Turning live (.ranging signal header index :: rest)
  | sending {signal : Signal} {header : SliceHeader} {index viewer : Nat} {rest : List Statement}
      (turn : live.Turn header (index + 1) (some viewer)) (past : weights loops rest = 0) :
      Turning live (.sending signal header index viewer :: rest)

/-- One loop at a time, and nobody in it who does not wait for its signal. -/
structure InTurn (live : LiveSession) : Prop where
  enrolled : live.Enrolled
  once : total loops live.threads ≤ 1
  turns : ∀ thread ∈ live.threads, live.Turning thread

/-- What happens behind a loop, or to others than those it comes to, leaves it as it was. -/
theorem Turn.kept {header : SliceHeader} {index : Nat} {current : Option Nat}
    (turn : live.Turn header index current) (within : header.Within next.arrays)
    (slots : ∀ k, index ≤ k → k < header.length →
      next.arrays.slot header.array k = live.arrays.slot header.array k)
    (waits : ∀ viewer, live.Waits viewer → next.Waits viewer) : next.Turn header index current where
  within := within
  waits k viewer after before there :=
    waits viewer (turn.waits k viewer after before (slots k after before ▸ there))
  apart j k viewer after before after' before' first second :=
    turn.apart j k viewer after before after' before' (slots j after before ▸ first)
      (slots k after' before' ▸ second)
  current viewer held := by
    obtain ⟨own, others⟩ := turn.current viewer held
    exact ⟨waits viewer own, fun k after before => slots k after before ▸ others k after before⟩

theorem Turning.kept {thread : List Statement} (turning : live.Turning thread)
    (turns : ∀ header index current, goesOver thread = some header →
      live.Turn header index current → next.Turn header index current) : next.Turning thread := by
  cases turning with
  | elsewhere none => exact .elsewhere none
  | ranging turn past => exact .ranging (turns _ _ _ rfl turn) past
  | sending turn past => exact .sending (turns _ _ _ rfl turn) past

theorem Turning.same {thread : List Statement} (turning : live.Turning thread)
    (viewers : next.viewers = live.viewers) (arrays : next.arrays = live.arrays) :
    next.Turning thread := by
  refine turning.kept fun header index current _ turn => ?_
  refine turn.kept (arrays ▸ turn.within) (fun k _ _ => by rw [arrays]) fun viewer waits => ?_
  unfold Waits
  rwa [viewers]

theorem Turning.rest {statement : Statement} {rest : List Statement}
    (turning : live.Turning (statement :: rest)) : weights loops rest = 0 := by
  cases turning with
  | elsewhere none => exact (Nat.add_eq_zero_iff.mp none).2
  | ranging _ past => exact past
  | sending _ past => exact past

theorem Turning.none {thread : List Statement} (turning : live.Turning thread)
    (out : goesOver thread = none) : weights loops thread = 0 := by
  cases turning with
  | elsewhere none => exact none
  | ranging => contradiction
  | sending => contradiction

/-- All signals are ahead of a call that begins when everyone waits. -/
theorem Enrolled.turn (enrolled : live.Enrolled)
    (waiting : ∀ viewing ∈ live.viewers, viewing.registered = true →
      viewing.playback.step = .waiting) : live.Turn live.msgSignal 0 none where
  within := enrolled.within
  waits k viewer _ before there := by
    obtain ⟨other, viewing, slot, here, registered⟩ := enrolled.slots k before
    obtain rfl := Option.some.inj (there.symm.trans slot)
    exact ⟨viewing, here, waiting viewing (List.mem_of_getElem? here) registered⟩
  apart j k viewer _ before _ before' first second :=
    enrolled.unique j k viewer before before' first second
  current _ held := nomatch held

section Ran
variable {i : Nat} {now : Time} {statement : Statement} {rest : List Statement}
  {changed : LiveSession} {left : List Statement} {spawned : List (List Statement)}

theorem Ran.spawned_loops (ran : live.Ran i now statement rest changed left spawned next)
    (turning : live.Turning (statement :: rest)) : ∀ thread ∈ spawned, weights loops thread = 0 := by
  have executes := ran.executes
  cases executes with
  | go thread =>
    cases turning with
    | elsewhere none => exact List.forall_mem_singleton.mpr (Nat.add_eq_zero_iff.mp none).1
  | _ => exact List.forall_mem_nil _

/-- The thread that takes a step is in turn after it. -/
theorem Ran.turning (ran : live.Ran i now statement rest changed left spawned next)
    (enrolled : live.Enrolled) (unhurried : live.Unhurried (.run i now))
    (turning : live.Turning (statement :: rest)) : next.Turning (left ++ rest) := by
  have past := turning.rest
  obtain ⟨here, executes, rfl⟩ := ran
  cases executes with
  | signalClients signal =>
    have turn := enrolled.turn (unhurried signal rest here).2
    exact .ranging (turn.kept turn.within (fun _ _ _ => rfl) fun _ waits => waits) past
  | @turn _ _ index _ more there =>
    cases turning with
    | elsewhere none => exact absurd (Nat.add_eq_zero_iff.mp none).1 Nat.one_ne_zero
    | ranging turn =>
      refine .sending ⟨turn.within, ?_, ?_, ?_⟩ past
      · exact fun k viewer after => turn.waits k viewer (Nat.le_of_succ_le after)
      · exact fun j k viewer after before after' => turn.apart j k viewer (Nat.le_of_succ_le after)
          before (Nat.le_of_succ_le after')
      · rintro viewer ⟨⟩
        refine ⟨turn.waits index _ le_rfl more there, fun k after before again => ?_⟩
        have same := turn.apart index k _ le_rfl more (Nat.le_of_succ_le after) before there again
        omega
  | @sending signal header index viewer viewing playback there received =>
    cases turning with
    | elsewhere none => exact absurd (Nat.add_eq_zero_iff.mp none).1 Nat.one_ne_zero
    | sending turn =>
      refine .ranging ⟨turn.within, fun k other after before slot => ?_, turn.apart, nofun⟩ past
      obtain ⟨watching, here', waits⟩ := turn.waits k other after before slot
      have others := (turn.current viewer rfl).2 k after before
      have apart : viewer ≠ other := fun same => others (same ▸ slot)
      exact ⟨watching, (List.getElem?_set_ne apart).trans here', waits⟩
  | _ =>
    refine .elsewhere ?_
    rw [weights_append, past]
    rfl

/-- Only a loop's own step changes viewers. -/
theorem Ran.viewers_same (ran : live.Ran i now statement rest changed left spawned next)
    (out : loops statement = 0) : next.viewers = live.viewers ∧ next.arrays = live.arrays := by
  obtain ⟨-, executes, rfl⟩ := ran
  cases executes with
  | sending => contradiction
  | _ => exact ⟨rfl, rfl⟩

theorem InTurn.ran (inTurn : live.InTurn) (unhurried : live.Unhurried (.run i now))
    (ran : live.Ran i now statement rest changed left spawned next) (enrolled : next.Enrolled) :
    next.InTurn := by
  have turning := inTurn.turns _ (List.mem_of_getElem? ran.here)
  have starts := ran.spawned_loops turning
  refine ⟨enrolled, ?_, fun thread member => ?_⟩
  · have sums := ran.sums loops
    have once := inTurn.once
    have executes := ran.executes
    cases executes with
    | signalClients signal =>
      have out := (unhurried signal rest ran.here).1
      have none : total loops live.threads = 0 := by
        refine List.sum_eq_zero fun n member => ?_
        obtain ⟨thread, present, rfl⟩ := List.mem_map.mp member
        exact (inTurn.turns thread present).none (out thread present)
      rw [none] at sums
      simp only [weight, weights, loops, total_nil] at sums
      omega
    | go thread =>
      simp only [weight, weights, total_singleton] at sums
      omega
    | _ =>
      simp only [weight, weights, loops, total_nil] at sums
      omega
  · obtain ⟨j, there⟩ := List.getElem?_of_mem member
    rw [ran.next_eq] at there
    obtain inside | outside := Nat.lt_or_ge j live.threads.length
    · rw [List.getElem?_append_left (by rwa [List.length_set])] at there
      obtain ⟨-, rfl⟩ | ⟨apart, old⟩ := getElem?_set_cases there
      · exact ran.turning inTurn.enrolled unhurried turning
      · by_cases out : loops statement = 0
        · obtain ⟨viewers, arrays⟩ := ran.viewers_same out
          exact (inTurn.turns thread (List.mem_of_getElem? old)).same viewers arrays
        · have both := weights_add_le_total (f := loops) apart.symm ran.here old
          have own : 1 ≤ weights loops (statement :: rest) := by
            cases statement <;> simp [loops] at out <;> simp [weights, weight, loops]
          have once := inTurn.once
          exact .elsewhere (by omega)
    · rw [List.getElem?_append_right (by rwa [List.length_set])] at there
      exact .elsewhere (starts thread (List.mem_of_getElem? there))

end Ran

/-- A viewer that does not wait goes on, and those that wait still do. -/
theorem Waits.set {viewer other : Nat} {viewing seen : Viewing} (waits : live.Waits other)
    (here : live.viewers[viewer]? = some viewing) (goes : viewing.playback.step ≠ .waiting)
    (viewers : next.viewers = live.viewers.set viewer seen) : next.Waits other := by
  obtain ⟨watching, there, waiting⟩ := waits
  have apart : viewer ≠ other := by
    rintro rfl
    obtain rfl := Option.some.inj (here.symm.trans there)
    exact goes waiting
  exact ⟨watching, by rw [viewers, List.getElem?_set_ne apart, there], waiting⟩

/-- What viewers do of their own accord is behind every loop, or beyond its end. -/
theorem Stirs.turn {header : SliceHeader} {index : Nat} {current : Option Nat}
    (stirs : Stirs live next action) (own : ∀ i now, action ≠ .run i now)
    (enrolled : live.Enrolled) (unhurried : live.Unhurried action) {thread : List Statement}
    (member : thread ∈ live.threads) (over' : goesOver thread = some header)
    (turn : live.Turn header index current) : next.Turn header index current := by
  cases stirs with
  | unnoticed same =>
    refine turn.kept (same.arrays ▸ turn.within) (fun k _ _ => by rw [same.arrays]) fun _ waits => ?_
    unfold Waits
    rwa [same.viewers]
  | records viewers arrays =>
    refine turn.kept (arrays ▸ turn.within) (fun k _ _ => by rw [arrays]) fun _ waits => ?_
    unfold Waits
    rwa [viewers]
  | takes => exact absurd rfl (own _ _)
  | joins joins =>
    refine turn.kept (joins.arrays ▸ turn.within) (fun k _ _ => by rw [joins.arrays]) ?_
    rintro other ⟨viewing, there, waiting⟩
    exact ⟨viewing, joins.viewers ▸ getElem?_append_kept there, waiting⟩
  | @registers viewer newEventIndex _ _ viewing stands registers =>
    have room := unhurried viewing newEventIndex registers.here stands thread member header over'
    refine turn.kept (registers.pushed.within_other turn.within) (fun k _ before => ?_)
      fun other waits => waits.set registers.here (by simp [stands]) registers.viewers
    exact registers.pushed.others _ k turn.within.allocated fun _ =>
      Nat.ne_of_lt (Nat.lt_of_lt_of_le before room)
  | @exits viewer place _ _ viewing exits =>
    have leaves : viewing.playback.step ≠ .waiting := by simp [exits.returned]
    have within := exits.removed.within_other exits.covered enrolled.within turn.within
    refine turn.kept within (fun k after before => ?_)
      fun other waits => waits.set exits.here leaves exits.viewers
    refine exits.removed.others _ k fun same at' => ?_
    -- The one that leaves is not ahead, as it would wait for its signal there.
    have slot : live.arrays.slot header.array k = some viewer := by rw [same, at', exits.slot]
    obtain ⟨watching, here, waiting⟩ := turn.waits k viewer after before slot
    obtain rfl := Option.some.inj (exits.here.symm.trans here)
    exact leaves waiting
  | goesOn advanced placed stays goes =>
    refine turn.kept (goes.arrays ▸ turn.within) (fun k _ _ => by rw [goes.arrays])
      fun other waits => waits.set goes.here (fun waiting => ?_) goes.viewers
    rw [Playback.advance, waiting] at advanced
    contradiction

theorem InTurn.perform (inTurn : live.InTurn) (unhurried : live.Unhurried action)
    (performed : live.perform action = some next) : next.InTurn := by
  have enrolled := inTurn.enrolled.perform performed
  have stirs := inTurn.enrolled.stirs performed
  by_cases own : ∃ i now, action = .run i now
  · obtain ⟨i, now, rfl⟩ := own
    obtain ⟨statement, rest, changed, left, spawned, ran⟩ := ran_of_perform performed
    exact inTurn.ran unhurried ran enrolled
  · obtain ⟨i, now, _, _, _, _, _, same, -⟩ | aside := perform_cases performed
    · exact absurd ⟨i, now, same⟩ own
    have kept : ∀ thread ∈ live.threads, next.Turning thread := fun thread member =>
      (inTurn.turns thread member).kept fun header index current =>
        stirs.turn (fun i now same => own ⟨i, now, same⟩) inTurn.enrolled unhurried member
    refine ⟨enrolled, (aside.total loops rfl).symm ▸ inTurn.once, fun thread member => ?_⟩
    obtain same | more := aside.threads
    · exact kept thread (same ▸ member)
    · rcases List.mem_append.mp (more ▸ member) with old | new
      · exact kept thread old
      · exact List.mem_singleton.mp new ▸ .elsewhere rfl

theorem loggedIn_inTurn (sessionFolder : Bytes) (session : SessionContext) (files : Files)
    (connected : Option ConnectedClient) :
    (loggedIn sessionFolder session files connected).InTurn := by
  have none : weights loops (Statement.handleClientConn connected) = 0 :=
    loops_unseen.handleClientConn (fun _ _ => rfl) connected
  refine ⟨loggedIn_enrolled sessionFolder session files connected, ?_, ?_⟩
  · exact ((total_singleton loops _).trans none).trans_le (Nat.zero_le 1)
  · exact List.forall_mem_singleton.mpr (.elsewhere none)

/-- A thread that is in a loop comes to viewers that wait for it. -/
theorem InTurn.free (inTurn : live.InTurn) (thread : Nat) : ¬ live.Awaits thread := by
  rintro ⟨viewer, viewing, ⟨signal, header, index, rest, there⟩, here, writing⟩
  cases inTurn.turns _ (List.mem_of_getElem? there) with
  | elsewhere none => exact absurd (Nat.add_eq_zero_iff.mp none).1 Nat.one_ne_zero
  | sending turn =>
    obtain ⟨watching, here', waits⟩ := (turn.current viewer rfl).1
    obtain rfl := Option.some.inj (here.symm.trans here')
    obtain ⟨events, newEventIndex, writes⟩ := writing
    exact nomatch waits.symm.trans writes

end LiveSession
end SSHProxyPlus
