import SSHProxyPlus.Session.Waiting

/-! The mutex of a session: the thread that has it gives it back without waiting for it again, so
that a thread that can not go on waits for one that can. -/
namespace SSHProxyPlus
open Go Transition

namespace Statement

/-- About to take the session's mutex. -/
def atLock : Statement → Bool
  | .markThreadStarted | .markThreadStopped | .initializeLog => true
  | _ => false

def unlocks : Statement → Nat
  | .unlock => 1
  | _ => 0

theorem unlocks_unseen : Unseen unlocks := ⟨rfl, fun _ => rfl⟩

/-- About to log an event that is not among the first `count`. -/
def misses (count : Nat) : Statement → Nat
  | .logEvent index => if index < count then 0 else 1
  | _ => 0

theorem misses_unseen (count : Nat) : Unseen (misses count) := ⟨rfl, fun _ => rfl⟩

theorem misses_mono {count more : Nat} (le : count ≤ more) (statement : Statement) :
    misses more statement ≤ misses count statement := by
  cases statement with
  | logEvent index =>
    by_cases there : index < count
    · simp only [misses, if_pos there, if_pos (there.trans_le le), le_rfl]
    · simp only [misses, if_neg there]
      split <;> omega
  | _ => exact le_rfl

/-- The thread has the mutex. -/
def Holding (thread : List Statement) : Prop :=
  ∃ before after, thread = before ++ .unlock :: after ∧
    (∀ statement ∈ before, statement.atLock = false) ∧
      weights unlocks before = 0 ∧ weights unlocks after = 0

namespace Holding
variable {statement : Statement} {left rest : List Statement}

/-- A thread that has the mutex does not take it. -/
theorem ready (holding : Holding (statement :: rest)) : statement.atLock = false := by
  obtain ⟨before, after, split, free, -, -⟩ := holding
  cases before with
  | nil => exact (List.cons.inj split).1 ▸ rfl
  | cons first before =>
    obtain ⟨rfl, -⟩ := List.cons.inj split
    exact free statement List.mem_cons_self

theorem step (holding : Holding (statement :: rest))
    (later : ∀ other ∈ left, other.atLock = false) (none : weights unlocks left = 0) :
    weights unlocks (left ++ rest) = 0 ∨ Holding (left ++ rest) := by
  obtain ⟨before, after, split, free, past, ahead⟩ := holding
  cases before with
  | nil =>
    obtain ⟨rfl, rfl⟩ := List.cons.inj split
    exact .inl (by rw [weights_append, none, ahead])
  | cons first before =>
    obtain ⟨rfl, rfl⟩ := List.cons.inj split
    refine .inr ⟨left ++ before, after, (List.append_assoc ..).symm, ?_, ?_, ahead⟩
    · exact List.forall_mem_append.mpr ⟨later, (List.forall_mem_cons.mp free).2⟩
    · rw [weights_append, none, (Nat.add_eq_zero_iff.mp past).2]

/-- Nor does it start one that gives it back. -/
theorem starts {thread : List Statement}
    (sound : weights unlocks (.go thread :: rest) = 0 ∨ Holding (.go thread :: rest)) :
    weights unlocks thread = 0 := by
  obtain none | ⟨before, after, split, -, past, -⟩ := sound
  · exact (Nat.add_eq_zero_iff.mp none).1
  · cases before with
    | nil => exact nomatch (List.cons.inj split).1
    | cons first before =>
      obtain ⟨rfl, -⟩ := List.cons.inj split
      exact (Nat.add_eq_zero_iff.mp past).1

end Holding

end Statement

namespace LiveSession
open Statement
variable {live next : LiveSession} {action : LiveAction}

structure Guarded (live : LiveSession) : Prop where
  count : total unlocks live.threads = if live.locked then 1 else 0
  threads : ∀ thread ∈ live.threads, weights unlocks thread = 0 ∨ Holding thread
  logged : total (misses live.events.length) live.threads = 0

section Ran
variable {i : Nat} {now : Time} {statement : Statement} {rest : List Statement}
  {changed : LiveSession} {left : List Statement} {spawned : List (List Statement)}

theorem Ran.holding (ran : live.Ran i now statement rest changed left spawned next)
    (sound : weights unlocks (statement :: rest) = 0 ∨ Holding (statement :: rest)) :
    (weights unlocks (left ++ rest) = 0 ∨ Holding (left ++ rest)) ∧
      ∀ thread ∈ spawned, weights unlocks thread = 0 := by
  have executes := ran.executes
  have past (stops : statement = .markThreadStopped) : weights unlocks rest = 0 := by
    obtain none | holding := sound
    · exact (Nat.add_eq_zero_iff.mp none).2
    · have ready := holding.ready
      rw [stops] at ready
      contradiction
  have stays (later : ∀ other ∈ left, other.atLock = false) (none : weights unlocks left = 0) :
      weights unlocks (left ++ rest) = 0 ∨ Holding (left ++ rest) := by
    obtain all | holding := sound
    · exact .inl (by rw [weights_append, none, (Nat.add_eq_zero_iff.mp all).2])
    · exact holding.step later none
  cases executes with
  | lastStopped =>
    exact ⟨.inr ⟨[.endSession], rest, rfl, by simp [atLock], rfl, past rfl⟩, List.forall_mem_nil _⟩
  | stopped =>
    exact ⟨.inr ⟨[], rest, rfl, List.forall_mem_nil _, rfl, past rfl⟩, List.forall_mem_nil _⟩
  | go thread =>
    exact ⟨stays (List.forall_mem_nil _) rfl,
      List.forall_mem_singleton.mpr (Holding.starts sound)⟩
  | _ => exact ⟨stays (by simp [atLock]) rfl, List.forall_mem_nil _⟩

theorem Ran.unlocked (ran : live.Ran i now statement rest changed left spawned next)
    (count : total unlocks live.threads = if live.locked then 1 else 0) :
    total unlocks next.threads = if next.locked then 1 else 0 := by
  have sums := ran.sums unlocks
  have executes := ran.executes
  have locked : next.locked = changed.locked := ran.next_eq ▸ rfl
  rw [count] at sums
  rw [locked]
  cases executes with
  | lastStopped free | stopped free =>
    simp only [weight, weights, unlocks, total_nil, free] at sums ⊢
    simpa using sums
  | unlock =>
    simp only [weight, weights, unlocks, total_nil] at sums ⊢
    cases held : live.locked <;> simp [held] at sums ⊢
    exact sums
  | go thread =>
    simp only [weight, weights, total_singleton] at sums
    omega
  | _ =>
    simp only [weight, weights, unlocks, total_nil] at sums
    simpa using sums

theorem Ran.events_grow (ran : live.Ran i now statement rest changed left spawned next) :
    live.events.length ≤ next.events.length := by
  have executes := ran.executes
  have same := ran.next_eq
  cases executes with
  | handleEvent event =>
    rw [same]
    simp [events, SessionContext.addEvent]
  | sending =>
    rw [same]
    exact le_rfl
  | _ =>
    exact (ran.unnoticed (fun _ => Statement.noConfusion)
      fun _ _ _ _ => Statement.noConfusion).events ▸ le_rfl

theorem Ran.logged (ran : live.Ran i now statement rest changed left spawned next)
    (logged : total (misses live.events.length) live.threads = 0) :
    total (misses next.events.length) next.threads = 0 := by
  have sums := ran.sums (misses next.events.length)
  have before : total (misses next.events.length) live.threads = 0 :=
    Nat.le_zero.mp (logged ▸ total_mono (misses_mono ran.events_grow) live.threads)
  rw [before] at sums
  have executes := ran.executes
  cases executes with
  | handleEvent event =>
    have there : live.events.length < next.events.length := by
      rw [ran.next_eq]
      simp [events, SessionContext.addEvent]
    simp only [weight, weights, misses, if_pos there, total_nil] at sums
    omega
  | go thread =>
    simp only [weight, weights, total_singleton] at sums
    omega
  | _ =>
    simp only [weight, weights, misses, total_nil] at sums
    omega

theorem Guarded.ran (guarded : live.Guarded)
    (ran : live.Ran i now statement rest changed left spawned next) : next.Guarded := by
  obtain ⟨own, starts⟩ := ran.holding (guarded.threads _ (List.mem_of_getElem? ran.here))
  refine ⟨ran.unlocked guarded.count, ?_, ran.logged guarded.logged⟩
  rw [ran.next_eq]
  exact List.forall_mem_append.mpr ⟨each_set guarded.threads own,
    fun thread member => .inl (starts thread member)⟩

end Ran

/-- Who is no thread takes the mutex and gives it back in one step. -/
theorem perform_locked (performed : live.perform action = some next)
    (own : ∀ i now, action ≠ .run i now) : next.locked = live.locked := by
  cases action with
  | run i now => exact absurd rfl (own i now)
  | stop => exact Option.some.inj performed ▸ rfl
  | playSession => exact Option.some.inj performed ▸ rfl
  | view viewer reply spare =>
    simp only [perform, Option.bind_eq_bind, Option.bind_eq_some_iff] at performed
    obtain ⟨viewing, -, ⟨changed, seen⟩, viewed, same⟩ := performed
    obtain rfl := Option.some.inj same
    cases views_of_view viewed <;> rfl

theorem perform_threads (performed : live.perform action = some next) :
    live.threads.length ≤ next.threads.length := by
  obtain ⟨i, now, statement, rest, changed, left, spawned, -, ran⟩ | aside :=
    perform_cases performed
  · rw [ran.next_eq, List.length_append, List.length_set]
    exact Nat.le_add_right _ _
  · obtain same | more := aside.threads
    · exact Nat.le_of_eq (congrArg _ same.symm)
    · rw [more, List.length_append]
      exact Nat.le_add_right _ _

theorem Guarded.perform (guarded : live.Guarded) (performed : live.perform action = some next) :
    next.Guarded := by
  by_cases own : ∃ i now, action = .run i now
  · obtain ⟨i, now, rfl⟩ := own
    obtain ⟨statement, rest, changed, left, spawned, ran⟩ := ran_of_perform performed
    exact guarded.ran ran
  · obtain ⟨i, now, _, _, _, _, _, same, -⟩ | aside := perform_cases performed
    · exact absurd ⟨i, now, same⟩ own
    have locked := perform_locked performed fun i now same => own ⟨i, now, same⟩
    refine ⟨?_, ?_, ?_⟩
    · rw [aside.total unlocks rfl, locked, guarded.count]
    · obtain same | more := aside.threads
      · exact same ▸ guarded.threads
      · exact more ▸ List.forall_mem_append.mpr ⟨guarded.threads,
          List.forall_mem_singleton.mpr (.inl rfl)⟩
    · rw [aside.total _ rfl, events, aside.logged]
      exact guarded.logged

theorem loggedIn_guarded (sessionFolder : Bytes) (session : SessionContext) (files : Files)
    (connected : Option ConnectedClient) :
    (loggedIn sessionFolder session files connected).Guarded := by
  have none := unlocks_unseen.handleClientConn (fun _ _ => rfl) connected
  refine ⟨(total_singleton _ _).trans none, List.forall_mem_singleton.mpr (.inl none), ?_⟩
  exact (total_singleton _ _).trans
    ((misses_unseen _).handleClientConn (fun _ _ => rfl) connected)

/-- Whoever has the mutex is not about to take it. -/
theorem Guarded.holder (guarded : live.Guarded) (locked : live.locked = true) :
    ∃ (i : Nat) (statement : Statement) (rest : List Statement),
      live.threads[i]? = some (statement :: rest) ∧
      Statement.unlock ∈ statement :: rest ∧ statement.atLock = false := by
  have count := guarded.count
  rw [if_pos locked] at count
  have some' : ∃ thread ∈ live.threads, weights unlocks thread ≠ 0 := by
    by_contra none
    push Not at none
    have zero : total unlocks live.threads = 0 := by
      refine List.sum_eq_zero fun n member => ?_
      obtain ⟨thread, present, rfl⟩ := List.mem_map.mp member
      exact none thread present
    omega
  obtain ⟨thread, member, weighs⟩ := some'
  have holding := (guarded.threads thread member).resolve_left weighs
  obtain ⟨i, there⟩ := List.getElem?_of_mem member
  cases thread with
  | nil => exact absurd rfl weighs
  | cons statement rest =>
    refine ⟨i, statement, rest, there, ?_, holding.ready⟩
    obtain ⟨before, after, split, -⟩ := holding
    exact split ▸ List.mem_append_right _ List.mem_cons_self

/-- In turn, a thread takes its next step at once, unless that is to take the mutex from another. -/
theorem InTurn.runs_on (inTurn : live.InTurn) (guarded : live.Guarded) {i : Nat}
    {statement : Statement} {rest : List Statement} (here : live.threads[i]? = some (statement :: rest))
    (free : statement.atLock = true → live.locked = false) (now : Time) :
    ∃ next, live.perform (.run i now) = some next := by
  suffices goes : ∃ result, live.execute now statement = some result by
    obtain ⟨result, executed⟩ := goes
    simp only [LiveSession.perform, here, executed]
    exact ⟨_, rfl⟩
  have turning := inTurn.turns _ (List.mem_of_getElem? here)
  cases statement with
  | markThreadStarted | markThreadStopped | initializeLog =>
    exact ⟨_, by rw [execute, free rfl]; rfl⟩
  | logEvent index =>
    have weighs : misses live.events.length (.logEvent index) = 0 := by
      have all := head_le_total (f := misses live.events.length) here
      rw [guarded.logged] at all
      exact Nat.le_zero.mp (Nat.le_trans (Nat.le_add_right _ _) all)
    have there : index < live.events.length := by
      by_contra beyond
      rw [misses, if_neg beyond] at weighs
      exact Nat.one_ne_zero weighs
    exact ⟨_, by rw [execute, List.getElem?_eq_getElem there]; rfl⟩
  | ranging signal header index =>
    cases turning with
    | elsewhere none => exact absurd (Nat.add_eq_zero_iff.mp none).1 Nat.one_ne_zero
    | ranging turn =>
      by_cases more : index < header.length
      · obtain ⟨viewer, slot⟩ := Arrays.slot_written turn.within more
        exact ⟨_, by rw [execute, if_pos more, slot]; rfl⟩
      · exact ⟨_, by rw [execute, if_neg more]⟩
  | sending signal header index viewer =>
    cases turning with
    | elsewhere none => exact absurd (Nat.add_eq_zero_iff.mp none).1 Nat.one_ne_zero
    | sending turn =>
      obtain ⟨viewing, there, waits⟩ := (turn.current viewer rfl).1
      cases signal with
      | newMessage =>
        simp only [execute, there, Playback.receiveSignal, waits, Option.bind_eq_bind,
          Option.bind_some]
        exact ⟨_, rfl⟩
      | sessionEnd =>
        simp only [execute, there, Playback.receiveSignal, waits, Option.bind_eq_bind,
          Option.bind_some]
        exact ⟨_, rfl⟩
  | _ => exact ⟨_, rfl⟩

end LiveSession
end SSHProxyPlus
