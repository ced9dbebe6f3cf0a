import SSHProxyPlus.Transition.System

/-! Steps one after the other, and objects that serve one command at a time. -/
namespace Transition
variable {σ α : Type}

/-- From `s` to `t` by these steps. -/
def Follows (step : σ → α → σ → Prop) : σ → List α → σ → Prop
  | s, [], t => s = t
  | s, a :: later, t => ∃ mid, step s a mid ∧ Follows step mid later t

variable {step : σ → α → σ → Prop} {s mid t : σ}

theorem follows_append {earlier later : List α} : Follows step s (earlier ++ later) t ↔
    ∃ mid, Follows step s earlier mid ∧ Follows step mid later t := by
  induction earlier generalizing s with
  | nil => exact ⟨fun follows => ⟨s, rfl, follows⟩, fun ⟨_, same, follows⟩ => same ▸ follows⟩
  | cons first earlier ih =>
    simp only [List.cons_append, Follows, ih]
    constructor
    · rintro ⟨next, taken, mid, before, after⟩
      exact ⟨mid, ⟨next, taken, before⟩, after⟩
    · rintro ⟨mid, ⟨next, taken, before⟩, after⟩
      exact ⟨next, taken, mid, before, after⟩

/-- One more step at the end. -/
theorem Follows.snoc {earlier : List α} {last : α} (follows : Follows step s earlier mid)
    (taken : step mid last t) : Follows step s (earlier ++ [last]) t :=
  follows_append.mpr ⟨mid, follows, t, taken, rfl⟩

/-- The steps of a part are steps of the whole. -/
theorem Follows.map {τ β : Type} {step' : τ → β → τ → Prop} {f : σ → τ} {g : α → β}
    (each : ∀ s a t, step s a t → step' (f s) (g a) (f t)) {actions : List α}
    (follows : Follows step s actions t) : Follows step' (f s) (actions.map g) (f t) := by
  induction actions generalizing s with
  | nil => exact congrArg f follows
  | cons action actions ih =>
    obtain ⟨next, taken, later⟩ := follows
    exact ⟨f next, each s action next taken, ih later⟩

theorem Follows.mono {step' : σ → α → σ → Prop} (each : ∀ s a t, step s a t → step' s a t)
    {actions : List α} (follows : Follows step s actions t) : Follows step' s actions t := by
  simpa using follows.map (f := id) (g := id) each

/-- The state after these steps, where each is admitted and can be taken. -/
def runAll (perform : σ → α → Option σ) (admits : σ → α → Bool) : σ → List α → Option σ
  | s, [] => some s
  | s, a :: later =>
      if admits s a then (perform s a).bind fun next => runAll perform admits next later else none

theorem reachable_runAll {sys : System σ α} {perform : σ → α → Option σ} {admits : σ → α → Bool}
    (steps : ∀ s a t, admits s a = true → perform s a = some t → sys.step s a t)
    {actions : List α} (reached : sys.Reachable s) (ran : runAll perform admits s actions = some t) :
    sys.Reachable t := by
  induction actions generalizing s with
  | nil => exact Option.some.inj ran ▸ reached
  | cons action actions ih =>
    obtain ⟨admitted, rest⟩ := Option.ite_none_right_eq_some.mp ran
    obtain ⟨next, taken, later⟩ := Option.bind_eq_some_iff.mp rest
    exact ih (reached.next (steps s action next admitted taken)) later

/-- What a computed run shows of the state it comes to. -/
theorem reachable_of_runAll {sys : System σ α} {perform : σ → α → Option σ}
    (admits : σ → α → Bool) (actions : List α) (shown : σ → Bool)
    (steps : ∀ s a t, admits s a = true → perform s a = some t → sys.step s a t)
    (reached : sys.Reachable s)
    (ran : (runAll perform admits s actions).any shown = true) :
    ∃ t, sys.Reachable t ∧ shown t = true := by
  cases last : runAll perform admits s actions with
  | none =>
    rw [last] at ran
    contradiction
  | some t =>
    rw [last] at ran
    exact ⟨t, reachable_runAll steps reached last, ran⟩

/-- A run, with the state before each of its steps. -/
def Passes (step : σ → α → σ → Prop) : σ → List (σ × α) → σ → Prop
  | s, [], t => s = t
  | s, (before, a) :: later, t => before = s ∧ ∃ mid, step s a mid ∧ Passes step mid later t

/-- The run of a part, seen in a run of the whole. -/
theorem Passes.map {τ β : Type} {step' : τ → β → τ → Prop} {f : σ → τ} {g : σ → α → β}
    (each : ∀ s a t, step s a t → step' (f s) (g s a) (f t)) {history : List (σ × α)}
    (passes : Passes step s history t) :
    Passes step' (f s) (history.map fun entry => (f entry.1, g entry.1 entry.2)) (f t) := by
  induction history generalizing s with
  | nil => exact congrArg f passes
  | cons entry later ih =>
    obtain ⟨before, a⟩ := entry
    obtain ⟨rfl, mid, taken, rest⟩ := passes
    exact ⟨rfl, f mid, each before a mid taken, ih rest⟩

/-- A run goes on after each of its states. -/
theorem Passes.split {history : List (σ × α)} (passes : Passes step s history t)
    {entry : σ × α} (member : entry ∈ history) : ∃ earlier later,
      history = earlier ++ later ∧ Passes step s earlier entry.1 := by
  induction history generalizing s with
  | nil => exact absurd member List.not_mem_nil
  | cons first later ih =>
    obtain ⟨before, a⟩ := first
    obtain ⟨rfl, mid, taken, rest⟩ := passes
    rcases List.mem_cons.mp member with rfl | member
    · exact ⟨[], _, rfl, rfl⟩
    · obtain ⟨earlier, others, rfl, reached⟩ := ih rest member
      exact ⟨(before, a) :: earlier, others, rfl, rfl, mid, taken, reached⟩

/-- What each step keeps holds all along a run. -/
theorem Passes.keeps {Inv : σ → Prop} {history : List (σ × α)} (passes : Passes step s history t)
    (kept : ∀ s a t, Inv s → step s a t → Inv t) (start : Inv s) :
    (∀ entry ∈ history, Inv entry.1) ∧ Inv t := by
  induction history generalizing s with
  | nil => exact ⟨List.forall_mem_nil _, passes ▸ start⟩
  | cons entry later ih =>
    obtain ⟨before, a⟩ := entry
    obtain ⟨rfl, mid, taken, rest⟩ := passes
    obtain ⟨states, last⟩ := ih rest (kept before a mid start taken)
    exact ⟨List.forall_mem_cons.mpr ⟨start, states⟩, last⟩

/-- Where a step keeps a property exactly when it meets a condition, so does a run. -/
theorem passes_keeps_iff {Inv P : σ → Prop} {C : σ → α → Prop} {history : List (σ × α)}
    (passes : Passes step s history t) (kept : ∀ s a t, Inv s → step s a t → Inv t)
    (each : ∀ s a t, Inv s → P s → step s a t → (P t ↔ C s a)) (sound : Inv s) (start : P s) :
    ((∀ entry ∈ history, P entry.1) ∧ P t) ↔ ∀ entry ∈ history, C entry.1 entry.2 := by
  induction history generalizing s with
  | nil =>
    obtain rfl := passes
    exact ⟨fun _ => List.forall_mem_nil _, fun _ => ⟨List.forall_mem_nil _, start⟩⟩
  | cons entry later ih =>
    obtain ⟨before, a⟩ := entry
    obtain ⟨rfl, mid, taken, rest⟩ := passes
    have first := each before a mid sound start taken
    rw [List.forall_mem_cons, List.forall_mem_cons]
    constructor
    · rintro ⟨⟨-, others⟩, last⟩
      have next : P mid := by
        cases later with
        | nil => exact rest ▸ last
        | cons entry later =>
          obtain ⟨same, -⟩ := rest
          exact same ▸ others entry List.mem_cons_self
      exact ⟨first.mp next, (ih rest (kept before a mid sound taken) next).mp ⟨others, last⟩⟩
    · rintro ⟨here, others⟩
      obtain ⟨states, last⟩ := (ih rest (kept before a mid sound taken) (first.mpr here)).mpr others
      exact ⟨⟨start, states⟩, last⟩

/-- Where a step keeps a property exactly when it meets a condition, and no step restores it, the
end of a run tells of all its steps. -/
theorem passes_last_iff {Inv P : σ → Prop} {C : σ → α → Prop} {history : List (σ × α)}
    (passes : Passes step s history t) (kept : ∀ s a t, Inv s → step s a t → Inv t)
    (each : ∀ s a t, Inv s → P s → step s a t → (P t ↔ C s a))
    (lost : ∀ s a t, Inv s → step s a t → P t → P s) (sound : Inv s) (start : P s) :
    P t ↔ ∀ entry ∈ history, C entry.1 entry.2 := by
  constructor
  · intro last
    have before {s} (sound : Inv s) {history : List (σ × α)} (passes : Passes step s history t) :
        P s := by
      induction history generalizing s with
      | nil => exact passes ▸ last
      | cons entry later ih =>
        obtain ⟨before, a⟩ := entry
        obtain ⟨rfl, mid, taken, rest⟩ := passes
        exact lost before a mid sound taken (ih (kept before a mid sound taken) rest)
    induction history generalizing s with
    | nil => exact List.forall_mem_nil _
    | cons entry later ih =>
      obtain ⟨first, a⟩ := entry
      obtain ⟨rfl, mid, taken, rest⟩ := passes
      have next := kept first a mid sound taken
      have still := before next rest
      exact List.forall_mem_cons.mpr
        ⟨(each first a mid sound start taken).mp still, ih rest next still⟩
  · intro all
    exact ((passes_keeps_iff passes kept each sound start).mpr all).2

/-- What steps lead to can be reached if their start can. -/
theorem System.Reachable.follows {sys : System σ α} {actions : List α}
    (reached : sys.Reachable s) (follows : Follows sys.step s actions t) : sys.Reachable t := by
  induction actions generalizing s with
  | nil => exact follows ▸ reached
  | cons action actions ih =>
    obtain ⟨next, step, later⟩ := follows
    exact ih (reached.next step) later

/-- What can be computed step by step from a state that can be reached. -/
theorem System.Reachable.foldlM {sys : System σ α} {f : σ → α → Option σ}
    (each : ∀ s a t, f s a = some t → sys.step s a t) {actions : List α}
    (reached : sys.Reachable s) (ran : actions.foldlM f s = some t) : sys.Reachable t := by
  induction actions generalizing s with
  | nil => exact Option.some.inj ran ▸ reached
  | cons action actions ih =>
    rw [List.foldlM_cons] at ran
    obtain ⟨next, taken, rest⟩ := Option.bind_eq_some_iff.mp ran
    exact ih (reached.next (each s action next taken)) rest

structure Object (σ Cmd Res : Type) where
  serve : σ → Cmd → σ × Res

/-- Served one after the other from the first state, the commands have these results and
lead to the last. -/
def Object.Explains {Cmd Res : Type} (object : Object σ Cmd Res) :
    σ → List (Cmd × Res) → σ → Prop :=
  Follows fun s entry t => object.serve s entry.1 = (t, entry.2)

end Transition
