import Mathlib.Algebra.GroupWithZero.Nat
import Mathlib.Data.Set.Insert
import SSHProxyPlus.Transition.Settling

/-! Threads that start other threads, and wait for what another thread is to do: what has been done
before a step is taken, in which order, and when nothing is left to do. -/
namespace Transition
variable {L : Type}

inductive Instruction (L : Type) where
  | perform (label : L)
  | go (thread : List (Instruction L))
  /-- Waits until it has been performed. -/
  | await (label : L)

structure Forked (L : Type) where
  threads : List (List (Instruction L))
  done : List L := []

namespace Forked
variable {s t : Forked L} {i : Nat}

def run [DecidableEq L] (s : Forked L) (i : Nat) : Option (Forked L) :=
  match s.threads[i]? with
  | some (.perform label :: rest) =>
      some { threads := s.threads.set i rest, done := s.done ++ [label] }
  | some (.go thread :: rest) => some { s with threads := s.threads.set i rest ++ [thread] }
  | some (.await label :: rest) =>
      if label ∈ s.done then some { s with threads := s.threads.set i rest } else none
  | _ => none

/-- A thread begins alone, and the threads take their steps in any order. -/
def system [DecidableEq L] (thread : List (Instruction L)) : System (Forked L) Nat where
  init s := s = { threads := [thread] }
  step s i t := s.run i = some t

/-- The steps that are left where some of what is performed is calls that never return. -/
def stepBut [DecidableEq L] (blocked : Set L) (s : Forked L) (i : Nat) (t : Forked L) : Prop :=
  s.run i = some t ∧
    ∀ label rest, s.threads[i]? = some (.perform label :: rest) → label ∉ blocked

/-- All that a step can be. -/
inductive Ran (s : Forked L) (i : Nat) (t : Forked L) : Prop where
  | perform (label : L) (rest : List (Instruction L))
      (here : s.threads[i]? = some (.perform label :: rest))
      (after : t = { threads := s.threads.set i rest, done := s.done ++ [label] })
  | go (thread rest : List (Instruction L)) (here : s.threads[i]? = some (.go thread :: rest))
      (after : t = { s with threads := s.threads.set i rest ++ [thread] })
  | await (label : L) (rest : List (Instruction L))
      (here : s.threads[i]? = some (.await label :: rest)) (past : label ∈ s.done)
      (after : t = { s with threads := s.threads.set i rest })

theorem run_ran [DecidableEq L] (ran : s.run i = some t) : s.Ran i t := by
  unfold run at ran
  split at ran
  · next label rest here => exact .perform label rest here (Option.some.inj ran).symm
  · next thread rest here => exact .go thread rest here (Option.some.inj ran).symm
  · next label rest here =>
    split at ran
    · next past => exact .await label rest here past (Option.some.inj ran).symm
    · contradiction
  · contradiction

theorem Ran.done_prefix (ran : s.Ran i t) : s.done <+: t.done := by
  cases ran with
  | perform label rest here after => exact after ▸ List.prefix_append _ _
  | go thread rest here after => exact after ▸ List.prefix_refl _
  | await label rest here past after => exact after ▸ List.prefix_refl _

/-- Where no other step is left, a thread that can take one stands in a call that never returns. -/
theorem run_of_atRest [DecidableEq L] {blocked : Set L} (rests : AtRest (stepBut blocked) s)
    {instruction : Instruction L} {rest : List (Instruction L)}
    (here : s.threads[i]? = some (instruction :: rest))
    (returns : ∀ label ∈ blocked, instruction ≠ .perform label) : s.run i = none := by
  refine Option.eq_none_iff_forall_not_mem.mpr fun t ran => rests i t ⟨ran, ?_⟩
  intro label left stands held
  obtain ⟨same, -⟩ := List.cons.inj (Option.some.inj (here.symm.trans stands))
  exact returns label held same

/-- What has been done up to some point had all been done by then. -/
theorem prior [DecidableEq L] {thread : List (Instruction L)}
    (reached : (system thread).Reachable s) {earlier later : List L} (past : s.done = earlier ++ later) :
    ∃ r, (system thread).Reachable r ∧ r.done = earlier := by
  induction reached generalizing later with
  | start initial =>
    obtain rfl := initial
    exact ⟨_, .start rfl, (List.append_eq_nil_iff.mp past.symm).1.symm⟩
  | @next r s i before step ih =>
    cases run_ran step with
    | perform label rest here after =>
      rw [after] at past
      rcases List.eq_nil_or_concat later with rfl | ⟨front, last, rfl⟩
      · exact ⟨s, .next before step, by rw [after, past, List.append_nil]⟩
      · rw [List.concat_eq_append, ← List.append_assoc] at past
        exact ih (List.append_inj' past rfl).1
    | go spawned rest here after => exact ih (by rw [← past, after])
    | await label rest here waited after => exact ih (by rw [← past, after])

/-- After a step the threads are those of before, the rest of one, and one that it started. -/
theorem mem_threads {threads : List (List (Instruction L))} {rest spawned thread : List (Instruction L)}
    (member : thread ∈ threads.set i rest ++ [spawned]) :
    thread ∈ threads ∨ thread = rest ∨ thread = spawned := by
  rcases List.mem_append.mp member with old | new
  · rcases List.mem_or_eq_of_mem_set old with old | rfl
    · exact .inl old
    · exact .inr (.inl rfl)
  · exact .inr (.inr (List.mem_singleton.mp new))

end Forked

/-! What has been done before. Each label names what it needs to have been done; a thread that has
waited for a label knows that all that this label needs has been done. -/
section Needs
variable (needs : L → Set L)

def learns (known : Set L) : Instruction L → Set L
  | .perform label => insert label known
  | .go _ => known
  | .await label => known ∪ insert label (needs label)

mutual

/-- What is needed is known where it is needed. -/
def Instruction.Sound (known : Set L) : Instruction L → Prop
  | .perform label => needs label ⊆ known
  | .go thread => Sounds known thread
  | .await _ => True

def Sounds (known : Set L) : List (Instruction L) → Prop
  | [] => True
  | instruction :: rest => instruction.Sound known ∧ Sounds (learns needs known instruction) rest

end

variable {needs}

theorem learns_mono {known more : Set L} (le : known ⊆ more) (instruction : Instruction L) :
    learns needs known instruction ⊆ learns needs more instruction := by
  cases instruction with
  | perform label => exact Set.insert_subset_insert le
  | go thread => exact le
  | await label => exact Set.union_subset_union_left _ le

mutual

theorem Instruction.Sound.mono {known more : Set L} (le : known ⊆ more) :
    (instruction : Instruction L) → instruction.Sound needs known → instruction.Sound needs more
  | .perform _, sound => Set.Subset.trans sound le
  | .go thread, sound => Sounds.mono le thread sound
  | .await _, _ => trivial

theorem Sounds.mono {known more : Set L} (le : known ⊆ more) :
    (thread : List (Instruction L)) → Sounds needs known thread → Sounds needs more thread
  | [], _ => trivial
  | instruction :: rest, sound =>
    ⟨Instruction.Sound.mono le instruction sound.1,
      Sounds.mono (learns_mono le instruction) rest sound.2⟩

end

/-- What is known once all of a thread has been run. -/
def learnsAll (needs : L → Set L) (known : Set L) (thread : List (Instruction L)) : Set L :=
  thread.foldl (learns needs) known

theorem subset_learnsAll {known : Set L} (thread : List (Instruction L)) :
    known ⊆ learnsAll needs known thread := by
  induction thread generalizing known with
  | nil => exact Set.Subset.refl _
  | cons instruction rest ih =>
    refine Set.Subset.trans ?_ ih
    cases instruction with
    | perform label => exact Set.subset_insert _ _
    | go thread => exact Set.Subset.refl _
    | await label => exact Set.subset_union_left

theorem learned_of_perform {known : Set L} {thread : List (Instruction L)} {label : L}
    (performs : .perform label ∈ thread) : label ∈ learnsAll needs known thread := by
  obtain ⟨front, rest, rfl⟩ := List.append_of_mem performs
  rw [learnsAll, List.foldl_append]
  exact subset_learnsAll rest (Set.mem_insert _ _)

theorem learned_of_await {known : Set L} {thread : List (Instruction L)} {label : L}
    (waits : .await label ∈ thread) : label ∈ learnsAll needs known thread := by
  obtain ⟨front, rest, rfl⟩ := List.append_of_mem waits
  rw [learnsAll, List.foldl_append]
  exact subset_learnsAll rest (.inr (Set.mem_insert _ _))

theorem sounds_append {known : Set L} {front rest : List (Instruction L)} :
    Sounds needs known (front ++ rest) ↔
      Sounds needs known front ∧ Sounds needs (learnsAll needs known front) rest := by
  induction front generalizing known with
  | nil => exact ⟨fun sound => ⟨trivial, sound⟩, fun sound => sound.2⟩
  | cons instruction front ih =>
    rw [List.cons_append, Sounds, Sounds, ih, and_assoc]
    rfl

namespace Forked
variable {s t : Forked L} {i : Nat}

structure Ordered (needs : L → Set L) (s : Forked L) : Prop where
  threads : ∀ thread ∈ s.threads, Sounds needs {label | label ∈ s.done} thread
  before : ∀ earlier label later, s.done = earlier ++ label :: later →
    needs label ⊆ {label | label ∈ earlier}

theorem Ordered.needed (ordered : s.Ordered needs) {label : L} (past : label ∈ s.done) :
    needs label ⊆ {label | label ∈ s.done} := by
  obtain ⟨earlier, later, whole⟩ := List.append_of_mem past
  intro needed member
  have early : needed ∈ earlier := ordered.before earlier label later whole member
  exact whole ▸ List.mem_append_left _ early

theorem Ordered.ran (ordered : s.Ordered needs) (ran : s.Ran i t) : t.Ordered needs := by
  have grown : {label | label ∈ s.done} ⊆ {label | label ∈ t.done} :=
    fun label member => ran.done_prefix.mem member
  have others (thread : List (Instruction L)) (member : thread ∈ s.threads) :
      Sounds needs {label | label ∈ t.done} thread := (ordered.threads thread member).mono grown
  cases ran with
  | perform label rest here after =>
    obtain ⟨allowed, sound⟩ := ordered.threads _ (List.mem_of_getElem? here)
    subst after
    constructor
    · intro thread member
      rcases List.mem_or_eq_of_mem_set member with old | rfl
      · exact others thread old
      · refine Sounds.mono ?_ _ sound
        intro known member
        rcases Set.mem_insert_iff.mp member with rfl | old
        · exact List.mem_append_right _ (List.mem_singleton_self _)
        · exact List.mem_append_left _ old
    · intro earlier last later whole
      rcases List.append_eq_append_iff.mp whole with ⟨more, rfl, rest⟩ | ⟨more, front, rest⟩
      · cases more with
        | nil =>
          obtain ⟨rfl, -⟩ := List.cons.inj rest
          rw [List.append_nil]
          exact allowed
        | cons first more => simp at rest
      · cases more with
        | nil =>
          obtain ⟨rfl, -⟩ := List.cons.inj rest
          rw [List.append_nil] at front
          exact front ▸ allowed
        | cons first more =>
          obtain ⟨rfl, -⟩ := List.cons.inj rest
          exact ordered.before earlier last more front
  | go thread rest here after =>
    obtain ⟨started, sound⟩ := ordered.threads _ (List.mem_of_getElem? here)
    subst after
    refine ⟨fun other member => ?_, ordered.before⟩
    rcases mem_threads member with old | rfl | rfl
    · exact others other old
    · exact sound
    · exact started
  | await label rest here past after =>
    obtain ⟨-, sound⟩ := ordered.threads _ (List.mem_of_getElem? here)
    subst after
    refine ⟨fun thread member => ?_, ordered.before⟩
    rcases List.mem_or_eq_of_mem_set member with old | rfl
    · exact others thread old
    · refine Sounds.mono ?_ _ sound
      intro known member
      rcases member with old | new
      · exact old
      · rcases Set.mem_insert_iff.mp new with rfl | needed
        · exact past
        · exact ordered.needed past needed

/-- In every order of the steps, what a label needs has been done before it. -/
theorem ordered_of_reachable [DecidableEq L] {thread : List (Instruction L)} (sound : Sounds needs ∅ thread)
    (reached : (system thread).Reachable s) : s.Ordered needs := by
  refine reached.invariant ?_ fun s i t ordered step => ordered.ran (run_ran step)
  rintro s rfl
  constructor
  · intro other member
    rw [List.mem_singleton.mp member]
    exact sound.mono (Set.empty_subset _)
  · intro earlier label later whole
    simp at whole

end Forked
end Needs

/-! The order of what one thread does, though others do other things meanwhile, and though it may
leave all of it to a thread that it starts. -/
section Sequence

mutual

/-- What is to be performed, by a thread or the threads that it starts. -/
def Instruction.labels : Instruction L → List L
  | .perform label => [label]
  | .go thread => labels thread
  | .await _ => []

def labels : List (Instruction L) → List L
  | [] => []
  | instruction :: rest => instruction.labels ++ labels rest

end

variable (p : L → Bool)

mutual

/-- Of the labels in question none are left both to a thread that is started and to what follows. -/
def Instruction.InOrder : Instruction L → Prop
  | .go thread => InOrder thread
  | _ => True

def InOrder : List (Instruction L) → Prop
  | [] => True
  | instruction :: rest => instruction.InOrder ∧ InOrder rest ∧
      ∀ thread, instruction = .go thread →
        (labels thread).filter p = [] ∨ (labels rest).filter p = []

end

variable {p}

theorem labels_append (front rest : List (Instruction L)) :
    labels (front ++ rest) = labels front ++ labels rest := by
  induction front with
  | nil => rfl
  | cons instruction front ih => rw [List.cons_append, labels, labels, ih, List.append_assoc]

/-- What needs nothing but what is known can be performed in any thread. -/
theorem sounds_of_known {needs : L → Set L} {known : Set L} : (thread : List (Instruction L)) →
    (∀ label ∈ labels thread, needs label ⊆ known) → Sounds needs known thread
  | [], _ => trivial
  | .perform label :: rest, allowed =>
    ⟨allowed label (List.mem_cons_self ..), sounds_of_known rest fun label member =>
      Set.Subset.trans (allowed label (List.mem_cons_of_mem _ member)) (Set.subset_insert _ _)⟩
  | .go thread :: rest, allowed =>
    ⟨sounds_of_known thread fun label member => allowed label (List.mem_append_left _ member),
      sounds_of_known rest fun label member => allowed label (List.mem_append_right _ member)⟩
  | .await _ :: rest, allowed =>
    ⟨trivial, sounds_of_known rest fun label member =>
      Set.Subset.trans (allowed label member) Set.subset_union_left⟩

theorem mem_labels {instruction : Instruction L} {thread : List (Instruction L)}
    (member : instruction ∈ thread) : instruction.labels ⊆ labels thread := by
  obtain ⟨front, rest, rfl⟩ := List.append_of_mem member
  intro label performed
  rw [labels_append]
  exact List.mem_append_right _ (List.mem_append_left _ performed)

theorem labels_eq_flatMap (thread : List (Instruction L)) :
    labels thread = thread.flatMap Instruction.labels := by
  induction thread with
  | nil => rfl
  | cons instruction rest ih => rw [labels, ih, List.flatMap_cons]

theorem started_quiet {started thread : List (Instruction L)} (member : .go started ∈ thread)
    (quiet : (labels thread).filter p = []) : (labels started).filter p = [] := by
  rw [List.filter_eq_nil_iff] at quiet ⊢
  exact fun label performed => quiet label (mem_labels member performed)

theorem labels_flatMap {ι : Type} (entries : List ι) (f : ι → List (Instruction L)) :
    labels (entries.flatMap f) = entries.flatMap fun entry => labels (f entry) := by
  induction entries with
  | nil => rfl
  | cons entry entries ih => rw [List.flatMap_cons, List.flatMap_cons, labels_append, ih]

theorem inOrder_of_quiet : (thread : List (Instruction L)) → (labels thread).filter p = [] →
    InOrder p thread
  | [], _ => trivial
  | .perform label :: rest, quiet => by
    rw [labels, List.filter_append] at quiet
    exact ⟨trivial, inOrder_of_quiet rest (List.append_eq_nil_iff.mp quiet).2, fun _ same => by
      contradiction⟩
  | .await label :: rest, quiet => by
    exact ⟨trivial, inOrder_of_quiet rest quiet, fun _ same => by contradiction⟩
  | .go thread :: rest, quiet => by
    rw [labels, List.filter_append] at quiet
    obtain ⟨started, none⟩ := List.append_eq_nil_iff.mp quiet
    exact ⟨inOrder_of_quiet thread started, inOrder_of_quiet rest none, fun _ _ => .inr none⟩

/-- Nothing that is started has anything of it. -/
theorem inOrder_of_started : (thread : List (Instruction L)) →
    (∀ started, .go started ∈ thread → (labels started).filter p = []) → InOrder p thread
  | [], _ => trivial
  | instruction :: rest, quiet => by
    refine ⟨?_, inOrder_of_started rest fun started member =>
      quiet started (List.mem_cons_of_mem _ member), ?_⟩
    · cases instruction with
      | perform label => trivial
      | await label => trivial
      | go thread => exact inOrder_of_quiet thread (quiet thread (List.mem_cons_self ..))
    · rintro thread rfl
      exact .inl (quiet thread (List.mem_cons_self ..))

/-- What a thread starts before its last part has nothing of it, or the last part has nothing. -/
theorem inOrder_append {front rest : List (Instruction L)} (first : InOrder p front)
    (last : InOrder p rest)
    (apart : ∀ thread, .go thread ∈ front →
      (labels thread).filter p = [] ∨ (labels rest).filter p = []) : InOrder p (front ++ rest) := by
  induction front with
  | nil => exact last
  | cons instruction front ih =>
    obtain ⟨own, later, started⟩ := first
    refine ⟨own, ih later fun thread member => apart thread (List.mem_cons_of_mem _ member), ?_⟩
    rintro thread rfl
    rw [List.append_eq, labels_append, List.filter_append]
    rcases apart thread (List.mem_cons_self ..) with none | none
    · exact .inl none
    · rw [none, List.append_nil]
      exact started thread rfl

namespace Forked
variable {s t : Forked L} {i : Nat}

/-- One thread has all the labels that are still to be performed. -/
structure Sequenced (p : L → Bool) (total : List L) (s : Forked L) (i : Nat)
    (thread : List (Instruction L)) : Prop where
  here : s.threads[i]? = some thread
  inOrder : InOrder p thread
  whole : s.done.filter p ++ (labels thread).filter p = total
  others : ∀ j other, j ≠ i → s.threads[j]? = some other → (labels other).filter p = []

theorem getElem?_grown {threads : List (List (Instruction L))} {j k : Nat}
    {rest spawned other : List (Instruction L)}
    (found : (threads.set k rest ++ [spawned])[j]? = some other) :
    j = threads.length ∧ other = spawned ∨ (threads.set k rest)[j]? = some other := by
  rcases Nat.lt_or_ge j threads.length with inside | beyond
  · rw [List.getElem?_append_left (by rwa [List.length_set])] at found
    exact .inr found
  · rw [List.getElem?_append_right (by rwa [List.length_set]), List.length_set] at found
    obtain ⟨last, same⟩ := List.getElem?_eq_some_iff.mp found
    rw [List.length_singleton] at last
    refine .inl ⟨by omega, ?_⟩
    simp only [show j - threads.length = 0 by omega, List.getElem_cons_zero] at same
    exact same.symm

/-- What is left of a thread that has nothing of it has nothing of it, and so has what it starts. -/
theorem Sequenced.others_ran {total : List L} {thread : List (Instruction L)}
    (sequenced : s.Sequenced p total i thread) {k : Nat} (apart : k ≠ i)
    {instruction : Instruction L} {rest : List (Instruction L)}
    (there : s.threads[k]? = some (instruction :: rest)) :
    instruction.labels.filter p = [] ∧ (labels rest).filter p = [] := by
  have none := sequenced.others k _ apart there
  rw [labels, List.filter_append] at none
  exact List.append_eq_nil_iff.mp none

theorem set_elsewhere {threads : List (List (Instruction L))} {j k : Nat}
    {rest other : List (Instruction L)} (found : (threads.set k rest)[j]? = some other) :
    j = k ∧ other = rest ∨ j ≠ k ∧ threads[j]? = some other := by
  rw [List.getElem?_set] at found
  split at found
  · next same =>
    split at found
    · exact .inl ⟨same.symm, (Option.some.inj found).symm⟩
    · contradiction
  · next apart => exact .inr ⟨fun same => apart same.symm, found⟩

/-- A step of the thread itself leaves its rest, or the thread that it starts. -/
theorem Sequenced.ran_own {total : List L} {thread : List (Instruction L)}
    (sequenced : s.Sequenced p total i thread) (ran : s.Ran i t) :
    ∃ i thread, t.Sequenced p total i thread := by
  obtain ⟨here, inOrder, whole, others⟩ := sequenced
  obtain ⟨inside, -⟩ := List.getElem?_eq_some_iff.mp here
  have elsewhere {rest : List (Instruction L)} (j : Nat) (other : List (Instruction L))
      (apart : j ≠ i) (found : (s.threads.set i rest)[j]? = some other) :
      (labels other).filter p = [] := by
    rcases set_elsewhere found with ⟨same, -⟩ | ⟨-, old⟩
    · exact absurd same apart
    · exact others j other apart old
  cases ran with
  | perform label rest found after =>
    obtain rfl := Option.some.inj (here.symm.trans found)
    refine ⟨i, rest, after ▸ ⟨List.getElem?_set_self inside, inOrder.2.1, ?_, elsewhere⟩⟩
    rw [labels, List.filter_append] at whole
    rw [List.filter_append, List.append_assoc]
    exact whole
  | await label rest found past after =>
    obtain rfl := Option.some.inj (here.symm.trans found)
    exact ⟨i, rest, after ▸ ⟨List.getElem?_set_self inside, inOrder.2.1, whole, elsewhere⟩⟩
  | go spawned rest found after =>
    obtain rfl := Option.some.inj (here.symm.trans found)
    have bound : s.threads.length = (s.threads.set i rest).length := List.length_set.symm
    rw [labels, List.filter_append] at whole
    rcases inOrder.2.2 spawned rfl with none | none
    · have none' : (Instruction.go spawned).labels.filter p = [] := none
      refine ⟨i, rest, after ▸ ⟨?_, inOrder.2.1, ?_, fun j other apart found => ?_⟩⟩
      · rw [List.getElem?_append_left (by rwa [← bound])]
        exact List.getElem?_set_self inside
      · rwa [none', List.nil_append] at whole
      · rcases getElem?_grown found with ⟨-, rfl⟩ | old
        · exact none
        · exact elsewhere j other apart old
    · refine ⟨s.threads.length, spawned, after ▸ ⟨?_, inOrder.1, ?_, fun j other apart found => ?_⟩⟩
      · rw [bound]
        exact List.getElem?_concat_length
      · rwa [none, List.append_nil] at whole
      · rcases getElem?_grown found with ⟨last, -⟩ | old
        · exact absurd last apart
        · rcases set_elsewhere old with ⟨-, rfl⟩ | ⟨away, old⟩
          · exact none
          · exact others j other away old

/-- A step of another thread leaves it as it is. -/
theorem Sequenced.ran_other {total : List L} {thread : List (Instruction L)}
    (sequenced : s.Sequenced p total i thread) {k : Nat} (own : k ≠ i) (ran : s.Ran k t) :
    t.Sequenced p total i thread := by
  have ⟨here, inOrder, whole, others⟩ := sequenced
  have elsewhere {rest : List (Instruction L)} (none : (labels rest).filter p = []) (j : Nat)
      (other : List (Instruction L)) (apart : j ≠ i)
      (found : (s.threads.set k rest)[j]? = some other) : (labels other).filter p = [] := by
    rcases set_elsewhere found with ⟨-, rfl⟩ | ⟨-, old⟩
    · exact none
    · exact others j other apart old
  have still {rest : List (Instruction L)} : (s.threads.set k rest)[i]? = some thread := by
    rw [List.getElem?_set_ne own]
    exact here
  cases ran with
  | perform label rest found after =>
    obtain ⟨skips, none⟩ := sequenced.others_ran own found
    have skips : [label].filter p = [] := skips
    refine after ▸ ⟨still, inOrder, ?_, elsewhere none⟩
    rw [List.filter_append, skips, List.append_nil]
    exact whole
  | await label rest found past after =>
    obtain ⟨-, none⟩ := sequenced.others_ran own found
    exact after ▸ ⟨still, inOrder, whole, elsewhere none⟩
  | go spawned rest found after =>
    obtain ⟨started, none⟩ := sequenced.others_ran own found
    refine after ▸ ⟨?_, inOrder, whole, fun j other apart found => ?_⟩
    · obtain ⟨inside, -⟩ := List.getElem?_eq_some_iff.mp here
      rw [List.getElem?_append_left (by rwa [List.length_set])]
      exact still
    · rcases getElem?_grown found with ⟨-, rfl⟩ | old
      · exact started
      · exact elsewhere none j other apart old

theorem Sequenced.ran {total : List L} {thread : List (Instruction L)}
    (sequenced : s.Sequenced p total i thread) {k : Nat} (ran : s.Ran k t) :
    ∃ i thread, t.Sequenced p total i thread := by
  by_cases own : k = i
  · subst own
    exact sequenced.ran_own ran
  · exact ⟨i, thread, sequenced.ran_other own ran⟩

/-- What is done, of such labels, is the beginning of what the thread was to do, in its order. -/
theorem done_of_reachable [DecidableEq L] {thread : List (Instruction L)} (inOrder : InOrder p thread)
    (reached : (system thread).Reachable s) :
    ∃ ahead, s.done.filter p ++ ahead = (labels thread).filter p := by
  have sequenced : ∃ i left, s.Sequenced p ((labels thread).filter p) i left := by
    induction reached with
    | start initial =>
      obtain rfl := initial
      refine ⟨0, thread, rfl, inOrder, rfl, fun j other apart found => ?_⟩
      obtain ⟨k, rfl⟩ := Nat.exists_eq_succ_of_ne_zero apart
      contradiction
    | next before step ih =>
      obtain ⟨i, left, sequenced⟩ := ih
      exact sequenced.ran (run_ran step)
  obtain ⟨i, left, sequenced⟩ := sequenced
  exact ⟨_, sequenced.whole⟩

end Forked
end Sequence

/-! Where nothing is left to do. Labels that will be performed have ranks, and whoever is to perform
one waits for labels of lower rank alone, and performs nothing else that is not on the way. -/
section Ranks
variable (rank : L → Option Nat) (onWay : Set L)

def Instruction.waitsBelow (bound : Nat) : Instruction L → Prop
  | .await label => ∃ n, rank label = some n ∧ n < bound
  | .perform label => label ∈ onWay
  | .go _ => True

mutual

/-- The label is going to be performed, and before that only labels below a bound are waited for. -/
def Instruction.Performs (label : L) (bound : Nat) : Instruction L → Prop
  | .perform performed => performed = label
  | .go thread => Performs label bound thread
  | .await _ => False

def Performs (label : L) (bound : Nat) : List (Instruction L) → Prop
  | [] => False
  | instruction :: rest => instruction.Performs label bound ∨
      instruction.waitsBelow rank onWay bound ∧ Performs label bound rest

end

variable {rank onWay}

theorem performs_append_left {label : L} {bound : Nat} {front : List (Instruction L)}
    (rest : List (Instruction L)) (performs : Performs rank onWay label bound front) :
    Performs rank onWay label bound (front ++ rest) := by
  induction front with
  | nil => exact absurd performs id
  | cons instruction front ih =>
    rcases performs with here | ⟨below, later⟩
    · exact .inl here
    · exact .inr ⟨below, ih later⟩

theorem performs_append_right {label : L} {bound : Nat} {front rest : List (Instruction L)}
    (below : ∀ instruction ∈ front, instruction.waitsBelow rank onWay bound)
    (performs : Performs rank onWay label bound rest) : Performs rank onWay label bound (front ++ rest) := by
  induction front with
  | nil => exact performs
  | cons instruction front ih =>
    exact .inr ⟨below _ (List.mem_cons_self ..),
      ih fun other member => below other (List.mem_cons_of_mem _ member)⟩

namespace Forked
variable {s t : Forked L} {i : Nat}

/-- Every label with a rank has been performed, or is going to be. -/
def Covered (rank : L → Option Nat) (onWay : Set L) (s : Forked L) : Prop :=
  ∀ label n, rank label = some n →
    label ∈ s.done ∨ ∃ (j : Nat) (thread : List (Instruction L)),
      s.threads[j]? = some thread ∧ Performs rank onWay label n thread

theorem Covered.ran (covered : s.Covered rank onWay) (ran : s.Ran i t) : t.Covered rank onWay := by
  intro label n ranked
  rcases covered label n ranked with past | ⟨j, thread, there, performs⟩
  · exact .inl (ran.done_prefix.mem past)
  have inside : j < s.threads.length := (List.getElem?_eq_some_iff.mp there).1
  by_cases own : i = j
  · subst own
    cases ran with
    | perform performed rest here after =>
      obtain rfl := Option.some.inj (there.symm.trans here)
      rcases performs with same | ⟨-, later⟩
      · have same : performed = label := same
        exact .inl (after ▸ List.mem_append_right _ (same ▸ List.mem_singleton_self _))
      · exact .inr ⟨i, rest, after ▸ List.getElem?_set_self inside, later⟩
    | await awaited rest here past after =>
      obtain rfl := Option.some.inj (there.symm.trans here)
      rcases performs with none | ⟨-, later⟩
      · exact absurd none id
      · exact .inr ⟨i, rest, after ▸ List.getElem?_set_self inside, later⟩
    | go spawned rest here after =>
      obtain rfl := Option.some.inj (there.symm.trans here)
      subst after
      rcases performs with started | ⟨-, later⟩
      · exact .inr ⟨_, spawned, List.getElem?_concat_length, started⟩
      · refine .inr ⟨i, rest, ?_, later⟩
        rw [List.getElem?_append_left (by rwa [List.length_set])]
        exact List.getElem?_set_self inside
  · have still {rest : List (Instruction L)} : (s.threads.set i rest)[j]? = some thread := by
      rw [List.getElem?_set_ne own]
      exact there
    cases ran with
    | perform performed rest here after => exact .inr ⟨j, thread, after ▸ still, performs⟩
    | await awaited rest here past after => exact .inr ⟨j, thread, after ▸ still, performs⟩
    | go spawned rest here after =>
      subst after
      refine .inr ⟨j, thread, ?_, performs⟩
      rw [List.getElem?_append_left (by rwa [List.length_set])]
      exact still

/-- Once no thread can take a step, all that has a rank has been performed, or a thread stands in a
call that never returns, one that is on the way. -/
theorem Covered.atRest [DecidableEq L] (covered : s.Covered rank onWay) {blocked : Set L}
    (rests : AtRest (stepBut blocked) s) {label : L} {n : Nat} (ranked : rank label = some n) :
    label ∈ s.done ∨ ∃ (j : Nat) (held : L) (rest : List (Instruction L)),
      s.threads[j]? = some (.perform held :: rest) ∧ held ∈ blocked ∧
        (held ∈ onWay ∨ (rank held).isSome) := by
  induction n using Nat.strongRecOn generalizing label with
  | ind n ih =>
    rcases covered label n ranked with past | ⟨j, thread, there, performs⟩
    · exact .inl past
    · cases thread with
      | nil => exact absurd performs id
      | cons instruction rest =>
        cases instruction with
        | perform performed =>
          refine .inr ⟨j, performed, rest, there, ?_, ?_⟩
          · by_contra returns
            have stuck := run_of_atRest rests there fun other member same =>
              returns (Instruction.perform.inj same ▸ member)
            simp only [run, there] at stuck
            contradiction
          · rcases performs with same | ⟨passes, -⟩
            · have same : performed = label := same
              exact .inr (by rw [same, ranked]; rfl)
            · exact .inl passes
        | go spawned =>
          have stuck := run_of_atRest rests there nofun
          simp only [run, there] at stuck
          contradiction
        | await awaited =>
          rcases performs with none | ⟨⟨m, lower, less⟩, -⟩
          · exact absurd none id
          · rcases ih m less lower with past | held
            · have stuck := run_of_atRest rests there nofun
              simp only [run, there, if_pos past] at stuck
              contradiction
            · exact .inr held

theorem covered_of_reachable [DecidableEq L] {thread : List (Instruction L)}
    (performs : ∀ label n, rank label = some n → Performs rank onWay label n thread)
    (reached : (system thread).Reachable s) : s.Covered rank onWay := by
  refine reached.invariant ?_ fun s i t covered step => covered.ran (run_ran step)
  rintro s rfl label n ranked
  exact .inr ⟨0, thread, rfl, performs label n ranked⟩

end Forked
end Ranks

/-! Each step leaves less to do. -/
section Steps

mutual

/-- The steps of a thread, and of those that it starts. -/
def Instruction.steps : Instruction L → Nat
  | .go thread => steps thread + 1
  | _ => 1

def steps : List (Instruction L) → Nat
  | [] => 0
  | instruction :: rest => instruction.steps + steps rest

end

namespace Forked
variable {s t : Forked L} {i : Nat}

def ahead (s : Forked L) : Nat := (s.threads.map steps).sum

theorem ahead_set {threads : List (List (Instruction L))} {thread : List (Instruction L)}
    (here : threads[i]? = some thread) (rest : List (Instruction L)) :
    ((threads.set i rest).map steps).sum + steps thread = (threads.map steps).sum + steps rest := by
  induction threads generalizing i with
  | nil => contradiction
  | cons first threads ih =>
    cases i with
    | zero =>
      obtain rfl := Option.some.inj here
      simp only [List.set_cons_zero, List.map_cons, List.sum_cons]
      omega
    | succ i =>
      have later := ih here
      simp only [List.set_cons_succ, List.map_cons, List.sum_cons]
      omega

theorem Ran.ahead (ran : s.Ran i t) : t.ahead < s.ahead := by
  cases ran with
  | perform label rest here after =>
    have changed := ahead_set here rest
    simp only [steps, Instruction.steps] at changed
    rw [after, Forked.ahead, Forked.ahead]
    dsimp only
    omega
  | await label rest here past after =>
    have changed := ahead_set here rest
    simp only [steps, Instruction.steps] at changed
    rw [after, Forked.ahead, Forked.ahead]
    dsimp only
    omega
  | go spawned rest here after =>
    have changed := ahead_set here rest
    simp only [steps, Instruction.steps] at changed
    rw [after, Forked.ahead, Forked.ahead, List.map_append, List.sum_append]
    simp only [List.map_cons, List.map_nil, List.sum_cons, List.sum_nil]
    omega

theorem stepBut_lowers [DecidableEq L] (blocked : Set L) :
    Lowers (stepBut blocked) (fun _ => True) Forked.ahead where
  kept _ _ _ _ _ := trivial
  less _ _ _ _ step := (run_ran step.1).ahead

end Forked
end Steps
end Transition
