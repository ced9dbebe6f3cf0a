import Mathlib.Algebra.BigOperators.Group.List.Basic
import Mathlib.Algebra.Order.BigOperators.Group.List
import SSHProxyPlus.Session.Threads

/-! What the threads of a session have ahead of them, counted: each step takes one statement away,
and adds what is left of it. -/
namespace SSHProxyPlus
open Go Transition

namespace Statement
variable {M : Type} [AddCommMonoid M] (f : Statement → M)

mutual

/-- What a statement counts for, with the threads that it starts. -/
def weight : Statement → M
  | .go thread => weights thread
  | statement => f statement

def weights : List Statement → M
  | [] => 0
  | statement :: rest => weight statement + weights rest

end

variable {f}

theorem weights_append (left rest : List Statement) :
    weights f (left ++ rest) = weights f left + weights f rest := by
  induction left with
  | nil => exact (zero_add _).symm
  | cons statement left ih => rw [List.cons_append, weights, weights, ih, add_assoc]

end Statement

namespace LiveSession
open Statement
variable {M : Type} [AddCommMonoid M]

/-- What the threads have ahead of them. -/
def total (f : Statement → M) (threads : List (List Statement)) : M :=
  (threads.map (weights f)).sum

@[simp] theorem total_nil (f : Statement → M) : total f [] = 0 := rfl

theorem total_append (f : Statement → M) (threads spawned : List (List Statement)) :
    total f (threads ++ spawned) = total f threads + total f spawned := by
  rw [total, List.map_append, List.sum_append]
  rfl

theorem total_singleton (f : Statement → M) (thread : List Statement) :
    total f [thread] = weights f thread := by simp [total]

theorem total_set (f : Statement → M) {threads : List (List Statement)} {i : Nat}
    {thread : List Statement} (here : threads[i]? = some thread) (other : List Statement) :
    total f (threads.set i other) + weights f thread = total f threads + weights f other := by
  induction threads generalizing i with
  | nil => contradiction
  | cons first threads ih =>
    cases i with
    | zero =>
      obtain rfl := Option.some.inj here
      simp only [total, List.set_cons_zero, List.map_cons, List.sum_cons]
      rw [add_right_comm, add_comm (weights f other), add_right_comm]
    | succ i =>
      have rest := ih here
      simp only [total, List.set_cons_succ, List.map_cons, List.sum_cons] at rest ⊢
      rw [add_assoc, rest, add_assoc]

theorem weights_le_total {f : Statement → Nat} {threads : List (List Statement)} {i : Nat}
    {thread : List Statement} (here : threads[i]? = some thread) :
    weights f thread ≤ total f threads :=
  List.single_le_sum (fun _ _ => Nat.zero_le _) _
    (List.mem_map_of_mem (List.mem_of_getElem? here))

/-- Two threads count twice. -/
theorem weights_add_le_total {f : Statement → Nat} {threads : List (List Statement)} {i j : Nat}
    {thread other : List Statement} (apart : i ≠ j) (here : threads[i]? = some thread)
    (there : threads[j]? = some other) : weights f thread + weights f other ≤ total f threads := by
  have changed := total_set f here []
  have still : (threads.set i [])[j]? = some other := by rw [List.getElem?_set_ne apart, there]
  have bound := weights_le_total (f := f) still
  rw [weights, add_zero] at changed
  omega

theorem total_finished (f : Statement → M) {threads : List (List Statement)}
    (finished : ∀ thread ∈ threads, thread = []) : total f threads = 0 := by
  refine List.sum_eq_zero fun n member => ?_
  obtain ⟨thread, present, rfl⟩ := List.mem_map.mp member
  rw [finished thread present]
  rfl

end LiveSession

namespace Statement

mutual

theorem weight_mono {M : Type} [AddCommMonoid M] [PartialOrder M] [IsOrderedAddMonoid M]
    {f g : Statement → M} (le : ∀ statement, f statement ≤ g statement) :
    (statement : Statement) → weight f statement ≤ weight g statement
  | .go thread => weights_mono le thread
  | .markThreadStarted | .markThreadStopped | .unlock | .initializeLog | .beginLog
  | .handleEvent _ | .logEvent _ | .signalClients _ | .ranging .. | .sending .. | .endSession
  | .deactivate | .finalizeLog | .closeLog | .renameLog => le _

theorem weights_mono {M : Type} [AddCommMonoid M] [PartialOrder M] [IsOrderedAddMonoid M]
    {f g : Statement → M} (le : ∀ statement, f statement ≤ g statement) :
    (thread : List Statement) → weights f thread ≤ weights g thread
  | [] => le_refl 0
  | statement :: rest => add_le_add (weight_mono le statement) (weights_mono le rest)

end

end Statement

namespace LiveSession
open Statement
variable {live next : LiveSession}

theorem total_mono {M : Type} [AddCommMonoid M] [PartialOrder M] [IsOrderedAddMonoid M]
    {f g : Statement → M} (le : ∀ statement, f statement ≤ g statement) (threads : List (List Statement)) :
    total f threads ≤ total g threads :=
  List.sum_le_sum fun thread _ => weights_mono le thread

theorem head_le_total {f : Statement → Nat} {i : Nat} {statement : Statement}
    {rest : List Statement} (here : live.threads[i]? = some (statement :: rest)) :
    weight f statement + weights f rest ≤ total f live.threads :=
  weights_le_total here

/-- A step takes one statement away, and adds what is left of it and what it starts. -/
theorem Ran.sums {M : Type} [AddCancelCommMonoid M] {i : Nat} {now : Time} {statement : Statement}
    {rest : List Statement} {changed : LiveSession} {left : List Statement}
    {spawned : List (List Statement)} (f : Statement → M)
    (ran : live.Ran i now statement rest changed left spawned next) :
    total f next.threads + weight f statement =
      total f live.threads + weights f left + total f spawned := by
  obtain ⟨here, -, rfl⟩ := ran
  have changed := total_set f here (left ++ rest)
  rw [weights, weights_append, ← add_assoc, ← add_assoc] at changed
  rw [total_append, add_right_comm, add_right_cancel changed]

theorem Aside.total {M : Type} [AddCommMonoid M] (aside : Aside live next) (f : Statement → M)
    (zero : f .endSession = 0) : total f next.threads = total f live.threads := by
  obtain same | same := aside.threads
  · rw [same]
  · rw [same, total_append, total_singleton]
    simp [weights, weight, zero]

end LiveSession

namespace Statement
variable {M : Type} [AddCommMonoid M] {f : Statement → M}

/-- Nothing to count but where a session begins and ends. -/
structure Unseen (f : Statement → M) : Prop where
  marks : f .markThreadStarted + f .markThreadStopped = 0
  records : ∀ activity, f (record activity) = 0

theorem weights_marked (body : List Statement) : weights f (marked body) =
    f .markThreadStarted + f .markThreadStopped + weights f body := by
  rw [marked, List.cons_append, weights, weights_append, weights, weights, add_zero]
  simp only [weight]
  rw [add_right_comm, add_assoc]

theorem weights_map {α : Type} {g : α → Statement} {list : List α}
    (none : ∀ a ∈ list, weight f (g a) = 0) : weights f (list.map g) = 0 := by
  induction list with
  | nil => rfl
  | cons a list ih =>
    obtain ⟨first, later⟩ := List.forall_mem_cons.mp none
    rw [List.map_cons, weights, first, ih later, add_zero]

theorem weights_flatMap {α : Type} {g : α → List Statement} {list : List α}
    (none : ∀ a ∈ list, weights f (g a) = 0) : weights f (list.flatMap g) = 0 := by
  induction list with
  | nil => rfl
  | cons a list ih =>
    obtain ⟨first, later⟩ := List.forall_mem_cons.mp none
    rw [List.flatMap_cons, weights_append, first, ih later, add_zero]

namespace Unseen
variable (unseen : Unseen f)
include unseen

theorem marked {body : List Statement} (none : weights f body = 0) :
    weights f (Statement.marked body) = 0 := by
  rw [weights_marked, unseen.marks, none, add_zero]

theorem forwardRequest (channelID : Int64) (request : ForwardedRequest) :
    weights f (Statement.forwardRequest channelID request) = 0 := by
  refine unseen.marked ?_
  have recorded := unseen.records
  cases request.dimensions <;> simp [weights, weight, record] at recorded ⊢ <;> simp [recorded]

theorem handleRequests (channelID : Int64) (requests : List ForwardedRequest) :
    weights f (Statement.handleRequests channelID requests) = 0 :=
  unseen.marked (weights_flatMap fun request _ => unseen.forwardRequest channelID request)

theorem copyChannel (incoming : Bool) (channelID : Int64) (reads : List RecordedRead) :
    weights f (Statement.copyChannel incoming channelID reads) = 0 := by
  refine unseen.marked (weights_map fun read _ => ?_)
  have recorded := unseen.records
  simp [weights, weight, record] at recorded ⊢
  simp [recorded]

theorem bidirectionalChannelClone (channelID : Int64) (opened : OpenedChannel) :
    weights f (Statement.bidirectionalChannelClone channelID opened) = 0 := by
  refine unseen.marked ?_
  simp [weights, weight, unseen.copyChannel]

theorem forwardChannel (channel : ForwardedChannel) :
    weights f (Statement.forwardChannel channel) = 0 := by
  refine unseen.marked ?_
  have recorded := unseen.records
  cases channel.opened with
  | none =>
    simp [weights, weight, record] at recorded ⊢
    simp [recorded]
  | some opened =>
    simp [weights, weight, record, unseen.handleRequests, unseen.bidirectionalChannelClone]
      at recorded ⊢
    simp [recorded]

theorem handleChannels (channels : List ForwardedChannel) :
    weights f (Statement.handleChannels channels) = 0 :=
  unseen.marked (weights_map fun channel _ => unseen.forwardChannel channel)

theorem handleClientConn (start : ∀ event, event.type = eventSessionStart →
    f (.handleEvent event) = 0) (connected : Option ConnectedClient) :
    weights f (Statement.handleClientConn connected) = f .initializeLog := by
  unfold Statement.handleClientConn
  rw [weights_marked, unseen.marks, zero_add, weights, weight]
  · cases connected with
    | none => exact add_zero _
    | some client =>
      simp [weights, weight, start, unseen.handleChannels, unseen.handleRequests]
  · exact fun _ => Statement.noConfusion

end Unseen

end Statement
end SSHProxyPlus
