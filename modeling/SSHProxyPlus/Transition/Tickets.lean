import Mathlib.Data.Multiset.Range
import Mathlib.Data.Multiset.Filter
import Mathlib.Dynamics.PeriodicPts.Defs
import SSHProxyPlus.Transition.Sequential

/-! Numbers taken from a counter without a lock: a taker reads the count, which is its number,
and then loads the count and stores the next one, each a step of its own. -/
namespace Transition
variable {N : Type}

/-- A taker on its way: it has read its own number, and then what it will advance. -/
inductive Taking (N : Type) where
  | read (own : N)
  | loaded (own seen : N)

structure Tickets (N : Type) where
  count : N
  given : Multiset N
  underway : Multiset (Taking N)

inductive TakingStep where
  | read
  | load
  | store
  | other

namespace Tickets

inductive Step (next : N → N) : Tickets N → TakingStep → Tickets N → Prop where
  | read {count given underway} : Step next ⟨count, given, underway⟩ .read
      ⟨count, count ::ₘ given, .read count ::ₘ underway⟩
  | load {count given own rest} : Step next ⟨count, given, .read own ::ₘ rest⟩ .load
      ⟨count, given, .loaded own count ::ₘ rest⟩
  | store {count given own seen rest} : Step next ⟨count, given, .loaded own seen ::ₘ rest⟩ .store
      ⟨next seen, given, rest⟩
  | other {s} : Step next s .other s

/-- The first numbers from some start on. -/
def numbers (next : N → N) (start : N) (n : Nat) : Multiset N :=
  (Multiset.range n).map (next^[·] start)

/-- Nobody else is on the way when a number is read, and the numbers have not run out. -/
def Alone (next : N → N) (start : N) (s : Tickets N) : TakingStep → Prop
  | .read => s.underway = 0 ∧ s.given.card < Function.minimalPeriod next start
  | _ => True

/-- The numbers are given in order: all are stored, or one taker is still on its way. -/
inductive Orderly (next : N → N) (start : N) (s : Tickets N) : Prop where
  | settled {n : Nat} (left : n ≤ Function.minimalPeriod next start)
      (count : s.count = next^[n] start) (given : s.given = numbers next start n)
      (idle : s.underway = 0)
  | busy {n : Nat} (left : n < Function.minimalPeriod next start)
      (count : s.count = next^[n] start) (given : s.given = numbers next start (n + 1))
      (one : s.underway = {.read s.count} ∨ s.underway = {.loaded s.count s.count})

variable {next : N → N} {start : N} {s t : Tickets N} {a : TakingStep}

@[simp] theorem card_numbers (n : Nat) : (numbers next start n).card = n := by
  simp [numbers]

theorem numbers_succ (n : Nat) :
    numbers next start (n + 1) = next^[n] start ::ₘ numbers next start n := by
  simp [numbers, Multiset.range_succ]

theorem numbers_nodup {n : Nat} (left : n ≤ Function.minimalPeriod next start) :
    (numbers next start n).Nodup := by
  apply Multiset.Nodup.map_on ?_ (Multiset.nodup_range n)
  intro j first k second same
  have early : j < Function.minimalPeriod next start :=
    (Multiset.mem_range.mp first).trans_le left
  have late : k < Function.minimalPeriod next start :=
    (Multiset.mem_range.mp second).trans_le left
  exact (Function.iterate_eq_iterate_iff_of_lt_minimalPeriod early late).mp same

theorem Orderly.init (next : N → N) (start : N) : Orderly next start ⟨start, 0, 0⟩ :=
  .settled (n := 0) (Nat.zero_le _) rfl rfl rfl

theorem Orderly.nodup (orderly : Orderly next start s) : s.given.Nodup := by
  cases orderly with
  | settled left _ given _ =>
    rw [given]
    exact numbers_nodup left
  | busy left _ given _ =>
    rw [given]
    exact numbers_nodup left

/-- What is given stays given. -/
theorem Step.given_le (step : Step next s a t) : s.given ≤ t.given := by
  cases step with
  | read => exact Multiset.le_cons_self _ _
  | load => exact le_rfl
  | store => exact le_rfl
  | other => exact le_rfl

/-- The step of a taker that is alone keeps the order. -/
theorem Step.orderly (step : Step next s a t) (orderly : Orderly next start s)
    (alone : Alone next start s a) : Orderly next start t := by
  cases step with
  | @read count given underway =>
    obtain ⟨rfl, more⟩ := alone
    cases orderly with
    | @settled n left count given idle =>
      obtain rfl : _ = next^[n] start := count
      obtain rfl : _ = numbers next start n := given
      rw [card_numbers] at more
      exact .busy more rfl (numbers_succ n).symm (.inl rfl)
    | busy left count given one =>
      rcases one with read | loaded
      · exact absurd read.symm (Multiset.singleton_ne_zero _)
      · exact absurd loaded.symm (Multiset.singleton_ne_zero _)
  | @load now given own rest =>
    cases orderly with
    | settled left count given idle => exact absurd idle Multiset.cons_ne_zero
    | busy left count given one =>
      rcases one with read | loaded
      · obtain ⟨same, rfl⟩ := (Multiset.singleton_eq_cons_iff _).mp read.symm
        obtain rfl : now = own := Taking.read.inj same
        exact .busy left count given (.inr rfl)
      · obtain ⟨other, -⟩ := (Multiset.singleton_eq_cons_iff _).mp loaded.symm
        contradiction
  | @store now given own seen rest =>
    cases orderly with
    | settled left count given idle => exact absurd idle Multiset.cons_ne_zero
    | @busy n left count given one =>
      rcases one with read | loaded
      · obtain ⟨other, -⟩ := (Multiset.singleton_eq_cons_iff _).mp read.symm
        contradiction
      · obtain ⟨same, rfl⟩ := (Multiset.singleton_eq_cons_iff _).mp loaded.symm
        obtain rfl : now = seen := (Taking.loaded.inj same).2
        refine .settled left ?_ given rfl
        rw [Function.iterate_succ_apply']
        exact congrArg next count
  | other => exact orderly

/-- A number that is read while another taker is on its way, or when all have been given, has
been given before. -/
theorem Step.repeats (periodic : 0 < Function.minimalPeriod next start) (step : Step next s a t)
    (orderly : Orderly next start s) (notAlone : ¬ Alone next start s a) : ¬ t.given.Nodup := by
  cases step with
  | @read count given underway =>
    intro distinct
    apply (Multiset.nodup_cons.mp distinct).1
    cases orderly with
    | @settled n left count given idle =>
      obtain rfl : _ = next^[n] start := count
      obtain rfl : _ = numbers next start n := given
      have all : n = Function.minimalPeriod next start := by
        by_contra other
        apply notAlone
        refine ⟨idle, ?_⟩
        rw [card_numbers]
        exact lt_of_le_of_ne left other
      -- After a whole period the count is at the start again.
      rw [all, Function.iterate_minimalPeriod]
      exact Multiset.mem_map.mpr ⟨0, Multiset.mem_range.mpr periodic, rfl⟩
    | @busy n left count given one =>
      obtain rfl : _ = next^[n] start := count
      obtain rfl : _ = numbers next start (n + 1) := given
      exact Multiset.mem_map.mpr ⟨n, Multiset.mem_range.mpr (Nat.lt_succ_self n), rfl⟩
  | load => exact absurd trivial notAlone
  | store => exact absurd trivial notAlone
  | other => exact absurd trivial notAlone

variable {history : List (Tickets N × TakingStep)}

theorem given_le (passes : Passes (Step next) s history t) : s.given ≤ t.given := by
  induction history generalizing s with
  | nil => exact (congrArg given passes).le
  | cons entry later ih =>
    obtain ⟨before, a⟩ := entry
    obtain ⟨-, mid, step, rest⟩ := passes
    exact step.given_le.trans (ih rest)

/-- The numbers that are given are different exactly where every taker is alone when it reads
one. -/
theorem nodup_iff (periodic : 0 < Function.minimalPeriod next start)
    (passes : Passes (Step next) s history t) (orderly : Orderly next start s) :
    t.given.Nodup ↔ ∀ entry ∈ history, Alone next start entry.1 entry.2 := by
  induction history generalizing s with
  | nil =>
    obtain rfl := passes
    exact iff_of_true orderly.nodup (List.forall_mem_nil _)
  | cons entry later ih =>
    obtain ⟨before, a⟩ := entry
    obtain ⟨rfl, mid, step, rest⟩ := passes
    rw [List.forall_mem_cons]
    constructor
    · intro distinct
      have alone : Alone next start before a := by
        by_contra notAlone
        apply step.repeats periodic orderly notAlone
        exact Multiset.nodup_of_le (given_le rest) distinct
      exact ⟨alone, (ih rest (step.orderly orderly alone)).mp distinct⟩
    · rintro ⟨alone, others⟩
      exact (ih rest (step.orderly orderly alone)).mpr others

end Tickets
end Transition
