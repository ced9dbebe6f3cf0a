import SSHProxyPlus.Browser.Text
import Mathlib.Data.List.Infix

/-! Passes over a text, each of which replaces the first match of its pattern: which part of a
text a pass leaves alone, and lists of passes that are told apart by a name. -/
namespace Browser

variable {pattern : Pattern} {name text : List Char} {c : Char}

theorem replaceFirst_here (here : pattern.matches (c :: text)) :
    replaceFirst pattern name (c :: text) = name ++ (c :: text).drop pattern.length := if_pos here

theorem replaceFirst_skip (elsewhere : ¬ pattern.matches (c :: text)) :
    replaceFirst pattern name (c :: text) = c :: replaceFirst pattern name text := if_neg elsewhere

/-- Where no match starts in a part of the text, the part stays. -/
theorem replaceFirst_append {part : List Char}
    (inert : ∀ c ∈ part, ∀ text, ¬ pattern.matches (c :: text)) (text : List Char) :
    replaceFirst pattern name (part ++ text) = part ++ replaceFirst pattern name text := by
  induction part with
  | nil => rfl
  | cons c part ih =>
    have later := ih fun d member => inert d (List.mem_cons_of_mem c member)
    rw [List.cons_append, replaceFirst_skip (inert c List.mem_cons_self _), later, List.cons_append]

/-- A pass writes no beginning that lacks the first character of its own text. -/
theorem prefix_of_replaceFirst {d : Char} (first : name.head? = some d) {part : List Char}
    (absent : d ∉ part) (begins : part <+: replaceFirst pattern name text) : part <+: text := by
  induction text generalizing part with
  | nil => exact begins
  | cons c text ih =>
    cases part with
    | nil => exact List.nil_prefix
    | cons e part =>
      by_cases here : pattern.matches (c :: text)
      · obtain ⟨tail, rfl⟩ := List.head?_eq_some_iff.mp first
        rw [replaceFirst_here here, List.cons_append] at begins
        exact absurd (List.cons_prefix_cons.mp begins).1
          fun same => absent (same ▸ List.mem_cons_self)
      · rw [replaceFirst_skip here] at begins
        obtain ⟨same, later⟩ := List.cons_prefix_cons.mp begins
        exact List.cons_prefix_cons.mpr
          ⟨same, ih (fun member => absent (List.mem_cons_of_mem e member)) later⟩

/-- The passes that are left when those of certain names are spent. -/
def unspent {α : Type} (nameOf : α → String) (used : List String) (passes : List α) : List α :=
  passes.filter fun pass => nameOf pass ∉ used

section Unspent
variable {α : Type} {nameOf : α → String} {used : List String} {passes : List α}

theorem mem_unspent {pass : α} :
    pass ∈ unspent nameOf used passes ↔ pass ∈ passes ∧ nameOf pass ∉ used := by
  rw [unspent, List.mem_filter, decide_eq_true_eq]

theorem unspent_sublist (nameOf : α → String) (used : List String) (passes : List α) :
    List.Sublist (unspent nameOf used passes) passes := List.filter_sublist

@[simp] theorem unspent_nil (nameOf : α → String) (passes : List α) :
    unspent nameOf [] passes = passes :=
  List.filter_eq_self.mpr fun _ _ => decide_eq_true List.not_mem_nil

theorem unspent_append (first second : List α) :
    unspent nameOf used (first ++ second) =
      unspent nameOf used first ++ unspent nameOf used second := List.filter_append ..

theorem unspent_fresh {pass : α} (fresh : nameOf pass ∉ used) (passes : List α) :
    unspent nameOf used (pass :: passes) = pass :: unspent nameOf used passes :=
  List.filter_cons_of_pos (decide_eq_true fresh)

theorem unspent_cons (nameOf : α → String) (name : String) (used : List String)
    (passes : List α) : unspent nameOf (name :: used) passes =
      (unspent nameOf used passes).filter fun pass => nameOf pass ≠ name := by
  rw [unspent, unspent, List.filter_filter]
  refine List.filter_congr fun pass _ => ?_
  simp [List.mem_cons]

/-- Spending a name that no pass has. -/
theorem unspent_absent {name : String} (absent : ∀ pass ∈ passes, nameOf pass ≠ name) :
    unspent nameOf (name :: used) passes = unspent nameOf used passes := by
  rw [unspent_cons]
  exact List.filter_eq_self.mpr fun pass member =>
    decide_eq_true (absent pass (mem_unspent.mp member).1)

/-- Spending the name of one pass takes that pass away and no other. -/
theorem unspent_spend (distinct : (passes.map nameOf).Nodup) {before after : List α} {pass : α}
    (split : unspent nameOf used passes = before ++ pass :: after) :
    unspent nameOf (nameOf pass :: used) passes = before ++ after := by
  have left : ((before ++ pass :: after).map nameOf).Nodup :=
    split ▸ distinct.sublist ((unspent_sublist nameOf used passes).map nameOf)
  rw [List.map_append, List.map_cons, List.nodup_middle, List.nodup_cons] at left
  have others : ∀ other ∈ before ++ after, nameOf other ≠ nameOf pass := by
    intro other member same
    refine left.1 ?_
    rw [← List.map_append]
    exact same ▸ List.mem_map_of_mem member
  rw [unspent_cons, split, List.filter_append, List.filter_cons_of_neg (by simp),
    ← List.filter_append]
  exact List.filter_eq_self.mpr fun other member => decide_eq_true (others other member)

end Unspent

/-- Texts of which neither is the beginning of the other have no common continuation. -/
theorem append_ne_of_incomparable {first second : List Char} (left : ¬ first <+: second)
    (right : ¬ second <+: first) (rest rest' : List Char) : first ++ rest ≠ second ++ rest' := by
  intro same
  rcases List.prefix_or_prefix_of_prefix (List.prefix_append first rest)
    (same ▸ List.prefix_append second rest') with shorter | longer
  · exact left shorter
  · exact right longer

end Browser
