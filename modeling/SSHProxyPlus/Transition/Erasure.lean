import Mathlib.Data.List.Basic

/-! A service that answers inputs one by one, and what becomes of a run when the inputs that
have no effect are left out. -/
namespace Transition
variable {σ α β ε : Type}

/-- Serve all inputs in order; a failure ends the run. -/
def serveAll (step : σ → α → Except ε (σ × β)) : σ → List α → Except ε (σ × List β)
  | s, [] => .ok (s, [])
  | s, a :: later => do
      let (s, reply) ← step s a
      let (s, replies) ← serveAll step s later
      return (s, reply :: replies)

variable {step : σ → α → Except ε (σ × β)} {s mid t : σ} {a : α} {earlier later inputs : List α}
  {reply : β} {replies : List β}

theorem serveAll_cons_ok : serveAll step s (a :: later) = .ok (t, replies) ↔
    ∃ mid first others, step s a = .ok (mid, first) ∧
      serveAll step mid later = .ok (t, others) ∧ replies = first :: others := by
  constructor
  · intro served
    rw [serveAll] at served
    cases taken : step s a with
    | error failure => simp [taken, bind, Except.bind] at served
    | ok result =>
      obtain ⟨mid, first⟩ := result
      cases rest : serveAll step mid later with
      | error failure => simp [taken, rest, bind, Except.bind] at served
      | ok result =>
        obtain ⟨last, others⟩ := result
        simp only [taken, rest, bind, Except.bind, pure, Except.pure] at served
        obtain ⟨rfl, rfl⟩ := Prod.mk.inj (Except.ok.inj served)
        exact ⟨mid, first, others, rfl, rest, rfl⟩
  · rintro ⟨mid, first, others, taken, rest, rfl⟩
    simp [serveAll, taken, rest, bind, Except.bind, pure, Except.pure]

/-- Every input has one reply. -/
theorem serveAll_length (served : serveAll step s inputs = .ok (t, replies)) :
    replies.length = inputs.length := by
  induction inputs generalizing s replies with
  | nil =>
    obtain ⟨-, rfl⟩ := Prod.mk.inj (Except.ok.inj served)
    rfl
  | cons a later ih =>
    obtain ⟨mid, first, others, -, rest, rfl⟩ := serveAll_cons_ok.mp served
    simp [ih rest]

/-- What each step keeps is kept by a run. -/
theorem serveAll_keeps {Inv : σ → Prop}
    (kept : ∀ s a t reply, Inv s → step s a = .ok (t, reply) → Inv t) (start : Inv s)
    (served : serveAll step s inputs = .ok (t, replies)) : Inv t := by
  induction inputs generalizing s replies with
  | nil =>
    obtain ⟨rfl, -⟩ := Prod.mk.inj (Except.ok.inj served)
    exact start
  | cons a later ih =>
    obtain ⟨mid, first, others, taken, rest, rfl⟩ := serveAll_cons_ok.mp served
    exact ih (kept s a mid first start taken) rest

section erasure
variable {active : α → Bool} {echo : α → β} {Inv : σ → Prop}

/-- The replies to all inputs, from those to the active ones. -/
def weave (active : α → Bool) (echo : α → β) : List α → List β → List β
  | [], _ => []
  | a :: later, replies =>
      if active a then
        match replies with
        | reply :: replies => reply :: weave active echo later replies
        | [] => []
      else echo a :: weave active echo later replies

/-- Inputs that change nothing and are echoed can be left out: the run ends in the same
state, or fails in the same way, and the other inputs have the replies they had. -/
theorem serveAll_erase (kept : ∀ s a t reply, Inv s → step s a = .ok (t, reply) → Inv t)
    (idle : ∀ s a, Inv s → active a = false → step s a = .ok (s, echo a)) (start : Inv s)
    (inputs : List α) :
    serveAll step s inputs = (serveAll step s (inputs.filter active)).map
      fun (t, replies) => (t, weave active echo inputs replies) := by
  induction inputs generalizing s with
  | nil => rfl
  | cons a later ih =>
    cases here : active a with
    | true =>
      rw [List.filter_cons_of_pos here, serveAll, serveAll]
      cases taken : step s a with
      | error failure => rfl
      | ok result =>
        obtain ⟨mid, first⟩ := result
        simp only [bind, Except.bind, ih (kept s a mid first start taken)]
        cases serveAll step mid (later.filter active) with
        | error failure => rfl
        | ok result => simp [Except.map, pure, Except.pure, weave, here]
    | false =>
      rw [List.filter_cons_of_neg (by simp [here]), serveAll, idle s a start here]
      simp only [bind, Except.bind, ih start]
      cases serveAll step s (later.filter active) with
      | error failure => rfl
      | ok result => simp [Except.map, pure, Except.pure, weave, here]

/-- The active inputs keep their replies. -/
theorem weave_active (same : replies.length = (inputs.filter active).length) :
    ((inputs.zip (weave active echo inputs replies)).filter (active ·.1)).map Prod.snd =
      replies := by
  induction inputs generalizing replies with
  | nil =>
    obtain rfl := List.eq_nil_of_length_eq_zero same
    rfl
  | cons a later ih =>
    cases here : active a with
    | true =>
      rw [List.filter_cons_of_pos here] at same
      obtain ⟨reply, others, rfl⟩ := List.exists_cons_of_length_eq_add_one same
      simp [weave, here, ih (Nat.succ.inj same)]
    | false =>
      rw [List.filter_cons_of_neg (by simp [here])] at same
      simp [weave, here, ih same]

/-- Every other input is echoed. -/
theorem weave_idle {entry : α × β}
    (member : entry ∈ inputs.zip (weave active echo inputs replies))
    (idle : active entry.1 = false) : entry.2 = echo entry.1 := by
  induction inputs generalizing replies with
  | nil => exact absurd member List.not_mem_nil
  | cons a later ih =>
    cases here : active a with
    | true =>
      cases replies with
      | nil => simp [weave, here] at member
      | cons reply others =>
        simp only [weave, here, if_true, List.zip_cons_cons] at member
        rcases List.mem_cons.mp member with rfl | rest
        · rw [here] at idle
          contradiction
        · exact ih rest
    | false =>
      simp only [weave, here, Bool.false_eq_true, if_false, List.zip_cons_cons] at member
      rcases List.mem_cons.mp member with rfl | rest
      · rfl
      · exact ih rest

variable (kept : ∀ s a t reply, Inv s → step s a = .ok (t, reply) → Inv t)
  (idle : ∀ s a, Inv s → active a = false → step s a = .ok (s, echo a)) (start : Inv s)
include kept idle start

/-- Without the idle inputs a run ends in the same state. -/
theorem serveAll_erase_state (inputs : List α) :
    (serveAll step s inputs).map Prod.fst =
      (serveAll step s (inputs.filter active)).map Prod.fst := by
  rw [serveAll_erase kept idle start]
  cases serveAll step s (inputs.filter active) <;> rfl

/-- The replies to the active inputs are those of the run without the idle ones. -/
theorem serveAll_erase_replies (served : serveAll step s inputs = .ok (t, replies)) :
    serveAll step s (inputs.filter active) =
        .ok (t, ((inputs.zip replies).filter (active ·.1)).map Prod.snd) ∧
      ∀ entry ∈ inputs.zip replies, active entry.1 = false → entry.2 = echo entry.1 := by
  rw [serveAll_erase kept idle start] at served
  cases left : serveAll step s (inputs.filter active) with
  | error failure =>
    rw [left] at served
    contradiction
  | ok result =>
    obtain ⟨last, own⟩ := result
    rw [left] at served
    obtain ⟨rfl, rfl⟩ := Prod.mk.inj (Except.ok.inj served)
    rw [weave_active (serveAll_length left)]
    exact ⟨rfl, fun entry => weave_idle⟩

/-- On the way an idle input changes nothing. -/
theorem serveAll_erase_step (served : serveAll step s earlier = .ok (mid, replies))
    (unread : active a = false) : step mid a = .ok (mid, echo a) :=
  idle mid a (serveAll_keeps kept start served) unread

end erasure
end Transition
