import SSHProxyPlus.Go.Nil

/-! Calls that return: total correctness for functions that may panic, one rule for
each way a function is put together. -/
namespace Go

variable {α β σ : Type}

/-- The call does not panic, and what it gives satisfies `P`. -/
def Returns (x : Except Panic α) (P : α → Prop) : Prop := ∃ a, x = .ok a ∧ P a

variable {x : Except Panic α} {f : α → Except Panic β} {P : α → Prop} {Q : β → Prop}

theorem returns_ok {a : α} (holds : P a) : Returns (.ok a) P := ⟨a, rfl, holds⟩

theorem returns_pure {a : α} (holds : P a) : Returns (pure a) P := ⟨a, rfl, holds⟩

theorem Returns.bind (first : Returns x P) (rest : ∀ a, P a → Returns (f a) Q) :
    Returns (x >>= f) Q := by
  obtain ⟨a, rfl, holds⟩ := first
  exact rest a holds

theorem Returns.mono {R : α → Prop} (returns : Returns x P) (weaker : ∀ a, P a → R a) :
    Returns x R := by
  obtain ⟨a, same, holds⟩ := returns
  exact ⟨a, same, weaker a holds⟩

/-- What a call that returns is known to give, it gives. -/
theorem Returns.value {a : α} (returns : Returns x P) (given : x = .ok a) : P a := by
  obtain ⟨b, same, holds⟩ := returns
  exact Except.ok.inj (same.symm.trans given) ▸ holds

theorem returns_deref {pointer : Option α} (notNil : pointer ≠ none) :
    Returns (deref pointer) fun a => pointer = some a := by
  obtain ⟨a, rfl⟩ := Option.ne_none_iff_exists'.mp notNil
  exact returns_ok rfl

theorem returns_assign {K V : Type} [DecidableEq K] {m : MapVar K V} (made : m ≠ none) (key : K)
    (v : V) : Returns (m.assign key v) fun next =>
      ∃ entries, m = some entries ∧ next = some (entries.insert key v) := by
  obtain ⟨entries, rfl⟩ := Option.ne_none_iff_exists'.mp made
  exact returns_ok ⟨entries, rfl, rfl⟩

/-- A loop returns when each turn does and keeps what the turns need. -/
theorem returns_foldlM {step : σ → α → Except Panic σ} (Keeps : σ → Prop) {items : List α}
    (turn : ∀ s, ∀ a ∈ items, Keeps s → Returns (step s a) Keeps) {s : σ} (start : Keeps s) :
    Returns (items.foldlM step s) Keeps := by
  induction items generalizing s with
  | nil => exact returns_pure start
  | cons a items ih =>
    rw [List.foldlM_cons]
    exact (turn s a List.mem_cons_self start).bind fun next kept =>
      ih (fun s b member => turn s b (List.mem_cons_of_mem a member)) kept

/-- Partial correctness: what the call gives, if it does not panic, satisfies `P`. -/
def Ensures (x : Except Panic α) (P : α → Prop) : Prop := ∀ a, x = .ok a → P a

theorem ensures_pure {a : α} (holds : P a) : Ensures (pure a) P :=
  fun _ same => Except.ok.inj same ▸ holds

theorem ensures_trivial (x : Except Panic α) : Ensures x fun _ => True := fun _ _ => trivial

theorem Ensures.bind (first : Ensures x P) (rest : ∀ a, P a → Ensures (f a) Q) :
    Ensures (x >>= f) Q := by
  intro b ran
  obtain ⟨a, same, continued⟩ := of_bind_ok ran
  exact rest a (first a same) b continued

end Go
