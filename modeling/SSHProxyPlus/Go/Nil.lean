import SSHProxyPlus.Go.Map

/-! Panics, nil pointers and nil maps. Following a nil pointer or writing to a nil map
panics; reading a nil map finds nothing and deleting from it does nothing. -/
namespace Go

inductive Panic where
  | nilPointer
  | nilMap
  | indexOutOfRange
  | raised (message : Bytes)
deriving DecidableEq

def deref : Option α → Except Panic α
  | some a => .ok a
  | none => .error .nilPointer

@[simp] theorem deref_some (a : α) : deref (some a) = .ok a := rfl

theorem of_bind_ok {x : Except ε α} {f : α → Except ε β} {b : β} (ran : x >>= f = .ok b) :
    ∃ a, x = .ok a ∧ f a = .ok b := by
  cases x with
  | error e => contradiction
  | ok a => exact ⟨a, rfl, ran⟩

theorem deref_ok {pointer : Option α} {a : α} (followed : deref pointer = .ok a) :
    pointer = some a := by
  cases pointer with
  | none => contradiction
  | some b => exact congrArg some (Except.ok.inj followed)

/-- What each turn of a loop keeps, the loop keeps. -/
theorem foldlM_keeps {step : σ → α → Except ε σ} (Keeps : σ → Prop)
    (turn : ∀ s a s', Keeps s → step s a = .ok s' → Keeps s') {items : List α} {s s' : σ}
    (start : Keeps s) (run : items.foldlM step s = .ok s') : Keeps s' := by
  induction items generalizing s with
  | nil => exact Except.ok.inj run ▸ start
  | cons a items ih =>
    rw [List.foldlM_cons] at run
    obtain ⟨next, first, rest⟩ := of_bind_ok run
    exact ih (turn s a next start first) rest

/-- What each turn of a loop achieves for its item, and no turn undoes, holds of every item
in the end. -/
theorem foldlM_establishes {step : σ → α → Except ε σ} (Done : α → σ → Prop)
    (turn : ∀ s a s', step s a = .ok s' → Done a s')
    (keep : ∀ b s a s', Done b s → step s a = .ok s' → Done b s') {items : List α} {s s' : σ}
    (run : items.foldlM step s = .ok s') : ∀ a ∈ items, Done a s' := by
  induction items generalizing s with
  | nil => exact fun a none => absurd none List.not_mem_nil
  | cons a items ih =>
    rw [List.foldlM_cons] at run
    obtain ⟨next, first, rest⟩ := of_bind_ok run
    intro b member
    rcases List.mem_cons.mp member with rfl | later
    · exact foldlM_keeps (Done b) (keep b) (turn s b next first) rest
    · exact ih rest b later

/-- Where each turn of a loop is the image of a turn of another, so is the loop. -/
theorem foldlM_image {τ : Type} {step : σ → α → Except ε σ} {step' : τ → α → Except ε τ}
    (f : σ → τ) (turn : ∀ s a, step' (f s) a = (step s a).map f) (items : List α) (s : σ) :
    items.foldlM step' (f s) = (items.foldlM step s).map f := by
  induction items generalizing s with
  | nil => rfl
  | cons a items ih =>
    rw [List.foldlM_cons, List.foldlM_cons, turn]
    cases step s a with
    | error panic => rfl
    | ok next => exact ih next

/-- A variable of map type: `none` until a map is made for it. -/
abbrev MapVar (K V : Type) := Option (GoMap K V)

namespace MapVar
variable {K V : Type}

def content (m : MapVar K V) : GoMap K V := m.getD ∅

def size (m : MapVar K V) : Nat := m.content.keys.card

@[simp] theorem content_some (entries : GoMap K V) : content (some entries) = entries := rfl

@[simp] theorem content_none : content (none : MapVar K V) = ∅ := rfl

theorem size_pos_iff (m : MapVar K V) : 0 < m.size ↔ ∃ key, key ∈ m.content := by
  rw [size, Finset.card_pos]
  constructor
  · rintro ⟨key, member⟩
    exact ⟨key, Finmap.mem_keys.mp member⟩
  · rintro ⟨key, member⟩
    exact ⟨key, Finmap.mem_keys.mpr member⟩

variable [DecidableEq K]

def find (m : MapVar K V) (key : K) : Option V := m.content.lookup key

def assign (m : MapVar K V) (key : K) (v : V) : Except Panic (MapVar K V) :=
  match m with
  | some entries => .ok (some (entries.insert key v))
  | none => .error .nilMap

def delete (m : MapVar K V) (key : K) : MapVar K V := m.map fun entries => entries.erase key

@[simp] theorem find_some (entries : GoMap K V) (key : K) :
    find (some entries) key = entries.lookup key := rfl

@[simp] theorem find_none (key : K) : find (none : MapVar K V) key = none :=
  Finmap.lookup_empty key

theorem size_pos_iff_find (m : MapVar K V) : 0 < m.size ↔ ∃ key v, m.find key = some v :=
  (size_pos_iff m).trans (exists_congr fun _ => Finmap.mem_iff)

theorem find_made {m : MapVar K V} {key : K} {v : V} (found : m.find key = some v) :
    m ≠ none := by
  rintro rfl
  rw [find_none] at found
  contradiction

/-- One key of a map of pointers leads to one object. -/
theorem find_unique {m : MapVar K (Option V)} {key : K} {v w : V}
    (first : m.find key = some (some v)) (second : m.find key = some (some w)) : v = w := by
  rw [first] at second
  exact Option.some.inj (Option.some.inj second)

@[simp] theorem assign_some (entries : GoMap K V) (key : K) (v : V) :
    assign (some entries) key v = .ok (some (entries.insert key v)) := rfl

theorem assign_ok {m next : MapVar K V} {key : K} {v : V} (assigned : m.assign key v = .ok next) :
    ∃ entries, m = some entries ∧ next = some (entries.insert key v) := by
  cases m with
  | none => contradiction
  | some entries => exact ⟨entries, rfl, (Except.ok.inj assigned).symm⟩

@[simp] theorem delete_some (entries : GoMap K V) (key : K) :
    delete (some entries) key = some (entries.erase key) := rfl

end MapVar
end Go
