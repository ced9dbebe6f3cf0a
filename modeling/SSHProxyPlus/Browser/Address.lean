import Mathlib.Data.List.TakeDrop

/-! The address of a page: the variables in it, and what it has from its number sign on. -/
namespace Browser

/-- `location.hash`, which is empty where nothing follows the sign. -/
def hash (href : List Char) : List Char :=
  let fragment := href.dropWhile (· != '#')
  if fragment.length ≤ 1 then [] else fragment

def isSeparator (c : Char) : Bool := c == '?' || c == '&'

def isName (c : Char) : Bool := c != '=' && c != '&' && c != '#'

def isValue (c : Char) : Bool := c != '&' && c != '#'

/-- A name and its value, and what comes after them. -/
abbrev Variable := (List Char × List Char) × List Char

/-- `([^=&#]+)=([^&#]*)`. -/
def variableAt (text : List Char) : Option Variable :=
  match text.takeWhile isName, text.dropWhile isName with
  | c :: name, '=' :: rest => some ((c :: name, rest.takeWhile isValue), rest.dropWhile isValue)
  | _, _ => none

/-- `[?&]+` before it: as many separators as leave a variable after them. -/
def matchVariable (text : List Char) : Option Variable :=
  (List.range (text.takeWhile isSeparator).length).reverse.findSome? fun k =>
    variableAt (text.drop (k + 1))

/-- The matches of the pattern from left to right. The first argument is the number of places that
are still to be tried. -/
def variablesFrom : Nat → List Char → List (List Char × List Char)
  | places + 1, c :: rest =>
      match matchVariable (c :: rest) with
      | some (found, later) => found :: variablesFrom places later
      | none => variablesFrom places rest
  | _, _ => []

/-- The variables in the order in which they are set. -/
def getURLVars (href : List Char) : List (List Char × List Char) :=
  variablesFrom href.length href

/-- The value that a name was given last. -/
def urlVar (href name : List Char) : Option (List Char) := (getURLVars href).reverse.lookup name

theorem separatorless {text : List Char} (query : '?' ∉ text) (apart : '&' ∉ text) :
    ∀ c ∈ text, isSeparator c = false := by
  intro c member
  rw [isSeparator, Bool.or_eq_false_iff, beq_eq_false_iff_ne, beq_eq_false_iff_ne]
  exact ⟨fun same => query (same ▸ member), fun same => apart (same ▸ member)⟩

theorem matchVariable_plain {c : Char} (plain : isSeparator c = false) (rest : List Char) :
    matchVariable (c :: rest) = none := by
  rw [matchVariable, List.takeWhile_cons_of_neg (by simp [plain])]
  rfl

theorem variablesFrom_skip {front : List Char} (plain : ∀ c ∈ front, isSeparator c = false)
    (places : Nat) (rest : List Char) :
    variablesFrom (front.length + places) (front ++ rest) = variablesFrom places rest := by
  induction front with
  | nil => rw [List.length_nil, Nat.zero_add, List.nil_append]
  | cons c front ih =>
    obtain ⟨first, later⟩ := List.forall_mem_cons.mp plain
    rw [List.length_cons, Nat.succ_add, List.cons_append, variablesFrom, matchVariable_plain first]
    exact ih later

theorem variablesFrom_plain {text : List Char} (plain : ∀ c ∈ text, isSeparator c = false)
    (places : Nat) : variablesFrom places text = [] := by
  induction text generalizing places with
  | nil => cases places <;> rfl
  | cons c text ih =>
    obtain ⟨first, later⟩ := List.forall_mem_cons.mp plain
    cases places with
    | zero => rfl
    | succ places =>
      rw [variablesFrom, matchVariable_plain first]
      exact ih later places

/-- One separator is all that there is before what is not one. -/
theorem matchVariable_single {c : Char} (separator : isSeparator c = true) {text : List Char}
    (single : ∀ d, text.head? = some d → isSeparator d = false) :
    matchVariable (c :: text) = variableAt text := by
  have one : (c :: text).takeWhile isSeparator = [c] := by
    rw [List.takeWhile_cons_of_pos separator]
    cases text with
    | nil => rfl
    | cons d text => rw [List.takeWhile_cons_of_neg (by simp [single d rfl])]
  rw [matchVariable, one]
  simp

/-- A text that a hash can have after a separator without giving a variable its value. -/
def NoVariables (text : List Char) : Prop := ∀ c ∈ text, isSeparator c = false ∧ c ≠ '='

theorem noVariables {text : List Char} (query : '?' ∉ text) (apart : '&' ∉ text)
    (unset : '=' ∉ text) : NoVariables text :=
  fun c member => ⟨separatorless query apart c member, fun same => unset (same ▸ member)⟩

theorem variableAt_none {text : List Char} (none : NoVariables text) : variableAt text = .none := by
  have absent : ∀ rest, text.dropWhile isName ≠ '=' :: rest := by
    intro rest same
    have member : '=' ∈ text := by
      rw [← List.takeWhile_append_dropWhile (p := isName) (l := text), same]
      exact List.mem_append_right _ (List.mem_cons_self ..)
    exact (none _ member).2 rfl
  unfold variableAt
  split
  · next c name rest _ after => exact absurd after (absent rest)
  · rfl

theorem variableAt_some {name value rest : List Char} (named : name ≠ [])
    (isNames : ∀ c ∈ name, isName c = true) (isValues : ∀ c ∈ value, isValue c = true) :
    variableAt (name ++ '=' :: (value ++ '#' :: rest)) = some ((name, value), '#' :: rest) := by
  have ends : isName '=' = false := by decide
  have stops : isValue '#' = false := by decide
  obtain ⟨c, later, rfl⟩ := List.exists_cons_of_ne_nil named
  have taken : (c :: later ++ '=' :: (value ++ '#' :: rest)).takeWhile isName = c :: later := by
    rw [List.takeWhile_append_of_pos isNames, List.takeWhile_cons_of_neg (by simp [ends]),
      List.append_nil]
  have dropped : (c :: later ++ '=' :: (value ++ '#' :: rest)).dropWhile isName =
      '=' :: (value ++ '#' :: rest) := by
    rw [List.dropWhile_append_of_pos isNames, List.dropWhile_cons_of_neg (by simp [ends])]
  rw [variableAt, taken, dropped]
  change some ((c :: later, (value ++ '#' :: rest).takeWhile isValue),
    (value ++ '#' :: rest).dropWhile isValue) = _
  rw [List.takeWhile_append_of_pos isValues, List.takeWhile_cons_of_neg (by simp [stops]),
    List.dropWhile_append_of_pos isValues, List.dropWhile_cons_of_neg (by simp [stops]),
    List.append_nil]

/-- The variable that is set before the hash is the only one there is. -/
theorem getURLVars_address {front name value mark key : List Char}
    (plain : ∀ c ∈ front, isSeparator c = false) (named : name ≠ [])
    (isNames : ∀ c ∈ name, isName c = true) (single : ∀ c ∈ name, isSeparator c = false)
    (isValues : ∀ c ∈ value, isValue c = true) (marks : ∀ c ∈ mark, isSeparator c = false)
    (none : NoVariables key) :
    getURLVars (front ++ '?' :: (name ++ '=' :: (value ++ '#' :: (mark ++ '&' :: key)))) =
      [(name, value)] := by
  have hashed : ∀ c ∈ '#' :: mark, isSeparator c = false :=
    List.forall_mem_cons.mpr ⟨by decide, marks⟩
  have begins : ∀ d, (name ++ '=' :: (value ++ '#' :: (mark ++ '&' :: key))).head? = some d →
      isSeparator d = false := by
    obtain ⟨c, later, rfl⟩ := List.exists_cons_of_ne_nil named
    intro d same
    exact Option.some.inj same ▸ single c (List.mem_cons_self ..)
  have keyed : ∀ d, key.head? = some d → isSeparator d = false := by
    intro d same
    exact (none d (List.mem_of_mem_head? same)).1
  rw [getURLVars, List.length_append, variablesFrom_skip plain, List.length_cons, variablesFrom,
    matchVariable_single (by decide) begins, variableAt_some named isNames isValues]
  refine congrArg (List.cons _) ?_
  have places : (name ++ '=' :: (value ++ '#' :: (mark ++ '&' :: key))).length =
      ('#' :: mark).length + (name.length + value.length + key.length + 1 + 1) := by
    simp only [List.length_append, List.length_cons]
    omega
  rw [places, ← List.cons_append, variablesFrom_skip hashed, variablesFrom,
    matchVariable_single (by decide) keyed, variableAt_none none]
  exact variablesFrom_plain (fun c member => (none c member).1) _

theorem hash_address {front fragment : List Char} (plain : '#' ∉ front) (solid : fragment ≠ []) :
    hash (front ++ '#' :: fragment) = '#' :: fragment := by
  have before : ∀ c ∈ front, (c != '#') = true := by
    intro c member
    rw [bne_iff_ne]
    rintro rfl
    exact plain member
  rw [hash, List.dropWhile_append_of_pos before, List.dropWhile_cons_of_neg (by simp)]
  rw [if_neg]
  have positive := List.length_pos_iff.mpr solid
  rw [List.length_cons]
  omega

end Browser
