import SSHProxyPlus.Browser.Rewriting
import SSHProxyPlus.Replay.Event

/-! Keystrokes written from one buffer and written one by one: what a key is shown as depends on
which passes the keys before it in the buffer have spent. -/
namespace SSHProxyPlus
open Browser Go

/-- A pass for a key that the client sends as an escape sequence: what follows the escape, the
first character of it being any for some, and the name. -/
structure KeySequence where
  second : Option Char
  last : List Char
  name : String
deriving DecidableEq

namespace KeySequence

def accepts (key : KeySequence) : Char → Bool :=
  match key.second with
  | some c => fun d => d = c
  | none => anyChar

def pattern (key : KeySequence) : Pattern := (· = escape) :: key.accepts :: exactly key.last

def pass (key : KeySequence) : Pattern × String := (key.pattern, key.name)

/-- The pattern matches the text in full. -/
def typedAs (key : KeySequence) (text : List Char) : Bool :=
  key.pattern.matches text && text.length = key.pattern.length

end KeySequence

def keySequences : List KeySequence := [
  ⟨none, ['D'], "[LEFT ARROW]"⟩, ⟨none, ['C'], "[RIGHT ARROW]"⟩, ⟨none, ['A'], "[UP ARROW]"⟩,
  ⟨none, ['B'], "[DOWN ARROW]"⟩, ⟨none, ['F'], "[END]"⟩, ⟨none, ['H'], "[HOME]"⟩,
  ⟨some '[', ['3', '~'], "[DELETE]"⟩, ⟨some '[', ['6', '~'], "[PAGE DOWN]"⟩,
  ⟨some '[', ['5', '~'], "[PAGE UP]"⟩, ⟨some '[', ['2', '~'], "[INSERT]"⟩,
  ⟨some 'O', ['P'], "[F1]"⟩, ⟨some 'O', ['Q'], "[F2]"⟩, ⟨some 'O', ['R'], "[F3]"⟩,
  ⟨some 'O', ['S'], "[F4]"⟩, ⟨some '[', ['1', '5', '~'], "[F5]"⟩,
  ⟨some '[', ['1', '7', '~'], "[F6]"⟩, ⟨some '[', ['1', '8', '~'], "[F7]"⟩,
  ⟨some '[', ['1', '9', '~'], "[F8]"⟩, ⟨some '[', ['2', '0', '~'], "[F9]"⟩,
  ⟨some '[', ['2', '1', '~'], "[F10]"⟩, ⟨some '[', ['2', '3', '~'], "[F11]"⟩,
  ⟨some '[', ['2', '4', '~'], "[F12]"⟩]

/-- The passes for single characters, in order; three characters have two. -/
def keyCharacters : List (Char × String) :=
  [('\t', "[TAB]"), (escape, "[ESC]"), ('\r', "[CARRIAGE RETURN]"), ('\n', "[LINE FEED]"),
    ('\x7f', "[BACKSPACE]")] ++
  ("ABCDEFGHIJKLMNOPQRSTUVWXY".toList.zipIdx 1).map fun (letter, code) =>
    (Char.ofNat code, "[CTRL+" ++ letter.toString ++ "]")

def characterPass (entry : Char × String) : Pattern × String := (exactly [entry.1], entry.2)

theorem replaceList_signalList : replaceList ++ signalList =
    keySequences.map KeySequence.pass ++ keyCharacters.map characterPass := rfl

/-- A complete keystroke. -/
def Keystroke (text : List Char) : Prop :=
  (∃ c, c ≠ escape ∧ text = [c]) ∨ ∃ key ∈ keySequences, key.typedAs text

instance : DecidablePred Keystroke := fun text =>
  have := List.decidableBEx (fun c => c ≠ escape ∧ text = [c]) text
  decidable_of_iff ((∃ c ∈ text, c ≠ escape ∧ text = [c]) ∨ ∃ key ∈ keySequences, key.typedAs text)
    (or_congr ⟨fun ⟨c, _, one⟩ => ⟨c, one⟩,
      fun ⟨c, one⟩ => ⟨c, one.2 ▸ List.mem_cons_self, one⟩⟩ Iff.rfl)

/-- The name under which a keystroke is shown on its own, if it has one. -/
def keyName (text : List Char) : Option String :=
  ((keySequences.find? (·.typedAs text)).map (·.name)).or
    ((keyCharacters.find? fun entry => text = [entry.1]).map (·.2))

/-- A pass that comes before the sequence's own and is not spent matches from the second
character of the sequence on. -/
def swallowed (used : List String) (text following : List Char) : Bool :=
  match text with
  | _ :: c :: tail =>
      (keySequences.takeWhile fun own => !own.typedAs text).any fun earlier =>
        earlier.name ∉ used && earlier.pattern.matches (c :: tail ++ following)
  | _ => false

/-- No named key comes twice, and no pass takes the end of one key for the beginning of its own. -/
def Apart (used : List String) : List (List Char) → Prop
  | [] => True
  | text :: rest => (∀ name ∈ keyName text, name ∉ used) ∧
      ¬ swallowed used text rest.flatten ∧ Apart ((keyName text).toList ++ used) rest

instance decidableApart : (used : List String) → (keys : List (List Char)) →
    Decidable (Apart used keys)
  | _, [] => inferInstanceAs (Decidable True)
  | used, text :: rest =>
      have := decidableApart ((keyName text).toList ++ used) rest
      inferInstanceAs (Decidable (_ ∧ _ ∧ _))

/-- What is written when the passes of the used names are spent. -/
def renderAfter (used : List String) (data : List Char) : List Char :=
  nameControls
    (replaceEach ((unspent (·.2) used keyCharacters).map characterPass)
      (replaceEach ((unspent (·.name) used keySequences).map KeySequence.pass) data))

theorem replaceEach_append (first second : List (Pattern × String)) (data : List Char) :
    replaceEach (first ++ second) data = replaceEach second (replaceEach first data) :=
  List.foldl_append

theorem processKeystrokes_eq (data : List Char) : processKeystrokes data = renderAfter [] data := by
  rw [processKeystrokes, ← replaceEach_append, replaceList_signalList, replaceEach_append]
  simp only [renderAfter, unspent_nil]

theorem matches_exactly (text data : List Char) :
    (exactly text).matches data = true ↔ text <+: data := by
  induction text generalizing data with
  | nil => exact iff_of_true rfl List.nil_prefix
  | cons c text ih =>
    cases data with
    | nil => exact iff_of_false Bool.false_ne_true (by simp)
    | cons d data =>
      rw [List.cons_prefix_cons, ← ih]
      change (decide (d = c) && (exactly text).matches data) = true ↔ _
      rw [Bool.and_eq_true, decide_eq_true_eq, eq_comm]

namespace KeySequence
variable {key other : KeySequence} {c : Char} {data text : List Char}

theorem matches_cons : key.pattern.matches (c :: data) = true ↔
    c = escape ∧ ∃ a rest, data = a :: rest ∧ key.accepts a = true ∧ key.last <+: rest := by
  cases data with
  | nil =>
    refine iff_of_false (fun matched => ?_) fun ⟨_, a, rest, same, _⟩ => by contradiction
    exact absurd ((Bool.and_eq_true _ _).mp matched).2 Bool.false_ne_true
  | cons a rest =>
    change (decide (c = escape) && (key.accepts a && (exactly key.last).matches rest)) = true ↔ _
    rw [Bool.and_eq_true, Bool.and_eq_true, decide_eq_true_eq, matches_exactly]
    constructor
    · rintro ⟨first, accepted, last⟩
      exact ⟨first, a, rest, rfl, accepted, last⟩
    · rintro ⟨first, a', rest', same, accepted, last⟩
      obtain ⟨rfl, rfl⟩ := List.cons.inj same
      exact ⟨first, accepted, last⟩

theorem typedAs_length (typed : key.typedAs text) : text.length = key.pattern.length := by
  simp only [typedAs, Bool.and_eq_true, decide_eq_true_eq] at typed
  exact typed.2

theorem typedAs_iff : key.typedAs text = true ↔
    ∃ a, text = escape :: a :: key.last ∧ key.accepts a = true := by
  unfold typedAs
  rw [Bool.and_eq_true, decide_eq_true_eq]
  have size : key.pattern.length = key.last.length + 2 := by simp [pattern, exactly]
  rw [size]
  constructor
  · rintro ⟨matched, long⟩
    cases text with
    | nil => contradiction
    | cons c data =>
      obtain ⟨rfl, a, rest, rfl, accepted, last⟩ := matches_cons.mp matched
      have whole := last.eq_of_length (by simpa using long.symm)
      exact ⟨a, by rw [whole], accepted⟩
  · rintro ⟨a, rfl, accepted⟩
    exact ⟨matches_cons.mpr ⟨rfl, a, key.last, rfl, accepted, List.prefix_rfl⟩, rfl⟩

end KeySequence

/-- What no pass for a character and no later step rewrites. -/
def printed (c : Char) : Prop := 0x20 ≤ c.toNat ∧ c ≠ '\x7f'

instance : DecidablePred printed := fun c =>
  inferInstanceAs (Decidable (0x20 ≤ c.toNat ∧ c ≠ '\x7f'))

/-- Neither text is the beginning of the other. -/
def Incomparable (first second : List Char) : Prop := ¬ first <+: second ∧ ¬ second <+: first

instance (first second : List Char) : Decidable (Incomparable first second) :=
  inferInstanceAs (Decidable (_ ∧ _))

/-- The one closing bracket of the text is its last character. -/
def Closed (text : List Char) : Prop := text.getLast? = some ']' ∧ ']' ∉ text.dropLast

instance : DecidablePred Closed := fun _ => inferInstanceAs (Decidable (_ ∧ _))

theorem Closed.eq_of_prefix {first second : List Char} (one : Closed first) (other : Closed second)
    (begins : first <+: second) : first = second := by
  obtain ⟨rest, rfl⟩ := begins
  cases rest with
  | nil => exact (List.append_nil first).symm
  | cons c rest =>
    have inside : ']' ∈ first := List.mem_of_getLast? one.1
    have early : ']' ∈ (first ++ c :: rest).dropLast := by
      rw [List.dropLast_append_cons]
      exact List.mem_append_left _ inside
    exact absurd early other.2

theorem Closed.incomparable {first second : String} (one : Closed first.toList)
    (other : Closed second.toList) (apart : first ≠ second) :
    Incomparable first.toList second.toList := by
  constructor
  · exact fun begins => apart (String.toList_injective (one.eq_of_prefix other begins))
  · exact fun begins => apart (String.toList_injective (other.eq_of_prefix one begins).symm)

/-- The one opening bracket of the text is its first character. -/
def Opened (text : List Char) : Prop := text.head? = some '[' ∧ '[' ∉ text.tail

instance : DecidablePred Opened := fun _ => inferInstanceAs (Decidable (_ ∧ _))

theorem Opened.eq_of_suffix {first second : List Char} (one : Opened first) (other : Opened second)
    (ends : first <:+ second) : first = second := by
  obtain ⟨start, rfl⟩ := ends
  cases start with
  | nil => rfl
  | cons c start =>
    have inside : '[' ∈ first := List.mem_of_head? one.1
    exact absurd (List.mem_append_right start inside) other.2

/-- Two such texts do not end alike. -/
theorem Opened.eq_of_ends {first second text : List Char} (one : Opened first)
    (other : Opened second) (ends : first <:+ text) (ends' : second <:+ text) : first = second := by
  rcases List.suffix_or_suffix_of_suffix ends ends' with shorter | longer
  · exact one.eq_of_suffix other shorter
  · exact (other.eq_of_suffix one longer).symm

/-- How a key is named in the text: in brackets, and so that it stays as it is. -/
structure Named (name : List Char) : Prop where
  opened : Opened name
  closed : Closed name
  printable : ∀ c ∈ name, printed c
  unescaped : '\\' ∉ name

instance : DecidablePred Named := fun name =>
  have := List.decidableBAll printed name
  decidable_of_iff (Opened name ∧ Closed name ∧ (∀ c ∈ name, printed c) ∧ '\\' ∉ name)
    ⟨fun ⟨opened, closed, printable, unescaped⟩ => ⟨opened, closed, printable, unescaped⟩,
      fun ⟨opened, closed, printable, unescaped⟩ => ⟨opened, closed, printable, unescaped⟩⟩

namespace Named
variable {name : List Char}

theorem bracket (named : Named name) : name.head? = some '[' := named.opened.1

theorem ofList (named : Named name) : Named (String.ofList name).toList := by
  rwa [String.toList_ofList]

theorem plain (named : Named name) : escape ∉ name :=
  fun member => absurd (named.printable escape member) (by decide)

theorem closing (named : Named name) : ∃ rest, name = '[' :: rest ∧ ']' ∈ rest := by
  obtain ⟨rest, rfl⟩ := List.head?_eq_some_iff.mp named.bracket
  refine ⟨rest, rfl, ?_⟩
  rcases List.mem_cons.mp (List.mem_of_getLast? named.closed.1) with same | inside
  · contradiction
  · exact inside

/-- A character that is shown without a pass is shown by a number, or as itself. -/
theorem incomparable_control (named : Named name) {c : Char} (other : c ≠ '[') :
    Incomparable name (nameControls [c]) := by
  obtain ⟨rest, rfl, closing⟩ := named.closing
  have unescaped := named.unescaped
  simp only [nameControls, List.flatMap_cons, List.flatMap_nil, List.append_nil]
  split
  · have code : "[\\".toList ++ decimal c.toNat ++ [']'] =
        '[' :: '\\' :: (decimal c.toNat ++ [']']) := rfl
    rw [code]
    constructor
    · intro begins
      obtain ⟨-, begins⟩ := List.cons_prefix_cons.mp begins
      obtain ⟨d, rest, rfl⟩ := List.exists_cons_of_ne_nil (List.ne_nil_of_mem closing)
      obtain ⟨rfl, -⟩ := List.cons_prefix_cons.mp begins
      exact unescaped (by simp)
    · exact fun begins => unescaped (begins.subset (by simp))
  · constructor
    · exact fun begins => other (List.cons_prefix_cons.mp begins).1.symm
    · exact fun begins => other (List.cons_prefix_cons.mp begins).1

end Named

theorem keySequences_named : ∀ p ∈ keySequences, Named p.name.toList := by
  simp only [keySequences, List.forall_mem_cons, List.not_mem_nil, false_implies, implies_true,
    and_true]
  and_intros
  all_goals exact .ofList (by decide)

/-- The name of a character that is typed with the control key. -/
theorem named_control {letter : Char} (plain : printed letter) (opening : letter ≠ '[')
    (other : letter ≠ ']') (unescaped : letter ≠ '\\') : Named ("[CTRL+" ++ letter.toString ++ "]").toList := by
  have name : ("[CTRL+" ++ letter.toString ++ "]").toList =
      ['[', 'C', 'T', 'R', 'L', '+', letter, ']'] := by simp
  rw [name]
  refine ⟨⟨rfl, ?_⟩, ⟨rfl, ?_⟩, ?_, ?_⟩
  · simp [opening.symm]
  · simp [other.symm]
  · simp only [List.forall_mem_cons, List.not_mem_nil, false_implies, implies_true]
    exact ⟨by decide, by decide, by decide, by decide, by decide, by decide, plain, by decide,
      trivial⟩
  · simp [unescaped.symm]

theorem keyCharacters_named : ∀ entry ∈ keyCharacters,
    ¬ printed entry.1 ∧ Named entry.2.toList := by
  intro entry member
  rcases List.mem_append.mp member with member | member
  · simp only [List.mem_cons, List.not_mem_nil, or_false] at member
    rcases member with rfl | rfl | rfl | rfl | rfl
    all_goals exact ⟨by decide, .ofList (by decide)⟩
  · obtain ⟨⟨letter, code⟩, listed, rfl⟩ := List.mem_map.mp member
    have checked : ∀ entry ∈ "ABCDEFGHIJKLMNOPQRSTUVWXY".toList.zipIdx 1,
        ¬ printed (Char.ofNat entry.2) ∧ printed entry.1 ∧ entry.1 ≠ '[' ∧ entry.1 ≠ ']' ∧
          entry.1 ≠ '\\' := by
      decide +kernel
    obtain ⟨control, plain, opening, other, unescaped⟩ := checked _ listed
    exact ⟨control, named_control plain opening other unescaped⟩

theorem names_distinct :
    (keySequences.map (·.name) ++ (keyCharacters.take 5).map (·.2)).Nodup := by
  simp [keySequences, keyCharacters]

theorem keySequences_distinct : (keySequences.map (·.name)).Nodup :=
  (List.nodup_append.mp names_distinct).1

theorem keyCharacters_distinct : (keyCharacters.map (·.2)).Nodup := by simp [keyCharacters]

/-- Only names of characters that are typed with the control key have a plus sign. -/
theorem keySequences_unsigned : ∀ p ∈ keySequences, '+' ∉ p.name.toList := by
  simp [keySequences]

theorem names_apart : ∀ key ∈ keySequences, ∀ entry ∈ keyCharacters, key.name ≠ entry.2 := by
  intro key listed entry member
  rcases List.mem_append.mp member with member | member
  · exact (List.nodup_append.mp names_distinct).2.2 _ (List.mem_map_of_mem listed) _
      (List.mem_map_of_mem member)
  · obtain ⟨⟨letter, code⟩, -, rfl⟩ := List.mem_map.mp member
    intro same
    have unsigned := keySequences_unsigned key listed
    rw [same] at unsigned
    exact unsigned (by simp)

/-- What follows the escape: a bracket or an O, or any character where one of these six letters is
the last of three. -/
theorem keySequences_follows : ∀ p ∈ keySequences, p.last ≠ [] ∧ escape ∉ p.last ∧ ']' ∉ p.last ∧
    '[' ∉ p.last ∧ (p.last.all fun c => decide (printed c)) = true ∧
    (p.second = none → p.last ∈ ['D', 'C', 'A', 'B', 'F', 'H'].map fun x => [x]) ∧
      (p.second = none ∨ p.second = some '[' ∨ p.second = some 'O') := by
  decide +kernel

theorem keySequences_second : ∀ p ∈ keySequences, ∀ c, p.second = some c → c = '[' ∨ c = 'O' := by
  intro p member c only
  obtain ⟨-, -, -, -, -, -, none | bracket | letter⟩ := keySequences_follows p member
  · rw [only] at none
    contradiction
  · exact .inl (Option.some.inj (only.symm.trans bracket))
  · exact .inr (Option.some.inj (only.symm.trans letter))

/-- The text after the second character tells the sequences apart. -/
theorem keySequences_last : ∀ p ∈ keySequences, ∀ q ∈ keySequences, q.last <+: p.last → q = p := by
  decide +kernel

theorem keySequences_short : ∀ p ∈ keySequences, ∀ q ∈ keySequences,
    ¬ p.name.toList.tail <+: q.last := by
  intro p listed q other begins
  obtain ⟨rest, name, closing⟩ := (keySequences_named p listed).closing
  rw [name] at begins
  exact (keySequences_follows q other).2.2.1 (begins.subset closing)

/-- What a pass writes is no sequence of a pass that comes after it. -/
theorem keySequences_written : keySequences.Pairwise fun written later =>
    later.accepts '[' = true → ¬ later.last <+: written.name.toList.tail := by decide +kernel

section Sequences
variable {passes before after : List KeySequence} {key earlier : KeySequence} {a c : Char}
  {data following : List Char}

theorem replaceFirst_plain (key : KeySequence) {part : List Char} (plain : escape ∉ part)
    (data : List Char) : replaceFirst key.pattern key.name.toList (part ++ data) =
      part ++ replaceFirst key.pattern key.name.toList data := by
  refine replaceFirst_append (fun c member text matched => ?_) data
  exact plain ((KeySequence.matches_cons.mp matched).1 ▸ member)

/-- Passes for sequences leave a text that holds no escape. -/
theorem replaceEach_plain (passes : List KeySequence) {part : List Char} (plain : escape ∉ part)
    (data : List Char) : replaceEach (passes.map KeySequence.pass) (part ++ data) =
      part ++ replaceEach (passes.map KeySequence.pass) data := by
  induction passes generalizing data with
  | nil => rfl
  | cons key passes ih => exact (congrArg _ (replaceFirst_plain key plain data)).trans (ih _)

/-- A sequence is matched by its own pass alone. -/
theorem not_matches_other (listed : key ∈ keySequences) (other : earlier ∈ keySequences)
    (different : earlier ≠ key) :
    ¬ earlier.pattern.matches (escape :: a :: (key.last ++ data)) := by
  intro matched
  obtain ⟨-, a', rest, same, -, last⟩ := KeySequence.matches_cons.mp matched
  obtain ⟨rfl, rfl⟩ := List.cons.inj same
  rcases List.prefix_or_prefix_of_prefix last (List.prefix_append key.last data) with
    shorter | longer
  · exact different (keySequences_last key listed earlier other shorter)
  · exact different (keySequences_last earlier other key listed longer).symm

/-- Only a sequence whose second character is free has another there. -/
theorem second_free (listed : key ∈ keySequences) (accepted : key.accepts c)
    (other : c ≠ '[' ∧ c ≠ 'O') : key.second = none := by
  cases second : key.second with
  | none => rfl
  | some d =>
    rw [KeySequence.accepts, second, decide_eq_true_eq] at accepted
    rcases keySequences_second key listed d second with rfl | rfl
    · exact absurd accepted other.1
    · exact absurd accepted other.2

/-- A pass matches from the second character on only where that is an escape too. -/
theorem matches_second (listed : key ∈ keySequences) (other : earlier ∈ keySequences)
    (accepted : key.accepts a) (matched : earlier.pattern.matches (a :: (key.last ++ data))) :
    ∃ x y rest, a = escape ∧ key.last = [x] ∧ earlier.last = [y] ∧
      y ∈ "DCABFH".toList ∧ data = y :: rest ∧
      ∀ rest', earlier.pattern.matches (a :: (key.last ++ y :: rest')) := by
  obtain ⟨rfl, b, rest, same, accepts, last⟩ := KeySequence.matches_cons.mp matched
  obtain ⟨x, letter, only⟩ := List.mem_map.mp ((keySequences_follows key listed).2.2.2.2.2.1
    (second_free listed accepted (by decide)))
  replace only := only.symm
  rw [only] at same
  obtain ⟨rfl, rfl⟩ := List.cons.inj same
  have apart : x ≠ '[' ∧ x ≠ 'O' := by
    constructor
    · rintro rfl
      contradiction
    · rintro rfl
      contradiction
  have also := second_free other accepts apart
  obtain ⟨y, arrow, last'⟩ := List.mem_map.mp ((keySequences_follows earlier other).2.2.2.2.2.1 also)
  replace last' := last'.symm
  rw [last'] at last
  obtain ⟨rest, rfl⟩ := last
  refine ⟨_, y, rest, rfl, only, last', arrow, rfl, fun rest' => ?_⟩
  refine KeySequence.matches_cons.mpr ⟨rfl, _, y :: rest', by rw [only]; rfl, accepts, ?_⟩
  exact last' ▸ ⟨rest', rfl⟩

/-- An escape before what a pass has written begins no sequence of a pass after it. -/
theorem written_dead {written later : KeySequence} (ordered : [written, later].Sublist keySequences)
    (data : List Char) : ¬ later.pattern.matches (escape :: (written.name.toList ++ data)) := by
  intro matched
  have listed : written ∈ keySequences := ordered.subset List.mem_cons_self
  have other : later ∈ keySequences := ordered.subset (List.mem_cons_of_mem _ List.mem_cons_self)
  obtain ⟨tail, named⟩ := List.head?_eq_some_iff.mp (keySequences_named written listed).bracket
  obtain ⟨-, c, rest, same, accepts, last⟩ := KeySequence.matches_cons.mp matched
  rw [named, List.cons_append] at same
  obtain ⟨rfl, rfl⟩ := List.cons.inj same
  have apart := (List.pairwise_pair.mp (keySequences_written.sublist ordered)) accepts
  have long := keySequences_short written listed later other
  rw [named, List.tail_cons] at apart long
  rcases List.prefix_or_prefix_of_prefix last (List.prefix_append tail data) with begins | ends
  · exact apart begins
  · exact long ends

/-- So no pass makes a sequence for a pass after it of an escape and what it rewrites. -/
theorem matches_kept {written later : KeySequence} (ordered : [written, later].Sublist keySequences)
    {rest : List Char} (matched : later.pattern.matches
      (escape :: replaceFirst written.pattern written.name.toList rest)) :
    later.pattern.matches (escape :: rest) := by
  have listed : written ∈ keySequences := ordered.subset List.mem_cons_self
  have other : later ∈ keySequences := ordered.subset (List.mem_cons_of_mem _ List.mem_cons_self)
  cases rest with
  | nil => exact matched
  | cons d rest =>
    by_cases here : written.pattern.matches (d :: rest)
    · rw [replaceFirst_here here] at matched
      exact absurd matched (written_dead ordered _)
    · rw [replaceFirst_skip here] at matched
      obtain ⟨first, c, tail, same, accepts, last⟩ := KeySequence.matches_cons.mp matched
      obtain ⟨rfl, rfl⟩ := List.cons.inj same
      refine KeySequence.matches_cons.mpr ⟨first, _, rest, rfl, accepts, ?_⟩
      exact prefix_of_replaceFirst (keySequences_named written listed).bracket
        (keySequences_follows later other).2.2.2.1 last

theorem matches_kept_each (ordered : (before ++ [key]).Sublist keySequences) {rest : List Char}
    (matched : key.pattern.matches
      (escape :: replaceEach (before.map KeySequence.pass) rest)) :
    key.pattern.matches (escape :: rest) := by
  induction before generalizing rest with
  | nil => exact matched
  | cons first before ih =>
    have pair : [first, key].Sublist keySequences :=
      ((List.sublist_append_right before [key]).cons_cons first).trans ordered
    exact matches_kept pair (ih ((List.sublist_cons_self first _).trans ordered) matched)

/-- An escape at which no pass finds its sequence when its turn comes stays, and the passes go
over the rest. -/
theorem replaceEach_escape {rest : List Char} (quiet : ∀ before key after,
      passes = before ++ key :: after →
        ¬ key.pattern.matches (escape :: replaceEach (before.map KeySequence.pass) rest)) :
    replaceEach (passes.map KeySequence.pass) (escape :: rest) =
      escape :: replaceEach (passes.map KeySequence.pass) rest := by
  induction passes generalizing rest with
  | nil => rfl
  | cons first passes ih =>
    have here : replaceFirst first.pattern first.name.toList (escape :: rest) =
        escape :: replaceFirst first.pattern first.name.toList rest :=
      replaceFirst_skip (quiet [] first passes rfl)
    refine (congrArg _ here).trans (ih fun before key after split => ?_)
    exact quiet (first :: before) key after (congrArg (first :: ·) split)

theorem replaceEach_silent (ordered : passes.Sublist keySequences) {rest : List Char}
    (silent : ∀ key ∈ passes, ¬ key.pattern.matches (escape :: rest)) :
    replaceEach (passes.map KeySequence.pass) (escape :: rest) =
      escape :: replaceEach (passes.map KeySequence.pass) rest := by
  refine replaceEach_escape fun before key after split matched => ?_
  have upTo : (before ++ [key]).Sublist passes := by
    rw [split, List.append_cons before key after]
    exact List.sublist_append_left _ _
  exact silent key (upTo.subset (List.mem_append_right _ List.mem_cons_self))
    (matches_kept_each (upTo.trans ordered) matched)

/-- Passes that match neither at a sequence nor from its second character on leave it. -/
theorem replaceEach_quiet (listed : key ∈ keySequences)
    (ordered : passes.Sublist keySequences) (absent : key ∉ passes)
    (quiet : ∀ earlier ∈ passes, ¬ earlier.pattern.matches (a :: (key.last ++ data))) :
    replaceEach (passes.map KeySequence.pass) (escape :: a :: (key.last ++ data)) =
      escape :: a :: (key.last ++ replaceEach (passes.map KeySequence.pass) data) := by
  have tail := replaceEach_plain passes (keySequences_follows key listed).2.1 data
  rw [replaceEach_silent ordered fun earlier member => not_matches_other listed
    (ordered.subset member) fun same => absent (same ▸ member)]
  by_cases second : a = escape
  · rw [second, replaceEach_silent ordered fun earlier member => second ▸ quiet earlier member, tail]
  · have alone := replaceEach_plain passes
      (fun member => second (List.mem_singleton.mp member).symm : escape ∉ [a])
      (key.last ++ data)
    rw [List.singleton_append, List.singleton_append] at alone
    rw [alone, tail]

/-- The sequence is replaced by its name where the passes before its own leave it. -/
theorem replaceEach_named (listed : key ∈ keySequences) (accepted : key.accepts a)
    (ordered : before.Sublist keySequences) (absent : key ∉ before)
    (quiet : ∀ earlier ∈ before, ¬ earlier.pattern.matches (a :: (key.last ++ data))) :
    replaceEach ((before ++ key :: after).map KeySequence.pass)
        (escape :: a :: (key.last ++ data)) =
      key.name.toList ++ replaceEach ((before ++ after).map KeySequence.pass) data := by
  have own : ∀ data, replaceFirst key.pattern key.name.toList
      (escape :: a :: (key.last ++ data)) = key.name.toList ++ data := by
    intro data
    have matched : key.pattern.matches (escape :: a :: (key.last ++ data)) :=
      KeySequence.matches_cons.mpr ⟨rfl, a, _, rfl, accepted, List.prefix_append key.last data⟩
    have size : key.pattern.length = (escape :: a :: key.last).length := by
      simp [KeySequence.pattern, exactly]
    rw [replaceFirst_here matched, size]
    have dropped : ((escape :: a :: key.last) ++ data).drop (escape :: a :: key.last).length =
        data := List.drop_left
    exact congrArg _ dropped
  have plain := (keySequences_named key listed).plain
  rw [List.map_append, List.map_cons, replaceEach_append,
    replaceEach_quiet listed ordered absent quiet, List.map_append, replaceEach_append,
    ← replaceEach_plain after plain]
  exact congrArg (replaceEach (after.map KeySequence.pass)) (own _)

/-- The first of the passes that match from the second character on writes its name there. -/
theorem replaceEach_swallowed (listed : key ∈ keySequences) (accepted : key.accepts a)
    (ordered : before.Sublist keySequences)
    (some' : ∃ earlier ∈ before, earlier.pattern.matches (a :: (key.last ++ data))) :
    ∃ earlier ∈ before, ∃ rest, replaceEach (before.map KeySequence.pass)
      (a :: (key.last ++ data)) = earlier.name.toList ++ rest := by
  obtain ⟨earlier, found⟩ := Option.isSome_iff_exists.mp (List.find?_isSome.mpr some')
  obtain ⟨matched, front, back, rfl, quiet⟩ := List.find?_eq_some_iff_append.mp found
  have member : earlier ∈ front ++ earlier :: back := List.mem_append_right _ List.mem_cons_self
  have other := ordered.subset member
  obtain ⟨x, y, rest, rfl, only, last, arrow, rfl, again⟩ :=
    matches_second listed other accepted matched
  have letters : escape ∉ key.last ++ [y] := by
    intro inside
    rcases List.mem_append.mp inside with inside | inside
    · exact (keySequences_follows key listed).2.1 inside
    · obtain rfl := List.mem_singleton.mp inside
      exact absurd arrow (by decide)
  have kept := replaceEach_plain front letters rest
  rw [List.append_assoc, List.append_assoc, List.singleton_append, List.singleton_append] at kept
  have skipped := replaceEach_silent ((List.sublist_append_left front _).trans ordered)
    fun first there => by simpa using quiet first there
  rw [kept] at skipped
  have written : ∀ rest, replaceFirst earlier.pattern earlier.name.toList
      (escape :: (key.last ++ y :: rest)) = earlier.name.toList ++ rest := by
    intro rest
    have size : earlier.pattern.length = (escape :: (key.last ++ [y])).length := by
      simp [KeySequence.pattern, exactly, only, last]
    rw [replaceFirst_here (again rest), size,
      show escape :: (key.last ++ y :: rest) = (escape :: (key.last ++ [y])) ++ rest by simp]
    exact congrArg _ List.drop_left
  refine ⟨earlier, member, replaceEach (back.map KeySequence.pass)
    (replaceEach (front.map KeySequence.pass) rest), ?_⟩
  rw [List.map_append, List.map_cons, replaceEach_append, skipped]
  refine (congrArg (replaceEach (back.map KeySequence.pass)) (written _)).trans ?_
  exact replaceEach_plain back (keySequences_named earlier other).plain _

/-- What leaves the escape of a sequence in front for good. -/
theorem replaceEach_stuck (listed : key ∈ keySequences) (accepted : key.accepts a)
    (ordered : passes.Sublist keySequences)
    (stuck : ∀ before after, passes = before ++ key :: after →
      ∃ earlier ∈ before, earlier.pattern.matches (a :: (key.last ++ data))) :
    replaceEach (passes.map KeySequence.pass) (escape :: a :: (key.last ++ data)) =
      escape :: replaceEach (passes.map KeySequence.pass) (a :: (key.last ++ data)) := by
  refine replaceEach_escape fun before own after split matched => ?_
  have upTo : (before ++ [own]).Sublist keySequences := by
    refine List.Sublist.trans ?_ ordered
    rw [split, List.append_cons before own after]
    exact List.sublist_append_left _ _
  have member : own ∈ keySequences :=
    upTo.subset (List.mem_append_right _ List.mem_cons_self)
  by_cases same : own = key
  · obtain rfl := same
    obtain ⟨earlier, there, rest, written⟩ := replaceEach_swallowed listed accepted
      ((List.sublist_append_left before _).trans upTo) (stuck before after split)
    rw [written] at matched
    have pair : [earlier, own].Sublist keySequences :=
      ((List.singleton_sublist.mpr there).append (List.Sublist.refl [own])).trans upTo
    exact written_dead pair rest matched
  · exact not_matches_other listed member same (matches_kept_each upTo matched)

theorem typedAs_unique {text : List Char} (listed : key ∈ keySequences)
    (typed : key.typedAs text) (other : earlier ∈ keySequences) (also : earlier.typedAs text) :
    earlier = key := by
  obtain ⟨a, same, -⟩ := KeySequence.typedAs_iff.mp typed
  obtain ⟨b, same', -⟩ := KeySequence.typedAs_iff.mp also
  obtain ⟨-, last⟩ := List.cons.inj (List.cons.inj (same.symm.trans same')).2
  exact keySequences_last key listed earlier other (last ▸ List.prefix_rfl)

/-- The passes before a sequence's own. -/
theorem keySequences_split {text : List Char} (listed : key ∈ keySequences)
    (typed : key.typedAs text) : ∃ before after, keySequences = before ++ key :: after ∧
      key ∉ before ∧ (keySequences.takeWhile fun own => !own.typedAs text) = before := by
  obtain ⟨before, after, split⟩ := List.append_of_mem listed
  have names := keySequences_distinct
  rw [split, List.map_append, List.map_cons, List.nodup_middle, List.nodup_cons] at names
  have absent : key ∉ before := fun member =>
    names.1 (List.mem_append_left _ (List.mem_map_of_mem member))
  have others : ∀ own ∈ before, (!own.typedAs text) = true := by
    intro own member
    rw [Bool.not_eq_true']
    by_contra also
    have there : own ∈ keySequences := split ▸ List.mem_append_left _ member
    obtain rfl := typedAs_unique listed typed there (Bool.not_eq_false _ ▸ also)
    exact absent member
  refine ⟨before, after, split, absent, ?_⟩
  rw [split, List.takeWhile_append_of_pos others, List.takeWhile_cons_of_neg (by simp [typed]),
    List.append_nil]

end Sequences

section Rendering
variable {used : List String} {key : KeySequence} {text following : List Char}

theorem swallowed_iff {before : List KeySequence} {a : Char}
    (split : (keySequences.takeWhile fun own =>
      !own.typedAs (escape :: a :: key.last)) = before) :
    swallowed used (escape :: a :: key.last) following = true ↔
      ∃ earlier ∈ unspent (·.name) used before,
        earlier.pattern.matches (a :: (key.last ++ following)) := by
  simp only [swallowed, split, List.any_eq_true, Bool.and_eq_true, decide_eq_true_eq, mem_unspent,
    and_assoc, List.cons_append]

/-- Passes for sequences name the one in front, and spend one name on it. -/
theorem sequence_named (listed : key ∈ keySequences) (typed : key.typedAs text)
    (fresh : key.name ∉ used) (free : ¬ swallowed used text following) :
    replaceEach ((unspent (·.name) used keySequences).map KeySequence.pass) (text ++ following) =
      key.name.toList ++
        replaceEach ((unspent (·.name) (key.name :: used) keySequences).map KeySequence.pass)
          following := by
  obtain ⟨before, after, split, absent, first⟩ := keySequences_split listed typed
  obtain ⟨a, rfl, accepted⟩ := KeySequence.typedAs_iff.mp typed
  have left : unspent (·.name) used keySequences =
      unspent (·.name) used before ++ key :: unspent (·.name) used after := by
    conv_lhs => rw [split]
    rw [unspent_append, unspent_fresh fresh]
  rw [unspent_spend keySequences_distinct left, left]
  have ordered : (unspent (·.name) used before).Sublist keySequences :=
    (unspent_sublist _ _ _).trans (split ▸ List.sublist_append_left before _)
  refine replaceEach_named listed accepted ordered (fun member => ?_)
    fun earlier member matched => ?_
  · exact absent (mem_unspent.mp member).1
  · exact free ((swallowed_iff first).mpr ⟨earlier, member, matched⟩)

/-- Otherwise its escape stays in front. -/
theorem sequence_stuck (listed : key ∈ keySequences) (typed : key.typedAs text)
    (spent : key.name ∈ used ∨ swallowed used text following) :
    replaceEach ((unspent (·.name) used keySequences).map KeySequence.pass) (text ++ following) =
      escape :: replaceEach ((unspent (·.name) used keySequences).map KeySequence.pass)
        (text.tail ++ following) := by
  obtain ⟨before, after, split, absent, first⟩ := keySequences_split listed typed
  obtain ⟨a, rfl, accepted⟩ := KeySequence.typedAs_iff.mp typed
  refine replaceEach_stuck listed accepted (unspent_sublist _ _ _) fun front back own => ?_
  have fresh : key.name ∉ used := (mem_unspent.mp
    (own ▸ List.mem_append_right _ List.mem_cons_self : key ∈ unspent (·.name) used _)).2
  have left : unspent (·.name) used keySequences =
      unspent (·.name) used before ++ key :: unspent (·.name) used after := by
    conv_lhs => rw [split]
    rw [unspent_append, unspent_fresh fresh]
  have taken := (swallowed_iff first).mp (spent.resolve_left fresh)
  have alone := (List.Nodup.of_map _ keySequences_distinct).sublist
    (unspent_sublist (·.name) used keySequences)
  rw [left, List.nodup_middle, List.nodup_cons, List.mem_append, not_or] at alone
  obtain ⟨rfl, -⟩ := (List.append_cons_inj_of_notMem alone.1.1 alone.1.2).mp (left.symm.trans own)
  exact taken

/-- What becomes of an escape in front. -/
theorem escape_cases (used : List String) (rest : List Char) :
    (∃ key ∈ keySequences, ∃ text following, key.typedAs text ∧ key.name ∉ used ∧
      ¬ swallowed used text following ∧ escape :: rest = text ++ following) ∨
    replaceEach ((unspent (·.name) used keySequences).map KeySequence.pass) (escape :: rest) =
      escape :: replaceEach ((unspent (·.name) used keySequences).map KeySequence.pass) rest := by
  by_cases begins : ∃ key ∈ keySequences, key.pattern.matches (escape :: rest)
  · obtain ⟨key, listed, matched⟩ := begins
    obtain ⟨-, a, tail, rfl, accepted, following, rfl⟩ := KeySequence.matches_cons.mp matched
    have typed : key.typedAs (escape :: a :: key.last) :=
      KeySequence.typedAs_iff.mpr ⟨a, rfl, accepted⟩
    by_cases spent : key.name ∈ used ∨ swallowed used (escape :: a :: key.last) following
    · exact .inr (sequence_stuck listed typed spent)
    · rw [not_or] at spent
      exact .inl ⟨key, listed, _, following, typed, spent.1, spent.2, rfl⟩
  · exact .inr (replaceEach_silent (unspent_sublist _ _ _) fun key member matched =>
      begins ⟨key, (mem_unspent.mp member).1, matched⟩)

end Rendering

/-- A character is shown otherwise by its second pass, and otherwise still without a pass. -/
theorem keyCharacters_incomparable : ∀ entry ∈ keyCharacters,
    Incomparable entry.2.toList (nameControls [entry.1]) ∧
      ∀ other ∈ keyCharacters, other.2 ≠ entry.2 →
        Incomparable entry.2.toList other.2.toList := by
  intro entry member
  obtain ⟨control, named⟩ := keyCharacters_named entry member
  have other : entry.1 ≠ '[' := fun same => control (same ▸ by decide)
  refine ⟨named.incomparable_control other, fun other member' apart => ?_⟩
  exact named.closed.incomparable (keyCharacters_named other member').2.closed apart.symm

/-- An escape is shown as no sequence is. -/
theorem keySequences_incomparable : ∀ key ∈ keySequences,
    Incomparable key.name.toList (nameControls [escape]) ∧
      ∀ entry ∈ keyCharacters, Incomparable key.name.toList entry.2.toList := by
  intro key listed
  have named := keySequences_named key listed
  refine ⟨named.incomparable_control (by decide), fun entry member => ?_⟩
  exact named.closed.incomparable (keyCharacters_named entry member).2.closed
    (names_apart key listed entry member)

section Characters
variable {entries before after : List (Char × String)} {c : Char} {name : String}

theorem nameControls_append (first second : List Char) :
    nameControls (first ++ second) = nameControls first ++ nameControls second :=
  List.flatMap_append

theorem nameControls_printed {part : List Char} (all : ∀ c ∈ part, printed c) :
    nameControls part = part := by
  induction part with
  | nil => rfl
  | cons c part ih =>
    have here := all c List.mem_cons_self
    have later := ih fun d member => all d (List.mem_cons_of_mem c member)
    have plain : ¬ (c.toNat < 0x20 ∧ c.toNat ≠ 9 ∧ c.toNat ≠ 10) := fun low =>
      absurd here.1 (Nat.not_le_of_lt low.1)
    rw [nameControls, List.flatMap_cons, if_neg plain, List.singleton_append]
    exact congrArg _ later

theorem replaceEach_inert (entries : List (Char × String)) (part : List Char)
    (inert : ∀ c ∈ part, ∀ entry ∈ entries, entry.1 ≠ c) (data : List Char) :
    replaceEach (entries.map characterPass) (part ++ data) =
      part ++ replaceEach (entries.map characterPass) data := by
  induction entries generalizing data with
  | nil => rfl
  | cons entry entries ih =>
    have first : replaceFirst (exactly [entry.1]) entry.2.toList (part ++ data) =
        part ++ replaceFirst (exactly [entry.1]) entry.2.toList data := by
      refine replaceFirst_append (fun c member text matched => ?_) data
      have same := (List.cons_prefix_cons.mp ((matches_exactly _ _).mp matched)).1
      exact inert c member entry List.mem_cons_self same
    exact (congrArg _ first).trans (ih (fun c member other there =>
      inert c member other (List.mem_cons_of_mem entry there)) _)

/-- A character is replaced by the first of its passes that are left. -/
theorem replaceEach_character (others : ∀ entry ∈ before, entry.1 ≠ c)
    (known : ∀ entry ∈ before ++ (c, name) :: after, entry ∈ keyCharacters) (data : List Char) :
    replaceEach ((before ++ (c, name) :: after).map characterPass) (c :: data) =
      name.toList ++ replaceEach ((before ++ after).map characterPass) data := by
  have kept := replaceEach_inert before [c] (fun d member entry there => by
    obtain rfl := List.mem_singleton.mp member
    exact others entry there) data
  have here : ∀ data, replaceFirst (exactly [c]) name.toList (c :: data) = name.toList ++ data :=
    fun data => replaceFirst_here ((matches_exactly _ _).mpr ⟨data, rfl⟩)
  have own := keyCharacters_named (c, name)
    (known _ (List.mem_append_right _ List.mem_cons_self))
  have written := replaceEach_inert after name.toList
    (fun d member entry there same => by
      have later := keyCharacters_named entry
        (known entry (List.mem_append_right _ (List.mem_cons_of_mem _ there)))
      exact later.1 (same ▸ own.2.printable d member))
  rw [List.singleton_append, List.singleton_append] at kept
  rw [List.map_append, List.map_cons, replaceEach_append, kept, List.map_append,
    replaceEach_append, ← written]
  exact congrArg (replaceEach (after.map characterPass)) (here _)

/-- A character in front is shown by the name of the first of its passes that are left, which
spends it. -/
theorem character_named {used : List String}
    (left : unspent (·.2) used keyCharacters = before ++ (c, name) :: after)
    (others : ∀ entry ∈ before, entry.1 ≠ c) (data : List Char) :
    nameControls (replaceEach ((unspent (·.2) used keyCharacters).map characterPass) (c :: data)) =
      name.toList ++ nameControls (replaceEach
        ((unspent (·.2) (name :: used) keyCharacters).map characterPass) data) := by
  have known : ∀ entry ∈ before ++ (c, name) :: after, entry ∈ keyCharacters :=
    fun entry there => (mem_unspent.mp (left ▸ there)).1
  have own := keyCharacters_named (c, name)
    (known _ (List.mem_append_right _ List.mem_cons_self))
  have spend := unspent_spend keyCharacters_distinct left
  rw [left, replaceEach_character others known, nameControls_append,
    nameControls_printed own.2.printable, ← spend]

/-- The name that a character in front gets: that of the first of its passes that are left. -/
def characterName (used : List String) (c : Char) : Option String :=
  ((unspent (·.2) used keyCharacters).find? (·.1 = c)).map (·.2)

/-- What becomes of a character in front, after the passes for sequences. -/
theorem character_cases (used : List String) (c : Char) :
    (∃ name, characterName used c = some name ∧ (c, name) ∈ keyCharacters ∧ name ∉ used ∧ ∀ data,
      nameControls (replaceEach ((unspent (·.2) used keyCharacters).map characterPass)
          (c :: data)) = name.toList ++ nameControls (replaceEach
            ((unspent (·.2) (name :: used) keyCharacters).map characterPass) data)) ∨
    characterName used c = none ∧ (∀ name, (c, name) ∈ keyCharacters → name ∈ used) ∧ ∀ data,
      nameControls (replaceEach ((unspent (·.2) used keyCharacters).map characterPass)
          (c :: data)) = nameControls [c] ++ nameControls (replaceEach
            ((unspent (·.2) used keyCharacters).map characterPass) data) := by
  unfold characterName
  cases first : (unspent (·.2) used keyCharacters).find? (·.1 = c) with
  | some entry =>
    obtain ⟨same, front, back, split, others⟩ := List.find?_eq_some_iff_append.mp first
    obtain ⟨d, name⟩ := entry
    obtain rfl : d = c := of_decide_eq_true same
    have member : (d, name) ∈ unspent (·.2) used keyCharacters :=
      split ▸ List.mem_append_right _ List.mem_cons_self
    obtain ⟨listed, fresh⟩ := mem_unspent.mp member
    refine .inl ⟨name, rfl, listed, fresh, character_named split fun entry there => ?_⟩
    simpa using others entry there
  | none =>
    have absent := List.find?_eq_none.mp first
    refine .inr ⟨rfl, fun name listed => ?_, fun data => ?_⟩
    · by_contra fresh
      exact absent (c, name) (mem_unspent.mpr ⟨listed, fresh⟩) (decide_eq_true rfl)
    · have kept := replaceEach_inert (unspent (·.2) used keyCharacters) [c]
        (fun d member entry there same => absent entry there
          (decide_eq_true (same.trans (List.mem_singleton.mp member)))) data
      rw [List.singleton_append] at kept
      rw [kept, ← nameControls_append]

/-- The first pass for a character is the one that its name comes from. -/
theorem character_first {used : List String}
    (named : keyCharacters.find? (fun entry => [c] = [entry.1]) = some (c, name))
    (fresh : name ∉ used) (data : List Char) :
    nameControls (replaceEach ((unspent (·.2) used keyCharacters).map characterPass) (c :: data)) =
      name.toList ++ nameControls (replaceEach
        ((unspent (·.2) (name :: used) keyCharacters).map characterPass) data) := by
  obtain ⟨-, front, back, split, others⟩ := List.find?_eq_some_iff_append.mp named
  have left : unspent (·.2) used keyCharacters =
      unspent (·.2) used front ++ (c, name) :: unspent (·.2) used back := by
    conv_lhs => rw [split]
    rw [unspent_append, unspent_fresh fresh]
  refine character_named left (fun entry there same => ?_) data
  have other := others entry (mem_unspent.mp there).1
  simp [same] at other

end Characters

section Keystrokes
variable {used : List String} {text : List Char}

/-- What a keystroke is shown as on its own. -/
def shownAs (text : List Char) : List Char :=
  match keyName text with
  | some name => name.toList
  | none => nameControls text

theorem keyName_sequence {key : KeySequence} (listed : key ∈ keySequences)
    (typed : key.typedAs text) : keyName text = some key.name := by
  cases found : keySequences.find? (·.typedAs text) with
  | none => exact absurd typed (List.find?_eq_none.mp found key listed)
  | some other =>
    have also := List.find?_some found
    obtain rfl := typedAs_unique listed typed (List.mem_of_find?_eq_some found) also
    rw [keyName, found]
    rfl

theorem keyName_character (c : Char) : keyName [c] =
    (keyCharacters.find? fun entry => [c] = [entry.1]).map (·.2) := by
  have none' : keySequences.find? (·.typedAs [c]) = none := by
    refine List.find?_eq_none.mpr fun key _ typed => ?_
    obtain ⟨a, same, -⟩ := KeySequence.typedAs_iff.mp typed
    exact absurd (congrArg List.length same) (by simp)
  rw [keyName, none']
  rfl

/-- A character in front is left to the passes for characters. -/
theorem renderAfter_character {c : Char} (plain : c ≠ escape) (following : List Char) :
    renderAfter used (c :: following) = nameControls
      (replaceEach ((unspent (·.2) used keyCharacters).map characterPass)
        (c :: replaceEach ((unspent (·.name) used keySequences).map KeySequence.pass)
          following)) := by
  have free : escape ∉ [c] := fun member => plain (List.mem_singleton.mp member).symm
  have alone := replaceEach_plain (unspent (·.name) used keySequences) free following
  rw [List.singleton_append, List.singleton_append] at alone
  rw [renderAfter, alone]

theorem keyName_character_iff {c : Char} {name : String} (named : keyName [c] = some name) :
    keyCharacters.find? (fun entry => [c] = [entry.1]) = some (c, name) := by
  rw [keyName_character] at named
  obtain ⟨entry, found, rfl⟩ := Option.map_eq_some_iff.mp named
  have here := List.find?_some found
  have same : entry.1 = c := by simpa [eq_comm] using here
  rw [found, ← same]

/-- A keystroke whose pass is left, and whose end no other pass takes, is shown as on its own,
and its name is spent. -/
theorem renderAfter_apart (keystroke : Keystroke text) {following : List Char}
    (fresh : ∀ name, keyName text = some name → name ∉ used)
    (free : ¬ swallowed used text following) :
    renderAfter used (text ++ following) =
      shownAs text ++ renderAfter ((keyName text).toList ++ used) following := by
  rcases keystroke with ⟨c, plain, rfl⟩ | ⟨key, listed, typed⟩
  · rw [List.singleton_append, renderAfter_character plain]
    cases named : keyName [c] with
    | some name =>
      have first := keyName_character_iff named
      have member := List.mem_of_find?_eq_some first
      have sequences : unspent (·.name) (name :: used) keySequences = unspent (·.name) used _ :=
        unspent_absent fun key listed => names_apart key listed _ member
      rw [character_first first (fresh name named), shownAs, named]
      simp only [Option.toList_some, List.singleton_append, renderAfter, sequences]
    | none =>
      have unnamed := named
      rw [keyName_character, Option.map_eq_none_iff, List.find?_eq_none] at unnamed
      rcases character_cases used c with ⟨name, -, member, -⟩ | ⟨-, -, plainly⟩
      · exact absurd (decide_eq_true rfl) (unnamed (c, name) member)
      · rw [plainly, shownAs, named]
        rfl
  · have name := keyName_sequence listed typed
    have characters : unspent (·.2) (key.name :: used) keyCharacters = unspent (·.2) used _ :=
      unspent_absent fun entry member => (names_apart key listed entry member).symm
    have printable := (keySequences_named key listed).printable
    have inert := replaceEach_inert (unspent (·.2) used keyCharacters) key.name.toList
      fun c member entry there same =>
        (keyCharacters_named entry (mem_unspent.mp there).1).1 (same ▸ printable c member)
    rw [renderAfter, sequence_named listed typed (fresh _ name) free, inert, nameControls_append,
      nameControls_printed printable, shownAs, name]
    simp only [Option.toList_some, List.singleton_append, renderAfter, characters]

theorem Incomparable.ne {first second : List Char} (apart : Incomparable first second)
    (rest rest' : List Char) : second ++ rest ≠ first ++ rest' :=
  append_ne_of_incomparable apart.2 apart.1 rest rest'

/-- Otherwise something else is shown in its place. -/
theorem renderAfter_spent (keystroke : Keystroke text) {following : List Char}
    (spent : (∃ name, keyName text = some name ∧ name ∈ used) ∨ swallowed used text following)
    (rest : List Char) : renderAfter used (text ++ following) ≠ shownAs text ++ rest := by
  rcases keystroke with ⟨c, plain, rfl⟩ | ⟨key, listed, typed⟩
  · obtain ⟨name, named, gone⟩ := spent.resolve_right Bool.false_ne_true
    have first := keyName_character_iff named
    have member := List.mem_of_find?_eq_some first
    obtain ⟨bare, others⟩ := keyCharacters_incomparable (c, name) member
    rw [List.singleton_append, renderAfter_character plain, shownAs, named]
    rcases character_cases used c with ⟨other, -, also, left, written⟩ | ⟨-, -, plainly⟩
    · rw [written]
      exact (others (c, other) also fun same : other = name => left (same ▸ gone)).ne _ _
    · rw [plainly]
      exact bare.ne _ _
  · have name := keyName_sequence listed typed
    have gone : key.name ∈ used ∨ swallowed used text following := by
      rcases spent with ⟨other, named, member⟩ | taken
      · rw [name] at named
        exact .inl (Option.some.inj named ▸ member)
      · exact .inr taken
    obtain ⟨bare, others⟩ := keySequences_incomparable key listed
    rw [renderAfter, sequence_stuck listed typed gone, shownAs, name]
    rcases character_cases used escape with ⟨other, -, also, -, written⟩ | ⟨-, -, plainly⟩
    · rw [written]
      exact (others (escape, other) also).ne _ _
    · rw [plainly]
      exact bare.ne _ _

theorem replaceEach_nil (replacements : List (Pattern × String)) :
    replaceEach replacements [] = [] := by
  induction replacements with
  | nil => rfl
  | cons first replacements ih => exact ih

@[simp] theorem renderAfter_nil (used : List String) : renderAfter used [] = [] := by
  rw [renderAfter, replaceEach_nil, replaceEach_nil, nameControls]
  rfl

/-- With nothing after it no keystroke is taken for another. -/
theorem not_swallowed_alone (keystroke : Keystroke text) : ¬ swallowed [] text [] := by
  rcases keystroke with ⟨c, -, rfl⟩ | ⟨key, listed, typed⟩
  · exact Bool.false_ne_true
  · intro taken
    obtain ⟨a, rfl, accepted⟩ := KeySequence.typedAs_iff.mp typed
    obtain ⟨before, after, split, -, first⟩ := keySequences_split listed typed
    obtain ⟨earlier, member, matched⟩ := (swallowed_iff first).mp taken
    have other : earlier ∈ keySequences :=
      split ▸ List.mem_append_left _ (mem_unspent.mp member).1
    obtain ⟨x, y, rest, -, -, -, -, more, -⟩ := matches_second listed other accepted matched
    contradiction

theorem processKeystrokes_keystroke (keystroke : Keystroke text) :
    processKeystrokes text = shownAs text := by
  have alone : renderAfter [] (text ++ []) = _ :=
    renderAfter_apart keystroke (fun _ _ => List.not_mem_nil) (not_swallowed_alone keystroke)
  rw [List.append_nil, renderAfter_nil, List.append_nil] at alone
  rw [processKeystrokes_eq, alone]

theorem renderAfter_iff {keys : List (List Char)} (complete : ∀ text ∈ keys, Keystroke text)
    (used : List String) :
    renderAfter used keys.flatten = keys.flatMap shownAs ↔ Apart used keys := by
  induction keys generalizing used with
  | nil => exact iff_of_true (renderAfter_nil used) trivial
  | cons text rest ih =>
    obtain ⟨first, others⟩ := List.forall_mem_cons.mp complete
    rw [List.flatten_cons, List.flatMap_cons, Apart]
    by_cases spent : (∃ name, keyName text = some name ∧ name ∈ used) ∨
        swallowed used text rest.flatten
    · refine iff_of_false (renderAfter_spent first spent _) fun ⟨fresh, free, _⟩ => ?_
      rcases spent with ⟨name, named, gone⟩ | taken
      · exact fresh name named gone
      · exact free taken
    · rw [not_or] at spent
      have fresh : ∀ name, keyName text = some name → name ∉ used :=
        fun name named gone => spent.1 ⟨name, named, gone⟩
      rw [renderAfter_apart first fresh spent.2, List.append_cancel_left_eq, ih others]
      exact ⟨fun apart => ⟨fresh, spent.2, apart⟩, fun apart => apart.2.2⟩

/-- Keys written from one buffer look as they do one by one exactly where they are apart. -/
theorem processKeystrokes_flatten_iff {keys : List (List Char)}
    (complete : ∀ text ∈ keys, Keystroke text) :
    processKeystrokes keys.flatten = (keys.map processKeystrokes).flatten ↔ Apart [] keys := by
  have each : keys.map processKeystrokes = keys.map shownAs :=
    List.map_congr_left fun text member => processKeystrokes_keystroke (complete text member)
  rw [each, ← List.flatMap_def, processKeystrokes_eq]
  exact renderAfter_iff complete []

/-- A command from the history, an arrow that a terminal in another mode sends, and one more. -/
def historyKeys : List (List Char) :=
  [[escape, '[', 'A'], ['l'], ['l'], [escape, 'O', 'B'], [escape, escape, 'D'], ['C'], ['\r']]

theorem historyKeys_apart : processKeystrokes historyKeys.flatten =
    (historyKeys.map processKeystrokes).flatten := by
  have complete : ∀ text ∈ historyKeys, Keystroke text := by decide +kernel
  exact (processKeystrokes_flatten_iff complete).mpr (by decide +kernel)

/-- The second tab is shown as another key. -/
theorem second_tab_differs :
    ¬ ∀ keys : List (List Char), (∀ text ∈ keys, Keystroke text) →
      processKeystrokes keys.flatten = (keys.map processKeystrokes).flatten := by
  intro independent
  have complete : ∀ text ∈ [['\t'], ['\t']], Keystroke text := by
    intro text member
    exact .inl ⟨'\t', by decide, by simpa using member⟩
  exact absurd (independent _ complete) (by decide +kernel)

end Keystrokes
end SSHProxyPlus
