import SSHProxyPlus.Replay.Buffering

/-! The keys that a text is read as when it is written at once, and when the texts of several
events that are written together are read as they are one by one: no key may run over the end
of an event, and no kind of key may be named in two. -/
namespace SSHProxyPlus
open Browser Go

/-- A part of a text that is written as one: a sequence by its name, or a character by a name or
without. -/
@[ext]
structure TypedKey where
  text : List Char
  name : Option String
deriving DecidableEq

namespace TypedKey

/-- What is written for the key. -/
def shown (key : TypedKey) : List Char :=
  match key.name with
  | some name => name.toList
  | none => nameControls key.text

theorem shown_named {key : TypedKey} {name : String} (named : key.name = some name) :
    key.shown = name.toList := by simp only [shown, named]

theorem shown_unnamed {key : TypedKey} (unnamed : key.name = none) :
    key.shown = nameControls key.text := by simp only [shown, unnamed]

/-- The text of the key is a sequence with its name, or a character with one of its names. -/
def Proper (key : TypedKey) : Prop :=
  (∃ own ∈ keySequences, own.typedAs key.text ∧ key.name = some own.name) ∨
    ∃ c, key.text = [c] ∧ ∀ name, key.name = some name → (c, name) ∈ keyCharacters

end TypedKey

/-- The sequence that a text begins with, where its pass is left and no other takes its end. -/
def leadingSequence (used : List String) (data : List Char) : Option KeySequence :=
  keySequences.find? fun key =>
    key.typedAs (data.take key.pattern.length) && (key.name ∉ used &&
      !swallowed used (data.take key.pattern.length) (data.drop key.pattern.length))

/-- The key that a text begins with. -/
def nextKey (used : List String) (c : Char) (rest : List Char) : TypedKey :=
  match leadingSequence used (c :: rest) with
  | some key => ⟨(c :: rest).take key.pattern.length, some key.name⟩
  | none => ⟨[c], characterName used c⟩

/-- The keys of a text, from those of its characters on that the key before does not take. -/
def keysFrom (used : List String) : Nat → List Char → List TypedKey
  | _, [] => []
  | taken + 1, _ :: rest => keysFrom used taken rest
  | 0, c :: rest =>
      let key := nextKey used c rest
      key :: keysFrom (key.name.toList ++ used) (key.text.length - 1) rest

section Reading
variable {used : List String} {c : Char} {key : KeySequence} {text rest following data : List Char}

/-- A text begins with one sequence at most. -/
theorem sequence_unique {other : KeySequence} {text' following' : List Char}
    (listed : key ∈ keySequences) (typed : key.typedAs text) (listed' : other ∈ keySequences)
    (typed' : other.typedAs text') (same : text ++ following = text' ++ following') :
    other = key ∧ text' = text := by
  obtain ⟨a, rfl, -⟩ := KeySequence.typedAs_iff.mp typed
  have matched : other.pattern.matches (escape :: a :: (key.last ++ following)) := by
    obtain ⟨b, rfl, accepts⟩ := KeySequence.typedAs_iff.mp typed'
    have begins : other.pattern.matches (escape :: b :: (other.last ++ following')) :=
      KeySequence.matches_cons.mpr ⟨rfl, b, _, rfl, accepts, List.prefix_append _ _⟩
    exact (congrArg (fun data => other.pattern.matches data = true) same).mpr begins
  obtain rfl : other = key := by
    by_contra different
    exact not_matches_other listed listed' different matched
  have size := (KeySequence.typedAs_length typed).trans (KeySequence.typedAs_length typed').symm
  exact ⟨rfl, (List.append_inj same size).1.symm⟩

theorem leadingSequence_iff : leadingSequence used data = some key ↔
    key ∈ keySequences ∧ key.name ∉ used ∧ ∃ text following, data = text ++ following ∧
      key.typedAs text ∧ ¬ swallowed used text following := by
  constructor
  · intro found
    have here := List.find?_some found
    simp only [Bool.and_eq_true, decide_eq_true_eq, Bool.not_eq_true'] at here
    refine ⟨List.mem_of_find?_eq_some found, here.2.1, _, _, (List.take_append_drop _ _).symm,
      here.1, ?_⟩
    rw [here.2.2]
    exact Bool.false_ne_true
  · rintro ⟨listed, fresh, text, following, rfl, typed, free⟩
    have size := KeySequence.typedAs_length typed
    cases found : leadingSequence used (text ++ following) with
    | none =>
      have here := List.find?_eq_none.mp found key listed
      rw [← size, List.take_left, List.drop_left] at here
      simp [typed, fresh, free] at here
    | some other =>
      have here := List.find?_some found
      simp only [Bool.and_eq_true, decide_eq_true_eq] at here
      have split := (List.take_append_drop other.pattern.length (text ++ following)).symm
      rw [(sequence_unique listed typed (List.mem_of_find?_eq_some found) here.1 split).1]

theorem keysFrom_drop (used : List String) (taken : Nat) (data : List Char) :
    keysFrom used taken data = keysFrom used 0 (data.drop taken) := by
  induction data generalizing taken with
  | nil => cases taken <;> rfl
  | cons c rest ih =>
    cases taken with
    | zero => rfl
    | succ taken => exact ih taken

/-- What becomes of the beginning of a text. -/
theorem nextKey_cases (used : List String) (c : Char) (rest : List Char) :
    (∃ key ∈ keySequences, ∃ text following, c :: rest = text ++ following ∧ key.typedAs text ∧
      key.name ∉ used ∧ ¬ swallowed used text following ∧
        nextKey used c rest = ⟨text, some key.name⟩) ∨
    leadingSequence used (c :: rest) = none ∧ nextKey used c rest = ⟨[c], characterName used c⟩ := by
  unfold nextKey
  cases found : leadingSequence used (c :: rest) with
  | some key =>
    obtain ⟨listed, fresh, text, following, split, typed, free⟩ := leadingSequence_iff.mp found
    have size := KeySequence.typedAs_length typed
    refine .inl ⟨key, listed, text, following, split, typed, fresh, free, ?_⟩
    rw [split]
    exact congrArg (TypedKey.mk · _) (size ▸ List.take_left)
  | none => exact .inr ⟨rfl, rfl⟩

theorem characterName_listed {name : String} (named : characterName used c = some name) :
    (c, name) ∈ keyCharacters ∧ name ∉ used := by
  rcases character_cases used c with ⟨_, found, member, fresh, -⟩ | ⟨none', -⟩
  · rw [found] at named
    exact Option.some.inj named ▸ ⟨member, fresh⟩
  · rw [none'] at named
    contradiction

theorem nextKey_proper (used : List String) (c : Char) (rest : List Char) :
    (nextKey used c rest).Proper := by
  rcases nextKey_cases used c rest with ⟨key, listed, text, -, -, typed, -, -, next⟩ | ⟨-, next⟩
  · rw [next]
    exact .inl ⟨key, listed, typed, rfl⟩
  · rw [next]
    exact .inr ⟨c, rfl, fun name named => (characterName_listed named).1⟩

theorem nextKey_fresh (used : List String) (c : Char) (rest : List Char) :
    ∀ name, (nextKey used c rest).name = some name → name ∉ used := by
  intro name named
  rcases nextKey_cases used c rest with ⟨key, -, text, -, -, -, fresh, -, next⟩ | ⟨-, next⟩
  · rw [next] at named
    exact Option.some.inj named ▸ fresh
  · rw [next] at named
    exact (characterName_listed named).2

theorem nextKey_text (used : List String) (c : Char) (rest : List Char) :
    ∃ tail following, (nextKey used c rest).text = c :: tail ∧ rest = tail ++ following := by
  rcases nextKey_cases used c rest with ⟨key, -, text, following, split, typed, -, -, next⟩ | ⟨-, next⟩
  · rw [next]
    obtain ⟨a, rfl, -⟩ := KeySequence.typedAs_iff.mp typed
    obtain ⟨rfl, rfl⟩ := List.cons.inj split
    exact ⟨_, following, rfl, rfl⟩
  · rw [next]
    exact ⟨[], rest, rfl, rfl⟩

/-- The first key of a text, and those of what follows it. -/
theorem keysFrom_cons (used : List String) (c : Char) (rest : List Char) :
    ∃ following, c :: rest = (nextKey used c rest).text ++ following ∧
      keysFrom used 0 (c :: rest) = nextKey used c rest ::
        keysFrom ((nextKey used c rest).name.toList ++ used) 0 following := by
  obtain ⟨tail, following, text, rfl⟩ := nextKey_text used c rest
  refine ⟨following, by rw [text, List.cons_append], ?_⟩
  rw [keysFrom, keysFrom_drop, text]
  simp

/-- A character that no pass for a sequence takes. -/
theorem renderAfter_alone (stays :
      replaceEach ((unspent (·.name) used keySequences).map KeySequence.pass) (c :: rest) =
        c :: replaceEach ((unspent (·.name) used keySequences).map KeySequence.pass) rest) :
    renderAfter used (c :: rest) = TypedKey.shown ⟨[c], characterName used c⟩ ++
      renderAfter ((characterName used c).toList ++ used) rest := by
  rw [renderAfter, stays]
  rcases character_cases used c with ⟨name, found, member, -, written⟩ | ⟨none', -, plainly⟩
  · have sequences : unspent (·.name) (name :: used) keySequences = unspent (·.name) used _ :=
      unspent_absent fun key listed => names_apart key listed _ member
    rw [written, found]
    simp only [TypedKey.shown, Option.toList_some, List.singleton_append, renderAfter, sequences]
  · rw [plainly, none']
    rfl

/-- What is written is written key by key. -/
theorem renderAfter_nextKey (used : List String) (c : Char) (rest : List Char) :
    ∃ following, c :: rest = (nextKey used c rest).text ++ following ∧
      renderAfter used (c :: rest) = (nextKey used c rest).shown ++
        renderAfter ((nextKey used c rest).name.toList ++ used) following := by
  rcases nextKey_cases used c rest with
    ⟨key, listed, text, following, split, typed, fresh, free, next⟩ | ⟨none', next⟩
  · refine ⟨following, by rw [next, split], ?_⟩
    have name := keyName_sequence listed typed
    have left : ∀ other, keyName text = some other → other ∉ used := fun other named => by
      rw [name] at named
      exact Option.some.inj named ▸ fresh
    have apart := renderAfter_apart (.inr ⟨key, listed, typed⟩) left free
    rw [split, apart, next, shownAs, name]
    rfl
  · refine ⟨rest, by rw [next, List.singleton_append], ?_⟩
    rw [next]
    refine renderAfter_alone ?_
    by_cases first : c = escape
    · obtain rfl := first
      rcases escape_cases used rest with
        ⟨key, listed, text, following, typed, fresh, free, split⟩ | stays
      · have found := leadingSequence_iff.mpr ⟨listed, fresh, text, following, split, typed, free⟩
        rw [none'] at found
        contradiction
      · exact stays
    · have plain : escape ∉ [c] := fun member => first (List.mem_singleton.mp member).symm
      have alone := replaceEach_plain (unspent (·.name) used keySequences) plain rest
      rwa [List.singleton_append, List.singleton_append] at alone

end Reading

/-- The keys of a text, one after the other. -/
inductive Reads : List String → List Char → List TypedKey → Prop
  | done (used : List String) : Reads used [] []
  | next {used : List String} {c : Char} {rest following : List Char} {keys : List TypedKey}
      (split : c :: rest = (nextKey used c rest).text ++ following)
      (later : Reads ((nextKey used c rest).name.toList ++ used) following keys) :
      Reads used (c :: rest) (nextKey used c rest :: keys)

namespace Reads
variable {used : List String} {data : List Char} {keys : List TypedKey}

theorem keysFrom (used : List String) (data : List Char) :
    Reads used data (keysFrom used 0 data) := by
  induction size : data.length using Nat.strong_induction_on generalizing used data with
  | _ size ih =>
    cases data with
    | nil => exact .done used
    | cons c rest =>
      obtain ⟨following, split, keys⟩ := keysFrom_cons used c rest
      obtain ⟨tail, -, text, -⟩ := nextKey_text used c rest
      rw [keys]
      refine .next split (ih following.length ?_ _ following rfl)
      have longer := congrArg List.length split
      rw [text] at longer
      simp only [List.length_cons, List.length_append] at longer size
      omega

theorem unique (reads : Reads used data keys) : SSHProxyPlus.keysFrom used 0 data = keys := by
  induction reads with
  | done used => rfl
  | @next used c rest following keys split later ih =>
    obtain ⟨following', split', same⟩ := keysFrom_cons used c rest
    obtain rfl := List.append_cancel_left (split'.symm.trans split)
    rw [same, ih]

theorem text (reads : Reads used data keys) : keys.flatMap TypedKey.text = data := by
  induction reads with
  | done used => rfl
  | next split later ih => rw [List.flatMap_cons, ih, ← split]

theorem proper (reads : Reads used data keys) : ∀ key ∈ keys, key.Proper := by
  induction reads with
  | done used => exact List.forall_mem_nil _
  | next split later ih => exact List.forall_mem_cons.mpr ⟨nextKey_proper _ _ _, ih⟩

theorem shown (reads : Reads used data keys) :
    renderAfter used data = keys.flatMap TypedKey.shown := by
  induction reads with
  | done used => exact renderAfter_nil used
  | @next used c rest following keys split later ih =>
    obtain ⟨following', split', written⟩ := renderAfter_nextKey used c rest
    obtain rfl := List.append_cancel_left (split'.symm.trans split)
    rw [List.flatMap_cons, written, ih]

/-- No name comes twice. -/
theorem names (reads : Reads used data keys) :
    (keys.filterMap TypedKey.name).Nodup ∧ ∀ name ∈ keys.filterMap TypedKey.name, name ∉ used := by
  induction reads with
  | done used => exact ⟨List.nodup_nil, List.forall_mem_nil _⟩
  | @next used c rest following keys split later ih =>
    obtain ⟨distinct, fresh⟩ := ih
    have own := nextKey_fresh used c rest
    cases named : (nextKey used c rest).name with
    | none =>
      rw [named] at fresh
      rw [List.filterMap_cons_none named]
      exact ⟨distinct, fresh⟩
    | some name =>
      rw [named] at fresh
      rw [List.filterMap_cons_some named]
      refine ⟨List.nodup_cons.mpr ⟨fun member => ?_, distinct⟩,
        List.forall_mem_cons.mpr ⟨own name named, fun other member there => ?_⟩⟩
      · exact fresh name member (List.mem_cons_self)
      · exact fresh other member (List.mem_cons_of_mem _ there)

end Reads

section Ends
variable {key other : KeySequence} {text text' data : List Char} {c : Char}

theorem getLast_of_suffix {part : List Char} (nonempty : part ≠ []) (ends : part <:+ data) :
    data.getLast? = part.getLast? := by
  obtain ⟨start, rfl⟩ := ends
  exact List.getLast?_append_of_ne_nil start nonempty

theorem Named.ends {name : List Char} (named : Named name) (ends : name <:+ data) :
    data.getLast? = some ']' := by
  have nonempty : name ≠ [] := fun empty => by
    have bracket := named.bracket
    rw [empty] at bracket
    contradiction
  exact (getLast_of_suffix nonempty ends).trans named.closed.1

/-- No sequence is the end of a longer one. -/
theorem sequence_suffix (listed : key ∈ keySequences) (typed : key.typedAs text)
    (listed' : other ∈ keySequences) (typed' : other.typedAs text') (ends : text <:+ text') :
    text = text' := by
  obtain ⟨start, rfl⟩ := ends
  cases start with
  | nil => rfl
  | cons d start =>
    obtain ⟨a, rfl, -⟩ := KeySequence.typedAs_iff.mp typed
    obtain ⟨b, same, accepts⟩ := KeySequence.typedAs_iff.mp typed'
    have follows := keySequences_follows other listed'
    cases start with
    | nil =>
      obtain ⟨rfl, tail⟩ := List.cons.inj (List.cons.inj same).2
      obtain ⟨x, -, only⟩ := List.mem_map.mp
        (follows.2.2.2.2.2.1 (second_free listed' accepts (by decide)))
      rw [← only] at tail
      exact absurd (List.cons.inj tail).2 (keySequences_follows key listed).1
    | cons e start =>
      have inside := (List.cons.inj (List.cons.inj same).2).2
      exact absurd (inside ▸ List.mem_append_right start List.mem_cons_self) follows.2.1

theorem sequence_ends (listed : key ∈ keySequences) (typed : key.typedAs text)
    (listed' : other ∈ keySequences) (typed' : other.typedAs text') (ends : text <:+ data)
    (ends' : text' <:+ data) : text = text' := by
  rcases List.suffix_or_suffix_of_suffix ends ends' with shorter | longer
  · exact sequence_suffix listed typed listed' typed' shorter
  · exact (sequence_suffix listed' typed' listed typed longer).symm

/-- A character that ends as a sequence does is shown as it is. -/
theorem sequence_last (listed : key ∈ keySequences) (typed : key.typedAs text)
    (ends : text <:+ data) (ends' : [c] <:+ data) : printed c ∧ c ≠ ']' := by
  obtain ⟨a, rfl, -⟩ := KeySequence.typedAs_iff.mp typed
  obtain ⟨nonempty, -, closing, -, plain, -⟩ := keySequences_follows key listed
  have last := getLast_of_suffix (by simp) ends
  have inside : c ∈ key.last := by
    rw [getLast_of_suffix (by simp) ends', List.getLast?_singleton,
      show escape :: a :: key.last = [escape, a] ++ key.last from rfl,
      List.getLast?_append_of_ne_nil _ nonempty] at last
    exact List.mem_of_getLast? last.symm
  refine ⟨of_decide_eq_true (List.all_eq_true.mp plain c inside), ?_⟩
  rintro rfl
  exact closing inside

theorem nameControls_opened (offending : c.toNat < 0x20 ∧ c.toNat ≠ 9 ∧ c.toNat ≠ 10) :
    Opened (nameControls [c]) := by
  have digits : ∀ code < 0x20, Opened ("[\\".toList ++ decimal code ++ [']']) := by decide
  have written := digits c.toNat offending.1
  rwa [nameControls, List.flatMap_cons, if_pos offending, List.flatMap_nil, List.append_nil]

/-- A name of a character ends otherwise than what the character is shown as without a name. -/
theorem character_unnamed {name : String} (member : (c, name) ∈ keyCharacters)
    (ends : name.toList <:+ data) : ¬ nameControls [c] <:+ data := by
  intro ends'
  obtain ⟨control, named⟩ := keyCharacters_named (c, name) member
  by_cases offending : c.toNat < 0x20 ∧ c.toNat ≠ 9 ∧ c.toNat ≠ 10
  · have same := named.opened.eq_of_ends (nameControls_opened offending) ends ends'
    rw [nameControls, List.flatMap_cons, if_pos offending, List.flatMap_nil, List.append_nil] at same
    exact named.unescaped (same ▸ by simp)
  · have plain : nameControls [c] = [c] := by
      rw [nameControls, List.flatMap_cons, if_neg offending]
      rfl
    rw [plain] at ends'
    have last := (named.ends ends).symm.trans (getLast_of_suffix (by simp) ends')
    have same : ']' = c := Option.some.inj last
    exact control (same ▸ (by decide : printed ']'))

end Ends

namespace TypedKey
variable {first second : TypedKey} {text written : List Char}

theorem Proper.ne_nil (proper : first.Proper) : first.text ≠ [] := by
  intro empty
  rcases proper with ⟨own, -, typed, -⟩ | ⟨c, single, -⟩
  · obtain ⟨a, same, -⟩ := KeySequence.typedAs_iff.mp typed
    rw [empty] at same
    contradiction
  · rw [empty] at single
    contradiction

/-- A key that is a sequence and one that is a character do not end alike in both texts. -/
theorem sequence_character {own : KeySequence} (listed : own ∈ keySequences)
    (typed : own.typedAs first.text) (named : first.name = some own.name) {c : Char}
    (single : second.text = [c]) (names : ∀ name, second.name = some name → (c, name) ∈ keyCharacters)
    (ends : first.text <:+ text) (ends' : second.text <:+ text) (shown : first.shown <:+ written) :
    ¬ second.shown <:+ written := by
  intro shown'
  obtain ⟨plain, other⟩ := sequence_last listed typed ends (single ▸ ends')
  cases name : second.name with
  | some name' => exact (keyCharacters_named _ (names _ name)).1 plain
  | none =>
    have named' := keySequences_named own listed
    have alone : nameControls [c] = [c] :=
      nameControls_printed fun d member => List.mem_singleton.mp member ▸ plain
    rw [shown_unnamed name, single, alone] at shown'
    rw [shown_named named] at shown
    have last := (named'.ends shown).symm.trans (getLast_of_suffix (by simp) shown')
    exact other (Option.some.inj last).symm

/-- Two keys that end alike, typed and shown, are one. -/
theorem Proper.eq_of_ends (one : first.Proper) (other : second.Proper)
    (ends : first.text <:+ text) (ends' : second.text <:+ text) (shown : first.shown <:+ written)
    (shown' : second.shown <:+ written) : first = second := by
  rcases one with ⟨own, listed, typed, named⟩ | ⟨c, single, names⟩ <;>
    rcases other with ⟨own', listed', typed', named'⟩ | ⟨c', single', names'⟩
  · have same := sequence_ends listed typed listed' typed' ends ends'
    obtain rfl := typedAs_unique listed typed listed' (same ▸ typed')
    exact TypedKey.ext same (named.trans named'.symm)
  · exact absurd shown' (sequence_character listed typed named single' names' ends ends' shown)
  · exact absurd shown (sequence_character listed' typed' named' single names ends' ends shown')
  · rw [single] at ends
    rw [single'] at ends'
    have same := (getLast_of_suffix (by simp) ends).symm.trans (getLast_of_suffix (by simp) ends')
    obtain rfl : c = c' := Option.some.inj same
    refine TypedKey.ext (single.trans single'.symm) ?_
    cases named : first.name with
    | some name =>
      rw [shown_named named] at shown
      cases named' : second.name with
      | some name' =>
        rw [shown_named named'] at shown'
        have alike := (keyCharacters_named _ (names name named)).2.opened.eq_of_ends
          (keyCharacters_named _ (names' name' named')).2.opened shown shown'
        exact congrArg some (String.toList_injective alike)
      | none =>
        rw [shown_unnamed named', single'] at shown'
        exact absurd shown' (character_unnamed (names name named) shown)
    | none =>
      rw [shown_unnamed named, single] at shown
      cases named' : second.name with
      | some name' =>
        rw [shown_named named'] at shown'
        exact absurd shown (character_unnamed (names' name' named') shown')
      | none => rfl

/-- Of the same text and shown alike, up to what stands before it, are only the same keys. -/
theorem unique {keys keys' : List TypedKey} (proper : ∀ key ∈ keys, key.Proper)
    (proper' : ∀ key ∈ keys', key.Proper)
    (typed : keys.flatMap TypedKey.text = keys'.flatMap TypedKey.text) {start : List Char}
    (alike : keys.flatMap TypedKey.shown = start ++ keys'.flatMap TypedKey.shown) :
    start = [] ∧ keys = keys' := by
  induction keys using List.reverseRecOn generalizing keys' with
  | nil =>
    cases keys' with
    | nil => exact ⟨by simpa using alike.symm, rfl⟩
    | cons key keys' =>
      have empty := (List.append_eq_nil_iff.mp typed.symm).1
      exact absurd empty (proper' key List.mem_cons_self).ne_nil
  | append_singleton keys key ih =>
    rcases List.eq_nil_or_concat keys' with rfl | ⟨others, other, rfl⟩
    · rw [List.flatMap_append] at typed
      have empty := (List.append_eq_nil_iff.mp typed).2
      rw [List.flatMap_singleton] at empty
      exact absurd empty (proper key (List.mem_append_right _ List.mem_cons_self)).ne_nil
    · rw [List.concat_eq_append] at typed alike proper' ⊢
      simp only [List.flatMap_append, List.flatMap_singleton] at typed alike
      rw [← List.append_assoc] at alike
      have one := proper key (List.mem_append_right _ List.mem_cons_self)
      have two := proper' other (List.mem_append_right _ List.mem_cons_self)
      obtain rfl := one.eq_of_ends two (List.suffix_append _ _)
        (typed.symm ▸ List.suffix_append _ _) (List.suffix_append _ _)
        (alike.symm ▸ List.suffix_append _ _)
      obtain ⟨none', rfl⟩ := ih (fun key member => proper key (List.mem_append_left _ member))
        (fun key member => proper' key (List.mem_append_left _ member))
        (List.append_cancel_right typed) (List.append_cancel_right alike)
      exact ⟨none', rfl⟩

end TypedKey

section Apart
variable {used spent earlier : List String} {c : Char} {key : KeySequence}
  {text rest following data : List Char}

end Apart

end SSHProxyPlus
