import SSHProxyPlus.Go.Json

/-! The decoder reads back every text the encoder writes, in any layout. -/
namespace Go

theorem digitChar_ofNat_lt : ∀ n < 16, hexValue (hexDigit n) = some n := by decide

theorem hexUnit_digits {n : Nat} (small : n < 65536) :
    hexUnit (hexDigit (n / 4096 % 16)) (hexDigit (n / 256 % 16)) (hexDigit (n / 16 % 16))
      (hexDigit (n % 16)) = some n := by
  have value (m : Nat) : hexValue (hexDigit (m % 16)) = some (m % 16) :=
    digitChar_ofNat_lt _ (Nat.mod_lt _ (by decide))
  simp only [hexUnit, value, bind, Option.bind_some, pure, Option.some.injEq]
  omega

theorem parseText_plain {c : Char} (notQuote : c ≠ '"') (notEscape : c ≠ '\\')
    (printable : ¬ c.toNat < 32) (text : List Char) :
    parseText none (c :: text) = emit [c] (parseText none text) := by
  rw [parseText.eq_def]
  simp only [if_neg notQuote, if_neg notEscape, if_neg printable]
  rfl

theorem parseText_simple (e c : Char) (notUnit : e ≠ 'u') (escape : simpleEscape e = some c)
    (text : List Char) :
    parseText none ('\\' :: e :: text) = emit [c] (parseText none text) := by
  rw [parseText.eq_def]
  simp only [if_neg (by decide : ¬ '\\' = '"'), if_true, if_neg notUnit, escape]
  rfl

theorem parseText_unit {n : Nat} (small : n < 0xD800) (text : List Char) :
    parseText none (escapeUnit n ++ text) = emit [Char.ofNat n] (parseText none text) := by
  have notHigh : isHighSurrogate n = false := by
    simp only [isHighSurrogate, Bool.and_eq_false_iff, decide_eq_false_iff_not]
    omega
  have notLow : isLowSurrogate n = false := by
    simp only [isLowSurrogate, Bool.and_eq_false_iff, decide_eq_false_iff_not]
    omega
  rw [parseText.eq_def]
  simp only [escapeUnit, List.cons_append, List.nil_append, if_neg (by decide : ¬ '\\' = '"'),
    if_true, hexUnit_digits (by omega : n < 65536), notHigh, Bool.false_eq_true, if_false,
    pairedUnit, unitChar, notLow]

theorem parseText_escapeChar (c : Char) (text : List Char) :
    parseText none (escapeChar c ++ text) = emit [c] (parseText none text) := by
  unfold escapeChar
  split
  · next same => subst same; exact parseText_simple _ _ (by decide) rfl _
  split
  · next same => subst same; exact parseText_simple _ _ (by decide) rfl _
  split
  · next same => subst same; exact parseText_simple _ _ (by decide) rfl _
  split
  · next same => subst same; exact parseText_simple _ _ (by decide) rfl _
  split
  · next same => subst same; exact parseText_simple _ _ (by decide) rfl _
  split
  · next special =>
    have small : c.toNat < 0xD800 := by
      rcases special with h | h | h | h | h | h
      · omega
      all_goals first | (subst h; decide) | (rw [h]; decide)
    rw [parseText_unit small, Char.ofNat_toNat]
  · next notQuote notEscape _ _ _ special =>
    have printable : ¬ c.toNat < 32 := fun low => special (Or.inl low)
    exact parseText_plain notQuote notEscape printable text

theorem parseText_quote (text rest : List Char) :
    parseText none (text.flatMap escapeChar ++ '"' :: rest) = some (text, rest) := by
  induction text with
  | nil =>
    rw [parseText.eq_def]
    rfl
  | cons c text ih =>
    rw [List.flatMap_cons, List.append_assoc, parseText_escapeChar, ih]
    rfl

theorem skip_blank {blank : List Char} (h : blank.all isBlank = true) (text : List Char) :
    skip (blank ++ text) = skip text := by
  induction blank with
  | nil => rfl
  | cons c blank ih =>
    simp only [List.all_cons, Bool.and_eq_true] at h
    simpa only [skip, List.cons_append, List.dropWhile_cons, h.1, if_true] using ih h.2

theorem skip_solid {c : Char} (h : isBlank c = false) (text : List Char) :
    skip (c :: text) = c :: text := by
  simp [skip, h]

/-- What a numeral must not run into: the next character belongs to no number. -/
def Stops (rest : List Char) : Prop := ∀ c tail, rest = c :: tail → isNumberChar c = false

theorem stops_cons {c : Char} (h : isNumberChar c = false) (tail : List Char) :
    Stops (c :: tail) := by
  rintro _ _ ⟨⟩
  exact h

theorem stops_nil : Stops [] := by
  rintro _ _ ⟨⟩

theorem stops_blank_append {blank rest : List Char} (h : blank.all isBlank = true)
    (stops : Stops rest) : Stops (blank ++ rest) := by
  cases blank with
  | nil => exact stops
  | cons c blank =>
    apply stops_cons
    simp only [List.all_cons, Bool.and_eq_true, isBlank, Bool.or_eq_true, decide_eq_true_eq] at h
    rcases h.1 with ((rfl | rfl) | rfl) | rfl <;> decide

theorem isNumberChar_of_isDigit {c : Char} (h : c.isDigit = true) : isNumberChar c = true := by
  simp [isNumberChar, h]

theorem all_digits_then {text : List Char}
    (rest : (text.dropWhile Char.isDigit).all isNumberChar = true) :
    text.all isNumberChar = true := by
  induction text with
  | nil => rfl
  | cons c text ih =>
    rw [List.all_cons, Bool.and_eq_true]
    by_cases digit : c.isDigit = true
    · rw [List.dropWhile_cons, if_pos digit] at rest
      exact ⟨isNumberChar_of_isDigit digit, ih rest⟩
    · rw [List.dropWhile_cons, if_neg digit, List.all_cons, Bool.and_eq_true] at rest
      exact rest

/-- One or more digits, the shape the three numeric parts share. -/
theorem digits_chars {c : Char} {text rest : List Char}
    (h : (if c.isDigit then some (text.dropWhile Char.isDigit) else none) = some rest)
    (chars : rest.all isNumberChar = true) : (c :: text).all isNumberChar = true := by
  split at h
  · next digit =>
    rw [List.all_cons, isNumberChar_of_isDigit digit, Bool.true_and]
    exact all_digits_then (Option.some.inj h ▸ chars)
  · contradiction

theorem afterExponent_chars {text : List Char} (h : afterExponent text = some []) :
    text.all isNumberChar = true := by
  have digits {text : List Char} (h : exponentDigits text = some []) :
      text.all isNumberChar = true := by
    cases text with
    | nil => contradiction
    | cons c text => exact digits_chars h rfl
  unfold afterExponent at h
  split at h
  all_goals first
    | (simp only [List.all_cons, digits h]; decide)
    | (rw [Option.some.inj h]; rfl)

theorem afterFraction_chars {text rest : List Char} (h : afterFraction text = some rest)
    (chars : rest.all isNumberChar = true) : text.all isNumberChar = true := by
  unfold afterFraction at h
  split at h
  · rw [List.all_cons, digits_chars h chars]
    rfl
  · contradiction
  · exact Option.some.inj h ▸ chars

theorem afterInteger_chars {text rest : List Char} (h : afterInteger text = some rest)
    (chars : rest.all isNumberChar = true) : text.all isNumberChar = true := by
  unfold afterInteger at h
  split at h
  · rw [List.all_cons, Option.some.inj h, chars]
    rfl
  · exact digits_chars h chars
  · contradiction

theorem isNumber_chars {text : List Char} (h : isNumber text = true) :
    text.all isNumberChar = true := by
  simp only [isNumber, beq_iff_eq, Option.bind_eq_bind, Option.bind_eq_some_iff] at h
  obtain ⟨fraction, ⟨integer, hi, hf⟩, he⟩ := h
  have body := afterInteger_chars hi (afterFraction_chars hf (afterExponent_chars he))
  unfold afterSign at body
  split at body
  · rw [List.all_cons, body]
    rfl
  · exact body

theorem isNumber_head {text : List Char} (h : isNumber text = true) :
    ∃ c rest, text = c :: rest ∧ (c = '-' ∨ c.isDigit = true) := by
  simp only [isNumber, beq_iff_eq, Option.bind_eq_bind, Option.bind_eq_some_iff] at h
  obtain ⟨fraction, ⟨integer, hi, hf⟩, he⟩ := h
  cases text with
  | nil => contradiction
  | cons c rest =>
    refine ⟨c, rest, rfl, ?_⟩
    by_cases sign : c = '-'
    · exact Or.inl sign
    · have body : afterSign (c :: rest) = c :: rest := by
        unfold afterSign
        split
        · next same => exact absurd (List.cons.inj same).1 sign
        · rfl
      rw [body] at hi
      unfold afterInteger at hi
      split at hi
      · next same => rw [(List.cons.inj same).1]; exact Or.inr rfl
      · next same =>
        obtain ⟨rfl, _⟩ := List.cons.inj same
        split at hi
        · next digit => exact Or.inr digit
        · contradiction
      · contradiction

theorem takeWhile_stops {p : Char → Bool} {text rest : List Char} (all : text.all p = true)
    (stops : ∀ c tail, rest = c :: tail → p c = false) :
    (text ++ rest).takeWhile p = text ∧ (text ++ rest).dropWhile p = rest := by
  induction text with
  | nil =>
    cases rest with
    | nil => exact ⟨rfl, rfl⟩
    | cons c tail => simp [stops c tail rfl]
  | cons c text ih =>
    simp only [List.all_cons, Bool.and_eq_true] at all
    simpa [all.1] using ih all.2

theorem parseNumber_literal (n : Number) {rest : List Char} (stops : Stops rest) :
    parseNumber (n.literal ++ rest) = some (.num n, rest) := by
  obtain ⟨taken, dropped⟩ := takeWhile_stops (isNumber_chars n.valid) stops
  simp only [parseNumber, taken, dropped, n.valid, dite_true]

theorem parseValue_number (n : Number) {rest : List Char} (stops : Stops rest) (fuel : Nat) :
    parseValue (fuel + 1) (n.literal ++ rest) = some (.num n, rest) := by
  rw [← parseNumber_literal n stops]
  obtain ⟨c, tail, shape, head⟩ := isNumber_head n.valid
  have apart (d : Char) (other : d ≠ '-' ∧ d.isDigit = false) : c ≠ d := by
    rintro rfl
    rcases head with sign | digit
    · exact other.1 sign
    · rw [other.2] at digit
      contradiction
  rw [shape, List.cons_append, parseValue, if_neg (apart '"' (by decide)),
    if_neg (apart '[' (by decide)), if_neg (apart '{' (by decide)), if_neg (apart 'n' (by decide)),
    if_neg (apart 't' (by decide)), if_neg (apart 'f' (by decide))]

/-- A rendered value starts with no blank and no closing bracket. -/
def Opens (text : List Char) : Prop :=
  ∃ c tail, text = c :: tail ∧ isBlank c = false ∧ c ≠ ']' ∧ c ≠ '}'

theorem render_opens (l : Layout) (depth : Nat) (v : Json) : Opens (render l depth v) := by
  cases v with
  | null => exact ⟨_, _, rfl, rfl, by decide, by decide⟩
  | bool b => cases b <;> exact ⟨_, _, rfl, rfl, by decide, by decide⟩
  | str text => exact ⟨_, _, rfl, rfl, by decide, by decide⟩
  | arr vs => cases vs <;> exact ⟨_, _, rfl, rfl, by decide, by decide⟩
  | obj ms => cases ms <;> exact ⟨_, _, rfl, rfl, by decide, by decide⟩
  | num n =>
    obtain ⟨c, tail, shape, head⟩ := isNumber_head n.valid
    refine ⟨c, tail, shape, ?_, ?_, ?_⟩
    · rcases head with rfl | digit
      · rfl
      · cases blank : isBlank c
        · rfl
        · simp only [isBlank, Bool.or_eq_true, decide_eq_true_eq] at blank
          rcases blank with ((rfl | rfl) | rfl) | rfl <;> exact absurd digit (by decide)
    all_goals
      rintro rfl
      rcases head with sign | digit
      · exact absurd sign (by decide)
      · exact absurd digit (by decide)

theorem all_blank_nil : ([] : List Char).all isBlank = true := rfl

theorem Opens.skip_append (opens : Opens text) {blank : List Char}
    (h : blank.all isBlank = true) (rest : List Char) :
    skip (blank ++ (text ++ rest)) = text ++ rest := by
  obtain ⟨c, tail, rfl, solid, _⟩ := opens
  rw [skip_blank h, List.cons_append, skip_solid solid]

theorem member_opens (l : Layout) (depth : Nat) (m : List Char × Json) :
    Opens (renderMember l depth m) := by
  obtain ⟨key, v⟩ := m
  exact ⟨'"', _, by rw [renderMember]; rfl, rfl, by decide, by decide⟩

theorem parseValue_string (text rest : List Char) (fuel : Nat) :
    parseValue (fuel + 1) (quote text ++ rest) = some (.str text, rest) := by
  simp only [quote, List.cons_append, List.append_assoc, List.nil_append, parseValue, if_true,
    parseText_quote, Option.map_some]

theorem parseValue_array (opens : Opens body) {blank : List Char}
    (h : blank.all isBlank = true) {rest : List Char} {fuel : Nat} {vs : List Json}
    {tail : List Char} (elements : parseElements fuel (body ++ rest) = some (vs, tail)) :
    parseValue (fuel + 1) ('[' :: (blank ++ (body ++ rest))) = some (.arr vs, tail) := by
  have skipped := opens.skip_append h rest
  obtain ⟨c, inner, rfl, _, notClose, _⟩ := opens
  rw [parseValue, if_neg (by decide), if_pos rfl, skipped]
  simp only [List.cons_append, if_neg notClose] at elements ⊢
  rw [elements]
  rfl

theorem parseValue_object (opens : Opens body) {blank : List Char}
    (h : blank.all isBlank = true) {rest : List Char} {fuel : Nat}
    {ms : List (List Char × Json)} {tail : List Char}
    (members : parseMembers fuel (body ++ rest) = some (ms, tail)) :
    parseValue (fuel + 1) ('{' :: (blank ++ (body ++ rest))) = some (.obj ms, tail) := by
  have skipped := opens.skip_append h rest
  obtain ⟨c, inner, rfl, _, _, notClose⟩ := opens
  rw [parseValue, if_neg (by decide), if_neg (by decide), if_pos rfl, skipped]
  simp only [List.cons_append, if_neg notClose] at members ⊢
  rw [members]
  rfl

theorem parseElements_last {v : Json} {text blank rest : List Char} {fuel : Nat}
    (value : parseValue fuel text = some (v, blank ++ ']' :: rest))
    (h : blank.all isBlank = true) : parseElements (fuel + 1) text = some ([v], rest) := by
  rw [parseElements, value]
  simp only [skip_blank h, skip_solid (by rfl : isBlank ']' = false), if_true]

theorem parseElements_more {v : Json} {vs : List Json} {text more rest : List Char} {fuel : Nat}
    (value : parseValue fuel text = some (v, ',' :: more))
    (elements : parseElements fuel (skip more) = some (vs, rest)) :
    parseElements (fuel + 1) text = some (v :: vs, rest) := by
  rw [parseElements, value]
  simp only [skip_solid (by rfl : isBlank ',' = false), if_neg (by decide : ¬ ',' = ']'), if_true,
    elements, Option.map_some]

theorem parseMembers_last {m : List Char × Json} {text blank rest : List Char} {fuel : Nat}
    (member : parseMember fuel text = some (m, blank ++ '}' :: rest))
    (h : blank.all isBlank = true) : parseMembers (fuel + 1) text = some ([m], rest) := by
  rw [parseMembers, member]
  simp only [skip_blank h, skip_solid (by rfl : isBlank '}' = false), if_true]

theorem parseMembers_more {m : List Char × Json} {ms : List (List Char × Json)}
    {text more rest : List Char} {fuel : Nat}
    (member : parseMember fuel text = some (m, ',' :: more))
    (members : parseMembers fuel (skip more) = some (ms, rest)) :
    parseMembers (fuel + 1) text = some (m :: ms, rest) := by
  rw [parseMembers, member]
  simp only [skip_solid (by rfl : isBlank ',' = false), if_neg (by decide : ¬ ',' = '}'), if_true,
    members, Option.map_some]

theorem parseMember_pair {key : List Char} {v : Json} {blank text rest tail : List Char}
    {fuel : Nat} (opens : Opens text) (h : blank.all isBlank = true)
    (value : parseValue fuel (text ++ rest) = some (v, tail)) :
    parseMember (fuel + 1) (quote key ++ (':' :: (blank ++ (text ++ rest)))) =
      some ((key, v), tail) := by
  simp only [quote, List.cons_append, List.append_assoc, List.nil_append, parseMember, if_true,
    parseText_quote, skip_solid (by rfl : isBlank ':' = false), opens.skip_append h, value,
    Option.map_some]

def ValueReads (l : Layout) (v : Json) : Prop :=
  ∀ (depth fuel : Nat) (rest : List Char), (render l depth v).length ≤ fuel → Stops rest →
    parseValue fuel (render l depth v ++ rest) = some (v, rest)

def MemberReads (l : Layout) (m : List Char × Json) : Prop :=
  ∀ (depth fuel : Nat) (rest : List Char), (renderMember l depth m).length ≤ fuel → Stops rest →
    parseMember fuel (renderMember l depth m ++ rest) = some (m, rest)

theorem elements_read (vs : List Json) (v : Json) (head : ValueReads l v)
    (tail : ∀ w ∈ vs, ValueReads l w) (depth fuel : Nat) (rest : List Char)
    (enough : (render l (depth + 1) v).length + (renderElements l depth vs).length ≤ fuel) :
    parseElements fuel (render l (depth + 1) v ++ (renderElements l depth vs ++ rest)) =
      some (v :: vs, rest) := by
  induction vs generalizing v fuel with
  | nil =>
    simp only [renderElements, List.length_append, List.length_singleton] at enough
    obtain ⟨fuel, rfl⟩ : ∃ n, fuel = n + 1 := ⟨fuel - 1, by omega⟩
    have stops : Stops (l.close depth ++ ']' :: rest) :=
      stops_blank_append (l.close_blank depth) (stops_cons (by decide) rest)
    simp only [renderElements, List.append_assoc, List.singleton_append]
    exact parseElements_last (head (depth + 1) fuel _ (by omega) stops) (l.close_blank depth)
  | cons w vs ih =>
    simp only [renderElements, List.length_cons, List.length_append] at enough
    obtain ⟨fuel, rfl⟩ : ∃ n, fuel = n + 1 := ⟨fuel - 1, by omega⟩
    have value := head (depth + 1) fuel
      (',' :: (l.inner depth ++ (render l (depth + 1) w ++ (renderElements l depth vs ++ rest))))
      (by omega) (stops_cons (by decide) _)
    have elements := ih w (tail w List.mem_cons_self)
      (fun x member => tail x (List.mem_cons_of_mem w member)) fuel (by omega)
    simp only [renderElements, List.cons_append, List.append_assoc]
    refine parseElements_more value ?_
    rw [(render_opens l (depth + 1) w).skip_append (l.inner_blank depth)]
    exact elements

theorem members_read (ms : List (List Char × Json)) (m : List Char × Json)
    (head : MemberReads l m) (tail : ∀ n ∈ ms, MemberReads l n) (depth fuel : Nat)
    (rest : List Char)
    (enough : (renderMember l depth m).length + (renderMembers l depth ms).length ≤ fuel) :
    parseMembers fuel (renderMember l depth m ++ (renderMembers l depth ms ++ rest)) =
      some (m :: ms, rest) := by
  induction ms generalizing m fuel with
  | nil =>
    simp only [renderMembers, List.length_append, List.length_singleton] at enough
    obtain ⟨fuel, rfl⟩ : ∃ n, fuel = n + 1 := ⟨fuel - 1, by omega⟩
    have stops : Stops (l.close depth ++ '}' :: rest) :=
      stops_blank_append (l.close_blank depth) (stops_cons (by decide) rest)
    simp only [renderMembers, List.append_assoc, List.singleton_append]
    exact parseMembers_last (head depth fuel _ (by omega) stops) (l.close_blank depth)
  | cons n ms ih =>
    simp only [renderMembers, List.length_cons, List.length_append] at enough
    obtain ⟨fuel, rfl⟩ : ∃ n, fuel = n + 1 := ⟨fuel - 1, by omega⟩
    have member := head depth fuel
      (',' :: (l.inner depth ++ (renderMember l depth n ++ (renderMembers l depth ms ++ rest))))
      (by omega) (stops_cons (by decide) _)
    have members := ih n (tail n List.mem_cons_self)
      (fun x member => tail x (List.mem_cons_of_mem n member)) fuel (by omega)
    simp only [renderMembers, List.cons_append, List.append_assoc]
    refine parseMembers_more member ?_
    rw [(member_opens l depth n).skip_append (l.inner_blank depth)]
    exact members

theorem array_reads (vs : List Json) (each : ∀ v ∈ vs, ValueReads l v) :
    ValueReads l (.arr vs) := by
  intro depth fuel rest enough _
  cases vs with
  | nil =>
    simp only [render, List.length_cons, List.length_nil] at enough
    obtain ⟨fuel, rfl⟩ : ∃ n, fuel = n + 1 := ⟨fuel - 1, by omega⟩
    rfl
  | cons v vs =>
    simp only [render, List.length_cons, List.length_append] at enough
    obtain ⟨fuel, rfl⟩ : ∃ n, fuel = n + 1 := ⟨fuel - 1, by omega⟩
    have elements := elements_read vs v (each v List.mem_cons_self)
      (fun w member => each w (List.mem_cons_of_mem v member)) depth fuel rest (by omega)
    simp only [render, List.cons_append, List.append_assoc]
    exact parseValue_array (render_opens l _ v) (l.inner_blank depth) elements

theorem object_reads (ms : List (List Char × Json)) (each : ∀ m ∈ ms, MemberReads l m) :
    ValueReads l (.obj ms) := by
  intro depth fuel rest enough _
  cases ms with
  | nil =>
    simp only [render, List.length_cons, List.length_nil] at enough
    obtain ⟨fuel, rfl⟩ : ∃ n, fuel = n + 1 := ⟨fuel - 1, by omega⟩
    rfl
  | cons m ms =>
    simp only [render, List.length_cons, List.length_append] at enough
    obtain ⟨fuel, rfl⟩ : ∃ n, fuel = n + 1 := ⟨fuel - 1, by omega⟩
    have members := members_read ms m (each m List.mem_cons_self)
      (fun n member => each n (List.mem_cons_of_mem m member)) depth fuel rest (by omega)
    simp only [render, List.cons_append, List.append_assoc]
    exact parseValue_object (member_opens l depth m) (l.inner_blank depth) members

theorem value_reads (l : Layout) (v : Json) : ValueReads l v := by
  refine Json.rec (motive_1 := ValueReads l) (motive_2 := fun vs => ∀ v ∈ vs, ValueReads l v)
    (motive_3 := fun ms => ∀ m ∈ ms, MemberReads l m) (motive_4 := MemberReads l)
    ?_ ?_ ?_ ?_ array_reads object_reads ?_ ?_ ?_ ?_ ?_ v
  · rintro depth (_ | fuel) rest enough _
    · simp [render] at enough
    · rfl
  · rintro (_ | _) depth (_ | fuel) rest enough _
    all_goals first | rfl | simp [render] at enough
  · rintro n depth (_ | fuel) rest enough stops
    · obtain ⟨c, tail, shape, _⟩ := isNumber_head n.valid
      simp [render, shape] at enough
    · exact parseValue_number n stops fuel
  · rintro text depth (_ | fuel) rest enough _
    · simp [render, quote] at enough
    · exact parseValue_string text rest fuel
  · intro v member
    contradiction
  · intro v vs head tail w member
    rcases List.mem_cons.mp member with rfl | later
    · exact head
    · exact tail w later
  · intro m member
    contradiction
  · intro m ms head tail n member
    rcases List.mem_cons.mp member with rfl | later
    · exact head
    · exact tail n later
  · intro key v value depth fuel rest enough stops
    simp only [renderMember, List.length_cons, List.length_append] at enough
    obtain ⟨fuel, rfl⟩ : ∃ n, fuel = n + 1 := ⟨fuel - 1, by omega⟩
    simp only [renderMember, List.cons_append, List.append_assoc]
    exact parseMember_pair (render_opens l _ v) l.colon_blank
      (value (depth + 1) fuel rest (by omega) stops)

/-- Decoding inverts encoding, whatever the layout. -/
theorem parse_render (l : Layout) (v : Json) : parse (render l 0 v) = some v := by
  have opened : skip (render l 0 v) = render l 0 v := by
    have h := (render_opens l 0 v).skip_append all_blank_nil []
    simpa only [List.nil_append, List.append_nil] using h
  have value := value_reads l v 0 ((render l 0 v).length + 1) [] (by omega) stops_nil
  rw [List.append_nil] at value
  rw [parse, opened, value]
  rfl

/-- A second value after the first is refused. -/
theorem parse_trailing (l : Layout) (v : Json) {rest : List Char} (stops : Stops rest)
    (more : skip rest ≠ []) : parse (render l 0 v ++ rest) = none := by
  have opened := (render_opens l 0 v).skip_append all_blank_nil rest
  have value := value_reads l v 0 ((render l 0 v ++ rest).length + 1) rest
    (by simp only [List.length_append]; omega) stops
  rw [List.nil_append] at opened
  rw [parse, opened, value]
  simp only [if_neg more]

end Go
