import SSHProxyPlus.Go.Text

/-! JSON values, the text `encoding/json` writes for them and the text it reads.
Numbers keep their literal, as the decoder does until a field's type is known. -/
namespace Go

def afterInteger : List Char → Option (List Char)
  | '0' :: rest => some rest
  | c :: rest => if c.isDigit then some (rest.dropWhile Char.isDigit) else none
  | [] => none

def afterFraction : List Char → Option (List Char)
  | '.' :: c :: rest => if c.isDigit then some (rest.dropWhile Char.isDigit) else none
  | ['.'] => none
  | text => some text

def exponentDigits : List Char → Option (List Char)
  | c :: rest => if c.isDigit then some (rest.dropWhile Char.isDigit) else none
  | [] => none

def afterExponent : List Char → Option (List Char)
  | 'e' :: '+' :: rest | 'e' :: '-' :: rest | 'E' :: '+' :: rest | 'E' :: '-' :: rest
  | 'e' :: rest | 'E' :: rest => exponentDigits rest
  | text => some text

def afterSign : List Char → List Char
  | '-' :: rest => rest
  | text => text

def isNumber (text : List Char) : Bool :=
  (afterInteger (afterSign text) >>= afterFraction >>= afterExponent) == some []

structure Number where
  literal : List Char
  valid : isNumber literal = true
deriving DecidableEq

inductive Json where
  | null
  | bool (value : Bool)
  | num (value : Number)
  | str (text : List Char)
  | arr (elements : List Json)
  | obj (members : List (List Char × Json))

def hexDigit (n : Nat) : Char := Nat.digitChar n

def escapeUnit (n : Nat) : List Char :=
  ['\\', 'u', hexDigit (n / 4096 % 16), hexDigit (n / 256 % 16), hexDigit (n / 16 % 16),
    hexDigit (n % 16)]

/-- `json.Marshal` also escapes what HTML or JavaScript would interpret. -/
def escapeChar (c : Char) : List Char :=
  if c = '"' then ['\\', '"']
  else if c = '\\' then ['\\', '\\']
  else if c = '\n' then ['\\', 'n']
  else if c = '\r' then ['\\', 'r']
  else if c = '\t' then ['\\', 't']
  else if c.toNat < 32 ∨ c = '<' ∨ c = '>' ∨ c = '&' ∨ c.toNat = 0x2028 ∨ c.toNat = 0x2029 then
    escapeUnit c.toNat
  else [c]

def quote (text : List Char) : List Char := '"' :: text.flatMap escapeChar ++ ['"']

def isBlank (c : Char) : Bool := c = ' ' || c = '\t' || c = '\n' || c = '\r'

/-- Where an encoder breaks lines: inside a container at a given depth, before its
closing bracket, and after the colon of a member. -/
structure Layout where
  inner : Nat → List Char
  close : Nat → List Char
  colon : List Char
  inner_blank : ∀ depth, (inner depth).all isBlank = true
  close_blank : ∀ depth, (close depth).all isBlank = true
  colon_blank : colon.all isBlank = true

/-- `json.Marshal` writes no blanks at all. -/
def Layout.compact : Layout :=
  ⟨fun _ => [], fun _ => [], [], fun _ => rfl, fun _ => rfl, rfl⟩

theorem indentation_blank (n : Nat) : ('\n' :: List.replicate n ' ').all isBlank = true := by
  simp only [List.all_cons, List.all_replicate]
  simp [isBlank]

/-- `json.MarshalIndent` with an empty prefix and `width` blanks for each level. -/
def Layout.indented (width : Nat) : Layout :=
  ⟨fun depth => '\n' :: List.replicate (width * (depth + 1)) ' ',
    fun depth => '\n' :: List.replicate (width * depth) ' ', [' '],
    fun _ => indentation_blank _, fun _ => indentation_blank _, rfl⟩

mutual
def render (l : Layout) : Nat → Json → List Char
  | _, .null => ['n', 'u', 'l', 'l']
  | _, .bool true => ['t', 'r', 'u', 'e']
  | _, .bool false => ['f', 'a', 'l', 's', 'e']
  | _, .num value => value.literal
  | _, .str text => quote text
  | _, .arr [] => ['[', ']']
  | depth, .arr (v :: vs) =>
      '[' :: (l.inner depth ++ (render l (depth + 1) v ++ renderElements l depth vs))
  | _, .obj [] => ['{', '}']
  | depth, .obj (m :: ms) =>
      '{' :: (l.inner depth ++ (renderMember l depth m ++ renderMembers l depth ms))

/-- What follows the first element of an array, up to and including its bracket. -/
def renderElements (l : Layout) : Nat → List Json → List Char
  | depth, [] => l.close depth ++ [']']
  | depth, v :: vs =>
      ',' :: (l.inner depth ++ (render l (depth + 1) v ++ renderElements l depth vs))

def renderMember (l : Layout) : Nat → List Char × Json → List Char
  | depth, (key, v) => quote key ++ (':' :: (l.colon ++ render l (depth + 1) v))

def renderMembers (l : Layout) : Nat → List (List Char × Json) → List Char
  | depth, [] => l.close depth ++ ['}']
  | depth, m :: ms =>
      ',' :: (l.inner depth ++ (renderMember l depth m ++ renderMembers l depth ms))
end

/-- `json.Marshal`. -/
def marshalText (v : Json) : List Char := render .compact 0 v

def skip (text : List Char) : List Char := text.dropWhile isBlank

def hexValue (c : Char) : Option Nat :=
  if c.isDigit then some (c.toNat - '0'.toNat)
  else if 'a'.toNat ≤ c.toNat ∧ c.toNat ≤ 'f'.toNat then some (c.toNat - 'a'.toNat + 10)
  else if 'A'.toNat ≤ c.toNat ∧ c.toNat ≤ 'F'.toNat then some (c.toNat - 'A'.toNat + 10)
  else none

def hexUnit (a b c d : Char) : Option Nat := do
  return ((← hexValue a) * 16 + (← hexValue b)) * 256 + ((← hexValue c) * 16 + (← hexValue d))

def isHighSurrogate (n : Nat) : Bool := 0xD800 ≤ n && n < 0xDC00
def isLowSurrogate (n : Nat) : Bool := 0xDC00 ≤ n && n < 0xE000

/-- Half of a surrogate pair on its own reads as U+FFFD. -/
def unitChar (n : Nat) : Char := if isLowSurrogate n then '\uFFFD' else Char.ofNat n

def pairChar (high low : Nat) : Char :=
  Char.ofNat (0x10000 + (high - 0xD800) * 1024 + (low - 0xDC00))

def simpleEscape : Char → Option Char
  | '"' => some '"'
  | '\\' => some '\\'
  | '/' => some '/'
  | 'b' => some '\x08'
  | 'f' => some '\x0c'
  | 'n' => some '\n'
  | 'r' => some '\r'
  | 't' => some '\t'
  | _ => none

def emit (read : List Char) (rest : Option (List Char × List Char)) :
    Option (List Char × List Char) :=
  rest.map fun (text, tail) => (read ++ text, tail)

def unpaired (pending : Option Nat) : List Char := pending.elim [] fun _ => ['\uFFFD']

def pairedUnit (pending : Option Nat) (unit : Nat) : List Char :=
  match pending with
  | some high => if isLowSurrogate unit then [pairChar high unit] else ['\uFFFD', unitChar unit]
  | none => [unitChar unit]

/-- The rest of a string literal after its opening quote. `pending` is a high
surrogate still waiting for its other half. -/
def parseText : Option Nat → List Char → Option (List Char × List Char)
  | _, [] => none
  | pending, c :: rest =>
      if c = '"' then some (unpaired pending, rest)
      else if c = '\\' then
        match rest with
        | [] => none
        | e :: rest =>
            if e = 'u' then
              match rest with
              | h₁ :: h₂ :: h₃ :: h₄ :: rest =>
                  match hexUnit h₁ h₂ h₃ h₄ with
                  | none => none
                  | some unit =>
                      if isHighSurrogate unit then
                        emit (unpaired pending) (parseText (some unit) rest)
                      else emit (pairedUnit pending unit) (parseText none rest)
              | _ => none
            else match simpleEscape e with
              | some char => emit (unpaired pending ++ [char]) (parseText none rest)
              | none => none
      else if c.toNat < 32 then none
      else emit (unpaired pending ++ [c]) (parseText none rest)

def isNumberChar (c : Char) : Bool :=
  c.isDigit || c = '-' || c = '+' || c = '.' || c = 'e' || c = 'E'

def parseNumber (text : List Char) : Option (Json × List Char) :=
  if valid : isNumber (text.takeWhile isNumberChar) = true then
    some (.num ⟨_, valid⟩, text.dropWhile isNumberChar)
  else none

def keyword (word : List Char) (v : Json) (text : List Char) : Option (Json × List Char) :=
  if word.isPrefixOf text then some (v, text.drop word.length) else none

mutual
/-- Every recursive call has consumed a character, so a text's length is enough fuel. -/
def parseValue : Nat → List Char → Option (Json × List Char)
  | 0, _ => none
  | _, [] => none
  | fuel + 1, c :: rest =>
      if c = '"' then (parseText none rest).map fun (text, tail) => (.str text, tail)
      else if c = '[' then
        match skip rest with
        | [] => none
        | d :: tail =>
            if d = ']' then some (.arr [], tail)
            else (parseElements fuel (d :: tail)).map fun (vs, tail) => (.arr vs, tail)
      else if c = '{' then
        match skip rest with
        | [] => none
        | d :: tail =>
            if d = '}' then some (.obj [], tail)
            else (parseMembers fuel (d :: tail)).map fun (ms, tail) => (.obj ms, tail)
      else if c = 'n' then keyword ['u', 'l', 'l'] .null rest
      else if c = 't' then keyword ['r', 'u', 'e'] (.bool true) rest
      else if c = 'f' then keyword ['a', 'l', 's', 'e'] (.bool false) rest
      else parseNumber (c :: rest)

def parseElements : Nat → List Char → Option (List Json × List Char)
  | 0, _ => none
  | fuel + 1, text =>
      match parseValue fuel text with
      | none => none
      | some (v, rest) =>
          match skip rest with
          | [] => none
          | d :: tail =>
              if d = ']' then some ([v], tail)
              else if d = ',' then
                (parseElements fuel (skip tail)).map fun (vs, tail) => (v :: vs, tail)
              else none

def parseMembers : Nat → List Char → Option (List (List Char × Json) × List Char)
  | 0, _ => none
  | fuel + 1, text =>
      match parseMember fuel text with
      | none => none
      | some (m, rest) =>
          match skip rest with
          | [] => none
          | d :: tail =>
              if d = '}' then some ([m], tail)
              else if d = ',' then
                (parseMembers fuel (skip tail)).map fun (ms, tail) => (m :: ms, tail)
              else none

def parseMember : Nat → List Char → Option ((List Char × Json) × List Char)
  | 0, _ => none
  | _, [] => none
  | fuel + 1, c :: rest =>
      if c = '"' then
        match parseText none rest with
        | none => none
        | some (key, rest) =>
            match skip rest with
            | [] => none
            | d :: tail =>
                if d = ':' then
                  (parseValue fuel (skip tail)).map fun (v, tail) => ((key, v), tail)
                else none
      else none
end

/-- The whole text is one value between blanks. -/
def parse (text : List Char) : Option Json :=
  match parseValue (text.length + 1) (skip text) with
  | some (v, rest) => if skip rest = [] then some v else none
  | none => none

end Go
