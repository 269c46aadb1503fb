import DocBlock.Json.Basic
import DocBlock.Text.Hexadecimal
import DocBlock.Text.Run

/-! What a JSON text spells, before its strings and numbers are evaluated: escapes may leave half a
surrogate pair, and numbers may lie outside every range. -/

namespace DocBlock.Json

/-- A character of a string, or half of a surrogate pair. Halves come from escapes only. -/
inductive Letter
  | char (c : Char)
  | half (code : Nat)
  deriving DecidableEq, Repr

/-- A number as written: digits, fraction digits if there is a point, and an exponent with its
sign. -/
structure Numeral where
  negative : Bool
  whole : List Char
  fraction : Option (List Char)
  exponent : Option (Bool × List Char)
  deriving DecidableEq, Repr

inductive Reading
  | null
  | bool (value : Bool)
  | number (numeral : Numeral)
  | string (letters : List Letter)
  | array (items : List Reading)
  | object (members : List (List Letter × Reading))

/-- The four characters that may stand between tokens. -/
def isSpace (c : Char) : Bool :=
  c == ' ' || c == '\n' || c == '\r' || c == '\t'

def skipSpace (cs : List Char) : List Char := cs.dropWhile isSpace

/-- The letter of a four-digit escape. -/
def escapedCode? (a b c d : Char) : Option Letter := do
  let high := (← Text.hexValue? a) * 16 + (← Text.hexValue? b)
  let low := (← Text.hexValue? c) * 16 + (← Text.hexValue? d)
  let code := high * 256 + low
  return if 0xD800 ≤ code ∧ code ≤ 0xDFFF then .half code else .char (Char.ofNat code)

/-- The character of a one-letter escape. -/
def escapedLetter? : Char → Option Char
  | '"' => some '"'
  | '\\' => some '\\'
  | '/' => some '/'
  | 'b' => some '\x08'
  | 'f' => some '\x0c'
  | 'n' => some '\n'
  | 'r' => some '\r'
  | 't' => some '\t'
  | _ => none

/-- The letters up to the closing quote, with the rest after it. -/
def letters? : List Char → Option (List Letter × List Char)
  | [] => none
  | '"' :: rest => some ([], rest)
  | '\\' :: 'u' :: a :: b :: c :: d :: rest => do
    let letter ← escapedCode? a b c d
    let (letters, rest) ← letters? rest
    return (letter :: letters, rest)
  | '\\' :: c :: rest => do
    let letter ← escapedLetter? c
    let (letters, rest) ← letters? rest
    return (.char letter :: letters, rest)
  | c :: rest =>
    if c = '\\' ∨ c.toNat < 0x20 then none
    else (letters? rest).map fun (letters, rest) => (.char c :: letters, rest)

/-- A zero alone, or digits that begin with none. -/
def whole? (cs : List Char) : Option (List Char × List Char) :=
  match Text.after? '0' cs with
  | some rest => some (['0'], rest)
  | none => Text.run? Char.isDigit cs

def fraction? (cs : List Char) : Option (List Char × List Char) :=
  (Text.after? '.' cs).bind (Text.run? Char.isDigit)

def exponent? (cs : List Char) : Option ((Bool × List Char) × List Char) := do
  let signed ← (Text.after? 'e' cs) <|> (Text.after? 'E' cs)
  let (negative, unsigned) :=
    match signed with
    | '-' :: rest => (true, rest)
    | '+' :: rest => (false, rest)
    | rest => (false, rest)
  let (digits, rest) ← Text.run? Char.isDigit unsigned
  return ((negative, digits), rest)

def numeral? (cs : List Char) : Option (Numeral × List Char) := do
  let (negative, unsigned) :=
    match cs with
    | '-' :: rest => (true, rest)
    | rest => (false, rest)
  let (whole, afterWhole) ← whole? unsigned
  let (fraction, afterFraction) :=
    match fraction? afterWhole with
    | some (digits, rest) => (some digits, rest)
    | none => (none, afterWhole)
  let (exponent, rest) :=
    match exponent? afterFraction with
    | some (exponent, rest) => (some exponent, rest)
    | none => (none, afterFraction)
  return (⟨negative, whole, fraction, exponent⟩, rest)

def word? (word : String) (value : Reading) (cs : List Char) : Option (Reading × List Char) :=
  (word.toList.isPrefixOf? cs).map fun rest => (value, rest)

namespace Reading

mutual

/-- A value at the head of the text. The first argument bounds the steps; twice the length of the
text is enough. -/
def value? : Nat → List Char → Option (Reading × List Char)
  | 0, _ => none
  | _ + 1, [] => none
  | steps + 1, c :: cs =>
    if c = '{' then
      match Text.after? '}' (skipSpace cs) with
      | some rest => some (.object [], rest)
      | none => (members? steps cs).map fun (members, rest) => (.object members, rest)
    else if c = '[' then
      match Text.after? ']' (skipSpace cs) with
      | some rest => some (.array [], rest)
      | none => (items? steps cs).map fun (items, rest) => (.array items, rest)
    else if c = '"' then (letters? cs).map fun (letters, rest) => (.string letters, rest)
    else if c = 'n' then word? "null" .null (c :: cs)
    else if c = 't' then word? "true" (.bool true) (c :: cs)
    else if c = 'f' then word? "false" (.bool false) (c :: cs)
    else (numeral? (c :: cs)).map fun (numeral, rest) => (.number numeral, rest)

/-- The items of an array up to its closing bracket. -/
def items? : Nat → List Char → Option (List Reading × List Char)
  | 0, _ => none
  | steps + 1, cs =>
    match value? steps (skipSpace cs) with
    | none => none
    | some (item, afterItem) =>
      match skipSpace afterItem with
      | [] => none
      | c :: rest =>
        if c = ',' then (items? steps rest).map fun (items, rest) => (item :: items, rest)
        else if c = ']' then some ([item], rest)
        else none

/-- The members of an object up to its closing brace. -/
def members? : Nat → List Char → Option (List (List Letter × Reading) × List Char)
  | 0, _ => none
  | steps + 1, cs =>
    match ((Text.after? '"' (skipSpace cs)).bind letters?) with
    | none => none
    | some (key, afterKey) =>
      match (Text.after? ':' (skipSpace afterKey)).bind fun rest => value? steps (skipSpace rest) with
      | none => none
      | some (value, afterValue) =>
        match skipSpace afterValue with
        | [] => none
        | c :: rest =>
          if c = ',' then
            (members? steps rest).map fun (members, rest) => ((key, value) :: members, rest)
          else if c = '}' then some ([(key, value)], rest)
          else none

end

/-- Reads a whole text: one value with nothing but space around it. -/
def ofText? (text : List Char) : Option Reading :=
  match value? (2 * text.length + 2) (skipSpace text) with
  | some (value, rest) => if skipSpace rest = [] then some value else none
  | none => none

mutual

/-- How many brackets are open at the deepest place. -/
def depth : Reading → Nat
  | array items => depthOfItems items + 1
  | object members => depthOfMembers members + 1
  | _ => 0

def depthOfItems : List Reading → Nat
  | [] => 0
  | item :: items => max (depth item) (depthOfItems items)

def depthOfMembers : List (List Letter × Reading) → Nat
  | [] => 0
  | (_, value) :: members => max (depth value) (depthOfMembers members)

end

end Reading

end DocBlock.Json
