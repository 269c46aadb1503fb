import DocBlock.Decimal.Basic

/-! JSON values and the two layouts they are written in. -/

namespace DocBlock

inductive Json
  | null
  | bool (value : Bool)
  | integer (value : Int)
  | decimal (value : Decimal)
  | string (value : String)
  | array (items : List Json)
  /-- Members in the order they are written. -/
  | object (members : List (String × Json))

namespace Json

def optional {α : Type} (toJson : α → Json) (value : Option α) : Json :=
  value.elim .null toJson

/-- The four lower-case hexadecimal digits of a code below 65536. -/
def hex4 (code : Nat) : List Char :=
  [code / 4096 % 16, code / 256 % 16, code / 16 % 16, code % 16].map Nat.digitChar

/-- Quotes, backslashes and control characters are escaped; every other character stands for
itself. -/
def escaped (c : Char) : List Char :=
  match c with
  | '"' => ['\\', '"']
  | '\\' => ['\\', '\\']
  | '\x08' => ['\\', 'b']
  | '\x0c' => ['\\', 'f']
  | '\n' => ['\\', 'n']
  | '\r' => ['\\', 'r']
  | '\t' => ['\\', 't']
  | c => if c.toNat < 0x20 then '\\' :: 'u' :: hex4 c.toNat else [c]

def quoted (text : String) : List Char :=
  '"' :: text.toList.flatMap escaped ++ ['"']

def integerText (n : Int) : List Char :=
  if n < 0 then '-' :: Nat.toDigits 10 n.natAbs else Nat.toDigits 10 n.natAbs

mutual

/-- The layout without any space. -/
def compactChars : Json → List Char
  | null => "null".toList
  | bool value => if value then "true".toList else "false".toList
  | integer value => integerText value
  | decimal value => value.text
  | string value => quoted value
  | array items => '[' :: compactItems items ++ [']']
  | object members => '{' :: compactMembers members ++ ['}']

def compactItems : List Json → List Char
  | [] => []
  | [item] => compactChars item
  | item :: next :: items => compactChars item ++ ',' :: compactItems (next :: items)

def compactMembers : List (String × Json) → List Char
  | [] => []
  | [(key, value)] => quoted key ++ ':' :: compactChars value
  | (key, value) :: next :: members =>
    quoted key ++ ':' :: compactChars value ++ ',' :: compactMembers (next :: members)

end

def lineBreak (depth : Nat) : List Char :=
  '\n' :: List.replicate (2 * depth) ' '

mutual

/-- The layout with one item or member a line, two spaces deeper than its brackets; empty brackets
stay closed. -/
def prettyChars (depth : Nat) : Json → List Char
  | null => "null".toList
  | bool value => if value then "true".toList else "false".toList
  | integer value => integerText value
  | decimal value => value.text
  | string value => quoted value
  | array [] => ['[', ']']
  | array (item :: items) =>
    '[' :: prettyItems (depth + 1) (item :: items) ++ lineBreak depth ++ [']']
  | object [] => ['{', '}']
  | object (member :: members) =>
    '{' :: prettyMembers (depth + 1) (member :: members) ++ lineBreak depth ++ ['}']

def prettyItems (depth : Nat) : List Json → List Char
  | [] => []
  | [item] => lineBreak depth ++ prettyChars depth item
  | item :: next :: items =>
    lineBreak depth ++ prettyChars depth item ++ ',' :: prettyItems depth (next :: items)

def prettyMembers (depth : Nat) : List (String × Json) → List Char
  | [] => []
  | [(key, value)] => lineBreak depth ++ quoted key ++ ':' :: ' ' :: prettyChars depth value
  | (key, value) :: next :: members =>
    lineBreak depth ++ quoted key ++ ':' :: ' ' :: prettyChars depth value ++
      ',' :: prettyMembers depth (next :: members)

end

def compact (value : Json) : String := .ofList value.compactChars

def pretty (value : Json) : String := .ofList (value.prettyChars 0)

end Json

end DocBlock
