import DocBlock.Decimal.Binary
import DocBlock.Json.Reading

/-! The value of a reading: strings whose surrogates pair up, whole numbers of 64 bits, all other
numbers rounded to binary floating point, and objects with each key once. -/

namespace DocBlock.Json

/-- The text of a string; none where half a surrogate pair stands alone. -/
def joined? : List Letter → Option (List Char)
  | [] => some []
  | .char c :: letters => (joined? letters).map (c :: ·)
  | .half high :: .half low :: letters =>
    if high < 0xDC00 ∧ 0xDC00 ≤ low then
      (joined? letters).map
        (Char.ofNat (0x10000 + (high - 0xD800) * 0x400 + (low - 0xDC00)) :: ·)
    else none
  | .half _ :: _ => none

def text? (letters : List Letter) : Option String :=
  (joined? letters).map String.ofList

namespace Numeral

def digitValue (c : Char) : Nat := c.toNat - '0'.toNat

def naturalOf (digits : List Char) : Nat :=
  digits.foldl (fun n c => 10 * n + digitValue c) 0

/-- Significands stay below this bound. -/
def wordLimit : Nat := Nat.pow 2 64

/-- Appends digits to a significand as long as it stays below the bound, with the number of digits
that did not go in. -/
def absorb : (significand : Nat) → List Char → Nat × Nat
  | significand, [] => (significand, 0)
  | significand, c :: digits =>
    let next := 10 * significand + digitValue c
    if next < wordLimit then absorb next digits else (significand, digits.length + 1)

/-- The significand and the power of ten: whole digits that do not fit raise the power, fraction
digits that do not fit are dropped. -/
def parts (numeral : Numeral) : Nat × Int :=
  let (whole, overflow) := absorb 0 numeral.whole
  let fraction := numeral.fraction.getD []
  let (significand, dropped) := absorb whole fraction
  let written : Int :=
    match numeral.exponent with
    | none => 0
    | some (true, digits) => -(naturalOf digits : Int)
    | some (false, digits) => naturalOf digits
  (significand, (overflow : Int) - (fraction.length - dropped : Nat) + written)

def isWhole (numeral : Numeral) : Bool :=
  numeral.fraction.isNone && numeral.exponent.isNone

/-- Whole numbers of 64 bits keep their value, except a negative zero; none if the number is out of
range. -/
def value? (numeral : Numeral) : Option Json :=
  let natural := naturalOf numeral.whole
  let fits :=
    if numeral.negative then 0 < natural ∧ natural ≤ wordLimit / 2 else natural < wordLimit
  if numeral.isWhole ∧ fits then
    some (.integer (if numeral.negative then -natural else natural))
  else
    let (significand, exponent) := numeral.parts
    (Binary.ofScaled? significand exponent).map fun number =>
      .decimal (number.shortest numeral.negative)

end Numeral

/-- Puts a member at the place of its key; a key that is there already gets the new value. -/
def insertMember (key : String) (value : Json) : List (String × Json) → List (String × Json)
  | [] => [(key, value)]
  | (other, kept) :: members =>
    if key < other then (key, value) :: (other, kept) :: members
    else if key = other then (key, value) :: members
    else (other, kept) :: insertMember key value members

def sortMembers (members : List (String × Json)) : List (String × Json) :=
  members.foldl (fun sorted (key, value) => insertMember key value sorted) []

namespace Reading

mutual

/-- The value of a reading; none if a string or a number in it has none. -/
def json? : Reading → Option Json
  | null => some .null
  | bool value => some (.bool value)
  | number numeral => numeral.value?
  | string letters => (text? letters).map Json.string
  | array items => (jsonItems? items).map Json.array
  | object members => (jsonMembers? members).map fun members => .object (sortMembers members)

def jsonItems? : List Reading → Option (List Json)
  | [] => some []
  | item :: items =>
    match json? item, jsonItems? items with
    | some item, some items => some (item :: items)
    | _, _ => none

def jsonMembers? : List (List Letter × Reading) → Option (List (String × Json))
  | [] => some []
  | (key, value) :: members =>
    match text? key, json? value, jsonMembers? members with
    | some key, some value, some members => some ((key, value) :: members)
    | _, _, _ => none

end

end Reading

/-- The value of a JSON text. -/
def ofText? (text : String) : Option Json :=
  (Reading.ofText? text.toList).bind Reading.json?

example : ((ofText? "[1, 2.50 ,\x7b\"b\":-0,\"a\":\"\\ud83d\\ude00\"\x7d]").map compact) =
    some "[1,2.5,\x7b\"a\":\"😀\",\"b\":-0.0\x7d]" := by decide +kernel

end DocBlock.Json
