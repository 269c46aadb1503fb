import DocBlock.Text.Combining

/-! Log events and their lines. -/

namespace DocBlock.Log

inductive Level
  | error | warn | info | debug | trace
  deriving DecidableEq, Repr

/-- Higher is more detailed; a ceiling of 0 shows nothing. -/
def Level.rank : Level → Nat
  | .error => 1
  | .warn => 2
  | .info => 3
  | .debug => 4
  | .trace => 5

def Level.word : Level → String
  | .error => "ERROR"
  | .warn => "WARN"
  | .info => "INFO"
  | .debug => "DEBUG"
  | .trace => "TRACE"

structure Event where
  level : Level
  target : String
  message : String
  /-- Names with values as they are shown. -/
  fields : List (String × String)
  deriving DecidableEq, Repr

/-- Every event has its message as a field. -/
def Event.hasField (event : Event) (name : String) : Bool :=
  name = "message" || event.fields.any fun field => field.1 = name

def hexDigits (n : Nat) : String := .ofList (Nat.toDigits 16 n)

/-- A code point in the spelling that shows invisible characters. -/
def codePoint (c : Char) : String := "\\u\x7b" ++ hexDigits c.toNat ++ "\x7d"

/-- Characters that can begin a terminal's control sequence are spelled out. -/
def shown (c : Char) : String :=
  let n := c.toNat
  if n = 0x07 ∨ n = 0x08 ∨ n = 0x0C ∨ n = 0x1B ∨ n = 0x7F then
    (if n < 0x10 then "\\x0" else "\\x") ++ hexDigits n
  else if 0x80 ≤ n ∧ n ≤ 0x9F then codePoint c
  else c.toString

/-- A word in quotes, its combining characters spelled out. -/
def quotedWord (word : String) : String :=
  let spelled := word.toList.map fun c => if Text.isCombining c then codePoint c else c.toString
  "\"" ++ String.join spelled ++ "\""

/-- Level, message and fields on one line. -/
def Event.line (event : Event) : String :=
  let fields := event.fields.map fun (name, value) => s!" {name}={value}"
  event.level.word ++ " " ++ String.join (event.message.toList.map shown) ++ String.join fields ++
    "\n"

end DocBlock.Log
