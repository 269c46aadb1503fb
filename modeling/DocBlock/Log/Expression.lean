import DocBlock.Text.Alphanumeric
import DocBlock.Text.Blank
import DocBlock.Text.Hexadecimal

/-! Regular expressions that stand where a closing brace cannot: counted repetitions and names in
braces never close and are faults. -/

namespace DocBlock.Log.Expression

/-- The flags that decide which texts are expressions. -/
structure Mode where
  /-- Characters are those of Unicode. Without it only ASCII can be matched. -/
  unicode : Bool
  /-- Blanks and comments do not count. -/
  spaced : Bool
  deriving DecidableEq, Repr

/-- Drops blanks and comments at the head. A comment runs from a hash to the end of its line. -/
def withoutComments : (inComment : Bool) → List Char → List Char
  | _, [] => []
  | true, c :: cs => withoutComments (c != '\n') cs
  | false, c :: cs =>
    if c = '#' then withoutComments true cs
    else if Text.isBlank c then withoutComments false cs
    else c :: cs

namespace Mode

/-- The text from the next character that counts. -/
def next (mode : Mode) (cs : List Char) : List Char :=
  if mode.spaced then withoutComments false cs else cs

/-- Whether a bracketed set may hold the character. -/
def admits (mode : Mode) (c : Char) : Bool := mode.unicode || c.toNat < 0x80

def flagLetters : List Char := ['i', 'm', 's', 'U', 'u', 'R', 'x']

/-- A flag that is set before the hyphen, cleared after it, and otherwise kept. -/
def flag (letter : Char) (flags : List Char) (kept : Bool) : Bool :=
  if letter ∈ flags.takeWhile (· != '-') then true else if letter ∈ flags then false else kept

/-- The mode under flags, each of which may come once. A hyphen may not come last. -/
def withFlags? (mode : Mode) (flags : List Char) : Option Mode :=
  if flags.all (fun c => c == '-' || flagLetters.contains c) ∧ flags.Nodup ∧
      flags.getLast? ≠ some '-' then
    some ⟨flag 'u' flags mode.unicode, flag 'x' flags mode.spaced⟩
  else none

end Mode

/-- What a piece of an expression matches: one character, any of a set, or no character at all. -/
inductive Piece
  | char (c : Char)
  | set
  | place
  deriving DecidableEq, Repr

/-- A number of hexadecimal digits after those already read. -/
def hexDigits? (mode : Mode) : (count value : Nat) → List Char → Option (Nat × List Char)
  | 0, value, cs => some (value, cs)
  | count + 1, value, cs =>
    match mode.next cs with
    | [] => none
    | c :: rest =>
      (Text.hexValue? c).bind fun digit => hexDigits? mode count (16 * value + digit) rest

/-- The character of a code in so many digits. Two digits spell a byte, which is a character up to
127 only unless characters are those of Unicode. -/
def hexCharacter? (mode : Mode) (digits : Nat) (cs : List Char) : Option (Piece × List Char) := do
  let (code, rest) ← hexDigits? mode digits 0 cs
  if code.isValidChar ∧ (mode.unicode ∨ digits ≠ 2 ∨ code < 0x80) then
    return (.char (Char.ofNat code), rest)
  else none

/-- The categories with names of one letter, in either case. -/
def categoryLetters : List Char := "CLMNPSZclmnpsz".toList

/-- The piece after a backslash. Sets that reach beyond ASCII need Unicode; borders of words must do
without, because an automaton matches expressions. -/
def escape? (mode : Mode) : List Char → Option (Piece × List Char)
  | [] => none
  | c :: cs =>
    if c = 'x' then hexCharacter? mode 2 cs
    else if c = 'u' then hexCharacter? mode 4 cs
    else if c = 'U' then hexCharacter? mode 8 cs
    else if c = 'p' ∨ c = 'P' then
      match mode.next cs with
      | [] => none
      | category :: rest =>
        if mode.unicode ∧ category ∈ categoryLetters then some (.set, rest) else none
    else if c ∈ ['d', 's', 'w'] then some (.set, cs)
    else if c ∈ ['D', 'S', 'W'] then if mode.unicode then some (.set, cs) else none
    else if c = 'a' then some (.char '\x07', cs)
    else if c = 'f' then some (.char '\x0c', cs)
    else if c = 't' then some (.char '\t', cs)
    else if c = 'n' then some (.char '\n', cs)
    else if c = 'r' then some (.char '\r', cs)
    else if c = 'v' then some (.char '\x0b', cs)
    else if c = 'A' ∨ c = 'z' then some (.place, cs)
    else if c ∈ ['b', 'B', '<', '>'] then if mode.unicode then none else some (.place, cs)
    else if c.toNat < 0x80 ∧ !c.isAlphanum then some (.char c, cs)
    else none

def setNames : List String :=
  ["alnum", "alpha", "ascii", "blank", "cntrl", "digit", "graph", "lower", "print", "punct", "space",
    "upper", "word", "xdigit"]

/-- A named set after its opening bracket: whether it is negated, and the rest. -/
def namedSet? (cs : List Char) : Option (Bool × List Char) :=
  match cs with
  | ':' :: inner =>
    let negated := inner.head? = some '^'
    let inner := if negated then inner.drop 1 else inner
    let name := inner.takeWhile (· != ':')
    match inner.drop name.length with
    | ':' :: ']' :: rest =>
      if setNames.contains (String.ofList name) then some (negated, rest) else none
    | _ => none
  | _ => none

/-- A member of a set, which is a character or again a set. -/
def member? (mode : Mode) : List Char → Option (Option Char × List Char)
  | [] => none
  | '\\' :: cs =>
    match escape? mode cs with
    | some (.char c, rest) => if mode.admits c then some (some c, rest) else none
    | some (.set, rest) => some (none, rest)
    | _ => none
  | c :: cs => if mode.admits c then some (some c, cs) else none

/-- A member or a range of characters. A hyphen before a bracket or another hyphen makes no
range. -/
def memberOrRange? (mode : Mode) (cs : List Char) : Option (List Char) := do
  let (first, rest) ← member? mode cs
  match mode.next rest with
  | '-' :: tail =>
    match mode.next tail with
    | [] => none
    | ']' :: _ | '-' :: _ => return '-' :: tail
    | tail =>
      let (last, rest) ← member? mode tail
      if (← first) ≤ (← last) then return rest else none
  | rest => return rest

/-- How much of a bracketed set has been read. -/
inductive Progress
  | nothing | hyphens | members
  deriving DecidableEq, Repr

/-- A caret after the opening bracket negates the set, which needs Unicode. -/
def opened? (mode : Mode) (cs : List Char) : Option (List Char) :=
  match mode.next cs with
  | '^' :: rest => if mode.unicode then some rest else none
  | rest => some rest

/-- Two of these join sets. -/
def isOperator (c : Char) : Bool := c == '&' || c == '-' || c == '~'

/-- What follows a bracketed set. The first argument bounds the steps, the second counts the sets
around the innermost open one. Hyphens at its start and a closing bracket as its first member stand
for themselves. -/
def set? (mode : Mode) : (steps depth : Nat) → Progress → List Char → Option (List Char)
  | 0, _, _, _ => none
  | steps + 1, depth, progress, cs =>
    match mode.next cs with
    | [] => none
    | c :: rest =>
      if c = ']' then
        if progress = .nothing then set? mode steps depth .members rest
        else
          match depth with
          | 0 => some rest
          | outer + 1 => set? mode steps outer .members rest
      else if c = '-' ∧ progress ≠ .members then set? mode steps depth .hyphens rest
      else if c = '[' then
        match namedSet? rest with
        | some (negated, rest) =>
          if negated && !mode.unicode then none else set? mode steps depth .members rest
        | none => (opened? mode rest).bind (set? mode steps (depth + 1) .nothing)
      else if isOperator c ∧ rest.head? = some c then set? mode steps depth .members (rest.drop 1)
      else (memberOrRange? mode (c :: rest)).bind (set? mode steps depth .members)

/-- What reading has come to: the mode, the modes around the open groups, the names of groups, and
whether the last piece can be repeated. -/
structure Context where
  mode : Mode
  outer : List Mode
  names : List (List Char)
  repeatable : Bool
  deriving DecidableEq, Repr

def isGroupName : List Char → Bool
  | [] => false
  | c :: cs =>
    (c == '_' || Text.isAlphabetic c) &&
      cs.all fun c => c == '_' || c == '.' || c == '[' || c == ']' || Text.isAlphanumeric c

namespace Context

def start : Context := ⟨⟨true, false⟩, [], [], false⟩

/-- Inside a group, which has a mode of its own. -/
def inside (context : Context) (mode : Mode) : Context :=
  { context with mode := mode, outer := context.mode :: context.outer, repeatable := false }

/-- A group whose name comes next. No two groups share one. -/
def named? (context : Context) (cs : List Char) : Option (Context × List Char) :=
  let name := cs.takeWhile (· != '>')
  match cs.drop name.length with
  | [] => none
  | _ :: rest =>
    if isGroupName name ∧ name ∉ context.names then
      some ({ context.inside context.mode with names := name :: context.names }, rest)
    else none

/-- Flags hold inside a group after a colon, and up to the end of the group around them without
one. -/
def flagged? (context : Context) (cs : List Char) : Option (Context × List Char) := do
  let flags := cs.takeWhile fun c => c != ':' && c != ')'
  let mode ← context.mode.withFlags? flags
  match cs.drop flags.length with
  | [] => none
  | close :: rest =>
    if close = ':' then return (context.inside mode, rest)
    else if flags = [] then none
    else return ({ context with mode := mode, repeatable := false }, rest)

/-- What an opening parenthesis begins. -/
def opened? (context : Context) (cs : List Char) : Option (Context × List Char) :=
  match context.mode.next cs with
  | '?' :: 'P' :: '<' :: cs => context.named? cs
  | '?' :: '<' :: cs => context.named? cs
  | '?' :: cs => context.flagged? cs
  | cs => some (context.inside context.mode, cs)

def closed? (context : Context) : Option Context :=
  match context.outer with
  | [] => none
  | mode :: outer => some { context with mode := mode, outer := outer, repeatable := true }

end Context

/-- One step of reading: a piece, a repetition, a bar, or an end of a group. -/
def step? (context : Context) (c : Char) (cs : List Char) : Option (Context × List Char) :=
  let read : Context := { context with repeatable := true }
  if c = '(' then context.opened? cs
  else if c = ')' then context.closed?.map (·, cs)
  else if c = '|' then some ({ context with repeatable := false }, cs)
  else if c = '[' then
    ((opened? context.mode cs).bind fun cs =>
      set? context.mode (cs.length + 1) 0 .nothing cs).map (read, ·)
  else if c = '*' ∨ c = '+' ∨ c = '?' then if context.repeatable then some (read, cs) else none
  else if c = '{' then none
  else if c = '\\' then (escape? context.mode cs).map fun (_, rest) => (read, rest)
  else if c = '.' ∧ !context.mode.unicode then none
  else some (read, cs)

/-- Whether the rest of a text completes an expression. The first argument bounds the steps. -/
def completes : (steps : Nat) → Context → List Char → Bool
  | 0, _, _ => false
  | steps + 1, context, cs =>
    match context.mode.next cs with
    | [] => context.outer.isEmpty
    | c :: rest => (step? context c rest).any fun (context, rest) => completes steps context rest

end Expression

/-- Whether a text is a regular expression. -/
def isExpression (text : List Char) : Bool :=
  Expression.completes (text.length + 1) .start text

example : ["", "a*?", "[]a-z&&[^b]]+", "(?i)x|(?-u:\\b)?", "(?P<n>\\pL)", "(?x)[ a # ]\n]"].all
    (isExpression ·.toList) = true := by decide +kernel
example : ["*", "(", ")", "a\x7b2", "[z-a]", "\\b", "(?-u).", "(?i)*", "[a", "\\1", "(?)", "\\xf"].any
    (isExpression ·.toList) = false := by decide +kernel

end DocBlock.Log
