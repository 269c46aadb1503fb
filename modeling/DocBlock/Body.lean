import DocBlock.Text.Bytes

/-! Function bodies by counting braces. Braces inside strings and comments count like any other. -/

namespace DocBlock

/-- How the search for a body ended, with the text found. -/
inductive Body
  /-- From the opening brace through the one that balances it. -/
  | closed (span : List Char)
  /-- The text ran out first: everything from the opening brace on. -/
  | unterminated (span : List Char)
  | absent
  deriving DecidableEq, Repr

inductive BodyState
  | closed | unterminated | absent
  deriving DecidableEq, Repr

namespace Body

def span : Body → List Char
  | closed span | unterminated span => span
  | absent => []

def state : Body → BodyState
  | closed _ => .closed
  | unterminated _ => .unterminated
  | absent => .absent

/-- The text from the first brace outside parentheses on; none if a semicolon outside parentheses or
the end comes first. A closing parenthesis without an open one is ignored. -/
def opening? : (depth : Nat) → List Char → Option (List Char)
  | _, [] => none
  | depth, c :: cs =>
    if c = '(' then opening? (depth + 1) cs
    else if c = ')' then opening? (depth - 1) cs
    else if c = ';' ∧ depth = 0 then none
    else if c = '{' ∧ depth = 0 then some (c :: cs)
    else opening? depth cs

/-- The text through the brace that closes the last of `depth + 1` open ones; none if there is no
such brace. -/
def closing? : (depth : Nat) → List Char → Option (List Char)
  | _, [] => none
  | depth, c :: cs =>
    if c = '{' then (closing? (depth + 1) cs).map (c :: ·)
    else if c = '}' then
      match depth with
      | 0 => some [c]
      | outer + 1 => (closing? outer cs).map (c :: ·)
    else (closing? depth cs).map (c :: ·)

/-- The body that follows in a text which starts at a declaration. -/
def ofText (cs : List Char) : Body :=
  match opening? 0 cs with
  | none => .absent
  | some [] => .absent
  | some (brace :: inner) =>
    match closing? 0 inner with
    | some span => .closed (brace :: span)
    | none => .unterminated (brace :: inner)

/-- The body of the declaration at a byte offset; absent past the end or inside a character. -/
def extract (code : String) (start : Nat) : Body :=
  match Text.dropBytes? start code.toList with
  | none => .absent
  | some cs => ofText cs

def text (body : Body) : String := .ofList body.span

end Body

def BodyState.word : BodyState → String
  | .closed => "closed"
  | .unterminated => "unterminated"
  | .absent => "absent"

end DocBlock
