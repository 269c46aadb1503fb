/-! Patterns for the names of files: question marks, stars and bracketed sets. Two stars alone
between slashes stand for any directories. -/

namespace DocBlock.Glob

/-- One character of a bracketed set, or all from one to another. -/
inductive Span
  | one (c : Char)
  | fromTo (first last : Char)
  deriving DecidableEq, Repr

def Span.contains (c : Char) : Span → Bool
  | .one d => c == d
  | .fromTo first last => first ≤ c && c ≤ last

inductive Token
  | char (c : Char)
  | any
  | sequence
  /-- Any directories, as two stars say. -/
  | directories
  | within (spans : List Span)
  | without (spans : List Span)
  deriving DecidableEq, Repr

def Token.char? : Token → Option Char
  | char c => some c
  | _ => none

inductive PatternFault
  | invalidRange
  | recursiveNotAlone
  | tooManyStars
  deriving DecidableEq, Repr

def PatternFault.text : PatternFault → String
  | .invalidRange => "invalid range pattern"
  | .recursiveNotAlone => "recursive wildcards must form a single path component"
  | .tooManyStars => "wildcards are either regular `*` or recursive `**`"

/-- A fault and the number of characters before it. -/
structure PatternError where
  position : Nat
  fault : PatternFault
  deriving DecidableEq, Repr

def PatternError.message (error : PatternError) : String :=
  s!"Pattern syntax error near position {error.position}: {error.fault.text}"

/-- The spans of a set, without its brackets. A hyphen between two characters makes a range of
them. -/
def spans : List Char → List Span
  | first :: '-' :: last :: cs => .fromTo first last :: spans cs
  | c :: cs => .one c :: spans cs
  | [] => []

/-- The set after an opening bracket, with the number of characters through its closing one. The
first character of a set is never its end. -/
def set? : List Char → Option (Token × Nat)
  | '!' :: first :: cs =>
    if ']' ∈ cs then
      let inner := first :: cs.takeWhile (· != ']')
      some (.without (spans inner), inner.length + 2)
    else none
  | ['!'] => none
  | first :: cs =>
    if ']' ∈ cs then
      let inner := first :: cs.takeWhile (· != ']')
      some (.within (spans inner), inner.length + 1)
    else none
  | [] => none

/-- The token of a run of stars at a position, with the number of characters it takes. -/
def stars (position : Nat) (before : Option Char) (run : Nat) (after : Option Char) :
    Except PatternError (Token × Nat) :=
  if run = 1 then .ok (.sequence, 1)
  else if 2 < run then .error ⟨position + 2, .tooManyStars⟩
  else if before.all (· == '/') then
    match after with
    | none => .ok (.directories, 2)
    | some c => if c = '/' then .ok (.directories, 3) else .error ⟨position + 2, .recursiveNotAlone⟩
  else .error ⟨position - 1, .recursiveNotAlone⟩

/-- The tokens from a position on. The first `skip` characters belong to a token already read. -/
def tokensFrom : (before : Option Char) → (skip position : Nat) → List Char →
    Except PatternError (List Token)
  | _, _, _, [] => .ok []
  | _, skip + 1, position, c :: cs => tokensFrom (some c) skip (position + 1) cs
  | before, 0, position, c :: cs =>
    if c = '?' then (Token.any :: ·) <$> tokensFrom (some c) 0 (position + 1) cs
    else if c = '*' then
      let run := (c :: cs).takeWhile (· == '*')
      match stars position before run.length ((c :: cs).drop run.length).head? with
      | .ok (token, taken) => (token :: ·) <$> tokensFrom (some c) (taken - 1) (position + 1) cs
      | .error error => .error error
    else if c = '[' then
      match set? cs with
      | some (token, taken) => (token :: ·) <$> tokensFrom (some c) taken (position + 1) cs
      | none => .error ⟨position, .invalidRange⟩
    else (Token.char c :: ·) <$> tokensFrom (some c) 0 (position + 1) cs

def tokens (pattern : List Char) : Except PatternError (List Token) :=
  tokensFrom none 0 0 pattern

/-- A text and all that is left of it after dropping characters at its head. -/
def suffixes : List Char → List (List Char)
  | [] => [[]]
  | c :: cs => (c :: cs) :: suffixes cs

/-- Whether tokens match a whole name. -/
def matchesName : List Token → List Char → Bool
  | [], name => name.isEmpty
  | .sequence :: tokens, name => (suffixes name).any (matchesName tokens)
  | .directories :: _, _ => false
  | _ :: _, [] => false
  | .char d :: tokens, c :: name => c == d && matchesName tokens name
  | .any :: tokens, _ :: name => matchesName tokens name
  | .within spans :: tokens, c :: name => spans.any (Span.contains c) && matchesName tokens name
  | .without spans :: tokens, c :: name => !spans.any (Span.contains c) && matchesName tokens name

/-- The text of tokens that are all plain characters. -/
def literal? (tokens : List Token) : Option String :=
  (tokens.mapM Token.char?).map String.ofList

/-- A pattern by components, with whether it asks for directories only. -/
structure Pattern where
  components : List (List Token)
  directoriesOnly : Bool
  isAbsolute : Bool
  deriving DecidableEq, Repr

/-- The pieces between slashes; a slash at the end begins no piece. -/
def pieces (pattern : List Char) : List (List Char) :=
  let all := pattern.splitOn '/'
  if all.getLast? = some [] then all.dropLast else all

/-- Faults of the pattern as a whole come before those of its components, which have positions of
their own. -/
def Pattern.parse (text : String) : Except PatternError Pattern := do
  let pattern := text.toList
  let _ ← tokens pattern
  let isAbsolute := pattern.head? = some '/'
  let components ← (pieces (if isAbsolute then pattern.drop 1 else pattern)).mapM tokens
  return ⟨components, pattern.getLast? = some '/', isAbsolute⟩

example : (Pattern.parse "a/***").toOption = none := by decide
example : (tokens "[a-c]*".toList).toOption = some [.within [.fromTo 'a' 'c'], .sequence] := by
  decide

end DocBlock.Glob
