import DocBlock.Log.Event
import DocBlock.Log.Expression
import DocBlock.Text.Bytes
import DocBlock.Text.Run

/-! Which log events a run shows. A filter is a list of directives separated by commas, each a
level, a target, or a target with a level. A target may be narrowed, in brackets, to events with a
field. -/

namespace DocBlock.Log

/-- Events of the target and of the targets that continue it, if they have the field, are shown up
to the ceiling. An empty target is that of every event. -/
structure Directive where
  target : String
  field : Option String
  ceiling : Nat
  deriving DecidableEq, Repr

abbrev Filter := List Directive

namespace Directive

def concerns (directive : Directive) (event : Event) : Bool :=
  directive.target.toList.isPrefixOf event.target.toList && directive.field.all event.hasField

/-- Longer targets are more exact, then those with a field, and of two fields the later in order. -/
def precision (left right : Directive) : Ordering :=
  (compare left.target.length right.target.length).then (compare left.field right.field)

end Directive

/-- A ceiling by name, in any case, or by number. -/
def ceiling? (name : List Char) : Option Nat :=
  let digits := if name.head? = some '+' then name.drop 1 else name
  if digits ≠ [] ∧ digits.all Char.isDigit then
    let rank := digits.foldl (fun n d => 10 * n + (d.toNat - '0'.toNat)) 0
    if rank ≤ 5 then some rank else none
  else
    match String.ofList (name.map Char.toLower) with
    | "off" => some 0
    | "" | "error" => some 1
    | "warn" => some 2
    | "info" => some 3
    | "debug" => some 4
    | "trace" => some 5
    | _ => none

/-- A number after its plus sign. -/
def isUnsigned (cs : List Char) : Bool :=
  let whole := cs.takeWhile Char.isDigit
  let afterWhole := cs.drop whole.length
  let point := if afterWhole.head? = some '.' then 1 else 0
  let fraction := if point = 1 then (afterWhole.drop 1).takeWhile Char.isDigit else []
  let exponent := afterWhole.drop (point + fraction.length)
  let power :=
    if (exponent.drop 1).head? = some '+' ∨ (exponent.drop 1).head? = some '-' then exponent.drop 2
    else exponent.drop 1
  ["inf", "infinity", "nan"].contains (String.ofList (cs.map Char.toLower)) ||
    !(whole ++ fraction).isEmpty && (exponent.isEmpty ||
      (exponent.head? = some 'e' || exponent.head? = some 'E') && !power.isEmpty &&
        power.all Char.isDigit)

/-- What a field may be compared with: a number, or an expression, which every number without a plus
sign is. -/
def isValue (cs : List Char) : Bool :=
  isExpression cs || (Text.after? '+' cs).any isUnsigned

/-- A field of a directive: its name, and whether it is compared with a value. -/
def field? (cs : List Char) : Option (String × Bool) :=
  if cs = [] then none
  else
    match cs.splitOn '=' with
    | name :: value :: _ => if isValue value then some (.ofList name, true) else none
    | _ => some (.ofList cs, false)

/-- A directive as given and without the blanks around it. Places are found in the trimmed text, as
what follows them there, and cut from the text as given. -/
structure Source where
  given : List Char
  trimmed : List Char

namespace Source

def position (source : Source) (rest : List Char) : Nat :=
  Text.byteLength source.trimmed - Text.byteLength rest

/-- The text as given between two places. -/
def cut? (source : Source) (start stop : List Char) : Option (List Char) :=
  (Text.dropBytes? (source.position start) source.given).bind
    (Text.takeBytes? (source.position stop - source.position start))

/-- The ceiling from a place on; where nothing is left, everything is shown. -/
def ceiling? (source : Source) (rest : List Char) : Option Nat :=
  (Text.dropBytes? (source.position rest) source.given).bind fun level =>
    if level = [] then some Level.trace.rank else Log.ceiling? level

/-- The ceiling after a closing bracket. -/
def endingCeiling? (source : Source) : List Char → Option Nat
  | [] => some Level.trace.rank
  | '=' :: rest => source.ceiling? rest
  | _ => none

/-- What stands after an opening bracket: the name of a span, a field in braces, or both. The inner
result is absent where the directive is about spans, and so about no event outside them; a value
makes it one of these. -/
def bracketed? (source : Source) (target : String) (inner : List Char) :
    Option (Option Directive) := do
  match inner.dropWhile fun c => c != ']' && c != '{' with
  | ']' :: rest =>
    let _ ← source.endingCeiling? rest
    return none
  | '{' :: start =>
    match start.dropWhile (· != '}') with
    | '}' :: ']' :: rest =>
      let (name, hasValue) ← field? (← source.cut? start ('}' :: ']' :: rest))
      let ceiling ← source.endingCeiling? rest
      return if hasValue ∨ inner.head? ≠ some '{' then none else some ⟨target, some name, ceiling⟩
    | _ => none
  | _ => none

end Source

def beginsTarget (c : Char) : Bool :=
  c == '-' || c == ':' || c == '_' || Text.isAlphanumeric c

/-- Reads one directive. The inner result is absent where the directive is about spans. -/
def directive? (given : List Char) : Option (Option Directive) :=
  let source : Source := ⟨given, Text.trim given⟩
  match source.trimmed with
  | [] => none
  | '[' :: inner => source.bracketed? "" inner
  | first :: _ =>
    if beginsTarget first then
      match source.trimmed.dropWhile fun c => c != '=' && c != '[' with
      | [] =>
        match ceiling? given with
        | some ceiling => some (some ⟨"", none, ceiling⟩)
        | none => some (some ⟨.ofList given, none, Level.trace.rank⟩)
      | mark :: inner => do
        let target := String.ofList (← source.cut? source.trimmed (mark :: inner))
        if mark = '=' then return some ⟨target, none, ← source.ceiling? inner⟩
        else source.bracketed? target inner
    else none

namespace Filter

def warnings : Filter := [⟨"", none, Level.warn.rank⟩]

/-- The program's own events in detail, and the notable ones of everything else. -/
def verbose : Filter := [⟨"phpdocgen", none, Level.debug.rank⟩, ⟨"", none, Level.info.rank⟩]

/-- The directives between commas, empty ones skipped. Where there is none, only errors are
shown. -/
def parse? (text : String) : Option Filter := do
  let parts := (text.toList.splitOn ',').filter (· ≠ [])
  let directives ← parts.mapM directive?
  return if directives.isEmpty then [⟨"", none, Level.error.rank⟩] else directives.filterMap id

/-- The most precise of the directives that concern an event, and of equally precise ones the
last. -/
def decisive? (filter : Filter) (event : Event) : Option Directive :=
  (filter.filter (·.concerns event)).foldl
    (fun best directive =>
      if best.all fun found : Directive => (found.precision directive).isLE then some directive
      else best) none

def shows (filter : Filter) (event : Event) : Bool :=
  (filter.decisive? event).any fun directive => event.level.rank ≤ directive.ceiling

end Filter

end DocBlock.Log
