import DocBlock.Completion.Generation
import DocBlock.Report
import DocBlock.Text.Blank

/-! Doc blocks for the functions of a report that lack one. Each wanted function is asked for once,
in the order of the report, whatever became of those before it. -/

namespace DocBlock.Generate

/-- A function for which a doc block is wanted, with the path of its file. -/
structure Target where
  path : String
  function : Function
  deriving DecidableEq, Repr

def wants (includeStale : Bool) (function : Function) : Bool :=
  match function.status with
  | .missing => true
  | .stale => includeStale
  | .documented => false

def targets (includeStale : Bool) (report : Report) : List Target :=
  report.flatMap fun file =>
    (file.functions.filter (wants includeStale)).map fun function => ⟨file.path, function⟩

/-- A target with what came of it. -/
structure Result where
  target : Target
  attempt : Completion.Attempt

/-- Asks for each target in turn, on the state that the one before left. -/
def results {σ : Type} (transport : Completion.Transport σ) (model : String) :
    List Target → σ → List Result × σ
  | [], state => ([], state)
  | target :: targets, state =>
    let (attempt, next) := Completion.attempt transport model target.function.body state
    let (others, last) := results transport model targets next
    (⟨target, attempt⟩ :: others, last)

namespace Target

def place (target : Target) : String :=
  s!"{target.path}:{target.function.line} {target.function.name}"

def startEvent (target : Target) : Log.Event :=
  ⟨.info, "phpdocgen", "generating doc block",
    [("function", target.function.name), ("path", target.path)]⟩

end Target

namespace Result

def failed (result : Result) : Bool :=
  match result.attempt.outcome with
  | .ok _ => false
  | .error _ => true

/-- A comment with the place, and the doc block without the blanks around it. -/
def output (result : Result) : String :=
  match result.attempt.outcome with
  | .ok block =>
    s!"// {result.target.place}\n{String.ofList (Text.trim block.toList)}\n\n"
  | .error _ => ""

def failureEvents (result : Result) : List Log.Event :=
  match result.attempt.outcome with
  | .ok _ => []
  | .error error => [⟨.warn, "phpdocgen", s!"{result.target.place}: {error.message}", []⟩]

def events (result : Result) : List Log.Event :=
  result.target.startEvent :: result.attempt.events ++ result.failureEvents

end Result

def failures (results : List Result) : Nat := results.countP Result.failed

def output (results : List Result) : String := String.join (results.map Result.output)

def events (results : List Result) : List Log.Event := results.flatMap Result.events

def failureLine (count : Nat) : String :=
  s!"error: {count} doc block(s) could not be generated\n"

end DocBlock.Generate
