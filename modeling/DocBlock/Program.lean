import DocBlock.CommandLine
import DocBlock.Generate
import DocBlock.Input
import DocBlock.Log.Filter

/-! The program: what each command writes and the status it exits with. -/

namespace DocBlock

/-- What goes to the error stream: log events, which a filter may hide, and plain text. -/
inductive Notice
  | event (event : Log.Event)
  | line (text : String)
  deriving DecidableEq, Repr

def Notice.shown (filter : Log.Filter) : Notice → String
  | .event logged => if filter.shows logged then logged.line else ""
  | .line text => text

structure Outcome where
  status : Nat
  output : String
  notices : List Notice
  deriving DecidableEq, Repr

namespace Outcome

def failed (events : List Log.Event) (failure : Failure) : Outcome :=
  ⟨1, "", events.map .event ++ [.line failure.text]⟩

def errorText (outcome : Outcome) (filter : Log.Filter) : String :=
  String.join (outcome.notices.map (Notice.shown filter))

end Outcome

namespace Program

/-- Loads a report and goes on with it; a failure ends the run. -/
def withReport {α : Type} (world : World) (inputs : List String)
    (failed : Outcome → α) (proceed : List Log.Event → Report → α) : α :=
  let loaded := Input.load world inputs
  match loaded.result with
  | .ok report => proceed loaded.events report
  | .error failure => failed (.failed loaded.events failure)

/-- Renders a report in a format. The format is looked at before any input. -/
def reporting (world : World) (inputs : List String) (format : String)
    (proceed : List Log.Event → Report → Format → Outcome) : Outcome :=
  match Format.ofName format with
  | .error error => .failed [] (.plain error)
  | .ok format =>
    withReport world inputs id fun events report => proceed events report format

def list (world : World) (inputs : List String) (format : String) : Outcome :=
  reporting world inputs format fun events report format =>
    ⟨0, report.render format, events.map .event⟩

/-- Reports the stale functions; there should be none. -/
def check (world : World) (inputs : List String) (format : String) : Outcome :=
  reporting world inputs format fun events report format =>
    let stale := report.stale
    ⟨if stale.isEmpty then 0 else 1, stale.render format, events.map .event⟩

/-- Asks for the doc blocks that a report lacks, once everything has been loaded. -/
def generate {σ : Type} (world : World) (transport : Completion.Transport σ)
    (inputs : List String) (includeStale : Bool) (model : String) (state : σ) : Outcome × σ :=
  withReport world inputs (·, state) fun events report =>
    let (results, state) :=
      Generate.results transport model (Generate.targets includeStale report) state
    let failures := Generate.failures results
    let notices := (events ++ Generate.events results).map Notice.event
    let outcome : Outcome :=
      if 0 < failures then
        ⟨1, Generate.output results, notices ++ [.line (Generate.failureLine failures)]⟩
      else ⟨0, Generate.output results, notices⟩
    (outcome, state)

/-- Runs a command. The transport depends on the settings of the command. -/
def command {σ : Type} (world : World) (transport : Completion.Settings → Completion.Transport σ)
    (state : σ) : Command → Outcome × σ
  | .list inputs format => (list world inputs format, state)
  | .check inputs format => (check world inputs format, state)
  | .generate inputs includeStale settings =>
    generate world (transport settings) inputs includeStale settings.model state

/-- The filter of a run: verbosity first, then the variable, then warnings. -/
def filter (environment : String → Option String) (verbose : Bool) : Log.Filter :=
  if verbose then .verbose
  else ((environment "RUST_LOG").bind Log.Filter.parse?).getD .warnings

/-- What a run leaves behind: its status and the two streams. -/
structure Written where
  status : Nat
  output : String
  errorText : String
  deriving DecidableEq, Repr

/-- Runs a command line that has been read. -/
def runInvocation {σ : Type} (environment : String → Option String) (invocation : Invocation)
    (world : World) (transport : Completion.Settings → Completion.Transport σ) (state : σ) :
    Written × σ :=
  let (outcome, state) := command world transport state invocation.command
  let filter := filter environment invocation.verbose
  (⟨outcome.status, outcome.output, outcome.errorText filter⟩, state)

/-- Reads a command line and runs its command. -/
def run {σ : Type} (environment : String → Option String) (arguments : List String)
    (world : World) (transport : Completion.Settings → Completion.Transport σ) (state : σ) :
    Except Usage (Written × σ) :=
  (CommandLine.parse environment arguments).map fun invocation =>
    runInvocation environment invocation world transport state

end Program

end DocBlock
