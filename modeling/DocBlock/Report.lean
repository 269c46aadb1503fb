import DocBlock.Error
import DocBlock.Function
import DocBlock.Json.Basic

/-! Reports: the functions of each input, as lines of text with a summary or as JSON. -/

namespace DocBlock

structure FileReport where
  path : String
  functions : List Function
  deriving DecidableEq, Repr

abbrev Report := List FileReport

inductive Format
  | text | json
  deriving DecidableEq, Repr

def Format.ofName (name : String) : Except Error Format :=
  if name = "text" ∨ name = "txt" then .ok .text
  else if name = "json" then .ok .json
  else .error (.unknownFormat name)

namespace Report

def functions (report : Report) : List Function := report.flatMap FileReport.functions

def count (report : Report) (status : Status) : Nat :=
  report.functions.countP (·.status = status)

/-- The stale functions only, and the files that have any. -/
def stale (report : Report) : Report :=
  (report.map fun file => { file with functions := file.functions.filter Function.isStale }).filter
    fun file => !file.functions.isEmpty

def nameList (parameters : List Parameter) : String :=
  if parameters.isEmpty then "-"
  else ", ".intercalate (parameters.map fun parameter => "$" ++ parameter.name)

def statusText (function : Function) : String :=
  match function.status with
  | .stale =>
    s!"stale (doc: {nameList function.documented}; code: {nameList function.declared})"
  | status => status.word

def functionLine (path : String) (function : Function) : String :=
  s!"{path}:{function.line}  {function.name}  {statusText function}\n"

def summaryLine (documented missing stale : Nat) : String :=
  let total := documented + missing + stale
  let noun := if total = 1 then "function" else "functions"
  s!"{total} {noun}: {documented} documented, {missing} missing, {stale} stale\n"

def functionLines (report : Report) : List String :=
  report.flatMap fun file => file.functions.map (functionLine file.path)

def text (report : Report) : String :=
  String.join report.functionLines ++
    summaryLine (report.count .documented) (report.count .missing) (report.count .stale)

def parameterJson (parameter : Parameter) : Json :=
  .object [("type", .optional .string parameter.type), ("name", .string parameter.name),
    ("default", .optional .string parameter.default)]

def functionJson (function : Function) : Json :=
  .object [("status", .string function.status.word), ("name", .string function.name),
    ("doc_comment", .optional .string function.docComment), ("body", .string function.body),
    ("body_state", .string function.bodyState.word),
    ("return_type", .optional .string function.returnType), ("offset", .integer function.offset),
    ("line", .integer function.line),
    ("declared_params", .array (function.declared.map parameterJson)),
    ("doc_params", .array (function.documented.map parameterJson))]

def fileJson (file : FileReport) : Json :=
  .object [("path", .string file.path), ("functions", .array (file.functions.map functionJson))]

def json (report : Report) : String :=
  (Json.array (report.map fileJson)).pretty ++ "\n"

def render (report : Report) : Format → String
  | .text => report.text
  | .json => report.json

end Report

end DocBlock
