import DocBlock.Proofs.Json.Layout
import DocBlock.Report
import Mathlib.Data.List.Basic

/-! Reading JSON reports back. Main statement: a report in JSON holds every field of every function
with its status, so no two reports are written alike. -/

namespace DocBlock

namespace Json.Reading

/-- The value of the one member with this key. -/
def member? (key : String) : Reading → Option Reading
  | .object members =>
    match members.filter fun member => text? member.1 = some key with
    | [(_, value)] => some value
    | _ => none
  | _ => none

def string? : Reading → Option String
  | .string letters => text? letters
  | _ => none

/-- A whole number without a sign, of any size. -/
def natural? : Reading → Option Nat
  | .number numeral =>
    if numeral.isWhole && !numeral.negative then some (Numeral.naturalOf numeral.whole) else none
  | _ => none

variable {α β : Type}

/-- The one member with this key, read. -/
def field? (key : String) (read? : Reading → Option α) (reading : Reading) : Option α :=
  (member? key reading).bind read?

/-- The inner result is absent for a null. -/
def optional? (read? : Reading → Option α) : Reading → Option (Option α)
  | .null => some none
  | value => (read? value).map some

def list? (read? : Reading → Option α) : Reading → Option (List α)
  | .array items => items.mapM read?
  | _ => none

theorem member?_object (key : String) (members : List (String × Json)) :
    member? key (Json.object members).reading =
      match members.filter fun member => member.1 = key with
      | [(_, value)] => some value.reading
      | _ => none := by
  have filtered (members : List (String × Json)) :
      (memberReadings members).filter (fun member => text? member.1 = some key) =
        memberReadings (members.filter fun member => member.1 = key) := by
    induction members with
    | nil => rfl
    | cons member members ih =>
        obtain ⟨other, value⟩ := member
        by_cases same : other = key <;> simp [memberReadings, text?_letters, same, ih]
  rw [reading, member?, filtered]
  generalize members.filter (fun member => member.1 = key) = found
  match found with
  | [] => rfl
  | [_] => rfl
  | _ :: _ :: _ => rfl

theorem string?_reading (text : String) : string? (Json.string text).reading = some text :=
  text?_letters text

theorem optional?_reading (value : Option String) :
    optional? string? (Json.optional .string value).reading = some value := by
  cases value with
  | none => rfl
  | some text => exact congrArg (Option.map some) (string?_reading text)

theorem natural?_reading (n : Nat) : natural? (Json.integer n).reading = some n := by
  have whole : Numeral.naturalOf (Numeral.ofInt n).whole = n := Numeral.naturalOf_toDigits n
  rw [reading, natural?, whole]
  rfl

/-- A list is read item by item. -/
theorem list?_reading {read? : Reading → Option α} {toJson : β → Json} {result : β → α}
    (reads : ∀ item, read? (toJson item).reading = some (result item)) (items : List β) :
    list? read? (Json.array (items.map toJson)).reading = some (items.map result) := by
  have each : (itemReadings (items.map toJson)).mapM read? = some (items.map result) := by
    induction items with
    | nil => rfl
    | cons item items ih =>
        simp only [List.map_cons, itemReadings, List.mapM_cons, reads, ih, Option.bind_eq_bind,
          Option.bind_some, Option.pure_def]
  rw [reading, list?, each]

end Json.Reading

open Json (Reading)
open Json.Reading

def Parameter.ofReading? (reading : Reading) : Option Parameter := do
  return {
    type := ← field? "type" (optional? string?) reading
    name := ← field? "name" string? reading
    default := ← field? "default" (optional? string?) reading }

theorem Parameter.ofReading?_json (parameter : Parameter) :
    ofReading? (Report.parameterJson parameter).reading = some parameter := by
  simp [ofReading?, field?, Report.parameterJson, member?_object, string?_reading, optional?_reading]

def BodyState.ofWord? : String → Option BodyState
  | "closed" => some .closed
  | "unterminated" => some .unterminated
  | "absent" => some .absent
  | _ => none

theorem BodyState.ofWord?_word (state : BodyState) : ofWord? state.word = some state := by
  cases state <;> rfl

def Status.ofWord? : String → Option Status
  | "documented" => some .documented
  | "missing" => some .missing
  | "stale" => some .stale
  | _ => none

theorem Status.ofWord?_word (status : Status) : ofWord? status.word = some status := by
  cases status <;> rfl

/-- A function with the status that is written with it. -/
def Function.ofReading? (reading : Reading) : Option (Status × Function) := do
  let status ← (← field? "status" string? reading) |> Status.ofWord?
  return (status, {
    name := ← field? "name" string? reading
    docComment := ← field? "doc_comment" (optional? string?) reading
    body := ← field? "body" string? reading
    bodyState := ← (← field? "body_state" string? reading) |> BodyState.ofWord?
    returnType := ← field? "return_type" (optional? string?) reading
    offset := ← field? "offset" natural? reading
    line := ← field? "line" natural? reading
    declared := ← field? "declared_params" (list? Parameter.ofReading?) reading
    documented := ← field? "doc_params" (list? Parameter.ofReading?) reading })

theorem Function.ofReading?_json (function : Function) :
    ofReading? (Report.functionJson function).reading = some (function.status, function) := by
  have parameters := list?_reading Parameter.ofReading?_json
  simp only [List.map_id_fun'] at parameters
  simp [ofReading?, field?, Report.functionJson, member?_object, string?_reading, optional?_reading,
    natural?_reading, parameters, Status.ofWord?_word, BodyState.ofWord?_word]

def FileReport.ofReading? (reading : Reading) : Option (String × List (Status × Function)) := do
  return (← field? "path" string? reading,
    ← field? "functions" (list? Function.ofReading?) reading)

/-- A function with its status. -/
def Function.judged (function : Function) : Status × Function := (function.status, function)

/-- The path of a file and its functions. -/
def FileReport.content (file : FileReport) : String × List (Status × Function) :=
  (file.path, file.functions.map Function.judged)

theorem FileReport.ofReading?_json (file : FileReport) :
    ofReading? (Report.fileJson file).reading = some file.content := by
  have functions : list? Function.ofReading?
      (Json.array (file.functions.map Report.functionJson)).reading =
        some (file.functions.map Function.judged) :=
    list?_reading Function.ofReading?_json file.functions
  simp [ofReading?, field?, Report.fileJson, member?_object, string?_reading, functions, content]

theorem FileReport.content_injective : Function.Injective content := by
  have judged_injective : Function.Injective Function.judged :=
    fun _ _ equal => congrArg Prod.snd equal
  rintro ⟨path, functions⟩ ⟨otherPath, otherFunctions⟩ same
  obtain ⟨samePath, sameFunctions⟩ := Prod.mk.inj same
  exact congrArg₂ FileReport.mk samePath
    (List.map_injective_iff.mpr judged_injective sameFunctions)

namespace Report

/-- What a JSON text says about each file, if it is a report. -/
def contents? (text : String) : Option (List (String × List (Status × Function))) :=
  (Reading.ofText? text.toList).bind (list? FileReport.ofReading?)

theorem contents?_json (report : Report) :
    contents? report.json = some (report.map FileReport.content) := by
  have space : Json.AllSpace "\n".toList := by
    intro c member
    rw [List.mem_singleton.mp member]
    rfl
  rw [contents?, json, String.toList_append, Json.ofText?_pretty _ space, Option.bind_some]
  exact list?_reading FileReport.ofReading?_json report

/-- A report in JSON is lossless: from its text are read the path of each file, in order, and each
function with its status, so no two reports are written alike. -/
theorem json_lossless :
    (∀ report : Report, contents? report.json = some (report.map FileReport.content)) ∧
      Function.Injective json := by
  refine ⟨contents?_json, ?_⟩
  intro left right same
  apply List.map_injective_iff.mpr FileReport.content_injective
  apply Option.some.inj
  calc
    some (left.map FileReport.content) = contents? left.json := (contents?_json left).symm
    _ = contents? right.json := by rw [same]
    _ = some (right.map FileReport.content) := contents?_json right

end Report

end DocBlock
