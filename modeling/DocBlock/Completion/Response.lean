import DocBlock.Json.Evaluation

/-! Replies of a text completion service, read strictly where they are kept and leniently
elsewhere. -/

namespace DocBlock.Completion

structure Response where
  choices : List String
  /-- Set where the service rejects a request. -/
  error : Option Json

namespace Response

open Json (Letter Reading)

/-- Open brackets above this number are refused around a value that is kept. -/
def depthLimit : Nat := 127

/-- The members with their keys evaluated; none if some key has no text. -/
def keyed? (members : List (List Letter × Reading)) : Option (List (String × Reading)) :=
  members.mapM fun (key, value) => (Json.text? key).map fun key => (key, value)

/-- The one value of a key. The inner result is absent where the key is; none where it stands
twice. -/
def member? (key : String) (members : List (String × Reading)) : Option (Option Reading) :=
  match members.filter fun member => member.1 = key with
  | [] => some none
  | [(_, value)] => some (some value)
  | _ => none

def string? : Reading → Option String
  | .string letters => Json.text? letters
  | _ => none

/-- A choice is an object with a text, or an array of just the text. -/
def choice? : Reading → Option String
  | .object members => do
    let members ← keyed? members
    string? (← (← member? "text" members))
  | .array [text] => string? text
  | _ => none

def choices? : Reading → Option (List String)
  | .array items => items.mapM choice?
  | _ => none

/-- The inner result is absent for a null. -/
def error? : Reading → Option (Option Json)
  | .null => some none
  | value => if value.depth < depthLimit then value.json?.map some else none

/-- A reply is an object with choices and an error, both of which may be missing, or an array of the
two in this order, of which the last ones may be missing. -/
def ofReading? : Reading → Option Response
  | .object members => do
    let members ← keyed? members
    let choices ← (← member? "choices" members).elim (some []) choices?
    let error ← (← member? "error" members).elim (some none) error?
    return ⟨choices, error⟩
  | .array [] => some ⟨[], none⟩
  | .array [choices] => (choices? choices).map fun choices => ⟨choices, none⟩
  | .array [choices, error] => do
    return ⟨← choices? choices, ← error? error⟩
  | _ => none

def ofText? (text : String) : Option Response :=
  (Reading.ofText? text.toList).bind ofReading?

/-- What the service says is wrong: a string itself, an object's message, or the value as JSON. -/
def complaint : Json → String
  | .string text => text
  | .object members =>
    match members.find? fun member => member.1 = "message" with
    | some (_, .string text) => text
    | _ => (Json.object members).compact
  | value => value.compact

end Response

end DocBlock.Completion
