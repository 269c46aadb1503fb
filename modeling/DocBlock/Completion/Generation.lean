import DocBlock.Completion.Request
import DocBlock.Completion.Response
import DocBlock.Error
import DocBlock.Log.Event

/-! Asking for one doc block over some transport. -/

namespace DocBlock.Completion

/-- What a transport makes of a request, with the events on the way. -/
structure Answer where
  outcome : Except Error Response
  events : List Log.Event

/-- A way to carry requests, with a state of its own. -/
structure Transport (σ : Type) where
  send : Request → σ → Answer × σ

/-- A doc block or the reason there is none, with the events on the way. -/
structure Attempt where
  outcome : Except Error String
  events : List Log.Event

/-- Every failure of a transport counts as a failed generation. -/
def asGeneration : Error → Error
  | .generation reason => .generation reason
  | other => .generation other.message

/-- An error in the reply comes before its choices; of these the first counts. -/
def Response.docBlock (response : Response) : Except Error String :=
  match response.error, response.choices with
  | some error, _ => .error (.generation (Response.complaint error))
  | none, choice :: _ => .ok choice
  | none, [] => .error (.generation "response contained no choices")

def requestEvent (request : Request) : Log.Event :=
  ⟨.debug, "phpdocgen::generate", "requesting doc block",
    [("model", request.model), ("prompt_len", toString request.prompt.utf8ByteSize)]⟩

/-- One request for the doc block of a function, given as its declaration and body. -/
def attempt {σ : Type} (transport : Transport σ) (model function : String) (state : σ) :
    Attempt × σ :=
  let request := Request.ofFunction model function
  let (answer, state) := transport.send request state
  let outcome :=
    match answer.outcome with
    | .ok response => response.docBlock
    | .error error => .error (asGeneration error)
  (⟨outcome, requestEvent request :: answer.events⟩, state)

end DocBlock.Completion
