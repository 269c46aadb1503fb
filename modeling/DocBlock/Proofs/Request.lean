import DocBlock.Http.Client
import DocBlock.Proofs.Decoding

/-! Requests as they are sent. Main statement: the body that a service receives is read back as the model
and the prompt, and the function is cut out of the prompt by lengths alone, so requests with different
models or functions have different bodies. -/

namespace DocBlock

namespace Completion

open Json (Reading)
open Json.Reading

/-- What a prompt says before the function, between its two copies, and after them. -/
structure Phrases where
  front : String
  middle : String
  back : String

def phrases : Phrases where
  front := "Read the following PHP function: "
  middle := ". Write the PHPDoc block in English for the method named "
  back := ", remove any unnecessary code and comments, including if it's an empty constructor. " ++
    ("Do not add any additional comments except for the required PHPDocs, " ++
      "unless you detect obvious errors.")

namespace Phrases

/-- The text with the function in both places. -/
def around (phrases : Phrases) (function : List Char) : List Char :=
  phrases.front.toList ++ (function ++ (phrases.middle.toList ++ (function ++ phrases.back.toList)))

def length (phrases : Phrases) : Nat :=
  phrases.front.length + phrases.middle.length + phrases.back.length

/-- The text after the front, half as long as what the phrases leave of the whole. -/
def between (phrases : Phrases) (text : List Char) : List Char :=
  (text.drop phrases.front.length).take ((text.length - phrases.length) / 2)

/-- The function may hold the phrases itself, but it is as long as its copy. -/
theorem between_around (phrases : Phrases) (function : List Char) :
    phrases.between (phrases.around function) = function := by
  have copies : ((phrases.around function).length - phrases.length) / 2 = function.length := by
    simp only [around, length, List.length_append, String.length_toList]
    omega
  rw [between, copies, around, ← String.length_toList, List.drop_left, List.take_left]

end Phrases

theorem prompt_eq (function : String) :
    prompt function = phrases.front ++ function ++ phrases.middle ++ function ++ phrases.back := by
  unfold prompt phrases
  dsimp only
  exact String.append_assoc.trans String.append_assoc

theorem toList_prompt (function : String) :
    (prompt function).toList = phrases.around function.toList := by
  rw [prompt_eq, Phrases.around]
  simp only [String.toList_append, List.append_assoc]

/-- The function in a prompt. -/
def functionOf (prompt : String) : String := .ofList (phrases.between prompt.toList)

theorem functionOf_prompt (function : String) : functionOf (prompt function) = function := by
  rw [functionOf, toList_prompt, Phrases.between_around, String.ofList_toList]

namespace Request

theorem reads_model (request : Request) :
    field? "model" string? request.json.reading = some request.model := by
  simp [field?, json, member?_object, string?_reading]

theorem reads_prompt (request : Request) :
    field? "prompt" string? request.json.reading = some request.prompt := by
  simp [field?, json, member?_object, string?_reading]

/-- The model and the prompt that the body of a request holds. -/
def asked? (body : String) : Option (String × String) := do
  let reading ← Reading.ofText? body.toList
  return (← field? "model" string? reading, ← field? "prompt" string? reading)

theorem asked?_body (request : Request) :
    asked? request.body = some (request.model, request.prompt) := by
  rw [asked?, body, Json.ofText?_compact, Option.bind_eq_bind, Option.bind_some, reads_model,
    reads_prompt]
  rfl

end Request

end Completion

namespace Http.Client

open Completion

/-- A service sees at most one more exchange, and of a request its whole body. -/
theorem seen_send (client : Client) (request : Request) (service : Service) :
    (client.send request service).2.seen = service.seen ∨
      (client.send request service).2.seen = service.seen ++ [.encrypted] ∨
      ∃ target authorization closed, (client.send request service).2.seen =
        service.seen ++ [.request "POST" target authorization request.body closed] := by
  unfold send
  split
  · split
    · exact Or.inl rfl
    · split
      · exact Or.inl rfl
      · split
        · exact Or.inl rfl
        · split
          · exact service.seen_misunderstand.imp_right Or.inl
          · exact Or.inr (Or.inr ⟨_, _, _, rfl⟩)
  · exact Or.inl rfl

end Http.Client

namespace Completion.Request

open Json (Reading)
open Json.Reading

/-- The model, the prompt and the function are read back from the body, whatever characters they hold,
so no two models or functions share a body. A service that sees a request sees this body. -/
theorem body_carries_function :
    (∀ model function : String, ∃ reading,
      Reading.ofText? (ofFunction model function).body.toList = some reading ∧
      field? "model" string? reading = some model ∧
      field? "prompt" string? reading = some (Completion.prompt function) ∧
      functionOf (Completion.prompt function) = function) ∧
    Function.Injective (fun asked : String × String => (ofFunction asked.1 asked.2).body) ∧
    ∀ (client : Http.Client) (service : Http.Service) (model function : String),
      let seen := (attempt client.transport model function service).2.seen
      seen = service.seen ∨ seen = service.seen ++ [.encrypted] ∨
        ∃ target authorization closed, seen = service.seen ++
          [.request "POST" target authorization (ofFunction model function).body closed] := by
  refine ⟨?_, ?_, ?_⟩
  · intro model function
    exact ⟨_, Json.ofText?_compact _, reads_model _, reads_prompt _, functionOf_prompt function⟩
  · rintro ⟨model, function⟩ ⟨otherModel, otherFunction⟩ same
    have asked : some (model, Completion.prompt function) =
        some (otherModel, Completion.prompt otherFunction) := by
      calc
        _ = asked? (ofFunction model function).body := (asked?_body _).symm
        _ = asked? (ofFunction otherModel otherFunction).body := congrArg asked? same
        _ = _ := asked?_body _
    obtain ⟨sameModel, samePrompt⟩ := Prod.mk.inj (Option.some.inj asked)
    have sameFunction := congrArg functionOf samePrompt
    rw [functionOf_prompt, functionOf_prompt] at sameFunction
    rw [sameModel, sameFunction]
  · intro client service model function
    exact client.seen_send (ofFunction model function) service

end Completion.Request

end DocBlock
