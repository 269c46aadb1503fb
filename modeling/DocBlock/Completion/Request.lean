import DocBlock.Json.Basic

/-! Requests to a text completion service. -/

namespace DocBlock.Completion

structure Settings where
  apiKey : Option String
  baseUri : Option String
  model : String
  timeoutSeconds : Nat
  deriving DecidableEq, Repr

namespace Settings

def defaultModel : String := "gpt-3.5-turbo-instruct"

def defaultBaseUri : String := "https://api.openai.com/v1"

def default : Settings := ⟨none, none, defaultModel, 60⟩

/-- An empty base is no base. -/
def base (settings : Settings) : String :=
  (settings.baseUri.filter (· ≠ "")).getD defaultBaseUri

/-- An empty key is no key. -/
def key? (settings : Settings) : Option String :=
  settings.apiKey.filter (· ≠ "")

end Settings

/-- The instructions for one function, given as its declaration and body. -/
def prompt (function : String) : String :=
  "Read the following PHP function: " ++ function ++
  ". Write the PHPDoc block in English for the method named " ++ function ++
  ", remove any unnecessary code and comments, including if it's an empty constructor. " ++
  "Do not add any additional comments except for the required PHPDocs, " ++
  "unless you detect obvious errors."

structure Request where
  model : String
  prompt : String
  maxTokens : Nat
  stop : List String
  temperature : Decimal
  deriving DecidableEq, Repr

namespace Request

def ofFunction (model function : String) : Request where
  model := model
  prompt := Completion.prompt function
  maxTokens := 1024
  stop := ["\"\"\""]
  temperature := ⟨false, 3, -1⟩

def json (request : Request) : Json :=
  .object [("model", .string request.model), ("prompt", .string request.prompt),
    ("max_tokens", .integer request.maxTokens), ("stop", .array (request.stop.map .string)),
    ("temperature", .decimal request.temperature)]

def body (request : Request) : String := request.json.compact

end Request

end DocBlock.Completion
