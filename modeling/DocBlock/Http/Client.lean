import DocBlock.Completion.Generation
import DocBlock.Http.Url

/-! The completion service over HTTP: where requests go, what a service sees of them, and what
becomes of its replies. -/

namespace DocBlock.Http

/-- What a service does with one connection. Bodies are texts: replies in bytes that are not UTF-8 are
left out. -/
inductive Reply
  | answered (status : Nat) (body : String)
  /-- Reads the request and hangs up. -/
  | closed
  deriving DecidableEq, Repr

/-- What a service sees of one connection. -/
inductive Exchange
  | request (method target : String) (authorization : Option String) (body : String) (closed : Bool)
  /-- The client opened encryption, which the service does not speak. -/
  | encrypted
  deriving DecidableEq, Repr

/-- A service at an address, the replies it has left, and the connections it has seen. -/
structure Service where
  address : String
  /-- Whether connections are encrypted, under a certificate that clients accept. -/
  speaksTls : Bool
  replies : List Reply
  seen : List Exchange
  deriving DecidableEq, Repr

namespace Service

/-- The scheme of the addresses under which the service understands its clients. -/
def scheme (service : Service) : String := if service.speaksTls then "https" else "http"

theorem scheme_cases (service : Service) : service.scheme = "http" ∨ service.scheme = "https" := by
  unfold scheme
  split
  · exact Or.inr rfl
  · exact Or.inl rfl

/-- A service that has run out of replies fails with an empty body. -/
def exhausted : Reply := .answered 500 ""

def record (service : Service) (exchange : Exchange) : Service :=
  { service with replies := service.replies.drop 1, seen := service.seen ++ [exchange] }

/-- A client that speaks the other of the two schemes is not understood. In plain text a service
notices the encryption; under encryption it takes what is not encrypted for no connection. -/
def misunderstand (service : Service) : Service :=
  if service.speaksTls then service else service.record .encrypted

theorem seen_misunderstand (service : Service) : service.misunderstand.seen = service.seen ∨
    service.misunderstand.seen = service.seen ++ [.encrypted] := by
  unfold misunderstand
  split
  · exact Or.inl rfl
  · exact Or.inr rfl

end Service

/-- A client of the service under one base address. -/
structure Client where
  url : String
  authorization : Option String
  deriving DecidableEq, Repr

namespace Client

def withoutTrailing (c : Char) (text : String) : String :=
  .ofList (text.toList.reverse.dropWhile (· == c)).reverse

def mentionsScheme : List Char → Bool
  | [] => false
  | c :: cs => "://".toList.isPrefixOf (c :: cs) || mentionsScheme cs

/-- The address of completions under a base. A base without a scheme gets the encrypted one. -/
def completionsUrl (base : String) : String :=
  let base := withoutTrailing '/' base
  (if mentionsScheme base.toList then base else "https://" ++ base) ++ "/completions"

def ofSettings (settings : Completion.Settings) : Client where
  url := completionsUrl settings.base
  authorization := settings.key?.map fun key => "Bearer " ++ key

/-- Headers hold visible ASCII characters, spaces and tabs. -/
def isHeaderText (text : String) : Bool :=
  text.toList.all fun c => c == ' ' || c == '\t' || (0x21 ≤ c.toNat && c.toNat ≤ 0x7E)

/-- Blanks at the end are not part of a header's value. -/
def headerValue (text : String) : String :=
  .ofList (text.toList.reverse.dropWhile fun c => c == ' ' || c == '\t').reverse

/-- Replies of these kinds carry no body. -/
def bodyOf (status : Nat) (body : String) : String :=
  if status = 204 ∨ status = 304 then "" else body

def rejectedEvent (url : String) (status : Nat) : Log.Event :=
  ⟨.debug, "phpdocgen::generate::openai", "completion request rejected",
    [("status", toString status), ("url", url)]⟩

def failure (reason : String) : Completion.Answer := ⟨.error (.generation reason), []⟩

/-- A rejection still counts as a reply where its body says what is wrong. -/
def answerOf (url : String) : Reply → Completion.Answer
  | .closed => failure s!"{url}: Network Error"
  | .answered status body =>
    let response := Completion.Response.ofText? (bodyOf status body)
    if status < 400 then
      match response with
      | some response => ⟨.ok response, []⟩
      | none => failure "invalid response body: not a completion response"
    else
      let rejected := [rejectedEvent url status]
      match response with
      | some ⟨choices, some error⟩ => ⟨.ok ⟨choices, some error⟩, rejected⟩
      | _ => ⟨.error (.generation s!"HTTP status {status}"), rejected⟩

/-- Sends a request to the service, if the address is its own, with its scheme, and the headers can be
sent. A key comes before the credentials of the address. -/
def send (client : Client) (request : Completion.Request) (service : Service) :
    Completion.Answer × Service :=
  if client.authorization.all isHeaderText then
    match Url.ofText client.url with
    | .error fault => (failure s!"Bad URL: failed to parse URL: {fault.text}", service)
    | .ok url =>
      if url.scheme ≠ "http" ∧ url.scheme ≠ "https" then
        (failure s!"{url.text}: Unknown Scheme: unknown scheme '{url.scheme}'", service)
      else if url.place ≠ service.address then
        (failure s!"{url.text}: Connection Failed", service)
      else if url.scheme ≠ service.scheme then
        (failure s!"{url.text}: Connection Failed", service.misunderstand)
      else
        let reply := service.replies.headD Service.exhausted
        let authorization := (client.authorization.map headerValue).or url.authorization?
        let exchange :=
          Exchange.request "POST" url.target authorization request.body (reply = .closed)
        (answerOf client.url reply, service.record exchange)
  else
    let header := client.authorization.getD ""
    (failure s!"Bad Header: invalid header 'Authorization: {header}'", service)

def transport (client : Client) : Completion.Transport Service where
  send := client.send

end Client

end DocBlock.Http
