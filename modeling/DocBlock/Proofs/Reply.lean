import DocBlock.Http.Client

/-! What becomes of the replies of a service. Main statement: a reply yields a doc block exactly if
its status is no rejection and its body holds a choice and no error, and every other reply is
reported as a failure that says why. -/

namespace DocBlock

namespace Completion

namespace Response

theorem lookup_eq_find? (key : String) (members : List (String × Json)) :
    members.lookup key = (members.find? fun member => member.1 = key).map Prod.snd := by
  induction members with
  | nil => rfl
  | cons member members ih =>
      obtain ⟨other, value⟩ := member
      by_cases same : key = other
      · subst same
        rw [List.lookup_cons_self, List.find?_cons_of_pos (by simp), Option.map_some]
      · have apart : (key == other) = false := beq_false_of_ne same
        rw [List.lookup_cons, apart, List.find?_cons_of_neg (by simpa using Ne.symm same), ih]

theorem complaint_object (members : List (String × Json)) : complaint (.object members) =
    match members.lookup "message" with
    | some (.string text) => text
    | _ => (Json.object members).compact := by
  rw [complaint, lookup_eq_find?]
  cases members.find? fun member => member.1 = "message" with
  | none => rfl
  | some member =>
      obtain ⟨key, value⟩ := member
      cases value <;> rfl

end Response

variable {σ : Type}

/-- The doc block that an answer yields. -/
def Answer.docBlock (answer : Answer) : Except Error String :=
  match answer.outcome with
  | .ok response => response.docBlock
  | .error error => .error (asGeneration error)

theorem attempt_docBlock (transport : Transport σ) (model function : String) (state : σ) :
    (attempt transport model function state).1.outcome =
      (transport.send (Request.ofFunction model function) state).1.docBlock :=
  rfl

end Completion

namespace Http.Client

open Completion

variable {url body : String} {status : Nat} {response : Response}

/-- An error that the service reports comes before everything else, whatever the status. -/
theorem docBlock_of_error {error : Json}
    (parsed : Response.ofText? (bodyOf status body) = some response)
    (reported : response.error = some error) :
    (answerOf url (.answered status body)).docBlock =
      .error (.generation (Response.complaint error)) := by
  obtain ⟨choices, _⟩ := response
  subst reported
  by_cases accepted : status < 400
  · simp only [answerOf, parsed, if_pos accepted]
    rfl
  · simp only [answerOf, parsed, if_neg accepted]
    rfl

theorem docBlock_of_rejected (rejected : 400 ≤ status)
    (silent : ∀ response, Response.ofText? (bodyOf status body) = some response →
      response.error = none) :
    (answerOf url (.answered status body)).docBlock =
      .error (.generation s!"HTTP status {status}") := by
  have large : ¬ status < 400 := by omega
  cases parsed : Response.ofText? (bodyOf status body) with
  | none =>
      simp only [answerOf, parsed, if_neg large]
      rfl
  | some response =>
      obtain ⟨choices, error⟩ := response
      obtain rfl : error = none := silent _ parsed
      simp only [answerOf, parsed, if_neg large]
      rfl

theorem docBlock_of_unreadable (accepted : status < 400)
    (unread : Response.ofText? (bodyOf status body) = none) :
    (answerOf url (.answered status body)).docBlock =
      .error (.generation ("invalid response body: " ++ "not a completion response")) := by
  simp only [answerOf, unread, if_pos accepted]
  rfl

/-- Whatever is asked, the service sees the request. -/
def Reaches (client : Client) (service : Service) : Prop :=
  ∀ request, ∃ target authorization closed, (client.send request service).2.seen =
    service.seen ++ [.request "POST" target authorization request.body closed]

section Sending

variable {client : Client} {service : Service}

theorem ok_of_mem_toOption {ε α : Type} {result : Except ε α} {value : α}
    (member : value ∈ result.toOption) : result = .ok value := by
  cases result with
  | error error => contradiction
  | ok other => exact congrArg Except.ok (Option.some.inj member)

theorem send_eq {address : Url} (plain : client.authorization.all isHeaderText = true)
    (parsed : Url.ofText client.url = .ok address) (scheme : address.scheme = service.scheme)
    (place : address.place = service.address) (request : Request) :
    let reply := service.replies.headD Service.exhausted
    client.send request service = (answerOf client.url reply,
      service.record (.request "POST" address.target
        ((client.authorization.map headerValue).or address.authorization?) request.body
        (reply = .closed))) := by
  have known : ¬ (address.scheme ≠ "http" ∧ address.scheme ≠ "https") := by
    rw [scheme]
    intro other
    exact service.scheme_cases.elim other.1 other.2
  simp only [send, if_pos plain, parsed, if_neg known, if_neg (not_not_intro scheme),
    if_neg (not_not_intro place)]

/-- A service is reached at its own address, under its own scheme, with headers that can be sent. -/
theorem reaches_iff : client.Reaches service ↔
    client.authorization.all isHeaderText = true ∧
      ∃ address ∈ (Url.ofText client.url).toOption,
        address.scheme = service.scheme ∧ address.place = service.address := by
  constructor
  · intro reaches
    obtain ⟨target, authorization, closed, seen⟩ := reaches (Request.ofFunction "" "")
    have unseen : service.seen ≠ service.seen ++ [.request "POST" target authorization
        (Request.ofFunction "" "").body closed] := by
      simp
    unfold send at seen
    split at seen
    · rename_i plain
      refine ⟨plain, ?_⟩
      split at seen
      · exact absurd seen unseen
      · rename_i address parsed
        split at seen
        · exact absurd seen unseen
        split at seen
        · exact absurd seen unseen
        rename_i place
        split at seen
        · rcases service.seen_misunderstand with same | encrypted
          · exact absurd (same.symm.trans seen) unseen
          · have exchange := List.append_cancel_left (encrypted.symm.trans seen)
            simp at exchange
        · rename_i scheme
          exact ⟨address, by rw [parsed]; rfl, Decidable.of_not_not scheme,
            Decidable.of_not_not place⟩
    · exact absurd seen unseen
  · rintro ⟨plain, address, parsed, scheme, place⟩ request
    have sent := send_eq plain (ok_of_mem_toOption parsed) scheme place request
    exact ⟨_, _, _, congrArg (fun result => result.2.seen) sent⟩

/-- On a service that is reached, the next reply answers any request. -/
theorem answer_of_reaches (reaches : client.Reaches service) (request : Request) :
    (client.send request service).1 =
      answerOf client.url (service.replies.headD Service.exhausted) := by
  obtain ⟨plain, address, parsed, scheme, place⟩ := reaches_iff.mp reaches
  rw [send_eq plain (ok_of_mem_toOption parsed) scheme place]

end Sending

section Attempt

variable {settings : Settings} {service : Service} {rest : List Reply}

/-- On a service that is reached, what comes of an attempt depends on the next reply alone. -/
theorem outcome_of_reaches (reaches : (ofSettings settings).Reaches service)
    (next : service.replies = .answered status body :: rest) (function : String) :
    (attempt (ofSettings settings).transport settings.model function service).1.outcome =
      (answerOf (ofSettings settings).url (.answered status body)).docBlock := by
  have answer := answer_of_reaches reaches (Request.ofFunction settings.model function)
  rw [next, List.headD_cons] at answer
  rw [attempt_docBlock]
  simp only [transport, answer]

end Attempt

end Http.Client

end DocBlock
