import DocBlock.Proofs.Reply
import DocBlock.Proofs.Response

/-! Errors that a service reports. Main statement: the message of an error reaches the caller exactly if
everything else in the reply can be decoded, and where it cannot the message is lost to the status or
to a remark on the body. -/

namespace DocBlock

namespace Completion.Response

open Json (Letter Members Reading Spells)
open Json.Members (AllNamed Only depth_lt_of_mem)
open Json.Reading (Written)

variable {members : Members} {error : Reading} {message : String}

/-- An error tells a message as a string, or as the member of an object. -/
inductive Tells : Reading → String → Prop
  | string {letters : List Letter} {message : String} : Spells letters message →
      Tells (.string letters) message
  | message {members : Members} {letters : List Letter} {message : String} :
      Only "message" (.string letters) members → Spells letters message →
      Tells (.object members) message

/-- Every name is a text, the choices are well-formed and every string in the error is a text. -/
structure Readable (members : Members) (error : Reading) : Prop where
  allNamed : AllNamed members
  choices : ∃ texts, HasChoices members texts
  textual : error.Textual

theorem Tells.ne_null (tells : Tells error message) : error ≠ .null := by
  cases tells <;> exact nofun

/-- What an error tells is what is reported of its value. -/
theorem Tells.complaint_eq (tells : Tells error message) {cs : List Char} (written : Written error cs)
    {value : Json} (read : error.json? = some value) : complaint value = message := by
  cases tells with
  | string spells =>
      rw [Json.Reading.json?, Json.text?_of_spells spells] at read
      obtain rfl := Option.some.inj read
      rfl
  | @message _ letters _ only spells =>
      obtain ⟨pairs, pairsRead, rfl⟩ := Option.map_eq_some_iff.mp read
      have told : (Reading.string letters).json? = some (.string message) := by
        rw [Json.Reading.json?, Json.text?_of_spells spells, Option.map_some]
      rw [complaint_object, only.lookup_eq written pairsRead told]

theorem HasError.eq_of_only {given : Option Reading} (hasError : HasError members given)
    (only : Only "error" error members) (notNull : error ≠ .null) : given = some error := by
  obtain ⟨key, inside, named⟩ := only.mem
  cases hasError with
  | missing lacks => exact absurd lacks only.not_lacks
  | null other => exact absurd (other.unique inside named) notNull
  | given other _ => rw [other.unique inside named]

section Body

variable {body : String} (isText : (Reading.object members).IsTextOf body)
  (only : Only "error" error members) (tells : Tells error message)

include isText only tells

/-- The message of an error is read off a reply that is readable. -/
theorem exists_reported (shallow : (Reading.object members).depth ≤ depthLimit)
    (representable : error.Representable) (readable : Readable members error) :
    ∃ response value, ofText? body = some response ∧ response.error = some value ∧
      complaint value = message := by
  obtain ⟨_, written⟩ := isText.exists_written
  obtain ⟨key, inside, _⟩ := only.mem
  obtain ⟨_, errorWritten⟩ := only.exists_written written
  obtain ⟨value, read⟩ := Option.isSome_iff_exists.mp
    ((Json.Reading.json?_isSome_iff error errorWritten).mpr ⟨representable, readable.textual⟩)
  obtain ⟨texts, hasChoices⟩ := readable.choices
  have kept : Kept error value := ⟨Nat.lt_of_lt_of_le (depth_lt_of_mem inside) shallow, read⟩
  refine ⟨⟨texts, some value⟩, value, ?_, rfl, tells.complaint_eq errorWritten read⟩
  rw [ofText?_eq isText]
  exact (ofReading?_eq_some_iff written).mpr ⟨readable.allNamed, hasChoices, some error,
    .given only tells.ne_null, .some kept⟩

/-- A reply that is not readable is not decoded at all. -/
theorem ofText?_of_not_readable (hidden : ¬ Readable members error) : ofText? body = none := by
  obtain ⟨_, written⟩ := isText.exists_written
  rw [ofText?_eq isText, Option.eq_none_iff_forall_ne_some]
  intro response read
  obtain ⟨allNamed, hasChoices, given, hasError, kept⟩ := (ofReading?_eq_some_iff written).mp read
  obtain rfl := hasError.eq_of_only only tells.ne_null
  obtain ⟨_, errorWritten⟩ := only.exists_written written
  generalize response.error = reported at kept
  cases kept with
  | some kept =>
      have valued : error.json?.isSome = true := by rw [kept.2, Option.isSome_some]
      have textual := ((Json.Reading.json?_isSome_iff error errorWritten).mp valued).2
      exact hidden ⟨allNamed, ⟨_, hasChoices⟩, textual⟩

end Body

end Completion.Response

namespace Http.Client

open Completion Completion.Response
open Json (Members Reading)
open Json.Members (Only lacks_iff only_iff)

variable {settings : Settings} {service : Service} {status : Nat} {body : String} {rest : List Reply}

/-- The message of an error reaches the caller, whatever the status, if the reply is readable; of a
reply that is not, the caller learns the status, or that the body cannot be read. -/
theorem attempt_reports_message {members : Members} {error : Reading}
    {message : String} (reaches : (ofSettings settings).Reaches service)
    (next : service.replies = .answered status body :: rest)
    (carries : status ≠ 204 ∧ status ≠ 304)
    (isText : (Reading.object members).IsTextOf body)
    (shallow : (Reading.object members).depth ≤ depthLimit)
    (only : Only "error" error members) (tells : Tells error message)
    (representable : error.Representable) (function : String) :
    let outcome :=
      (attempt (ofSettings settings).transport settings.model function service).1.outcome
    (Readable members error → outcome = .error (.generation message)) ∧
    (¬ Readable members error → status < 400 →
      ∃ detail, outcome = .error (.generation ("invalid response body: " ++ detail))) ∧
    (¬ Readable members error → 400 ≤ status →
      outcome = .error (.generation s!"HTTP status {status}")) := by
  intro outcome
  have received : bodyOf status body = body := if_neg (not_or.mpr carries)
  have settled : outcome = (answerOf (ofSettings settings).url (.answered status body)).docBlock :=
    outcome_of_reaches reaches next function
  rw [settled]
  refine ⟨?_, ?_, ?_⟩
  · intro readable
    obtain ⟨response, value, parsed, reported, complains⟩ :=
      exists_reported isText only tells shallow representable readable
    rw [← complains]
    exact docBlock_of_error (by rwa [received]) reported
  · intro hidden accepted
    have unread := ofText?_of_not_readable isText only tells hidden
    exact ⟨_, docBlock_of_unreadable accepted (by rwa [received])⟩
  · intro hidden rejected
    have unread := ofText?_of_not_readable isText only tells hidden
    apply docBlock_of_rejected rejected
    intro response parsed
    rw [received, unread] at parsed
    contradiction

set_option maxRecDepth 2000 in
theorem attempt_reports_message_quota :
    let settings : Settings := ⟨none, some "http://h:8080/v1", "model", 60⟩
    let inner := [(Json.letters "code", Reading.null),
      (Json.letters "message", .string (Json.letters "quota"))]
    let members := [(Json.letters "error", Reading.object inner)]
    let body := "\x7b\"error\":\x7b\"code\":null,\"message\":\"quota\"\x7d\x7d"
    let service : Service := ⟨"h:8080", false, [.answered 429 body], []⟩
    let outcome :=
      (attempt (ofSettings settings).transport settings.model "function f();" service).1.outcome
    (ofSettings settings).Reaches service ∧ (Reading.object members).IsTextOf body ∧
      Tells (.object inner) "quota" ∧ outcome = .error (.generation "quota") := by
  intro settings inner members body service outcome
  have reaches : (ofSettings settings).Reaches service := reaches_iff.mpr (by decide +kernel)
  have isText : (Reading.object members).IsTextOf body := by
    apply Json.Reading.isTextOf_iff.mpr
    simp only [members, inner, body, Json.letters, String.reduceToList]
    rfl
  obtain ⟨_, written⟩ := isText.exists_written
  have only : Only "error" (.object inner) members := (only_iff written).mpr (by rfl)
  obtain ⟨_, errorWritten⟩ := only.exists_written written
  have tells : Tells (.object inner) "quota" :=
    .message ((only_iff errorWritten).mpr (by rfl)) (Json.spells_letters _)
  obtain ⟨representable, textual⟩ :=
    (Json.Reading.json?_isSome_iff _ errorWritten).mp (by decide +kernel)
  have readable : Readable members (.object inner) :=
    ⟨(isSome_keyed? written).mp (by decide +kernel),
      ⟨[], .missing ((lacks_iff written).mpr (by rfl))⟩, textual⟩
  have reported := attempt_reports_message reaches rfl (by decide) isText (by decide +kernel) only
    tells representable "function f();"
  exact ⟨reaches, isText, tells, reported.1 readable⟩

set_option maxRecDepth 2000 in
/-- A null in the place of the choices hides the message of a rejection behind its status. -/
theorem attempt_hides_message :
    let settings : Settings := ⟨none, some "http://h:8080/v1", "model", 60⟩
    let inner := [(Json.letters "message", Reading.string (Json.letters "quota"))]
    let members := [(Json.letters "choices", Reading.null), (Json.letters "error", .object inner)]
    let body := "\x7b\"choices\":null,\"error\":\x7b\"message\":\"quota\"\x7d\x7d"
    let service : Service := ⟨"h:8080", false, [.answered 429 body], []⟩
    let outcome :=
      (attempt (ofSettings settings).transport settings.model "function f();" service).1.outcome
    (ofSettings settings).Reaches service ∧ (Reading.object members).IsTextOf body ∧
      (Reading.object members).depth ≤ depthLimit ∧ Only "error" (.object inner) members ∧
      Tells (.object inner) "quota" ∧ (Reading.object inner).Representable ∧
      outcome = .error (.generation "HTTP status 429") := by
  intro settings inner members body service outcome
  have reaches : (ofSettings settings).Reaches service := reaches_iff.mpr (by decide +kernel)
  have isText : (Reading.object members).IsTextOf body := by
    apply Json.Reading.isTextOf_iff.mpr
    simp only [members, inner, body, Json.letters, String.reduceToList]
    rfl
  obtain ⟨_, written⟩ := isText.exists_written
  have only : Only "error" (.object inner) members := (only_iff written).mpr (by rfl)
  obtain ⟨_, errorWritten⟩ := only.exists_written written
  have tells : Tells (.object inner) "quota" :=
    .message ((only_iff errorWritten).mpr (by rfl)) (Json.spells_letters _)
  have valued := (Json.Reading.json?_isSome_iff _ errorWritten).mp (by decide +kernel)
  refine ⟨reaches, isText, by decide +kernel, only, tells, valued.1, ?_⟩
  have unread : ofText? body = none := ofText?_eq isText
  have received : bodyOf 429 body = body := if_neg (by decide)
  calc
    outcome = (answerOf (ofSettings settings).url (.answered 429 body)).docBlock :=
      outcome_of_reaches reaches rfl "function f();"
    _ = .error (.generation "HTTP status 429") := by
      apply docBlock_of_rejected (by decide)
      intro response parsed
      rw [received, unread] at parsed
      contradiction

end Http.Client

end DocBlock
