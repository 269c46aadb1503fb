import DocBlock.Completion.Response
import DocBlock.Proofs.Json.Exactness
import DocBlock.Proofs.Json.Members

/-! What a reply is decoded as. Main statement: a reply is decoded exactly if every member has a name
and the members for choices and for an error are well-formed, each given once at most, and then it is
decoded as their texts and the error's value, whatever else it holds and in whatever order. -/

namespace DocBlock.Completion.Response

open Json (Letter Members Reading Spells)
open Json.Members (AllNamed Lacks Only Twice depth_lt_of_mem lacks_iff only_iff valuesOf)
open Json.Reading (Written Denotes IsTextOf)

variable {members : Members} {cs : List Char}

section Names

variable {name : String} {named : List (String × Reading)}

theorem keyed?_cons (key : List Letter) (value : Reading) :
    keyed? ((key, value) :: members) = (Json.text? key).bind fun key =>
      (keyed? members).map ((key, value) :: ·) :=
  calc
    keyed? ((key, value) :: members) =
        ((Json.text? key).map fun key => (key, value)).bind fun member =>
          (keyed? members).bind fun others => some (member :: others) := List.mapM_cons
    _ = (Json.text? key).bind fun key => (keyed? members).map ((key, value) :: ·) := by
      cases Json.text? key with
      | none => rfl
      | some key => cases keyed? members <;> rfl

theorem isSome_keyed? (written : Written (.object members) cs) :
    (keyed? members).isSome = true ↔ AllNamed members := by
  have keys := written.exists_members
  clear written
  induction members with
  | nil => exact iff_of_true rfl fun _ inside => absurd inside List.not_mem_nil
  | cons member members ih =>
      obtain ⟨⟨⟨_, key⟩, _⟩, others⟩ := List.forall_mem_cons.mp keys
      have both : (keyed? (member :: members)).isSome =
          ((Json.text? member.1).isSome && (keyed? members).isSome) := by
        rw [keyed?_cons]
        cases Json.text? member.1 <;> cases keyed? members <;> rfl
      have rest : (keyed? members).isSome = true ↔ AllNamed members := ih others
      rw [both, Bool.and_eq_true, Json.Reading.textual_iff key, rest, AllNamed, AllNamed,
        List.forall_mem_cons]

theorem values_of_keyed? (keyed : keyed? members = some named) :
    (named.filter fun member => member.1 = name).map Prod.snd = valuesOf name members := by
  induction members generalizing named with
  | nil =>
      obtain rfl := Option.some.inj keyed
      rfl
  | cons member members ih =>
      rw [keyed?_cons] at keyed
      obtain ⟨key, text, keyed⟩ := Option.bind_eq_some_iff.mp keyed
      obtain ⟨others, othersKeyed, rfl⟩ := Option.map_eq_some_iff.mp keyed
      have rest := ih othersKeyed
      rw [valuesOf] at rest ⊢
      by_cases same : key = name <;> simp [text, same, rest]

theorem member?_eq (keyed : keyed? members = some named) : member? name named =
    match valuesOf name members with
    | [] => some none
    | [value] => some (some value)
    | _ => none := by
  rw [← values_of_keyed? keyed, member?]
  generalize named.filter (fun member => member.1 = name) = found
  rcases found with _ | ⟨first, _ | ⟨second, rest⟩⟩ <;> rfl

theorem member?_eq_none_iff (written : Written (.object members) cs)
    (keyed : keyed? members = some named) :
    member? name named = some none ↔ Lacks name members := by
  rw [member?_eq keyed, lacks_iff written]
  rcases valuesOf name members with _ | ⟨first, _ | ⟨second, rest⟩⟩ <;> simp

theorem member?_eq_some_iff {value : Reading} (written : Written (.object members) cs)
    (keyed : keyed? members = some named) :
    member? name named = some (some value) ↔ Only name value members := by
  rw [member?_eq keyed, only_iff written]
  rcases valuesOf name members with _ | ⟨first, _ | ⟨second, rest⟩⟩ <;> simp

end Names

/-- The text that a choice offers. -/
inductive IsChoice : Reading → String → Prop
  | object {members : Members} {letters : List Letter} {text : String} :
      AllNamed members → Only "text" (.string letters) members → Spells letters text →
      IsChoice (.object members) text
  | array {letters : List Letter} {text : String} : Spells letters text →
      IsChoice (.array [.string letters]) text

theorem string?_eq_some_iff {reading : Reading} (written : Written reading cs) {text : String} :
    string? reading = some text ↔ ∃ letters, reading = .string letters ∧ Spells letters text := by
  cases written with
  | string letters =>
      rw [string?, letters.text?_eq_some_iff]
      simp
  | _ => simp [string?]

theorem choice?_object_iff (written : Written (.object members) cs) {text : String} :
    choice? (.object members) = some text ↔
      AllNamed members ∧
        ∃ letters, Only "text" (.string letters) members ∧ Spells letters text := by
  constructor
  · intro read
    obtain ⟨named, keyed, read⟩ := Option.bind_eq_some_iff.mp read
    obtain ⟨field, found, read⟩ := Option.bind_eq_some_iff.mp read
    obtain ⟨value, rfl, read⟩ := Option.bind_eq_some_iff.mp read
    have only := (member?_eq_some_iff written keyed).mp found
    obtain ⟨_, valueWritten⟩ := only.exists_written written
    obtain ⟨letters, rfl, spells⟩ := (string?_eq_some_iff valueWritten).mp read
    exact ⟨(isSome_keyed? written).mp (by rw [keyed]; rfl), letters, only, spells⟩
  · rintro ⟨allNamed, letters, only, spells⟩
    obtain ⟨named, keyed⟩ := Option.isSome_iff_exists.mp ((isSome_keyed? written).mpr allNamed)
    have found := (member?_eq_some_iff written keyed).mpr only
    simp only [choice?, keyed, found, Option.bind_eq_bind, Option.bind_some]
    exact Json.text?_of_spells spells

theorem choice?_eq_some_iff {reading : Reading} (written : Written reading cs) {text : String} :
    choice? reading = some text ↔ IsChoice reading text := by
  constructor
  · intro read
    match reading with
    | .object members =>
        obtain ⟨allNamed, letters, only, spells⟩ := (choice?_object_iff written).mp read
        exact .object allNamed only spells
    | .array [value] =>
        obtain ⟨_, valueWritten⟩ := written.exists_items value List.mem_cons_self
        obtain ⟨letters, rfl, spells⟩ := (string?_eq_some_iff valueWritten).mp read
        exact .array spells
    | .null | .bool _ | .number _ | .string _ | .array [] | .array (_ :: _ :: _) => contradiction
  · intro isChoice
    cases isChoice with
    | object allNamed only spells =>
        exact (choice?_object_iff written).mpr ⟨allNamed, _, only, spells⟩
    | array spells => exact Json.text?_of_spells spells

theorem mapM_eq_some_iff {α β : Type} {f : α → Option β} {xs : List α} {ys : List β} :
    xs.mapM f = some ys ↔ List.Forall₂ (fun x y => f x = some y) xs ys := by
  induction xs generalizing ys with
  | nil => cases ys <;> simp
  | cons x xs ih =>
      rw [List.mapM_cons, List.forall₂_cons_left_iff]
      simp only [Option.bind_eq_bind, Option.bind_eq_some_iff, Option.pure_def, Option.some.injEq, ih]
      constructor
      · rintro ⟨y, head, ys, tail, rfl⟩
        exact ⟨y, ys, head, tail, rfl⟩
      · rintro ⟨y, ys, head, tail, rfl⟩
        exact ⟨y, head, ys, tail, rfl⟩

theorem choices?_eq_some_iff {items : List Reading} (written : Written (.array items) cs)
    {texts : List String} :
    choices? (.array items) = some texts ↔ List.Forall₂ IsChoice items texts := by
  rw [choices?, mapM_eq_some_iff, List.forall₂_iff_zip, List.forall₂_iff_zip]
  refine and_congr_right fun _ => forall₂_congr fun item text => imp_congr_right fun inside => ?_
  obtain ⟨_, itemWritten⟩ := written.exists_items item (List.of_mem_zip inside).1
  exact choice?_eq_some_iff itemWritten

/-- The texts of the choices, none where they are missing. -/
inductive HasChoices (members : Members) : List String → Prop
  | missing : Lacks "choices" members → HasChoices members []
  | given {items : List Reading} {texts : List String} : Only "choices" (.array items) members →
      List.Forall₂ IsChoice items texts → HasChoices members texts

/-- The error, none where it is missing or null. -/
inductive HasError (members : Members) : Option Reading → Prop
  | missing : Lacks "error" members → HasError members none
  | null : Only "error" .null members → HasError members none
  | given {error : Reading} : Only "error" error members → error ≠ .null → HasError members (some error)

/-- Errors are kept if they have a value and are not nested too deeply. -/
def Kept (error : Reading) (value : Json) : Prop :=
  error.depth < depthLimit ∧ error.json? = some value

theorem error?_eq_some_iff {error : Reading} {kept : Option Json} :
    error? error = some kept ↔
      error = .null ∧ kept = none ∨ error ≠ .null ∧ ∃ value, Kept error value ∧ kept = some value := by
  by_cases null : error = .null
  · subst null
    simp [error?, eq_comm]
  · rw [error?.eq_2 error null]
    by_cases shallow : error.depth < depthLimit
    · rw [if_pos shallow, Option.map_eq_some_iff]
      simp only [null, Kept, shallow, @eq_comm _ kept, ne_eq, not_false_eq_true, false_and,
        false_or, true_and]
    · simp [null, Kept, shallow]

section Fields

variable (written : Written (.object members) cs) {named : List (String × Reading)}
  (keyed : keyed? members = some named)

include written keyed

theorem hasChoices_iff {texts : List String} :
    (∃ field, member? "choices" named = some field ∧ field.elim (some []) choices? = some texts) ↔
      HasChoices members texts := by
  constructor
  · rintro ⟨field, found, read⟩
    cases field with
    | none =>
        obtain rfl := Option.some.inj read
        exact .missing ((member?_eq_none_iff written keyed).mp found)
    | some value =>
        have only := (member?_eq_some_iff written keyed).mp found
        obtain ⟨_, valueWritten⟩ := only.exists_written written
        cases value with
        | array items => exact .given only ((choices?_eq_some_iff valueWritten).mp read)
        | _ => contradiction
  · intro hasChoices
    cases hasChoices with
    | missing lacks => exact ⟨none, (member?_eq_none_iff written keyed).mpr lacks, rfl⟩
    | given only choices =>
        obtain ⟨_, valueWritten⟩ := only.exists_written written
        exact ⟨some _, (member?_eq_some_iff written keyed).mpr only,
          (choices?_eq_some_iff valueWritten).mpr choices⟩

theorem hasError_iff {kept : Option Json} :
    (∃ field, member? "error" named = some field ∧ field.elim (some none) error? = some kept) ↔
      ∃ error, HasError members error ∧ Option.Rel Kept error kept := by
  constructor
  · rintro ⟨field, found, read⟩
    cases field with
    | none =>
        obtain rfl := Option.some.inj read
        exact ⟨none, .missing ((member?_eq_none_iff written keyed).mp found), .none⟩
    | some error =>
        have only := (member?_eq_some_iff written keyed).mp found
        rcases error?_eq_some_iff.mp read with ⟨rfl, rfl⟩ | ⟨notNull, value, kept, rfl⟩
        · exact ⟨none, .null only, .none⟩
        · exact ⟨some error, .given only notNull, .some kept⟩
  · rintro ⟨error, hasError, kept⟩
    cases hasError with
    | missing lacks =>
        cases kept
        exact ⟨none, (member?_eq_none_iff written keyed).mpr lacks, rfl⟩
    | null only =>
        cases kept
        exact ⟨some .null, (member?_eq_some_iff written keyed).mpr only, rfl⟩
    | given only notNull =>
        cases kept with
        | some kept =>
            exact ⟨some _, (member?_eq_some_iff written keyed).mpr only,
              error?_eq_some_iff.mpr (Or.inr ⟨notNull, _, kept, rfl⟩)⟩

end Fields

/-- A reply is decoded exactly as the choices and the error that it has. -/
theorem ofReading?_eq_some_iff (written : Written (.object members) cs) {response : Response} :
    ofReading? (.object members) = some response ↔
      AllNamed members ∧ HasChoices members response.choices ∧
        ∃ error, HasError members error ∧ Option.Rel Kept error response.error := by
  constructor
  · intro read
    obtain ⟨named, keyed, read⟩ := Option.bind_eq_some_iff.mp read
    obtain ⟨choicesField, choicesFound, read⟩ := Option.bind_eq_some_iff.mp read
    obtain ⟨choices, choicesRead, read⟩ := Option.bind_eq_some_iff.mp read
    obtain ⟨errorField, errorFound, read⟩ := Option.bind_eq_some_iff.mp read
    obtain ⟨error, errorRead, read⟩ := Option.bind_eq_some_iff.mp read
    obtain rfl := Option.some.inj read
    refine ⟨(isSome_keyed? written).mp (by rw [keyed]; rfl), ?_, ?_⟩
    · exact (hasChoices_iff written keyed).mp ⟨choicesField, choicesFound, choicesRead⟩
    · exact (hasError_iff written keyed).mp ⟨errorField, errorFound, errorRead⟩
  · rintro ⟨allNamed, hasChoices, hasError⟩
    obtain ⟨named, keyed⟩ := Option.isSome_iff_exists.mp ((isSome_keyed? written).mpr allNamed)
    obtain ⟨choicesField, choicesFound, choicesRead⟩ := (hasChoices_iff written keyed).mpr hasChoices
    obtain ⟨errorField, errorFound, errorRead⟩ := (hasError_iff written keyed).mpr hasError
    simp only [ofReading?, keyed, choicesFound, choicesRead, errorFound, errorRead,
      Option.bind_eq_bind, Option.bind_some, Option.pure_def]

theorem HasError.mem {error : Reading} (hasError : HasError members (some error)) :
    ∃ key, (key, error) ∈ members := by
  cases hasError with
  | given only _ =>
      obtain ⟨key, inside, _⟩ := only.mem
      exact ⟨key, inside⟩

/-- An error that stands for a value is kept as that value. -/
theorem kept_of_denotes {error : Option Reading} {value : Option Json}
    (shallow : (Reading.object members).depth ≤ depthLimit) (hasError : HasError members error)
    (denotes : Option.Rel Denotes error value) : Option.Rel Kept error value := by
  cases denotes with
  | none => exact .none
  | some denotes =>
      obtain ⟨key, inside⟩ := hasError.mem
      exact .some ⟨Nat.lt_of_lt_of_le (depth_lt_of_mem inside) shallow,
        Json.Reading.json?_of_denotes denotes⟩

/-- What keeps an object from being a choice. -/
inductive NoChoice (members : Members) : Prop
  | unnamed : ¬ AllNamed members → NoChoice members
  | missing : Lacks "text" members → NoChoice members
  | twice : Twice "text" members → NoChoice members
  | other {key : List Letter} {value : Reading} : (key, value) ∈ members → Spells key "text" →
      (∀ letters, value ≠ .string letters) → NoChoice members

/-- What keeps an object from being a reply, the shape of the choices and of the error apart. -/
inductive Malformed (members : Members) : Prop
  | unnamed : ¬ AllNamed members → Malformed members
  | twiceChoices : Twice "choices" members → Malformed members
  | twiceError : Twice "error" members → Malformed members
  | choice {key : List Letter} {items : List Reading} {choice : Members} :
      (key, .array items) ∈ members → Spells key "choices" → .object choice ∈ items →
      NoChoice choice → Malformed members

theorem IsChoice.not_noChoice {text : String} (isChoice : IsChoice (.object members) text) :
    ¬ NoChoice members := by
  cases isChoice with
  | object allNamed only spells =>
      intro noChoice
      cases noChoice with
      | unnamed not => exact not allNamed
      | missing lacks => exact only.not_lacks lacks
      | twice twice => exact only.not_twice twice
      | other inside named other => exact other _ (only.unique inside named)

theorem HasChoices.not_twice {texts : List String} (hasChoices : HasChoices members texts) :
    ¬ Twice "choices" members := by
  cases hasChoices with
  | missing lacks => exact lacks.not_twice
  | given only _ => exact only.not_twice

theorem HasError.not_twice {error : Option Reading} (hasError : HasError members error) :
    ¬ Twice "error" members := by
  cases hasError with
  | missing lacks => exact lacks.not_twice
  | null only => exact only.not_twice
  | given only _ => exact only.not_twice

theorem HasChoices.exists_isChoice {texts : List String} {key : List Letter} {items : List Reading}
    (hasChoices : HasChoices members texts) (inside : (key, .array items) ∈ members)
    (spells : Spells key "choices") : ∀ item ∈ items, ∃ text, IsChoice item text := by
  cases hasChoices with
  | missing lacks => exact absurd spells (lacks _ inside)
  | given only choices =>
      obtain rfl := Reading.array.inj (only.unique inside spells)
      exact ((List.forall₂_and_left _ _).mp
        (choices.imp fun _ text isChoice => ⟨⟨text, isChoice⟩, isChoice⟩)).1

theorem not_malformed {texts : List String} {error : Option Reading} (allNamed : AllNamed members)
    (hasChoices : HasChoices members texts) (hasError : HasError members error) :
    ¬ Malformed members := by
  intro malformed
  cases malformed with
  | unnamed not => exact not allNamed
  | twiceChoices twice => exact hasChoices.not_twice twice
  | twiceError twice => exact hasError.not_twice twice
  | choice inside spells item noChoice =>
      obtain ⟨text, isChoice⟩ := hasChoices.exists_isChoice inside spells _ item
      exact isChoice.not_noChoice noChoice

theorem ofText?_eq {body : String} (isText : (Reading.object members).IsTextOf body) :
    ofText? body = ofReading? (.object members) := by
  rw [ofText?, isText.ofText?_eq, Option.bind_some]

/-- A reply is decoded as its choices, in order, and its error, whatever else it holds and however it
is written; an object that is malformed is not decoded. -/
theorem ofText?_object {body : String} (isText : (Reading.object members).IsTextOf body) :
    (∀ texts error value, (Reading.object members).depth ≤ depthLimit → AllNamed members →
      HasChoices members texts → HasError members error → Option.Rel Denotes error value →
        ofText? body = some ⟨texts, value⟩) ∧
    (Malformed members → ofText? body = none) := by
  obtain ⟨_, written⟩ := isText.exists_written
  rw [ofText?_eq isText]
  constructor
  · intro texts error value shallow allNamed hasChoices hasError denotes
    exact (ofReading?_eq_some_iff written).mpr
      ⟨allNamed, hasChoices, error, hasError, kept_of_denotes shallow hasError denotes⟩
  · intro malformed
    rw [Option.eq_none_iff_forall_ne_some]
    intro response read
    obtain ⟨allNamed, hasChoices, error, hasError, _⟩ := (ofReading?_eq_some_iff written).mp read
    exact not_malformed allNamed hasChoices hasError malformed

set_option maxRecDepth 4000 in
theorem ofText?_object_surrounded :
    let choice := [(Json.letters "index", Reading.number (.ofInt 0)),
      (Json.letters "text", .string [.half 0xD83D, .half 0xDE00])]
    let error := Reading.object [(Json.letters "code", .number (.ofInt 7))]
    let members := [(Json.letters "id", Reading.array [.null]), (Json.letters "error", error),
      (Json.letters "choices", .array [.object choice])]
    let body := "\x7b\"id\":[null],\n \"error\" : \x7b\"code\":7\x7d, " ++
      "\"choices\":[\x7b\"index\":0,\"t\\u0065xt\":\"\\ud83d\\ude00\"\x7d]\x7d"
    let repeated := [(Json.letters "error", Reading.null), (Json.letters "error", .null)]
    let broken := "\x7b\"error\":null,\"err\\u006fr\":null\x7d"
    (Reading.object members).IsTextOf body ∧
      ofText? body = some ⟨["😀"], some (.object [("code", .integer 7)])⟩ ∧
    (Reading.object repeated).IsTextOf broken ∧ ofText? broken = none := by
  intro choice error members body repeated broken
  have isText : (Reading.object members).IsTextOf body := by
    apply Json.Reading.isTextOf_iff.mpr
    simp only [members, error, choice, body, Json.letters, String.reduceAppend, String.reduceToList]
    rfl
  have isBrokenText : (Reading.object repeated).IsTextOf broken := by
    apply Json.Reading.isTextOf_iff.mpr
    simp only [repeated, broken, Json.letters, String.reduceToList]
    rfl
  obtain ⟨_, written⟩ := isText.exists_written
  have allNamed : AllNamed members := (isSome_keyed? written).mp (by decide +kernel)
  have only : Only "choices" (.array [.object choice]) members := (only_iff written).mpr (by rfl)
  obtain ⟨_, items⟩ := only.exists_written written
  have choices : HasChoices members ["😀"] :=
    .given only ((choices?_eq_some_iff items).mp (by decide +kernel))
  have reported : HasError members (some error) :=
    .given ((only_iff written).mpr (by rfl)) (by intro null; contradiction)
  have denotes : Denotes error (.object [("code", .integer 7)]) :=
    .object (.cons (Json.spells_letters _) (.integer (by decide) (by decide)) .nil)
      ⟨List.pairwise_singleton _ _, fun _ => rfl⟩
  have twice : Twice "error" repeated :=
    ⟨_, _, List.Sublist.refl _, Json.spells_letters _, Json.spells_letters _⟩
  have decoded := (ofText?_object isText).1 _ _ _ (by decide +kernel) allNamed choices reported
    (.some denotes)
  exact ⟨isText, decoded, isBrokenText, (ofText?_object isBrokenText).2 (.twiceError twice)⟩

set_option maxRecDepth 2000 in
/-- A name with half a surrogate pair keeps a reply from being decoded, even where nothing reads the
member. -/
theorem ofText?_unpaired_name :
    let choice := [(Json.letters "text", Reading.string (Json.letters "a"))]
    let members := [([Letter.half 0xD800], Reading.null),
      (Json.letters "choices", .array [.object choice])]
    let body := "\x7b\"\\ud800\":null,\"choices\":[\x7b\"text\":\"a\"\x7d]\x7d"
    (Reading.object members).IsTextOf body ∧ (Reading.object members).depth ≤ depthLimit ∧
      HasChoices members ["a"] ∧ HasError members none ∧ ofText? body = none := by
  intro choice members body
  have isText : (Reading.object members).IsTextOf body := by
    apply Json.Reading.isTextOf_iff.mpr
    simp only [members, choice, body, Json.letters, String.reduceToList]
    rfl
  obtain ⟨_, written⟩ := isText.exists_written
  have only : Only "choices" (.array [.object choice]) members := (only_iff written).mpr (by rfl)
  obtain ⟨_, items⟩ := only.exists_written written
  have choices : HasChoices members ["a"] :=
    .given only ((choices?_eq_some_iff items).mp (by decide +kernel))
  have silent : HasError members none := .missing ((lacks_iff written).mpr (by rfl))
  exact ⟨isText, by decide +kernel, choices, silent, ofText?_eq isText⟩

end DocBlock.Completion.Response
