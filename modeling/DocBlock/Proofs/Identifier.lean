import DocBlock.Function
import DocBlock.Proofs.Declaration
import DocBlock.Proofs.Parameter

/-! The names of parameters. Main statement: a declaration names words only, while the name a tag
gives runs on to the next blank, so it is a word exactly if a blank follows the word after its sigil,
and a comment whose tags begin with the declared names is stale exactly if one of them runs on. -/

namespace DocBlock

namespace Parameter

/-- Word characters only, and at least one. -/
def IsIdentifier (name : String) : Prop := Text.IsRun Text.isWord name.toList

instance (name : String) : Decidable (IsIdentifier name) :=
  inferInstanceAs (Decidable (Text.IsRun _ _))

/-- The word characters at the head of a name. -/
def word (parameter : Parameter) : String :=
  .ofList (parameter.name.toList.takeWhile Text.isWord)

/-- A word stands at the head, and a blank after it. -/
def WordThenBlank (cs : List Char) : Prop :=
  ∃ word blank rest, Text.IsRun Text.isWord word ∧ Text.isBlank blank = true ∧
    word ++ blank :: rest = cs

/-- A tag of the comment gives this parameter, and this text follows the sigil of its name. -/
def TaggedIn (doc : List Char) (parameter : Parameter) (afterSigil : List Char) : Prop :=
  ∃ (tag : Tag) (gap middle front rest : List Char), Text.IsRun Text.isBlank gap ∧
    Text.IsRun Text.isBlank middle ∧ Text.Stops isSolid rest ∧ tag.parameter = parameter ∧
      front ++ (tag.spaced gap middle ++ rest) = doc ∧ tag.name ++ rest = afterSigil

section Declared

variable {before : Option Char} {cs : List Char} {list : String} {parameter : Parameter}

theorem name_withDefault (type : Option String) (name : String) (cs : List Char) :
    (withDefault type name cs).1.name = name := by
  unfold withDefault
  split <;> rfl

theorem isIdentifier_of_mem_declared (member : parameter ∈ declared list) :
    IsIdentifier parameter.name := by
  obtain ⟨⟨start, _⟩, found, rfl⟩ := List.mem_map.mp member
  obtain ⟨_, _, _, rest, _, read⟩ := Text.exists_read_of_mem found
  rw [declaredForm_eq] at read
  obtain ⟨⟨type, name, afterName⟩, heading, result⟩ := Option.map_eq_some_iff.mp read
  obtain ⟨_, _, _, named⟩ := exists_named_of_heading? heading
  obtain ⟨_, _, run⟩ := Option.bind_eq_some_iff.mp named
  have name_eq := congrArg (fun read => read.1.name) result
  dsimp only at name_eq
  rw [name_withDefault] at name_eq
  rw [IsIdentifier, ← name_eq, String.toList_ofList]
  exact (Text.run?_eq_some_iff.mp run).1

end Declared

section Documented

variable {doc afterSigil : List Char} {parameter : Parameter}

theorem exists_taggedIn_of_mem_documented {comment : String}
    (member : parameter ∈ documented comment) :
    ∃ afterSigil, TaggedIn comment.toList parameter afterSigil := by
  obtain ⟨⟨start, _⟩, found, rfl⟩ := List.mem_map.mp member
  obtain ⟨_, front, _, rest, split, read⟩ := Text.exists_read_of_mem found
  obtain ⟨tag, gap, middle, gapRun, middleRun, stops, equal, rfl⟩ :=
    Tag.documentedForm_eq_some_iff.mp read
  exact ⟨tag.name ++ rest, tag, gap, middle, front, rest, gapRun, middleRun, stops, equal, split, rfl⟩

theorem TaggedIn.name_isRun (tagged : TaggedIn doc parameter afterSigil) :
    Text.IsRun isSolid parameter.name.toList := by
  obtain ⟨tag, _, _, _, _, _, _, _, rfl, _⟩ := tagged
  change Text.IsRun isSolid (String.ofList tag.name).toList
  rw [String.toList_ofList]
  exact tag.name_isRun

theorem isSolid_of_isWord {c : Char} (word : Text.isWord c = true) : isSolid c = true := by
  rw [isSolid, Text.isBlank_eq_false_of_isWord word, Bool.not_false]

/-- The name of a tag is a word exactly if a blank follows the word after its sigil. -/
theorem TaggedIn.isIdentifier_iff (tagged : TaggedIn doc parameter afterSigil)
    (isDoc : Declaration.IsDocComment doc) :
    IsIdentifier parameter.name ↔ WordThenBlank afterSigil := by
  obtain ⟨tag, gap, middle, front, rest, _, _, stops, rfl, split, rfl⟩ := tagged
  have name_eq : tag.parameter.name.toList = tag.name := String.toList_ofList
  rw [IsIdentifier, name_eq]
  constructor
  · intro isWord
    cases rest with
    | nil =>
        -- The comment would end with the name, but it ends with a slash.
        have ends : tag.name <:+ doc := by
          rw [← split, List.append_nil]
          exact (tag.name_suffix_spaced gap middle).trans (List.suffix_append front _)
        obtain ⟨before, whole⟩ := ends
        have last := isDoc.getLast?_eq
        rw [← whole] at last
        have slash := isWord.2 '/' (Text.mem_of_getLast?_append last isWord.1)
        contradiction
    | cons blank rest =>
        refine ⟨tag.name, blank, rest, isWord, ?_, rfl⟩
        have solid := Text.stops_cons.mp stops
        rwa [isSolid, Bool.not_eq_false'] at solid
  · rintro ⟨word, blank, after, wordRun, isBlank, equal⟩
    have wordSolid : ∀ c ∈ word, isSolid c = true :=
      fun c member => isSolid_of_isWord (wordRun.2 c member)
    have blankStops : Text.Stops isSolid (blank :: after) :=
      Text.stops_cons.mpr (Tag.isSolid_eq_false_of_isBlank isBlank)
    obtain ⟨taken, _⟩ :=
      Text.append_inj_of_stops wordSolid tag.name_isRun.2 blankStops stops equal
    rwa [← taken]

theorem word_eq_name (isIdentifier : IsIdentifier parameter.name) : parameter.word = parameter.name := by
  have all : parameter.name.toList.takeWhile Text.isWord = parameter.name.toList :=
    List.takeWhile_eq_self_iff.mpr isIdentifier.2
  rw [word, all, String.ofList_toList]

end Documented

end Parameter

theorem Declaration.isDocComment_of_mem_scan {code doc : String} {declaration : Declaration}
    (member : declaration ∈ scan code) (documented : declaration.docComment = some doc) :
    IsDocComment doc.toList := by
  obtain ⟨block, _, _, _, rfl, stands⟩ := mem_scan member
  obtain ⟨blanks, present⟩ := docComment_ofBlock.mp documented
  exact (stands.wellFormed.doc _ _ present).1

namespace Function

variable {function : Function}

/-- A comment whose tags begin with the declared names fits exactly if they name words only. -/
theorem parametersMatch_iff
    (identifiers : ∀ parameter ∈ function.declared, Parameter.IsIdentifier parameter.name)
    (words : function.documented.map Parameter.word = function.declared.map Parameter.name) :
    function.parametersMatch = true ↔
      ∀ parameter ∈ function.documented, Parameter.IsIdentifier parameter.name := by
  rw [parametersMatch, Parameter.sameNames, beq_iff_eq]
  constructor
  · intro same parameter member
    have named : parameter.name ∈ function.declared.map Parameter.name := by
      rw [same]
      exact List.mem_map_of_mem member
    obtain ⟨declared, inside, equal⟩ := List.mem_map.mp named
    rw [← equal]
    exact identifiers declared inside
  · intro all
    rw [← words]
    exact List.map_congr_left fun parameter member => Parameter.word_eq_name (all parameter member)

theorem status_eq_documented_iff : function.status = .documented ↔
    function.docComment.isSome = true ∧ function.parametersMatch = true := by
  rw [status, hasDocComment]
  cases function.docComment.isSome <;> cases function.parametersMatch <;> simp

theorem status_eq_stale_iff : function.status = .stale ↔
    function.docComment.isSome = true ∧ function.parametersMatch = false := by
  rw [status, hasDocComment]
  cases function.docComment.isSome <;> cases function.parametersMatch <;> simp

theorem exists_mem_documented {code : String} {declaration : Declaration} {parameter : Parameter}
    (member : parameter ∈ (ofDeclaration code declaration).documented) :
    ∃ doc, declaration.docComment = some doc ∧ parameter ∈ Parameter.documented doc := by
  cases present : declaration.docComment with
  | none =>
      rw [ofDeclaration, present] at member
      contradiction
  | some doc =>
      rw [ofDeclaration, present] at member
      exact ⟨doc, rfl, member⟩

/-- Declared names are words. The name of a tag is what stands between its sigil and the next blank,
so it is a word exactly if a blank follows the word there. Where the tags begin with the declared
names, the comment is stale exactly if one of their names is no word. -/
theorem ofSource_names {code : String} (member : function ∈ ofSource code) :
    (∀ parameter ∈ function.declared, Parameter.IsIdentifier parameter.name) ∧
      (∀ parameter ∈ function.documented, ∃ doc afterSigil, function.docComment = some doc ∧
        Parameter.TaggedIn doc.toList parameter afterSigil ∧
        Text.IsRun Parameter.isSolid parameter.name.toList ∧
        (Parameter.IsIdentifier parameter.name ↔ Parameter.WordThenBlank afterSigil)) ∧
      (function.docComment.isSome = true →
        function.documented.map Parameter.word = function.declared.map Parameter.name →
        (function.status = .documented ↔
          ∀ parameter ∈ function.documented, Parameter.IsIdentifier parameter.name) ∧
        (function.status = .stale ↔
          ∃ parameter ∈ function.documented, ¬ Parameter.IsIdentifier parameter.name)) := by
  obtain ⟨declaration, scanned, rfl⟩ := List.mem_map.mp member
  have identifiers : ∀ parameter ∈ (ofDeclaration code declaration).declared,
      Parameter.IsIdentifier parameter.name := by
    intro parameter inside
    exact Parameter.isIdentifier_of_mem_declared inside
  refine ⟨identifiers, ?_, ?_⟩
  · intro parameter inside
    obtain ⟨doc, present, listed⟩ := exists_mem_documented inside
    obtain ⟨afterSigil, tagged⟩ := Parameter.exists_taggedIn_of_mem_documented listed
    have isDoc := Declaration.isDocComment_of_mem_scan scanned present
    exact ⟨doc, afterSigil, present, tagged, tagged.name_isRun, tagged.isIdentifier_iff isDoc⟩
  · intro present words
    have fits := parametersMatch_iff identifiers words
    rw [status_eq_documented_iff, status_eq_stale_iff, ← Bool.not_eq_true, fits]
    simp [present]

/-- One tag's name ends before a blank and the other's runs on through a comma. -/
theorem ofSource_names_past_comma :
    let code := "/** @param int $a First.\n * @param ?T $b, too. */\nfunction f(int $a, $b = 1) {}\n"
    let function : Function :=
      { name := "f", docComment := some "/** @param int $a First.\n * @param ?T $b, too. */",
        body := "function f(int $a, $b = 1)\n{}", bodyState := .closed, returnType := none,
        offset := 50, line := 3,
        declared := [⟨some "int", "a", none⟩, ⟨none, "b", some "1"⟩],
        documented := [⟨some "int", "a", none⟩, ⟨some "?T", "b,", none⟩] }
    function ∈ ofSource code ∧ function.docComment.isSome = true ∧
      function.documented.map Parameter.word = function.declared.map Parameter.name ∧
      (∀ parameter ∈ function.declared, Parameter.IsIdentifier parameter.name) ∧
      (∃ doc afterSigil, function.docComment = some doc ∧
        Parameter.TaggedIn doc.toList ⟨some "?T", "b,", none⟩ afterSigil ∧
        (Parameter.IsIdentifier "b," ↔ Parameter.WordThenBlank afterSigil)) ∧
      function.status = .stale := by
  intro code function
  have member : function ∈ ofSource code := by decide +kernel
  have words : function.documented.map Parameter.word = function.declared.map Parameter.name := by
    decide +kernel
  have tag : ⟨some "?T", "b,", none⟩ ∈ function.documented :=
    List.mem_cons_of_mem _ List.mem_cons_self
  obtain ⟨identifiers, tags, judged⟩ := ofSource_names member
  obtain ⟨doc, afterSigil, present, tagged, _, runsOn⟩ := tags _ tag
  have stale := (judged rfl words).2.mpr ⟨_, tag, by decide +kernel⟩
  exact ⟨member, rfl, words, identifiers, ⟨doc, afterSigil, present, tagged, runsOn⟩, stale⟩

/-- The closing mark of a comment becomes part of the name before it, and the comment stale. -/
theorem ofSource_names_closing_mark :
    let code := "/** @param int $x*/\nfunction f($x) {}\n"
    (ofSource code).map (fun function => (function.declared.map Parameter.name,
        function.documented.map Parameter.name, function.status)) = [(["x"], ["x*/"], .stale)] ∧
      ¬ Parameter.IsIdentifier "x*/" := by
  decide +kernel

end Function

end DocBlock
