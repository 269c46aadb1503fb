import DocBlock.Function
import DocBlock.Proofs.Block
import DocBlock.Proofs.Body
import DocBlock.Proofs.Listing

/-! Function definitions as they are written, each with its doc comment and its body, and the
functions they are. Main statements: a written definition is one block and what follows it, and the
parameters are read back from its list and from its tags. -/

namespace DocBlock

/-- A doc comment: first its remarks, then one line for each tag. -/
structure Comment where
  remarks : List (List Char)
  tags : List Tag
  remarks_plain : ∀ remark ∈ remarks,
    ¬ "*/".toList <:+: remark ∧ ¬ "@param".toList <:+: remark
  tags_plain : ∀ tag ∈ tags, ¬ "*/".toList <:+: tag.type ∧ ¬ "*/".toList <:+: tag.name

structure Definition where
  comment : Option Comment
  visibility : Option Visibility
  static : Bool
  name : List Char
  formals : List Formal
  result : Option (List Char)
  /-- From brace to brace; a semicolon stands in the place of a body that is missing. -/
  body : Option (List Char)
  name_isRun : Text.IsRun Text.isWord name
  formals_plain : ∀ formal ∈ formals, ∀ text ∈ formal.default, '(' ∉ text ∧ ')' ∉ text
  result_isRun : ∀ type ∈ result, Text.IsRun isTypeChar type
  body_plain : ∀ text ∈ body, Body.IsGroup text ∧ ¬ "function".toList <:+: text ∧
    ¬ "/**".toList <:+: text

namespace Formal

def toList (formal : Formal) : List Char := formal.spaced [' '] [' '] [' ']

/-- The parameters with a comma and a blank between them. -/
def list : List Formal → List Char
  | [] => []
  | formal :: formals => formal.toList ++ formals.flatMap fun next => ", ".toList ++ next.toList

end Formal

namespace Comment

def line (text : List Char) : List Char := " * ".toList ++ (text ++ ['\n'])

def lines (comment : Comment) : List (List Char) :=
  comment.remarks ++ comment.tags.map (Tag.spaced [' '] [' '])

def toList (comment : Comment) : List Char :=
  "/**\n".toList ++ (comment.lines.flatMap line ++ " */".toList)

end Comment

namespace Definition

def commentText (definition : Definition) : List Char :=
  definition.comment.elim [] fun comment => comment.toList ++ ['\n']

/-- The declaration, from its first modifier through its return type. -/
def declaration (definition : Definition) : List Char :=
  definition.visibility.elim [] (·.word ++ [' ']) ++
    ((if definition.static then "static ".toList else []) ++
      ("function ".toList ++ (definition.name ++ ('(' :: (Formal.list definition.formals ++
        ')' :: definition.result.elim [] (": ".toList ++ ·))))))

def bodyText (definition : Definition) : List Char :=
  definition.body.elim [';'] ('\n' :: ·)

def toList (definition : Definition) : List Char :=
  definition.commentText ++ (definition.declaration ++ (definition.bodyText ++ ['\n']))

/-- The function that the definition is below this text. -/
def function (above : List Char) (definition : Definition) : Function where
  name := .ofList definition.name
  docComment := definition.comment.map fun comment => .ofList comment.toList
  body := .ofList (definition.declaration ++ definition.body.elim [] ('\n' :: ·))
  bodyState := if definition.body.isSome then .closed else .absent
  returnType := definition.result.map .ofList
  offset := Text.byteLength (above ++ definition.commentText)
  line := (above ++ definition.commentText).count '\n' + 1
  declared := definition.formals.map Formal.parameter
  documented := definition.comment.elim [] fun comment => comment.tags.map Tag.parameter

/-- The functions of definitions that are written one after the other below this text. -/
def functions (above : List Char) : List Definition → List Function
  | [] => []
  | definition :: definitions =>
    definition.function above :: functions (above ++ definition.toList) definitions

/-- The text of a file with these definitions. -/
def source (definitions : List Definition) : String :=
  .ofList ("<?php\n".toList ++ definitions.flatMap toList)

end Definition

namespace Comment

theorem absent_lines {texts : List (List Char)}
    (absent : ∀ text ∈ texts, ¬ "*/".toList <:+: text) : ¬ "*/".toList <:+: texts.flatMap line := by
  induction texts with
  | nil => decide
  | cons text texts ih =>
      have first := absent text List.mem_cons_self
      have later := ih fun other member => absent other (List.mem_cons_of_mem text member)
      have split : (text :: texts).flatMap line =
          [' ', '*'] ++ ' ' :: (text ++ '\n' :: texts.flatMap line) := by
        have first : line text = [' ', '*'] ++ ' ' :: (text ++ ['\n']) := rfl
        rw [List.flatMap_cons, first]
        simp only [List.append_assoc, List.cons_append, List.nil_append]
      rw [split]
      apply Text.not_infix_append_cons (by decide) (by decide)
      exact Text.not_infix_append_cons (by decide) first later

theorem absent_tag {tag : Tag} (absentType : ¬ "*/".toList <:+: tag.type)
    (absentName : ¬ "*/".toList <:+: tag.name) : ¬ "*/".toList <:+: tag.spaced [' '] [' '] := by
  have sigil : ¬ "*/".toList <:+: '$' :: tag.name := by
    intro inside
    rcases List.infix_cons_iff.mp inside with begins | later
    · exact absurd (List.cons_prefix_cons.mp begins).1 (by decide)
    · exact absentName later
  apply Text.not_infix_append_cons (by decide) (by decide)
  exact Text.not_infix_append_cons (by decide) absentType sigil

theorem isDocComment (comment : Comment) : Declaration.IsDocComment comment.toList := by
  have absent : ¬ "*/".toList <:+: comment.lines.flatMap line := by
    apply absent_lines
    intro text member
    rcases List.mem_append.mp member with isRemark | isTag
    · exact (comment.remarks_plain text isRemark).1
    · obtain ⟨tag, known, rfl⟩ := List.mem_map.mp isTag
      obtain ⟨absentType, absentName⟩ := comment.tags_plain tag known
      exact absent_tag absentType absentName
  have apart : ¬ "*/".toList <:+: [] ++ '\n' :: (comment.lines.flatMap line ++ [' ']) := by
    apply Text.not_infix_append_cons (by decide) (by decide)
    exact Text.not_infix_append_cons (by decide) absent (by decide)
  refine ⟨'\n' :: (comment.lines.flatMap line ++ " */".toList), ?_, rfl⟩
  have closes := Declaration.closesOnce_append apart (by simp [List.getLast?_cons])
  rwa [List.nil_append, List.cons_append, List.append_assoc] at closes

/-- What follows a line: the next one, or the end of the comment. -/
def Continues (rest : List Char) : Prop := ∃ cs, rest = ' ' :: '*' :: cs

theorem continues_line (text rest : List Char) : Continues (line text ++ rest) := ⟨_, rfl⟩

theorem line_append (text rest : List Char) :
    line text ++ rest = " * ".toList ++ (text ++ '\n' :: rest) := by
  unfold line
  simp only [List.append_assoc, List.cons_append, List.nil_append]

section Lines

variable {rest : List Char} {later : List Parameter}

theorem yields_closing : Parameter.documentedForm.Yields " */".toList [] :=
  @Tag.yields_text " */".toList [] (by decide) Text.stops_nil [] Text.Form.yields_nil

theorem yields_line_of_plain {text : List Char} (absent : ¬ "@param".toList <:+: text)
    (continues : Continues rest) (yields : Parameter.documentedForm.Yields rest later) :
    Parameter.documentedForm.Yields (line text ++ rest) later := by
  obtain ⟨cs, rfl⟩ := continues
  have plain : ¬ "@param".toList <:+: [' ', '*'] ++ ' ' :: (text ++ '\n' :: []) := by
    apply Text.not_infix_append_cons (by decide) (by decide)
    exact Text.not_infix_append_cons (by decide) absent (by decide)
  exact Tag.yields_text plain (Text.stops_cons.mpr (by decide)) yields

theorem yields_line_of_tag (tag : Tag) (continues : Continues rest)
    (yields : Parameter.documentedForm.Yields rest later) :
    Parameter.documentedForm.Yields (line (tag.spaced [' '] [' ']) ++ rest)
      (tag.parameter :: later) := by
  obtain ⟨cs, rfl⟩ := continues
  have blank : Text.IsRun Text.isBlank [' '] := by decide
  have below : Parameter.documentedForm.Yields ('\n' :: ' ' :: '*' :: cs) later :=
    @Tag.yields_text ['\n'] _ (by decide) (Text.stops_cons.mpr (by decide)) _ yields
  rw [line_append]
  apply Tag.yields_text (by decide) (Text.stops_cons.mpr (by decide))
  exact Tag.yields_spaced blank blank (Text.stops_cons.mpr (by decide)) below

end Lines

/-- The parameters that the tags of a written comment name are those of its tags. -/
theorem documented_toList (comment : Comment) :
    Parameter.documented (.ofList comment.toList) = comment.tags.map Tag.parameter := by
  obtain ⟨continues, tags⟩ := @Text.Form.yields_flatMap _ Parameter.documentedForm _
    (fun tag : Tag => line (tag.spaced [' '] [' '])) (fun tag => [tag.parameter]) Continues
    comment.tags _ _ (fun _ _ _ _ => continues_line _ _)
    (fun tag _ _ _ => yields_line_of_tag tag) ⟨['/'], rfl⟩ yields_closing
  obtain ⟨⟨cs, begins⟩, remarks⟩ := @Text.Form.yields_flatMap _ Parameter.documentedForm _ line
    (fun _ => []) Continues comment.remarks _ _ (fun _ _ _ _ => continues_line _ _)
    (fun remark member _ _ => yields_line_of_plain (comment.remarks_plain remark member).2)
    continues tags
  have whole := @Tag.yields_text "/**\n".toList _ (by decide)
    (begins ▸ Text.stops_cons.mpr (by decide)) _ remarks
  have split : comment.toList = "/**\n".toList ++ (comment.remarks.flatMap line ++
      (comment.tags.flatMap (fun tag => line (tag.spaced [' '] [' '])) ++ " */".toList)) := by
    unfold toList
    rw [lines, List.flatMap_append, List.flatMap_map, List.append_assoc]
  have unread : comment.remarks.flatMap (fun _ => ([] : List Parameter)) = [] := by simp
  rw [unread, List.nil_append, List.append_nil, ← List.map_eq_flatMap] at whole
  rw [Parameter.documented, String.toList_ofList, split]
  exact whole none 0

end Comment

namespace Formal

/-- The parameter as an item of a list, with these blanks in front. -/
def item (lead : List Char) (blank : Text.AllBlank lead) (formal : Formal) : Item where
  formal := formal
  lead := lead
  gap := [' ']
  before := [' ']
  after := [' ']
  trail := []
  lead_blank := blank
  gap_isRun := by decide
  before_blank := by decide
  after_blank := by decide
  trail_blank := by decide

def items : List Formal → List Item
  | [] => []
  | formal :: formals => formal.item [] (by decide) :: formals.map (item [' '] (by decide))

theorem list_eq (formals : List Formal) : list formals = Item.list (items formals) := by
  cases formals with
  | nil => rfl
  | cons formal formals =>
      simp only [list, items, Item.list, Item.toList, item, toList, List.flatMap_map,
        List.append_nil, List.nil_append]
      rfl

theorem map_parameter_items (formals : List Formal) :
    (items formals).map (fun item => item.formal.parameter) = formals.map parameter := by
  cases formals with
  | nil => rfl
  | cons formal formals =>
      rw [items, List.map_cons, List.map_map]
      rfl

/-- The parameters of a written list are read back. -/
theorem declared_list (formals : List Formal) :
    Parameter.declared (.ofList (list formals)) = formals.map parameter := by
  have read := Item.yields_list (items formals) Text.stops_nil Text.Form.yields_nil
  rw [List.append_nil, List.append_nil, map_parameter_items, ← list_eq] at read
  rw [Parameter.declared, String.toList_ofList]
  exact read none 0

theorem notMem_toList {formal : Formal} {c : Char} (special : c = '(' ∨ c = ')')
    (absent : ∀ text ∈ formal.default, c ∉ text) : c ∉ formal.toList := by
  have notWord : Text.isWord c = false := by rcases special with rfl | rfl <;> decide
  have notBlank : c ∉ [' '] := by rcases special with rfl | rfl <;> decide
  have notMark : c ≠ '?' := by rcases special with rfl | rfl <;> decide
  have notSigil : c ≠ '$' := by rcases special with rfl | rfl <;> decide
  have notSign : c ≠ '=' := by rcases special with rfl | rfl <;> decide
  have notName : c ∉ formal.name := by
    intro member
    rw [formal.name_isRun.2 c member] at notWord
    contradiction
  have notType : c ∉ formal.type.elim [] (· ++ [' ']) := by
    cases written : formal.type with
    | none => exact List.not_mem_nil
    | some type =>
        rw [Option.elim_some, List.mem_append, not_or]
        exact ⟨formal.notMem_type notWord notMark type written, notBlank⟩
  have notDefault : c ∉ formal.defaultText [' '] [' '] := by
    cases written : formal.default with
    | none =>
        rw [defaultText, written]
        exact List.not_mem_nil
    | some text =>
        have following : c ∉ [' '] ++ text :=
          fun member => (List.mem_append.mp member).elim notBlank (absent text written)
        have signed : c ∉ '=' :: ([' '] ++ text) :=
          fun member => (List.mem_cons.mp member).elim notSign following
        rw [defaultText, written, Option.elim_some, List.mem_append, not_or]
        exact ⟨notBlank, signed⟩
  rw [toList, spaced, List.mem_append, List.mem_cons, List.mem_append, not_or, not_or, not_or]
  exact ⟨notType, notSigil, notName, notDefault⟩

theorem notMem_list {formals : List Formal} {c : Char} (special : c = '(' ∨ c = ')')
    (absent : ∀ formal ∈ formals, ∀ text ∈ formal.default, c ∉ text) : c ∉ list formals := by
  have separator : c ∉ ", ".toList := by rcases special with rfl | rfl <;> decide
  cases formals with
  | nil => exact List.not_mem_nil
  | cons formal formals =>
      intro member
      rcases List.mem_append.mp member with first | following
      · exact notMem_toList special (absent formal List.mem_cons_self) first
      · obtain ⟨next, known, written⟩ := List.mem_flatMap.mp following
        rcases List.mem_append.mp written with inSeparator | inNext
        · exact separator inSeparator
        · exact notMem_toList special (absent next (List.mem_cons_of_mem formal known)) inNext

end Formal

namespace Definition

def signature (definition : Definition) : Signature where
  visibility := definition.visibility.map (·, [' '])
  static := if definition.static then some [' '] else none
  gap := [' ']
  name := definition.name
  space := []
  parameters := Formal.list definition.formals
  result := definition.result.map fun type => ⟨[], some ' ', type⟩

theorem toList_signature (definition : Definition) :
    definition.signature.toList = definition.declaration := by
  have visibility : definition.signature.visibilityText =
      definition.visibility.elim [] (·.word ++ [' ']) := by
    rw [Signature.visibilityText, signature]
    cases definition.visibility <;> rfl
  have static : definition.signature.staticText =
      if definition.static then "static ".toList else [] := by
    rw [Signature.staticText, signature]
    cases definition.static <;> rfl
  have result : definition.signature.result.elim [] ReturnPart.toList =
      definition.result.elim [] (": ".toList ++ ·) := by
    rw [signature]
    cases definition.result <;> rfl
  have keyword : "function ".toList = "function".toList ++ [' '] := rfl
  rw [Signature.toList_eq, visibility, static]
  unfold Signature.afterModifiers
  rw [result, declaration, keyword]
  simp only [signature, List.append_assoc, List.nil_append]

theorem wellFormed_signature (definition : Definition) : definition.signature.WellFormed := by
  have blank : Text.IsRun Text.isBlank [' '] := by decide
  constructor
  · intro part present
    obtain ⟨kind, _, rfl⟩ := Option.map_eq_some_iff.mp present
    exact blank
  · intro blanks present
    obtain ⟨_, equal⟩ := Option.ite_none_right_eq_some.mp present
    rwa [← Option.some.inj equal]
  · exact blank
  · exact definition.name_isRun
  · exact Text.allBlank_nil
  · apply Formal.notMem_list (Or.inr rfl)
    intro formal known text written
    exact (definition.formals_plain formal known text written).2
  · intro part present
    obtain ⟨type, written, rfl⟩ := Option.map_eq_some_iff.mp present
    exact ⟨Text.allBlank_nil, blank.2, definition.result_isRun type written⟩

theorem count_parameters (definition : Definition) :
    definition.signature.parameters.count '(' = 0 := by
  apply List.count_eq_zero.mpr
  apply Formal.notMem_list (Or.inl rfl)
  intro formal known text written
  exact (definition.formals_plain formal known text written).1

/-- A body starts with a mark that a return part neither starts with nor holds. -/
theorem endsBefore_bodyText (definition : Definition) (rest : List Char) :
    definition.signature.EndsBefore (definition.bodyText ++ rest) := by
  cases written : definition.body with
  | none =>
      rw [bodyText, written, Option.elim_none]
      apply @Signature.endsBefore_of_blanks definition.signature [] rest ';'
      · exact Text.allBlank_nil
      · decide
      · decide
      · exact Text.stops_cons.mpr (by decide)
  | some text =>
      obtain ⟨inner, rfl, _⟩ := (definition.body_plain text written).1.eq_cons
      rw [bodyText, written, Option.elim_some]
      apply @Signature.endsBefore_of_blanks definition.signature ['\n'] (inner ++ rest) '{'
      · decide
      · decide
      · decide
      · exact Text.stops_cons.mpr (by decide)

/-- A body ends with its mark and holds neither the keyword nor the opener of a doc comment. -/
theorem bodyText_plain (definition : Definition) :
    (∃ last, definition.bodyText.getLast? = some last ∧ (last = ';' ∨ last = '}')) ∧
      ¬ "function".toList <:+: definition.bodyText ∧ ¬ "/**".toList <:+: definition.bodyText := by
  cases written : definition.body with
  | none =>
      rw [bodyText, written, Option.elim_none]
      exact ⟨⟨';', rfl, Or.inl rfl⟩, by decide, by decide⟩
  | some text =>
      obtain ⟨group, absentKeyword, absentOpener⟩ := definition.body_plain text written
      rw [bodyText, written, Option.elim_some]
      refine ⟨⟨'}', ?_, Or.inr rfl⟩, ?_, ?_⟩
      · rw [List.getLast?_cons, group.ends, Option.getD_some]
      · exact @Text.not_infix_append_cons _ [] _ _ (by decide) (by decide) absentKeyword
      · exact @Text.not_infix_append_cons _ [] _ _ (by decide) (by decide) absentOpener

/-- The search from the declaration on finds the body that is written. -/
theorem ofText_toList (definition : Definition) (rest : List Char) :
    Body.ofText (definition.signature.toList ++ (definition.bodyText ++ ('\n' :: rest))) =
      definition.body.elim .absent .closed := by
  have found := Signature.opening?_toList definition.wellFormed_signature
    (definition.bodyText ++ ('\n' :: rest))
  rw [definition.count_parameters] at found
  cases written : definition.body with
  | none =>
      rw [bodyText, written, Option.elim_none] at found ⊢
      rw [Body.ofText, found]
      rfl
  | some text =>
      have group := (definition.body_plain text written).1
      obtain ⟨inner, rfl, _⟩ := group.eq_cons
      rw [bodyText, written, Option.elim_some] at found ⊢
      exact Body.ofText_of_group group found

def block (definition : Definition) : Declaration.Block where
  lead := []
  doc := definition.comment.map fun comment => (comment.toList, ['\n'])
  signature := definition.signature

theorem above_block (definition : Definition) :
    definition.block.above = definition.commentText := by
  rw [Declaration.Block.above, commentText, block, List.nil_append]
  cases definition.comment <;> rfl

theorem wellFormed_block (definition : Definition) : definition.block.WellFormed := by
  constructor
  · exact Text.allBlank_nil
  · intro doc blanks present
    obtain ⟨comment, _, equal⟩ := Option.map_eq_some_iff.mp present
    obtain ⟨rfl, rfl⟩ := Prod.mk.inj equal
    exact ⟨comment.isDocComment, by decide⟩
  · exact definition.wellFormed_signature

theorem toList_eq (definition : Definition) (rest : List Char) :
    definition.toList ++ rest =
      definition.block.toList ++ (definition.bodyText ++ ('\n' :: rest)) := by
  rw [toList, Declaration.Block.toList, above_block, ← toList_signature]
  simp only [block, List.append_assoc, List.cons_append, List.nil_append]

end Definition

end DocBlock
