import DocBlock.Proofs.Definition
import DocBlock.Proofs.Identifier

/-! Parameters with a mark before their sigil, passed by reference or spread, and the tags that spell
them alike. Main statement: a declaration's parameters keep their names behind the marks, but no tag
with a mark is read, so a comment that repeats the marks fits exactly if there are none. -/

namespace DocBlock

/-- What may stand directly before the sigil of a parameter. -/
inductive Mark
  | reference
  | spread
  deriving DecidableEq, Repr

def Mark.text : Mark → List Char
  | .reference => ['&']
  | .spread => ['.', '.', '.']

/-- A parameter of a list with the marks before its sigil, and the type in the tag that documents
it. -/
structure MarkedItem where
  item : Item
  marks : List Mark
  tagType : List Char
  tagType_isRun : Text.IsRun Parameter.isSolid tagType

namespace Mark

open Parameter

/-- A mark ends with a character that interrupts a type and a name. -/
theorem exists_text_eq (mark : Mark) :
    ∃ front c, mark.text = front ++ [c] ∧ '$' ∉ front ∧ Interrupts c := by
  cases mark with
  | reference => exact ⟨[], '&', rfl, by decide, by decide, by decide, by decide, by decide⟩
  | spread => exact ⟨['.', '.'], '.', rfl, by decide, by decide, by decide, by decide, by decide⟩

theorem isSolid_of_mem {mark : Mark} {c : Char} (member : c ∈ mark.text) :
    isSolid c = true ∧ c ≠ '$' ∧ c ≠ '@' := by
  have listed : c = '&' ∨ c = '.' := by
    cases mark <;> simp [text] at member <;> simp [member]
  rcases listed with rfl | rfl <;> decide

end Mark

namespace MarkedItem

open Parameter

def marksText (marked : MarkedItem) : List Char := marked.marks.flatMap Mark.text

/-- The type with the blanks after it. -/
def typeText (marked : MarkedItem) : List Char :=
  marked.item.formal.type.elim [] (· ++ marked.item.gap)

/-- The parameter without its type. -/
def untyped (marked : MarkedItem) : Formal :=
  { marked.item.formal with type := none, type_written := by simp }

/-- What is read of the parameter: a mark cuts off its type. -/
def formal (marked : MarkedItem) : Formal :=
  if marked.marks = [] then marked.item.formal else marked.untyped

def toList (marked : MarkedItem) : List Char :=
  marked.item.lead ++ (marked.typeText ++ (marked.marksText ++
    (marked.untyped.spaced marked.item.gap marked.item.before marked.item.after ++
      marked.item.trail)))

/-- The parameters with a comma between them. -/
def list : List MarkedItem → List Char
  | [] => []
  | marked :: others => marked.toList ++ others.flatMap fun next => ',' :: next.toList

def name (marked : MarkedItem) : String := .ofList marked.item.formal.name

/-- The tag of the parameter without its marks. -/
def tag (marked : MarkedItem) : Tag where
  type := marked.tagType
  name := marked.item.formal.name
  type_isRun := marked.tagType_isRun
  name_isRun := ⟨marked.item.formal.name_isRun.1,
    fun c member => isSolid_of_isWord (marked.item.formal.name_isRun.2 c member)⟩

/-- The marks, the sigil and the name. -/
def spelling (marked : MarkedItem) : List Char :=
  marked.marksText ++ '$' :: marked.item.formal.name

/-- The tag of the parameter, with the marks as the declaration spells them. -/
def tagText (marked : MarkedItem) : List Char :=
  "@param".toList ++ ([' '] ++ (marked.tagType ++ ([' '] ++ marked.spelling)))

/-- The doc comment with one line for each parameter. -/
def comment (parameters : List MarkedItem) : List Char :=
  "/**\n".toList ++ ((parameters.flatMap fun marked => Comment.line marked.tagText) ++
    " */".toList)

def isUnmarked (marked : MarkedItem) : Bool := marked.marks.isEmpty

variable {marked : MarkedItem} {rest : List Char} {later : List Parameter}

theorem isUnmarked_iff : marked.isUnmarked = true ↔ marked.marks = [] := List.isEmpty_iff

theorem of_mem_marksText {c : Char} (member : c ∈ marked.marksText) :
    isSolid c = true ∧ c ≠ '$' ∧ c ≠ '@' := by
  obtain ⟨mark, _, inside⟩ := List.mem_flatMap.mp member
  exact Mark.isSolid_of_mem inside

/-- Before the marks stands no sigil, and the last one ends with a character that interrupts. -/
theorem exists_front_eq (present : marked.marks ≠ []) :
    ∃ front c, marked.item.lead ++ (marked.typeText ++ marked.marksText) = front ++ [c] ∧
      '$' ∉ front ∧ Interrupts c := by
  obtain ⟨init, last, split⟩ := (List.eq_nil_or_concat' marked.marks).resolve_left present
  obtain ⟨front, c, text, absent, interrupts⟩ := last.exists_text_eq
  have marks : marked.marksText = init.flatMap Mark.text ++ (front ++ [c]) := by
    rw [marksText, split, List.flatMap_append, List.flatMap_singleton, text]
  have absentLead : '$' ∉ marked.item.lead :=
    fun member => absurd (marked.item.lead_blank _ member) (by decide)
  have absentGap : '$' ∉ marked.item.gap :=
    fun member => absurd (marked.item.gap_isRun.2 _ member) (by decide)
  have absentType : '$' ∉ marked.typeText := by
    rw [typeText]
    cases written : marked.item.formal.type with
    | none => exact List.not_mem_nil
    | some type =>
        have absentWord := @Formal.notMem_type '$' marked.item.formal (by decide) (by decide) type written
        rw [Option.elim_some, List.mem_append, not_or]
        exact ⟨absentWord, absentGap⟩
  have absentMarks : '$' ∉ init.flatMap Mark.text := by
    intro member
    obtain ⟨mark, _, inside⟩ := List.mem_flatMap.mp member
    exact (Mark.isSolid_of_mem inside).2.1 rfl
  refine ⟨marked.item.lead ++ (marked.typeText ++ (init.flatMap Mark.text ++ front)), c, ?_, ?_,
    interrupts⟩
  · rw [marks]
    simp only [List.append_assoc]
  · rw [List.mem_append, List.mem_append, List.mem_append, not_or, not_or, not_or]
    exact ⟨absentLead, absentType, absentMarks, absent⟩

theorem toList_of_unmarked (unmarked : marked.marks = []) : marked.toList = marked.item.toList := by
  unfold toList Item.toList Formal.spaced
  rw [marksText, unmarked]
  simp only [typeText, untyped, Formal.defaultText, Option.elim_none, List.flatMap_nil,
    List.nil_append, List.append_assoc]

/-- A parameter is read whole if it has no mark, and without its type otherwise. -/
theorem yields_toList (marked : MarkedItem) (ends : Text.Stops (· != ',') rest)
    (yields : declaredForm.Yields rest later) :
    declaredForm.Yields (marked.toList ++ rest) (marked.formal.parameter :: later) := by
  rw [formal]
  split
  · rename_i unmarked
    rw [toList_of_unmarked unmarked]
    exact marked.item.yields_toList ends yields
  · rename_i present
    obtain ⟨front, c, text, absent, interrupts⟩ := exists_front_eq present
    have split : marked.toList ++ rest = (front ++ [c]) ++
        (marked.untyped.spaced marked.item.gap marked.item.before marked.item.after ++
          (marked.item.trail ++ rest)) := by
      rw [← text, toList]
      simp only [List.append_assoc]
    rw [split]
    apply Text.Form.yields_skip
    · intro before
      exact skips_interrupted absent interrupts before _
    · exact Formal.yields_spaced marked.item.gap_isRun marked.item.before_blank
        marked.item.after_blank marked.item.trail_blank ends yields

theorem name_formal (marked : MarkedItem) : marked.formal.parameter.name = marked.name := by
  rw [formal]
  split <;> rfl

theorem declared_list (parameters : List MarkedItem) :
    declared (.ofList (list parameters)) = parameters.map fun marked => marked.formal.parameter := by
  have read : declaredForm.Yields (list parameters)
      (parameters.map fun marked => marked.formal.parameter) := by
    cases parameters with
    | nil => exact Text.Form.yields_nil
    | cons first others =>
        obtain ⟨stops, following⟩ := yields_separated (fun next _ _ => next.yields_toList) others
          Text.stops_nil Text.Form.yields_nil
        rw [List.append_nil, List.append_nil] at following
        rw [List.append_nil] at stops
        exact first.yields_toList stops following
  rw [declared, String.toList_ofList]
  exact read none 0

theorem yields_line_of_unmarked (unmarked : marked.marks = []) (continues : Comment.Continues rest)
    (yields : documentedForm.Yields rest later) :
    documentedForm.Yields (Comment.line marked.tagText ++ rest) (marked.tag.parameter :: later) := by
  have spelled : marked.spelling = '$' :: marked.tag.name := by
    rw [spelling, marksText, unmarked]
    rfl
  have text : marked.tagText = marked.tag.spaced [' '] [' '] :=
    congrArg (fun cs => "@param".toList ++ ([' '] ++ (marked.tagType ++ ([' '] ++ cs)))) spelled
  rw [text]
  exact Comment.yields_line_of_tag marked.tag continues yields

theorem spelling_isRun (marked : MarkedItem) : Text.IsRun isSolid marked.spelling := by
  refine ⟨by simp [spelling], ?_⟩
  intro c member
  rw [spelling, List.mem_append, List.mem_cons] at member
  rcases member with inMarks | rfl | inName
  · exact (of_mem_marksText inMarks).1
  · decide
  · exact isSolid_of_isWord (marked.item.formal.name_isRun.2 c inName)

theorem notMem_spelling (marked : MarkedItem) : '@' ∉ marked.spelling := by
  rw [spelling, List.mem_append, List.mem_cons, not_or, not_or]
  refine ⟨fun member => (of_mem_marksText member).2.2 rfl, by decide, ?_⟩
  intro member
  exact absurd (marked.item.formal.name_isRun.2 _ member) (by decide)

theorem exists_spelling_eq_cons (present : marked.marks ≠ []) :
    ∃ c cs, marked.spelling = c :: cs ∧ isSolid c = true ∧ c ≠ '$' := by
  obtain ⟨mark, marks, split⟩ := List.exists_cons_of_ne_nil present
  obtain ⟨c, cs, text⟩ : ∃ c cs, mark.text = c :: cs := by cases mark <;> exact ⟨_, _, rfl⟩
  have member : c ∈ marked.marksText := by simp [marksText, split, text]
  obtain ⟨solid, sigil, _⟩ := of_mem_marksText member
  refine ⟨c, cs ++ (marks.flatMap Mark.text ++ '$' :: marked.item.formal.name), ?_, solid, sigil⟩
  rw [spelling, marksText, split, List.flatMap_cons, text]
  simp only [List.append_assoc, List.cons_append]

/-- Nothing is read off the line of a tag with a mark: where its word stands, and where its type may
end like one, the word after the next one begins without a sigil. -/
theorem yields_line_of_marked (present : marked.marks ≠ []) (continues : Comment.Continues rest)
    (yields : documentedForm.Yields rest later) :
    documentedForm.Yields (Comment.line marked.tagText ++ rest) later := by
  obtain ⟨cs, rfl⟩ := continues
  obtain ⟨c, inner, spelled, solid, sigil⟩ := exists_spelling_eq_cons present
  have blank : Text.IsRun Text.isBlank [' '] := by decide
  have absent : '@' ∉ [' '] ++ (marked.spelling ++ ['\n']) := by
    rw [List.mem_append, List.mem_append, not_or, not_or]
    exact ⟨by decide, marked.notMem_spelling, by decide⟩
  have tail : documentedForm.Yields
      ([' '] ++ (marked.spelling ++ ['\n']) ++ (' ' :: '*' :: cs)) later :=
    Text.Form.yields_skip (fun before => Tag.skips_of_notMem absent before _) yields
  have split : [' '] ++ (marked.spelling ++ ['\n']) ++ (' ' :: '*' :: cs) =
      [' '] ++ (marked.spelling ++ (['\n', ' '] ++ '*' :: cs)) := by
    simp only [List.append_assoc, List.cons_append, List.nil_append]
  rw [split] at tail
  unfold tagText
  simp only [Comment.line_append, List.append_assoc]
  apply Text.Form.yields_skip (fun before => Tag.skips_of_notMem (by decide) before _)
  apply Text.Form.yields_skip
  · intro before
    rw [spelled, List.cons_append]
    exact Tag.skips_word (by decide) blank marked.tagType_isRun blank solid sigil before
  apply Text.Form.yields_skip (fun before => Tag.skips_of_notMem (by decide) before _)
  apply Text.Form.yields_skip _ tail
  intro before
  exact Tag.skips_word marked.tagType_isRun blank marked.spelling_isRun (by decide) (by decide)
    (by decide) before

theorem yields_line (marked : MarkedItem) (continues : Comment.Continues rest)
    (yields : documentedForm.Yields rest later) :
    documentedForm.Yields (Comment.line marked.tagText ++ rest)
      (([marked].filter isUnmarked).map (fun unmarked => unmarked.tag.parameter) ++ later) := by
  by_cases unmarked : marked.marks = []
  · rw [List.filter_cons_of_pos (isUnmarked_iff.mpr unmarked)]
    exact yields_line_of_unmarked unmarked continues yields
  · rw [List.filter_cons_of_neg (fun isUnmarked => unmarked (isUnmarked_iff.mp isUnmarked))]
    exact yields_line_of_marked unmarked continues yields

/-- The tags without a mark are read, and no others. -/
theorem documented_comment (parameters : List MarkedItem) :
    documented (.ofList (comment parameters)) =
      (parameters.filter isUnmarked).map fun unmarked => unmarked.tag.parameter := by
  have lines := (@Text.Form.yields_flatMap _ documentedForm _
    (fun marked : MarkedItem => Comment.line marked.tagText)
    (fun marked => ([marked].filter isUnmarked).map fun unmarked => unmarked.tag.parameter)
    Comment.Continues parameters _ _ (fun _ _ _ _ => Comment.continues_line _ _)
    (fun marked _ _ _ continues yields => marked.yields_line continues yields) ⟨['/'], rfl⟩
    Comment.yields_closing).2
  rw [List.append_nil, ← List.map_flatMap, ← List.filter_flatMap, List.flatMap_singleton'] at lines
  rw [documented, String.toList_ofList]
  exact Text.Form.yields_skip (fun before => Tag.skips_of_notMem (by decide) before _) lines none 0

theorem names_eq_iff (parameters : List MarkedItem) :
    parameters.map name = (parameters.filter isUnmarked).map name ↔
      ∀ marked ∈ parameters, marked.marks = [] := by
  have all : (∀ marked ∈ parameters, marked.isUnmarked = true) ↔
      ∀ marked ∈ parameters, marked.marks = [] := by
    simp only [isUnmarked_iff]
  rw [← all]
  constructor
  · intro equal
    have lengths := congrArg List.length equal
    rw [List.length_map, List.length_map] at lengths
    exact List.length_filter_eq_length_iff.mp lengths.symm
  · intro unmarked
    rw [List.filter_eq_self.mpr unmarked]

end MarkedItem

namespace Function

/-- A function whose comment repeats the marks of its parameters is documented exactly if there are
none, for behind a mark the declared name is read and that of the tag is not. -/
theorem documented_iff_unmarked {code : String} {declaration : Declaration}
    {parameters : List MarkedItem}
    (listed : declaration.parameterList = .ofList (MarkedItem.list parameters))
    (commented : declaration.docComment = some (.ofList (MarkedItem.comment parameters))) :
    let function := ofDeclaration code declaration
    function.declared.map Parameter.name = parameters.map MarkedItem.name ∧
      function.documented = (parameters.filter MarkedItem.isUnmarked).map
        (fun unmarked => unmarked.tag.parameter) ∧
      (Parameter.sameNames function.declared function.documented = true ↔
        ∀ marked ∈ parameters, marked.marks = []) ∧
      (function.status = .documented ↔ ∀ marked ∈ parameters, marked.marks = []) ∧
      (function.status = .stale ↔ ∃ marked ∈ parameters, marked.marks ≠ []) := by
  intro function
  have declared : function.declared.map Parameter.name = parameters.map MarkedItem.name := by
    simp only [function, ofDeclaration, listed, MarkedItem.declared_list, List.map_map]
    apply List.map_congr_left
    intro marked _
    exact marked.name_formal
  have documented : function.documented = (parameters.filter MarkedItem.isUnmarked).map
      fun unmarked => unmarked.tag.parameter := by
    simp only [function, ofDeclaration, commented, Option.elim_some, MarkedItem.documented_comment]
  have fits : function.parametersMatch = true ↔ ∀ marked ∈ parameters, marked.marks = [] := by
    rw [parametersMatch, Parameter.sameNames, beq_iff_eq, declared, documented, List.map_map]
    exact MarkedItem.names_eq_iff parameters
  have present : function.docComment.isSome = true := by
    simp only [function, ofDeclaration, commented, Option.isSome_some]
  refine ⟨declared, documented, fits, ?_, ?_⟩
  · rw [status_eq_documented_iff, fits]
    exact and_iff_right present
  · rw [status_eq_stale_iff, ← Bool.not_eq_true, fits]
    simp [present]

/-- A list in which one parameter has no mark and the other has both. -/
theorem documented_iff_unmarked_two_parameters :
    let doc := "/**\n * @param int $n\n * @param T[] &...$rest\n */"
    let code := doc ++ "\nfunction f(int $n, ?T &...$rest) {}\n"
    ∃ declaration ∈ Declaration.scan code, ∃ parameters : List MarkedItem,
      declaration.parameterList = .ofList (MarkedItem.list parameters) ∧
        declaration.docComment = some (.ofList (MarkedItem.comment parameters)) ∧
        parameters.map MarkedItem.marks = [[], [.reference, .spread]] ∧
        (ofDeclaration code declaration).declared.map Parameter.name = ["n", "rest"] ∧
        (ofDeclaration code declaration).documented = [⟨some "int", "n", none⟩] ∧
        (ofDeclaration code declaration).status = .stale := by
  intro doc code
  let declaration : Declaration :=
    { docComment := some doc, start := 49
      signature :=
        { visibility := none, static := none, gap := [' '], name := ['f'], space := []
          parameters := "int $n, ?T &...$rest".toList, result := none } }
  let first : Formal :=
    { type := some "int".toList, name := ['n'], default := none, name_isRun := by decide
      type_written := by
        rintro _ ⟨⟩
        exact ⟨[], "int".toList, Or.inl rfl, by decide, rfl⟩
      default_written := by simp }
  let second : Formal :=
    { type := some "?T".toList, name := "rest".toList, default := none, name_isRun := by decide
      type_written := by
        rintro _ ⟨⟩
        exact ⟨['?'], ['T'], Or.inr rfl, by decide, rfl⟩
      default_written := by simp }
  let parameters : List MarkedItem := [
    ⟨first.item [] (by decide), [], "int".toList, by decide⟩,
    ⟨second.item [' '] (by decide), [.reference, .spread], "T[]".toList, by decide⟩]
  have member : declaration ∈ Declaration.scan code := by decide +kernel
  have listed : declaration.parameterList = .ofList (MarkedItem.list parameters) := by
    decide +kernel
  have commented : declaration.docComment = some (.ofList (MarkedItem.comment parameters)) := by
    decide +kernel
  have names : parameters.map MarkedItem.name = ["n", "rest"] := by decide +kernel
  have tags : (parameters.filter MarkedItem.isUnmarked).map (fun unmarked => unmarked.tag.parameter) =
      [⟨some "int", "n", none⟩] := by decide +kernel
  have marked : ∃ marked ∈ parameters, marked.marks ≠ [] := by decide +kernel
  obtain ⟨declared, documented, _, _, stale⟩ := @documented_iff_unmarked code _ _ listed commented
  exact ⟨declaration, member, parameters, listed, commented, rfl, declared.trans names,
    documented.trans tags, stale.mpr marked⟩

/-- A comment that repeats the signature word for word is stale. -/
theorem stale_behind_mark :
    let code := "/**\n * @param int &$x\n */\nfunction f(int &$x) {}\n"
    (ofSource code).map (fun function => (function.declared.map Parameter.name,
        function.documented.map Parameter.name, function.status)) = [(["x"], [], .stale)] ∧
      Parameter.sameNames (Parameter.declared "int &$x")
        (Parameter.documented "/**\n * @param int &$x\n */") = false := by
  decide +kernel

end Function

end DocBlock
