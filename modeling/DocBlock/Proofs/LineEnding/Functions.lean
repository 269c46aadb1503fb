import DocBlock.Proofs.LineEnding.Readers
import DocBlock.Proofs.Place

/-! The functions of a source text whose lines end with a carriage return and a line feed. Main
statement: they agree with those of the text without the returns, and a report in lines of text does
not show the difference. -/

namespace DocBlock

/-- What a report tells of a parameter, with only the presence of its default. -/
def Parameter.outline (parameter : Parameter) : Option String × String × Bool :=
  (parameter.type, parameter.name, parameter.default.isSome)

theorem Parameter.outline_returned (parameter : Parameter) :
    parameter.returned.outline = parameter.outline := by
  rw [outline, returned, Option.isSome_map]
  rfl

namespace Function

/-- The functions differ at most in the texts of comments, bodies and defaults, and in their
offsets. -/
structure Agrees (first second : Function) : Prop where
  name : first.name = second.name
  line : first.line = second.line
  status : first.status = second.status
  bodyState : first.bodyState = second.bodyState
  returnType : first.returnType = second.returnType
  hasDocComment : first.hasDocComment = second.hasDocComment
  declared : first.declared.map Parameter.outline = second.declared.map Parameter.outline
  documented : first.documented.map Parameter.outline = second.documented.map Parameter.outline

section Agreement

variable {first second : Function}

theorem names_eq_of_outlines_eq {left right : List Parameter}
    (same : left.map Parameter.outline = right.map Parameter.outline) :
    left.map Parameter.name = right.map Parameter.name := by
  have name_eq : Parameter.name = (·.2.1) ∘ Parameter.outline := rfl
  rw [name_eq, ← List.map_map, ← List.map_map, same]

theorem Agrees.refl (function : Function) : Agrees function function :=
  ⟨rfl, rfl, rfl, rfl, rfl, rfl, rfl, rfl⟩

theorem status_eq_of_outlines_eq (hasDocComment : first.hasDocComment = second.hasDocComment)
    (declared : first.declared.map Parameter.outline = second.declared.map Parameter.outline)
    (documented : first.documented.map Parameter.outline = second.documented.map Parameter.outline) :
    first.status = second.status := by
  have same : first.parametersMatch = second.parametersMatch := by
    rw [parametersMatch, parametersMatch, Parameter.sameNames, Parameter.sameNames,
      names_eq_of_outlines_eq declared, names_eq_of_outlines_eq documented]
  rw [status, status, hasDocComment, same]

end Agreement

section Standing

variable {code : String} {block : Declaration.Block} {before after : List Char}

theorem state_extract_returned (split : before ++ (block.toList ++ after) = code.toList)
    (splitReturned : Text.withReturns before ++
      (block.withReturns.toList ++ Text.withReturns after) = (Text.returned code).toList) :
    let plain := Declaration.ofBlock (Text.byteLength before) block
    let returned :=
      Declaration.ofBlock (Text.byteLength (Text.withReturns before)) block.withReturns
    (Body.extract code plain.start).state =
      (Body.extract (Text.returned code) returned.start).state := by
  intro plain returned
  have below : block.withReturns.signature.toList ++ Text.withReturns after =
      Text.withReturns (block.signature.toList ++ after) := by
    have whole := Declaration.Block.split_above splitReturned
    rw [Text.toList_returned, ← Declaration.Block.split_above split,
      Text.withReturns_append (before ++ block.above), block.above_withReturns,
      ← Text.withReturns_append before] at whole
    exact List.append_cancel_left whole
  rw [Body.extract, Body.extract, Declaration.dropBytes?_start split,
    Declaration.dropBytes?_start splitReturned, below]
  exact (Body.state_ofText_withReturns _).symm

theorem outline_declared_returned (list : String) :
    (Parameter.declared (Text.returned list)).map Parameter.outline =
      (Parameter.declared list).map Parameter.outline := by
  rw [Parameter.declared_returned, List.map_map]
  exact List.map_congr_left fun parameter _ => parameter.outline_returned

theorem ofDeclaration_agrees (split : before ++ (block.toList ++ after) = code.toList)
    (splitReturned : Text.withReturns before ++
      (block.withReturns.toList ++ Text.withReturns after) = (Text.returned code).toList) :
    let plain := Declaration.ofBlock (Text.byteLength before) block
    let returned :=
      Declaration.ofBlock (Text.byteLength (Text.withReturns before)) block.withReturns
    Agrees (ofDeclaration code plain) (ofDeclaration (Text.returned code) returned) := by
  intro plain returned
  have line : Text.lineOf code plain.start = Text.lineOf (Text.returned code) returned.start := by
    rw [Declaration.lineOf_ofBlock split, Declaration.lineOf_ofBlock splitReturned,
      block.above_withReturns, ← Text.withReturns_append, Text.count_feed_withReturns]
  have returnType : plain.returnType = returned.returnType := by
    change block.signature.result.map _ = (block.signature.result.map _).map _
    rw [Option.map_map]
    rfl
  have docComment : returned.docComment = plain.docComment.map Text.returned := by
    change (block.doc.map _).map _ = (block.doc.map _).map _
    rw [Option.map_map, Option.map_map]
    apply Option.map_congr
    rintro ⟨doc, blanks⟩ _
    exact (Text.returned_ofList doc).symm
  have hasDocComment : plain.docComment.isSome = returned.docComment.isSome := by
    rw [docComment, Option.isSome_map]
  have declared : (Parameter.declared plain.parameterList).map Parameter.outline =
      (Parameter.declared returned.parameterList).map Parameter.outline := by
    rw [← outline_declared_returned, Declaration.parameterList, Text.returned_ofList]
    rfl
  have documented : (plain.docComment.elim [] Parameter.documented).map Parameter.outline =
      (returned.docComment.elim [] Parameter.documented).map Parameter.outline := by
    rw [docComment]
    cases plain.docComment with
    | none => rfl
    | some doc =>
        rw [Option.map_some, Option.elim_some, Option.elim_some, Parameter.documented_returned]
  exact
    { name := rfl
      line := line
      status := status_eq_of_outlines_eq hasDocComment declared documented
      bodyState := state_extract_returned split splitReturned
      returnType := returnType
      hasDocComment := hasDocComment
      declared := declared
      documented := documented }

end Standing

theorem ofSource_agrees {code : String} (unbroken : ReturnPart.Unbroken code.toList) :
    List.Forall₂ Agrees (ofSource code) (ofSource (Text.returned code)) := by
  have carries := Declaration.Block.carries_form
  have correspond := Text.occurrencesFrom_withReturns carries unbroken none 0 0
  simp only [ofSource, Declaration.scan, List.forall₂_map_left_iff, List.forall₂_map_right_iff,
    Text.toList_returned]
  refine correspond.imp ?_
  -- Two corresponding occurrences are one block, read at its place in both texts.
  rintro ⟨_, block⟩ ⟨_, _⟩ ⟨rfl, preceding, before, below, after, split, read, rfl, rfl⟩
  have reads := carries.carries preceding below (carries.inherits before below (by rwa [split]))
  rw [read, Option.map_some] at reads
  have whole := (Declaration.Block.form_eq_some_iff.mp read).2.2.2
  have wholeReturned := (Declaration.Block.form_eq_some_iff.mp reads).2.2.2
  have splits : before ++ (block.toList ++ after) = code.toList := by
    rw [whole, split]
  have splitsReturned : Text.withReturns before ++
      (block.withReturns.toList ++ Text.withReturns after) = (Text.returned code).toList := by
    rw [wholeReturned, ← Text.withReturns_append, split, Text.toList_returned]
  rw [Nat.zero_add, Nat.zero_add]
  exact ofDeclaration_agrees splits splitsReturned

end Function

namespace Report

/-- The entries have one path, and their functions agree. -/
def EntriesAgree (first second : String × Function) : Prop :=
  first.1 = second.1 ∧ first.2.Agrees second.2

theorem nameList_eq {left right : List Parameter}
    (same : left.map Parameter.name = right.map Parameter.name) : nameList left = nameList right := by
  have read (parameters : List Parameter) : nameList parameters =
      if (parameters.map Parameter.name).isEmpty then "-"
      else ", ".intercalate ((parameters.map Parameter.name).map ("$" ++ ·)) := by
    rw [nameList, List.isEmpty_map, List.map_map]
    rfl
  rw [read, read, same]

theorem functionLine_eq_of_agree {first second : String × Function}
    (agree : EntriesAgree first second) :
    functionLine first.1 first.2 = functionLine second.1 second.2 := by
  obtain ⟨path, agrees⟩ := agree
  have text : statusText first.2 = statusText second.2 := by
    rw [statusText, statusText, agrees.status,
      nameList_eq (Function.names_eq_of_outlines_eq agrees.declared),
      nameList_eq (Function.names_eq_of_outlines_eq agrees.documented)]
  rw [functionLine, functionLine, path, agrees.line, agrees.name, text]

variable {first second : Report}

theorem map_eq_of_agree {α : Type} {entries others : List (String × Function)}
    {f : String × Function → α} (agree : List.Forall₂ EntriesAgree entries others)
    (same : ∀ entry other, EntriesAgree entry other → f entry = f other) :
    entries.map f = others.map f := by
  have mapped : List.Forall₂ (· = ·) (entries.map f) (others.map f) := by
    rw [List.forall₂_map_left_iff, List.forall₂_map_right_iff]
    exact agree.imp same
  rwa [List.forall₂_eq_eq_eq] at mapped

theorem text_eq_of_agree (agree : List.Forall₂ EntriesAgree first.entries second.entries) :
    first.text = second.text := by
  have lines : first.functionLines = second.functionLines := by
    rw [functionLines_eq, functionLines_eq]
    exact map_eq_of_agree agree fun _ _ => functionLine_eq_of_agree
  have counts (status : Status) : first.count status = second.count status := by
    have statuses : first.entries.map (·.2.status) = second.entries.map (·.2.status) :=
      map_eq_of_agree agree fun _ _ same => same.2.status
    have counted := congrArg (List.countP (· = status)) statuses
    rw [List.countP_map, List.countP_map] at counted
    rw [count_eq, count_eq]
    exact counted
  rw [text, text, lines, counts, counts, counts]

theorem stale_agree (agree : List.Forall₂ EntriesAgree first.entries second.entries) :
    List.Forall₂ EntriesAgree first.stale.entries second.stale.entries := by
  rw [stale_eq_withStatus, stale_eq_withStatus, entries_withStatus, entries_withStatus]
  apply List.rel_filter _ agree
  intro entry other same
  dsimp only
  rw [same.2.status]

end Report

/-- A carriage return before every line feed changes no function but its texts and offsets, and no
report in lines of text, unless a line ends right behind the colon of a return type. -/
theorem Function.ofSource_returned {code : String} (unbroken : ReturnPart.Unbroken code.toList) :
    List.Forall₂ Agrees (ofSource code) (ofSource (Text.returned code)) ∧
      ∀ (path : String) (before after : Report),
        let plain : Report := before ++ ⟨path, ofSource code⟩ :: after
        let returned : Report := before ++ ⟨path, ofSource (Text.returned code)⟩ :: after
        returned.text = plain.text ∧ returned.stale.text = plain.stale.text := by
  refine ⟨ofSource_agrees unbroken, ?_⟩
  intro path before after plain returned
  have kept (report : Report) : List.Forall₂ Report.EntriesAgree report.entries report.entries :=
    List.forall₂_same.mpr fun entry _ => ⟨rfl, Agrees.refl entry.2⟩
  have file : List.Forall₂ Report.EntriesAgree ((ofSource code).map (path, ·))
      ((ofSource (Text.returned code)).map (path, ·)) := by
    rw [List.forall₂_map_left_iff, List.forall₂_map_right_iff]
    exact (ofSource_agrees unbroken).imp fun _ _ agrees => ⟨rfl, agrees⟩
  have agree : List.Forall₂ Report.EntriesAgree plain.entries returned.entries := by
    simp only [plain, returned, Report.entries, List.flatMap_append, List.flatMap_cons]
    exact List.rel_append (kept before) (List.rel_append file (kept after))
  exact ⟨(Report.text_eq_of_agree agree).symm,
    (Report.text_eq_of_agree (Report.stale_agree agree)).symm⟩

theorem ReturnPart.unbroken_of_not_infix {cs : List Char} (absent : ¬ [':', '\n'] <:+: cs) :
    Unbroken cs := by
  rintro left blanks right _ rfl
  apply absent
  exact ⟨left ++ ')' :: blanks, right, by simp⟩

/-- A default and a list over several lines, a colon on a line of its own, and an open body. -/
theorem Function.ofSource_returned_over_lines :
    let code := "/**\n * @param int $a\n * @param $b\n */\nfunction f(int $a,\n $b = [\n1])\n:" ++
      " ?T {}\nfunction g() \x7b"
    let returned := "/**\r\n * @param int $a\r\n * @param $b\r\n */\r\nfunction f(int $a,\r\n $b = " ++
      "[\r\n1])\r\n: ?T {}\r\nfunction g() \x7b"
    ReturnPart.Unbroken code.toList ∧ Text.returned code = returned ∧
      List.Forall₂ Agrees (ofSource code) (ofSource returned) ∧
      (ofSource code).map (fun function => (function.returnType, function.bodyState)) =
        [(some "?T", .closed), (none, .unterminated)] ∧
      Report.text [⟨"a.php", ofSource returned⟩] =
        "a.php:5  f  stale (doc: $a; code: $a, $b)\na.php:9  g  missing\n" ++
          "2 functions: 0 documented, 1 missing, 1 stale\n" := by
  intro code returned
  have unbroken : ReturnPart.Unbroken code.toList :=
    ReturnPart.unbroken_of_not_infix (by decide +kernel)
  have returned_eq : Text.returned code = returned := by
    decide +kernel
  obtain ⟨agree, reports⟩ := ofSource_returned unbroken
  have report := (reports "a.php" [] []).1
  rw [returned_eq] at agree report
  refine ⟨unbroken, returned_eq, agree, by decide +kernel, report.trans ?_⟩
  decide +kernel

-- Right behind the colon the return takes the place of the one blank that may stand there.
example :
    let code := "function f():\nint {}"
    (Function.ofSource code).map Function.returnType = [some "int"] ∧
      (Function.ofSource (Text.returned code)).map Function.returnType = [none] := by
  decide +kernel

end DocBlock
