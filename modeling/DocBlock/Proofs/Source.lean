import DocBlock.Proofs.Declaration
import DocBlock.Proofs.Definition

/-! Source texts that are written definition by definition. Main statement: the functions of such a
text are those of its definitions, in order and with nothing else between them. -/

namespace DocBlock

namespace Declaration.Block

/-- After its blanks a block begins with the opener of a doc comment, or with words and blanks through
the keyword. -/
theorem begins_with {block : Block} (wellFormed : block.WellFormed) :
    ∃ word rest, block.toList = block.lead ++ (word ++ rest) ∧ (word = "/**".toList ∨
      ("function".toList <:+: word ∧ ∀ c ∈ word, Text.isWord c = true ∨ Text.isBlank c = true)) := by
  cases documented : block.doc with
  | none =>
      obtain ⟨rest, split⟩ := block.signature.keywords_prefix
      refine ⟨block.signature.keywords, rest, ?_, Or.inr ⟨?_, ?_⟩⟩
      · rw [toList, above, documented, Option.elim_none, List.append_nil, split]
      · rw [Signature.keywords, ← List.append_assoc]
        exact List.infix_append_right
      · exact Signature.keywords_plain wellFormed.signature
  | some part =>
      obtain ⟨doc, blanks⟩ := part
      obtain ⟨⟨inner, _, opened⟩, _⟩ := wellFormed.doc doc blanks documented
      refine ⟨_, inner ++ (blanks ++ block.signature.toList), ?_, Or.inl rfl⟩
      rw [toList, above, documented, Option.elim_some, ← opened]
      simp only [List.append_assoc]

/-- No block begins in a text that holds neither the keyword nor the opener of a doc comment, if it
ends with a mark that neither is part of. -/
theorem skips_of_absent {text : List Char} {last : Char} (ends : text.getLast? = some last)
    (notWord : Text.isWord last = false) (notBlank : Text.isBlank last = false)
    (mark : last ∉ "/**".toList) (absentKeyword : ¬ "function".toList <:+: text)
    (absentOpener : ¬ "/**".toList <:+: text) (before : Option Char) (rest : List Char) :
    form.Skips before text rest := by
  intro left right split present
  cases found : form (Text.lastOf before left) (right ++ rest) with
  | none => rfl
  | some result =>
      exfalso
      obtain ⟨block, after⟩ := result
      obtain ⟨_, wellFormed, _, whole⟩ := form_eq_some_iff.mp found
      obtain ⟨word, tail, printed, kind⟩ := begins_with wellFormed
      rw [printed, List.append_assoc, List.append_assoc] at whole
      rcases Text.append_cases whole with ⟨within, unread, led, below⟩ | ⟨_, blank, _⟩
      · -- The mark is still ahead where the word begins, so the word ends before it.
        subst split led
        rw [← List.append_assoc] at ends
        have member := Text.mem_of_getLast?_append ends unread
        have begins : word <+: within ++ rest := ⟨tail ++ after, below.symm⟩
        have lacking : last ∉ word := by
          intro known
          rcases kind with rfl | ⟨_, plain⟩
          · exact mark known
          · have either := plain last known
            rw [notWord, notBlank] at either
            simp at either
        have inside : word <:+: left ++ (block.lead ++ within) := by
          rw [← List.append_assoc]
          apply List.infix_append_of_infix_right
          exact (Text.prefix_left_of_notMem begins member lacking).isInfix
        rcases kind with rfl | ⟨keyword, _⟩
        · exact absentOpener inside
        · exact absentKeyword (keyword.trans inside)
      · have member : last ∈ right := by
          rw [← split] at ends
          exact Text.mem_of_getLast?_append ends present
        have inLead : last ∈ block.lead := by
          rw [← blank]
          exact List.mem_append_left _ member
        have light := wellFormed.lead last inLead
        rw [notBlank] at light
        contradiction

/-- No block begins within a line. -/
theorem skips_line {c : Char} {line : List Char} (other : c ≠ '\n') (single : '\n' ∉ line)
    (rest : List Char) : form.Skips (some c) (line ++ ['\n']) rest := by
  have unread {d : Char} (within : d ≠ '\n') (cs : List Char) : form (some d) cs = none := by
    simp [form, within]
  induction line generalizing c with
  | nil => exact Text.Form.skips_cons.mpr ⟨unread other _, Text.Form.skips_nil _ _⟩
  | cons d line ih =>
      rw [List.mem_cons, not_or] at single
      exact Text.Form.skips_cons.mpr ⟨unread other _, ih (Ne.symm single.1) single.2⟩

end Declaration.Block

namespace Definition

open Declaration (Block)

theorem form_block (definition : Definition) (rest : List Char) :
    Block.form (some '\n')
        (definition.block.toList ++ (definition.bodyText ++ ('\n' :: rest))) =
      some (definition.block, definition.bodyText ++ ('\n' :: rest)) := by
  have line : Block.StartsLine (some '\n') := by
    intro c before
    exact (Option.some.inj before).symm
  exact Block.form_eq_some_iff.mpr
    ⟨line, definition.wellFormed_block, definition.endsBefore_bodyText _, rfl⟩

theorem skips_bodyText (definition : Definition) (before : Option Char) (rest : List Char) :
    Block.form.Skips before (definition.bodyText ++ ['\n']) rest := by
  obtain ⟨⟨last, ends, mark⟩, absentKeyword, absentOpener⟩ := definition.bodyText_plain
  refine Text.Form.skips_append.mpr ⟨?_, ?_⟩
  · rcases mark with rfl | rfl
    · exact Block.skips_of_absent ends (by decide) (by decide) (by decide) absentKeyword
        absentOpener before _
    · exact Block.skips_of_absent ends (by decide) (by decide) (by decide) absentKeyword
        absentOpener before _
  · have other : last ≠ '\n' := by rcases mark with rfl | rfl <;> decide
    rw [Text.lastOf, ends, Option.some_or]
    exact @Block.skips_line last [] other (by decide) rest

theorem occurrencesFrom_toList (definition : Definition) (offset : Nat) (rest : List Char) :
    Text.occurrencesFrom Block.form (some '\n') 0 offset (definition.toList ++ rest) =
      (offset, definition.block) :: Text.occurrencesFrom Block.form (some '\n') 0
        (offset + Text.byteLength definition.toList) rest := by
  have whole := definition.toList_eq []
  have last (before : Option Char) : Text.lastOf before (definition.bodyText ++ ['\n']) = some '\n' := by
    rw [Text.lastOf_append]
    rfl
  have gap : definition.bodyText ++ ('\n' :: rest) = (definition.bodyText ++ ['\n']) ++ rest := by
    rw [List.append_assoc]
    rfl
  rw [List.append_nil] at whole
  rw [toList_eq, Text.occurrencesFrom_of_found definition.block.toList_ne_nil (form_block definition rest),
    gap, Text.occurrencesFrom_of_skips (definition.skips_bodyText _ rest), last, whole,
    Text.byteLength_append definition.block.toList, Nat.add_assoc]

theorem docComment_block (definition : Definition) (offset : Nat) :
    (Declaration.ofBlock offset definition.block).docComment =
      definition.comment.map fun comment => .ofList comment.toList := by
  simp only [Declaration.ofBlock, block, Option.map_map, Function.comp_def]

theorem returnType_block (definition : Definition) (offset : Nat) :
    (Declaration.ofBlock offset definition.block).returnType = definition.result.map .ofList := by
  simp only [Declaration.returnType, Declaration.ofBlock, block, signature, Option.map_map,
    Function.comp_def]

theorem text_block (definition : Definition) (offset : Nat) :
    (Declaration.ofBlock offset definition.block).text = .ofList definition.declaration := by
  rw [← toList_signature]
  rfl

theorem declared_block (definition : Definition) (offset : Nat) :
    Parameter.declared (Declaration.ofBlock offset definition.block).parameterList =
      definition.formals.map Formal.parameter :=
  Formal.declared_list definition.formals

section Standing

variable {code : String} {definition : Definition} {above rest : List Char}

theorem start_block : (Declaration.ofBlock (Text.byteLength above) definition.block).start =
    Text.byteLength (above ++ definition.commentText) := by
  rw [Declaration.start_ofBlock, above_block]

theorem extract_block (split : above ++ (definition.toList ++ rest) = code.toList) :
    Body.extract code (Text.byteLength (above ++ definition.commentText)) =
      definition.body.elim .absent .closed := by
  rw [toList_eq] at split
  have dropped := Declaration.dropBytes?_start split
  rw [start_block] at dropped
  rw [Body.extract, dropped]
  exact definition.ofText_toList rest

theorem lineOf_block (split : above ++ (definition.toList ++ rest) = code.toList) :
    Text.lineOf code (Text.byteLength (above ++ definition.commentText)) =
      (above ++ definition.commentText).count '\n' + 1 := by
  rw [toList, List.append_assoc, ← List.append_assoc above] at split
  rw [Text.lineOf, ← split, Text.lineFeedsBefore_byteLength]

theorem ofDeclaration_block (split : above ++ (definition.toList ++ rest) = code.toList) :
    Function.ofDeclaration code (Declaration.ofBlock (Text.byteLength above) definition.block) =
      definition.function above := by
  have found := extract_block split
  have line := lineOf_block split
  have documented : (definition.comment.map fun comment => String.ofList comment.toList).elim []
      Parameter.documented = definition.comment.elim [] fun comment =>
        comment.tags.map Tag.parameter := by
    cases definition.comment with
    | none => rfl
    | some comment => exact comment.documented_toList
  simp only [Function.ofDeclaration, function, start_block, found, line, docComment_block,
    returnType_block, declared_block, text_block, documented]
  cases written : definition.body with
  | none =>
      simp only [Option.elim_none, Body.span, List.isEmpty_nil, if_true, List.append_nil]
      rfl
  | some text =>
      obtain ⟨inner, rfl, _⟩ := (definition.body_plain text written).1.eq_cons
      have feed : "\n" ++ String.ofList ('{' :: inner) = String.ofList ('\n' :: '{' :: inner) :=
        (@String.ofList_append ['\n'] ('{' :: inner)).symm
      have whole : String.ofList definition.declaration ++ "\n" ++ String.ofList ('{' :: inner) =
          String.ofList (definition.declaration ++ '\n' :: '{' :: inner) := by
        rw [String.append_assoc, feed, String.ofList_append]
      simp only [Option.elim_some, Body.span, List.isEmpty_cons, Body.text, whole]
      rfl

end Standing

theorem ofDeclaration_occurrences {code : String} (definitions : List Definition)
    {above : List Char} (split : above ++ definitions.flatMap toList = code.toList) :
    (Text.occurrencesFrom Block.form (some '\n') 0 (Text.byteLength above)
        (definitions.flatMap toList)).map
      (fun (offset, block) => Function.ofDeclaration code (Declaration.ofBlock offset block)) =
      functions above definitions := by
  induction definitions generalizing above with
  | nil => rfl
  | cons definition definitions ih =>
      rw [List.flatMap_cons] at split
      have first := ofDeclaration_block split
      have later := @ih (above ++ definition.toList) (by rw [List.append_assoc, split])
      rw [Text.byteLength_append] at later
      rw [List.flatMap_cons, occurrencesFrom_toList, List.map_cons, later, functions]
      exact congrArg (· :: functions (above ++ definition.toList) definitions) first

/-- The functions of a written text are those of its definitions. -/
theorem ofSource_source (definitions : List Definition) :
    Function.ofSource (source definitions) = functions "<?php\n".toList definitions := by
  have opens : Block.form.Skips none "<?php\n".toList (definitions.flatMap toList) := by
    have joined : "<?php\n".toList = ['<'] ++ ("?php".toList ++ ['\n']) := rfl
    rw [joined, Text.Form.skips_append]
    constructor
    · exact Block.skips_of_absent rfl (by decide) (by decide) (by decide) (by decide) (by decide) _ _
    · exact Block.skips_line (by decide) (by decide) _
  have split : "<?php\n".toList ++ definitions.flatMap toList = (source definitions).toList :=
    String.toList_ofList.symm
  have written := ofDeclaration_occurrences definitions split
  have found := Text.occurrencesFrom_of_skips opens 0
  rw [Nat.zero_add] at found
  rw [Function.ofSource, Declaration.scan, Text.occurrences, ← split, found, List.map_map]
  exact written

example : ∃ definition : Definition, source [definition] =
    "<?php\n/**\n * Adds.\n * @param int $a\n */\npublic function add(?int $a = 1): int\n{}\n" := by
  have typed : Text.IsRun Text.isWord "int".toList := by decide
  have trimmed : Text.IsTrimmed ['1'] :=
    ⟨by decide, Text.stops_cons.mpr (by decide), Text.stops_cons.mpr (by decide)⟩
  have group : Body.IsGroup "{}".toList := by
    refine ⟨rfl, rfl, rfl, ?_⟩
    intro left right split begun more
    match left, split with
    | [], _ => exact absurd rfl begun
    | [c], split => obtain ⟨rfl, _⟩ := List.cons.inj split; decide
    | [_, _], split => simp_all
  let formal : Formal := ⟨some "?int".toList, ['a'], some ['1'],
    by rintro _ ⟨⟩; exact ⟨['?'], "int".toList, Or.inr rfl, typed, rfl⟩, by decide,
    by rintro _ ⟨⟩; exact ⟨trimmed, by decide⟩⟩
  let comment : Comment := ⟨["Adds.".toList], [⟨"int".toList, ['a'], by decide, by decide⟩],
    by decide, by simp; decide⟩
  exact ⟨⟨some comment, some .pub, false, "add".toList, [formal], some "int".toList,
    some "{}".toList, by decide, by simp [formal], by rintro _ ⟨⟩; decide,
    by rintro _ ⟨⟩; exact ⟨group, by decide, by decide⟩⟩, rfl⟩

end Definition

end DocBlock
