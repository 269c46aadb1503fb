import DocBlock.Proofs.Excerpt
import DocBlock.Proofs.Parameter
import DocBlock.Proofs.Text.LineEnding

/-! Readers of a source text whose lines end with a carriage return and a line feed. Main statements:
parameters, tags, blocks and bodies are read as from the text without the returns, except where a
line ends right behind the colon of a return type. -/

namespace DocBlock

namespace Parameter

/-- The parameter with a return before every line feed of its default. -/
def returned (parameter : Parameter) : Parameter :=
  { parameter with default := parameter.default.map Text.returned }

theorem type?_withReturns (cs : List Char) :
    type? (Text.withReturns cs) = (type? cs).map (Prod.map id Text.withReturns) := by
  have head : (Text.withReturns cs).head? = some '?' ↔ cs.head? = some '?' :=
    Text.head?_withReturns_iff (by decide) (by decide)
  have drop : (Text.withReturns cs).drop (if cs.head? = some '?' then ['?'] else []).length =
      Text.withReturns (cs.drop (if cs.head? = some '?' then ['?'] else []).length) := by
    by_cases mark : cs.head? = some '?'
    · obtain ⟨rest, rfl⟩ := List.head?_eq_some_iff.mp mark
      rfl
    · simp only [mark, if_false, List.length_nil, List.drop_zero]
  simp only [type?, head, drop, Option.bind_eq_bind, Option.pure_def]
  rw [Text.run?_withReturns_of_solid (by decide) (by decide)]
  apply Text.map_bind_of_commutes
  rintro ⟨word, afterWord⟩ _
  dsimp only [Prod.map_apply]
  rw [Text.run?_withReturns Text.isBlank_return]
  apply Text.map_bind_of_commutes
  rintro ⟨gap, rest⟩ _
  rfl

/-- A name of a class without line ends stays as it is, behind its sigil. -/
theorem run?_sigil_withReturns {isMember : Char → Bool} (feed : isMember '\n' = false)
    (ret : isMember '\r' = false) (cs : List Char) :
    (Text.after? '$' (Text.withReturns cs)).bind (Text.run? isMember) =
      ((Text.after? '$' cs).bind (Text.run? isMember)).map (Prod.map id Text.withReturns) := by
  rw [Text.after?_withReturns (by decide) (by decide)]
  apply Text.map_bind_of_commutes
  intro afterSigil _
  exact Text.run?_withReturns_of_solid feed ret afterSigil

theorem named?_withReturns (cs : List Char) :
    named? (Text.withReturns cs) = (named? cs).map (Prod.map id Text.withReturns) :=
  run?_sigil_withReturns (by decide) (by decide) cs

theorem typedHeading?_withReturns (cs : List Char) :
    ((type? (Text.withReturns cs)).bind fun (type, rest) =>
        (named? rest).map fun (name, rest) => (some (String.ofList type), name, rest)) =
      ((type? cs).bind fun (type, rest) =>
        (named? rest).map fun (name, rest) => (some (String.ofList type), name, rest)).map
          (Prod.map id (Prod.map id Text.withReturns)) := by
  rw [type?_withReturns]
  apply Text.map_bind_of_commutes
  rintro ⟨type, rest⟩ _
  dsimp only [Prod.map_apply]
  rw [named?_withReturns, Option.map_map, Option.map_map]
  rfl

theorem untypedHeading?_withReturns (cs : List Char) :
    ((named? (Text.withReturns cs)).map fun (name, rest) => ((none : Option String), name, rest)) =
      ((named? cs).map fun (name, rest) => (none, name, rest)).map
        (Prod.map id (Prod.map id Text.withReturns)) := by
  rw [named?_withReturns, Option.map_map, Option.map_map]
  rfl

theorem heading?_withReturns (cs : List Char) :
    heading? (Text.withReturns cs) =
      (heading? cs).map (Prod.map id (Prod.map id Text.withReturns)) := by
  rw [heading?, typedHeading?_withReturns, untypedHeading?_withReturns, heading?, Option.map_or]

theorem default?_withReturns (cs : List Char) :
    default? (Text.withReturns cs) =
      (default? cs).map (Prod.map Text.withReturns Text.withReturns) := by
  rw [default?, default?, Text.dropWhile_withReturns Text.isBlank_return,
    Text.after?_withReturns (by decide) (by decide)]
  apply Text.map_bind_of_commutes
  intro rest _
  exact Text.run?_withReturns (by decide) rest

theorem withDefault_withReturns (type : Option String) (name : String) (cs : List Char) :
    withDefault type name (Text.withReturns cs) =
      Prod.map returned Text.withReturns (withDefault type name cs) := by
  unfold withDefault
  rw [default?_withReturns]
  cases default? cs with
  | none => rfl
  | some read =>
      obtain ⟨run, rest⟩ := read
      simp [returned, Text.trim_withReturns, Text.returned_ofList]

theorem declaredForm_withReturns (before : Option Char) (cs : List Char) :
    declaredForm before (Text.withReturns cs) =
      (declaredForm before cs).map (Prod.map returned Text.withReturns) := by
  rw [declaredForm_eq, declaredForm_eq, heading?_withReturns, Option.map_map, Option.map_map]
  apply Option.map_congr
  rintro ⟨type, name, rest⟩ _
  exact withDefault_withReturns type (.ofList name) rest

theorem documentedForm_withReturns (before : Option Char) (cs : List Char) :
    documentedForm before (Text.withReturns cs) =
      (documentedForm before cs).map (Prod.map id Text.withReturns) := by
  simp only [documentedForm, Option.bind_eq_bind, Option.pure_def]
  have solid : isSolid '\n' = false ∧ isSolid '\r' = false := by decide
  rw [Text.isPrefixOf?_withReturns (by decide) (by decide)]
  apply Text.map_bind_of_commutes
  intro afterTag _
  rw [Text.run?_withReturns Text.isBlank_return]
  apply Text.map_bind_of_commutes
  rintro ⟨gap, afterGap⟩ _
  dsimp only [Prod.map_apply]
  rw [Text.run?_withReturns_of_solid solid.1 solid.2]
  apply Text.map_bind_of_commutes
  rintro ⟨type, afterType⟩ _
  dsimp only [Prod.map_apply]
  rw [Text.run?_withReturns Text.isBlank_return]
  apply Text.map_bind_of_commutes
  rintro ⟨middle, afterMiddle⟩ _
  dsimp only [Prod.map_apply]
  rw [run?_sigil_withReturns solid.1 solid.2]
  apply Text.map_bind_of_commutes
  rintro ⟨name, rest⟩ _
  rfl

theorem declared_returned (list : String) :
    declared (Text.returned list) = (declared list).map returned := by
  have carries : declaredForm.Carries (fun _ => True) returned :=
    { consumes := consumes_declaredForm
      inherits := fun _ _ _ => trivial
      carries := fun before cs _ => declaredForm_withReturns before cs
      passes := fun _ => declaredForm_eq_none _ (by decide) (by decide) (by decide) }
  rw [declared, Text.toList_returned]
  exact Text.map_snd_occurrences_withReturns carries trivial

/-- Tags are read as they stand: neither a type nor a name holds a line end. -/
theorem documented_returned (doc : String) : documented (Text.returned doc) = documented doc := by
  have carries : documentedForm.Carries (fun _ => True) id :=
    { consumes := Tag.consumes_documentedForm
      inherits := fun _ _ _ => trivial
      carries := fun before cs _ => documentedForm_withReturns before cs
      passes := fun _ => rfl }
  rw [documented, Text.toList_returned, Text.map_snd_occurrences_withReturns carries trivial,
    List.map_id]
  rfl

end Parameter

namespace ReturnPart

/-- No line ends right behind the colon after a closing parenthesis. -/
def Unbroken (cs : List Char) : Prop :=
  ∀ left blanks right, Text.AllBlank blanks →
    left ++ ')' :: (blanks ++ ':' :: '\n' :: right) ≠ cs

theorem Unbroken.of_suffix {cs rest : List Char} (unbroken : Unbroken cs) (suffix : rest <:+ cs) :
    Unbroken rest := by
  rintro left blanks right blank rfl
  obtain ⟨front, rfl⟩ := suffix
  exact unbroken (front ++ left) blanks right blank (List.append_assoc _ _ _)

def withReturns (part : ReturnPart) : ReturnPart :=
  { part with lead := Text.withReturns part.lead }

theorem head?_withReturns {cs : List Char} (inLine : cs.head? ≠ some '\n') :
    (Text.withReturns cs).head? = cs.head? ∧
      (Text.withReturns cs).drop (cs.head?.filter Text.isBlank).toList.length =
        Text.withReturns (cs.drop (cs.head?.filter Text.isBlank).toList.length) := by
  cases cs with
  | nil => exact ⟨rfl, rfl⟩
  | cons c cs =>
      have other : c ≠ '\n' := fun equal => inLine (congrArg some equal)
      rw [Text.withReturns_cons other, List.head?_cons, List.head?_cons]
      cases blank : Text.isBlank c <;> simp [Option.filter, blank, Text.withReturns_cons other]

/-- Only a line that ends right behind the colon would be read otherwise, since at most one blank may
stand there. -/
theorem read?_withReturns {cs : List Char} (unbroken : Unbroken (')' :: cs)) :
    read? (Text.withReturns cs) = (read? cs).map (Prod.map withReturns Text.withReturns) := by
  simp only [read?, Option.bind_eq_bind, Option.pure_def]
  rw [Text.dropWhile_withReturns Text.isBlank_return, Text.takeWhile_withReturns Text.isBlank_return,
    Text.after?_withReturns (by decide) (by decide)]
  apply Text.map_bind_of_commutes
  intro afterColon found
  have inLine : afterColon.head? ≠ some '\n' := by
    intro line
    obtain ⟨rest, rfl⟩ := List.head?_eq_some_iff.mp line
    apply unbroken [] (cs.takeWhile Text.isBlank) rest
    · intro c member
      exact List.mem_takeWhile_imp member
    · rw [← Text.after?_eq_some.mp found, List.takeWhile_append_dropWhile, List.nil_append]
  obtain ⟨head, drop⟩ := head?_withReturns inLine
  rw [head, drop, Text.run?_withReturns_of_solid (by decide) (by decide)]
  apply Text.map_bind_of_commutes
  rintro ⟨type, rest⟩ _
  rfl

end ReturnPart

namespace Signature

def withReturns (signature : Signature) : Signature :=
  { signature with
    visibility := signature.visibility.map (Prod.map id Text.withReturns)
    static := signature.static.map Text.withReturns
    gap := Text.withReturns signature.gap
    space := Text.withReturns signature.space
    parameters := Text.withReturns signature.parameters
    result := signature.result.map ReturnPart.withReturns }

theorem modifier?_withReturns {word : List Char} (feed : '\n' ∉ word) (ret : '\r' ∉ word)
    (cs : List Char) : modifier? word (Text.withReturns cs) =
      (modifier? word cs).map (Prod.map Text.withReturns Text.withReturns) := by
  rw [modifier?, modifier?, Text.isPrefixOf?_withReturns feed ret]
  apply Text.map_bind_of_commutes
  intro afterWord _
  exact Text.run?_withReturns Text.isBlank_return afterWord

theorem visibility?_withReturns (cs : List Char) : visibility? (Text.withReturns cs) =
    (visibility? cs).map (Prod.map (Prod.map id Text.withReturns) Text.withReturns) := by
  rw [visibility?, visibility?, List.map_findSome?]
  congr 1
  funext kind
  have plain : '\n' ∉ kind.word ∧ '\r' ∉ kind.word := by
    cases kind <;> decide
  rw [modifier?_withReturns plain.1 plain.2, Option.map_map, Function.comp_apply, Option.map_map]
  rfl

section Optional

variable {α : Type} {part? : List Char → Option (α × List Char)} {convert : α → α} {cs : List Char}

theorem optional_withReturns
    (commutes : part? (Text.withReturns cs) = (part? cs).map (Prod.map convert Text.withReturns)) :
    optional part? (Text.withReturns cs) =
      Prod.map (Option.map convert) Text.withReturns (optional part? cs) := by
  unfold optional
  rw [commutes]
  cases part? cs <;> rfl

theorem suffix_optional (taken : ∀ part rest, part? cs = some (part, rest) → rest <:+ cs) :
    (optional part? cs).2 <:+ cs := by
  unfold optional
  cases read : part? cs with
  | none => exact List.suffix_refl cs
  | some result => exact taken result.1 result.2 read

end Optional

/-- What follows the modifiers goes on to the closing parenthesis and beyond. -/
theorem suffix_of_closed {cs gap afterGap name afterName parameters afterList : List Char}
    (function : modifier? "function".toList cs = some (gap, afterGap))
    (named : Text.run? Text.isWord afterGap = some (name, afterName))
    (opened : Text.after? '(' (afterName.dropWhile Text.isBlank) = some parameters)
    (closed : Text.after? ')' (parameters.dropWhile (· != ')')) = some afterList) :
    ')' :: afterList <:+ cs := by
  have toList : parameters <:+ afterName.dropWhile Text.isBlank := by
    rw [Text.after?_eq_some.mp opened]
    exact List.suffix_cons '(' parameters
  have toClosing : ')' :: afterList <:+ parameters := by
    rw [← Text.after?_eq_some.mp closed]
    exact List.dropWhile_suffix _
  calc
    ')' :: afterList <:+ parameters := toClosing
    _ <:+ afterName.dropWhile Text.isBlank := toList
    _ <:+ afterName := List.dropWhile_suffix _
    _ <:+ afterGap := Text.suffix_of_run? named
    _ <:+ cs := Text.suffix_of_append (append_of_modifier? function)

theorem read?_withReturns {cs : List Char} (unbroken : ReturnPart.Unbroken cs) :
    read? (Text.withReturns cs) = (read? cs).map (Prod.map withReturns Text.withReturns) := by
  have throughVisibility : (optional visibility? cs).2 <:+ cs :=
    suffix_optional fun _ _ found => Text.suffix_of_append (append_of_visibility? found)
  have throughStatic : (optional (modifier? "static".toList) (optional visibility? cs).2).2 <:+ cs :=
    (suffix_optional fun _ _ found => Text.suffix_of_append (append_of_modifier? found)).trans
      throughVisibility
  simp only [read?, Option.bind_eq_bind, Option.pure_def]
  rw [optional_withReturns (visibility?_withReturns cs)]
  dsimp only [Prod.map_fst, Prod.map_snd]
  rw [optional_withReturns (modifier?_withReturns (by decide) (by decide) _)]
  dsimp only [Prod.map_fst, Prod.map_snd]
  rw [modifier?_withReturns (by decide) (by decide)]
  apply Text.map_bind_of_commutes
  rintro ⟨gap, afterGap⟩ function
  dsimp only [Prod.map_apply]
  rw [Text.run?_withReturns_of_solid (by decide) (by decide)]
  apply Text.map_bind_of_commutes
  rintro ⟨name, afterName⟩ named
  dsimp only [Prod.map_apply]
  rw [Text.dropWhile_withReturns Text.isBlank_return, Text.takeWhile_withReturns Text.isBlank_return,
    Text.after?_withReturns (by decide) (by decide)]
  apply Text.map_bind_of_commutes
  intro parameters opened
  rw [Text.dropWhile_withReturns (by decide), Text.takeWhile_withReturns (by decide),
    Text.after?_withReturns (by decide) (by decide)]
  apply Text.map_bind_of_commutes
  intro afterList closed
  have ends := suffix_of_closed function named opened closed
  rw [optional_withReturns
    (ReturnPart.read?_withReturns (unbroken.of_suffix (ends.trans throughStatic)))]
  rfl

end Signature

namespace Declaration

theorem throughClose?_withReturns (cs : List Char) :
    throughClose? (Text.withReturns cs) =
      (throughClose? cs).map (Prod.map Text.withReturns Text.withReturns) := by
  induction cs with
  | nil => rfl
  | cons c cs ih =>
      by_cases feed : c = '\n'
      · subst feed
        rw [Text.withReturns_feed, throughClose?_cons (by simp), throughClose?_cons (by simp),
          throughClose?_cons (by simp), ih]
        cases throughClose? cs <;> rfl
      rw [Text.withReturns_cons feed]
      by_cases closes : c = '*' ∧ cs.head? = some '/'
      · obtain ⟨rfl, slash⟩ := closes
        obtain ⟨rest, rfl⟩ := List.head?_eq_some_iff.mp slash
        rfl
      · have more : c = '*' → cs.head? ≠ some '/' := not_and.mp closes
        have moreReturned : c = '*' → (Text.withReturns cs).head? ≠ some '/' := by
          rwa [ne_eq, Text.head?_withReturns_iff (by decide) (by decide)]
        rw [throughClose?_cons more, throughClose?_cons moreReturned, ih, Option.map_map,
          Option.map_map]
        apply Option.map_congr
        rintro ⟨inner, rest⟩ _
        exact congrArg (·, Text.withReturns rest) (Text.withReturns_cons feed).symm

theorem docComment?_withReturns (cs : List Char) :
    docComment? (Text.withReturns cs) =
      (docComment? cs).map (Prod.map Text.withReturns Text.withReturns) := by
  simp only [docComment?, Option.bind_eq_bind, Option.pure_def]
  rw [Text.isPrefixOf?_withReturns (by decide) (by decide)]
  apply Text.map_bind_of_commutes
  intro inner _
  rw [throughClose?_withReturns]
  apply Text.map_bind_of_commutes
  rintro ⟨body, rest⟩ _
  rfl

theorem docPart?_withReturns (cs : List Char) :
    docPart? (Text.withReturns cs) =
      (docPart? cs).map (Prod.map (Prod.map Text.withReturns Text.withReturns) Text.withReturns) := by
  rw [docPart?, docPart?, docComment?_withReturns, Option.map_map, Option.map_map]
  apply Option.map_congr
  rintro ⟨doc, rest⟩ _
  dsimp only [Function.comp_apply, Prod.map_apply]
  rw [Text.takeWhile_withReturns Text.isBlank_return, Text.dropWhile_withReturns Text.isBlank_return]

namespace Block

def withReturns (block : Block) : Block where
  lead := Text.withReturns block.lead
  doc := block.doc.map (Prod.map Text.withReturns Text.withReturns)
  signature := block.signature.withReturns

theorem above_withReturns (block : Block) :
    block.withReturns.above = Text.withReturns block.above := by
  obtain ⟨lead, doc, signature⟩ := block
  cases doc with
  | none => simp [withReturns, above]
  | some part => simp [withReturns, above]

theorem read?_withReturns {cs : List Char} (unbroken : ReturnPart.Unbroken cs) :
    read? (Text.withReturns cs) = (read? cs).map (Prod.map withReturns Text.withReturns) := by
  have throughDoc : (Signature.optional docPart? (cs.dropWhile Text.isBlank)).2 <:+ cs :=
    (Signature.suffix_optional fun _ _ found =>
      Text.suffix_of_append (append_of_docPart? found)).trans (List.dropWhile_suffix _)
  simp only [read?, Option.bind_eq_bind, Option.pure_def]
  rw [Text.dropWhile_withReturns Text.isBlank_return, Text.takeWhile_withReturns Text.isBlank_return,
    Signature.optional_withReturns (docPart?_withReturns _)]
  dsimp only [Prod.map_fst, Prod.map_snd]
  rw [Signature.read?_withReturns (unbroken.of_suffix throughDoc)]
  apply Text.map_bind_of_commutes
  rintro ⟨signature, rest⟩ _
  rfl

theorem carries_form : form.Carries ReturnPart.Unbroken withReturns where
  consumes := consumes_form
  inherits left right unbroken := unbroken.of_suffix (List.suffix_append left right)
  carries before cs unbroken := by
    unfold form
    split
    · exact read?_withReturns unbroken
    · rfl
  passes cs := rfl

end Block

end Declaration

namespace Body

theorem opening?_withReturns (depth : Nat) (cs : List Char) :
    opening? depth (Text.withReturns cs) = (opening? depth cs).map Text.withReturns := by
  induction cs generalizing depth with
  | nil => rfl
  | cons c cs ih =>
      by_cases feed : c = '\n'
      · subst feed
        simp [opening?, ih]
      · rw [Text.withReturns_cons feed, opening?, opening?, ih, ih, ih]
        split
        · rfl
        split
        · rfl
        split
        · rfl
        split
        · rw [Option.map_some, Text.withReturns_cons feed]
        · rfl

theorem closing?_withReturns (depth : Nat) (cs : List Char) :
    closing? depth (Text.withReturns cs) = (closing? depth cs).map Text.withReturns := by
  induction cs generalizing depth with
  | nil => rfl
  | cons c cs ih =>
      by_cases feed : c = '\n'
      · subst feed
        rw [Text.withReturns_feed, closing?_other (by decide) (by decide),
          closing?_other (by decide) (by decide), closing?_other (by decide) (by decide), ih]
        cases closing? depth cs <;> rfl
      rw [Text.withReturns_cons feed]
      by_cases opens : c = '{'
      · subst opens
        rw [closing?_open, closing?_open, ih, Text.map_cons_withReturns feed]
      by_cases ends : c = '}'
      · subst ends
        cases depth with
        | zero => rfl
        | succ outer =>
            change (closing? outer (Text.withReturns cs)).map ('}' :: ·) = _
            rw [ih, Text.map_cons_withReturns feed]
            rfl
      · rw [closing?_other opens ends, closing?_other opens ends, ih,
          Text.map_cons_withReturns feed]

theorem state_ofText_withReturns (cs : List Char) :
    (ofText (Text.withReturns cs)).state = (ofText cs).state := by
  rw [ofText, ofText, opening?_withReturns]
  cases opened : opening? 0 cs with
  | none => rfl
  | some rest =>
      obtain ⟨_, inner, rfl⟩ := opening?_spec opened
      rw [Option.map_some, Text.withReturns_cons (by decide)]
      dsimp only
      rw [closing?_withReturns]
      cases closing? 0 inner <;> rfl

end Body

end DocBlock
