import DocBlock.Parameter
import DocBlock.Proofs.Text.Occurrence
import DocBlock.Proofs.Text.Run

/-! Parameters as they are written, in a declaration and in the tags of a doc comment. Main
statements: reading a written parameter or tag gives it back and goes on right after it, and nothing
is read off the text between two of them. -/

namespace DocBlock

/-- A parameter of a declaration: an optional type, which is a word with perhaps a question mark
before it, a name, and an optional default. -/
structure Formal where
  type : Option (List Char)
  name : List Char
  default : Option (List Char)
  type_written : ∀ written ∈ type, ∃ mark word, (mark = [] ∨ mark = ['?']) ∧
    Text.IsRun Text.isWord word ∧ mark ++ word = written
  name_isRun : Text.IsRun Text.isWord name
  default_written : ∀ written ∈ default, Text.IsTrimmed written ∧ ',' ∉ written

/-- A tag of a doc comment. -/
structure Tag where
  type : List Char
  name : List Char
  type_isRun : Text.IsRun Parameter.isSolid type
  name_isRun : Text.IsRun Parameter.isSolid name

namespace Parameter

theorem type?_written {mark word gap rest : List Char} (marked : mark = [] ∨ mark = ['?'])
    (wordRun : Text.IsRun Text.isWord word) (gapRun : Text.IsRun Text.isBlank gap)
    (stops : Text.Stops Text.isBlank rest) :
    type? (mark ++ (word ++ (gap ++ rest))) = some (mark ++ word, rest) := by
  obtain ⟨c, cs, rfl, letter⟩ := wordRun.exists_cons
  obtain ⟨d, ds, rfl, blank⟩ := gapRun.exists_cons
  have first : c ≠ '?' := by
    rintro rfl
    exact absurd letter (by decide)
  have second := Text.isWord_eq_false_of_isBlank blank
  have readWord : Text.run? Text.isWord ((c :: cs) ++ ((d :: ds) ++ rest)) =
      some (c :: cs, (d :: ds) ++ rest) :=
    Text.run?_eq_some_iff.mpr ⟨wordRun, Text.stops_cons.mpr second, rfl⟩
  have readGap : Text.run? Text.isBlank ((d :: ds) ++ rest) = some (d :: ds, rest) :=
    Text.run?_eq_some_iff.mpr ⟨gapRun, stops, rfl⟩
  have mark_eq : (if (mark ++ ((c :: cs) ++ ((d :: ds) ++ rest))).head? = some '?' then ['?']
      else []) = mark := by
    rcases marked with rfl | rfl
    · simp [first]
    · rfl
  simp only [type?, mark_eq, List.drop_left, readWord, readGap, Option.bind_eq_bind,
    Option.bind_some, Option.pure_def]

theorem type?_eq_none {c : Char} {cs : List Char} (mark : c ≠ '?') (word : Text.isWord c = false) :
    type? (c :: cs) = none := by
  have unread : Text.run? Text.isWord (c :: cs) = none :=
    Text.run?_eq_none_iff.mpr (Text.stops_cons.mpr word)
  have unmarked : ¬ (c :: cs).head? = some '?' := by
    intro first
    exact mark (Option.some.inj first)
  simp only [type?, if_neg unmarked, List.length_nil, List.drop_zero, unread, Option.bind_eq_bind,
    Option.bind_none]

theorem named?_written {name rest : List Char} (isRun : Text.IsRun Text.isWord name)
    (stops : Text.Stops Text.isWord rest) : named? ('$' :: (name ++ rest)) = some (name, rest) := by
  have readName := Text.run?_eq_some_iff.mpr ⟨isRun, stops, rfl⟩
  rw [named?, Text.after?, if_pos rfl, Option.bind_some, readName]

theorem named?_eq_none {c : Char} {cs : List Char} (other : c ≠ '$') : named? (c :: cs) = none := by
  rw [named?, Text.after?, if_neg other, Option.bind_none]

/-- What is read after a name: the parameter with its default, and the rest. -/
def withDefault (type : Option String) (name : String) (cs : List Char) : Parameter × List Char :=
  match default? cs with
  | some (run, rest) => (⟨type, name, some (.ofList (Text.trim run))⟩, rest)
  | none => (⟨type, name, none⟩, cs)

/-- The type and the name at the head of a parameter, with the rest. -/
def heading? (cs : List Char) : Option (Option String × List Char × List Char) :=
  ((type? cs).bind fun (type, rest) =>
      (named? rest).map fun (name, rest) => (some (String.ofList type), name, rest)).or
    ((named? cs).map fun (name, rest) => (none, name, rest))

theorem declaredForm_eq (before : Option Char) (cs : List Char) :
    declaredForm before cs =
      (heading? cs).map fun (type, name, rest) => withDefault type (.ofList name) rest := by
  simp only [declaredForm, heading?, Option.bind_eq_bind, Option.pure_def,
    Option.orElse_eq_orElse, Option.orElse_eq_or, Option.map_eq_bind]
  apply Option.bind_congr
  rintro ⟨type, name, rest⟩ _
  dsimp only [Function.comp_apply, withDefault]
  cases default? rest <;> rfl

theorem declaredForm_typed {cs afterType type name rest : List Char} (before : Option Char)
    (typed : type? cs = some (type, afterType)) (named : named? afterType = some (name, rest)) :
    declaredForm before cs = some (withDefault (some (.ofList type)) (.ofList name) rest) := by
  simp only [declaredForm_eq, heading?, typed, named, Option.bind_some, Option.map_some,
    Option.some_or]

theorem declaredForm_untyped {cs name rest : List Char} (before : Option Char)
    (untyped : type? cs = none) (named : named? cs = some (name, rest)) :
    declaredForm before cs = some (withDefault none (.ofList name) rest) := by
  rw [declaredForm_eq, heading?, untyped, Option.bind_none, named]
  rfl

theorem declaredForm_eq_none {c : Char} {cs : List Char} (before : Option Char) (sigil : c ≠ '$')
    (mark : c ≠ '?') (word : Text.isWord c = false) : declaredForm before (c :: cs) = none := by
  rw [declaredForm_eq, heading?, type?_eq_none mark word, named?_eq_none sigil]
  rfl

theorem suffix_of_type? {cs type rest : List Char} (found : type? cs = some (type, rest)) :
    rest <:+ cs := by
  simp only [type?, Option.bind_eq_bind, Option.bind_eq_some_iff, Option.pure_def,
    Option.some.injEq, Prod.mk.injEq] at found
  obtain ⟨⟨word, afterWord⟩, readWord, ⟨gap, _⟩, readGap, _, rfl⟩ := found
  exact ((Text.suffix_of_run? readGap).trans (Text.suffix_of_run? readWord)).trans
    (List.drop_suffix _ cs)

theorem eq_of_named? {cs name rest : List Char} (found : named? cs = some (name, rest)) :
    '$' :: (name ++ rest) = cs := by
  obtain ⟨afterSigil, sigil, run⟩ := Option.bind_eq_some_iff.mp found
  rw [Text.append_of_run? run, Text.after?_eq_some.mp sigil]

/-- Whatever type stands before, the name follows its sigil. -/
theorem exists_named_of_heading? {cs name rest : List Char} {type : Option String}
    (found : heading? cs = some (type, name, rest)) :
    ∃ front afterFront, front ++ afterFront = cs ∧ named? afterFront = some (name, rest) := by
  simp only [heading?, Option.or_eq_some_iff, Option.bind_eq_some_iff, Option.map_eq_some_iff,
    Prod.mk.injEq] at found
  rcases found with ⟨⟨_, afterType⟩, typed, ⟨_, _⟩, named, _, rfl, rfl⟩ |
    ⟨_, ⟨_, _⟩, named, _, rfl, rfl⟩
  · obtain ⟨front, split⟩ := suffix_of_type? typed
    exact ⟨front, afterType, split, named⟩
  · exact ⟨[], cs, rfl, named⟩

theorem suffix_withDefault (type : Option String) (name : String) (cs : List Char) :
    (withDefault type name cs).2 <:+ cs := by
  unfold withDefault
  cases found : default? cs with
  | none => exact List.suffix_refl cs
  | some read =>
      obtain ⟨rest, sign, run⟩ := Option.bind_eq_some_iff.mp found
      have afterSign : rest <:+ cs.dropWhile Text.isBlank := by
        rw [Text.after?_eq_some.mp sign]
        exact List.suffix_cons '=' rest
      exact ((Text.suffix_of_run? run).trans afterSign).trans (List.dropWhile_suffix _)

theorem consumes_declaredForm : declaredForm.Consumes := by
  intro before cs parameter rest found
  rw [declaredForm_eq] at found
  obtain ⟨⟨type, name, afterName⟩, heading, read⟩ := Option.map_eq_some_iff.mp found
  obtain ⟨front, afterFront, rfl, named⟩ := exists_named_of_heading? heading
  obtain ⟨default, split⟩ := suffix_withDefault type (.ofList name) afterName
  change withDefault type (.ofList name) afterName = (parameter, rest) at read
  rw [read] at split
  refine ⟨front ++ '$' :: (name ++ default), by simp, ?_⟩
  rw [← eq_of_named? named, ← split]
  simp only [List.append_assoc, List.cons_append]

/-- Nothing is read off blanks and commas. -/
theorem skips_declaredForm {gap : List Char} (separates : ∀ c ∈ gap, Text.isBlank c = true ∨ c = ',')
    (before : Option Char) (rest : List Char) : declaredForm.Skips before gap rest := by
  intro left right split present
  obtain ⟨c, cs, rfl⟩ := List.exists_cons_of_ne_nil present
  have member : c ∈ gap := by simp [← split]
  rw [List.cons_append]
  rcases separates c member with blank | rfl
  · have sigil : c ≠ '$' := by
      rintro rfl
      exact absurd blank (by decide)
    have mark : c ≠ '?' := by
      rintro rfl
      exact absurd blank (by decide)
    exact declaredForm_eq_none _ sigil mark (Text.isWord_eq_false_of_isBlank blank)
  · exact declaredForm_eq_none _ (by decide) (by decide) (by decide)

/-- The character stands in no type, in no name, and neither between them nor before them. -/
structure Interrupts (c : Char) : Prop where
  sigil : c ≠ '$'
  mark : c ≠ '?'
  word : Text.isWord c = false
  blank : Text.isBlank c = false

section Interrupted

variable {front rest : List Char} {c : Char}

theorem named?_append_eq_none (sigils : '$' ∉ front) (sigil : c ≠ '$') :
    named? (front ++ c :: rest) = none := by
  cases front with
  | nil => exact named?_eq_none sigil
  | cons d front =>
      apply named?_eq_none
      rintro rfl
      exact sigils List.mem_cons_self

/-- A type that is read ends before the character. -/
theorem exists_suffix_of_type? {type afterType : List Char} (interrupts : Interrupts c)
    (found : type? (front ++ c :: rest) = some (type, afterType)) :
    ∃ remaining, remaining <:+ front ∧ remaining ++ c :: rest = afterType := by
  have unmarked : ∃ inner, inner <:+ front ∧
      (front ++ c :: rest).drop (if (front ++ c :: rest).head? = some '?' then ['?'] else []).length =
        inner ++ c :: rest := by
    cases front with
    | nil => exact ⟨[], List.suffix_refl [], by simp [interrupts.mark]⟩
    | cons d front =>
        by_cases question : d = '?'
        · exact ⟨front, List.suffix_cons d front, by simp [question]⟩
        · exact ⟨d :: front, List.suffix_refl _, by simp [question]⟩
  obtain ⟨inner, suffix, split⟩ := unmarked
  simp only [type?, split, Option.bind_eq_bind, Option.bind_eq_some_iff, Option.pure_def,
    Option.some.injEq, Prod.mk.injEq] at found
  obtain ⟨⟨_, afterWord⟩, readWord, ⟨_, _⟩, readBlanks, _, rfl⟩ := found
  obtain ⟨_, _, rfl⟩ := Text.run?_eq_some readWord
  obtain ⟨_, _, split⟩ := Text.run?_eq_some readBlanks
  rw [Text.dropWhile_append_cons interrupts.word, Text.dropWhile_append_cons interrupts.blank] at split
  refine ⟨_, ?_, split.symm⟩
  exact ((List.dropWhile_suffix _).trans (List.dropWhile_suffix _)).trans suffix

theorem declaredForm_append_eq_none (sigils : '$' ∉ front) (interrupts : Interrupts c)
    (before : Option Char) : declaredForm before (front ++ c :: rest) = none := by
  have unnamed := @named?_append_eq_none front rest c sigils interrupts.sigil
  cases typed : type? (front ++ c :: rest) with
  | none =>
      rw [declaredForm_eq, heading?, typed, unnamed]
      rfl
  | some read =>
      obtain ⟨type, afterType⟩ := read
      obtain ⟨remaining, within, rfl⟩ := exists_suffix_of_type? interrupts typed
      have sigilsLater : '$' ∉ remaining := fun member => sigils (within.subset member)
      have unnamedLater := @named?_append_eq_none remaining rest c sigilsLater interrupts.sigil
      simp only [declaredForm_eq, heading?, typed, unnamed, unnamedLater, Option.bind_some,
        Option.map_none, Option.or_none]

/-- Nothing is read off a text without a sigil up to a character that interrupts a heading. -/
theorem skips_interrupted (sigils : '$' ∉ front) (interrupts : Interrupts c) (before : Option Char)
    (rest : List Char) : declaredForm.Skips before (front ++ [c]) rest := by
  intro left right split present
  obtain ⟨inner, last, rfl⟩ := (List.eq_nil_or_concat' right).resolve_left present
  rw [← List.append_assoc] at split
  obtain ⟨rfl, equal⟩ := List.append_inj' split rfl
  obtain rfl := List.singleton_inj.mp equal
  rw [List.append_assoc]
  apply declaredForm_append_eq_none _ interrupts
  exact fun member => sigils (List.mem_append_right left member)

end Interrupted

theorem ne_comma_of_isBlank {c : Char} (blank : Text.isBlank c = true) : (c != ',') = true := by
  rw [bne_iff_ne]
  rintro rfl
  exact absurd blank (by decide)

theorem default?_written {before after text trail rest : List Char} (beforeBlank : Text.AllBlank before)
    (afterBlank : Text.AllBlank after) (trimmed : Text.IsTrimmed text) (single : ',' ∉ text)
    (trailBlank : Text.AllBlank trail) (ends : Text.Stops (· != ',') rest) :
    default? (before ++ '=' :: (after ++ (text ++ (trail ++ rest)))) =
      some (after ++ (text ++ trail), rest) := by
  have sign : Text.Stops Text.isBlank ('=' :: (after ++ (text ++ (trail ++ rest)))) :=
    Text.stops_cons.mpr (by decide)
  have isRun : Text.IsRun (· != ',') (after ++ (text ++ trail)) := by
    refine ⟨by simp [trimmed.present], ?_⟩
    intro c member
    rw [List.mem_append, List.mem_append] at member
    rcases member with inAfter | inText | inTrail
    · exact ne_comma_of_isBlank (afterBlank c inAfter)
    · rw [bne_iff_ne]
      rintro rfl
      exact single inText
    · exact ne_comma_of_isBlank (trailBlank c inTrail)
  have split : (after ++ (text ++ trail)) ++ rest = after ++ (text ++ (trail ++ rest)) := by
    simp only [List.append_assoc]
  rw [default?, Text.dropWhile_append_of_stops beforeBlank sign, Text.after?, if_pos rfl,
    Option.bind_some]
  exact Text.run?_eq_some_iff.mpr ⟨isRun, ends, split⟩

theorem default?_eq_none {trail rest : List Char} (trailBlank : Text.AllBlank trail)
    (ends : Text.Stops (· != ',') rest) : default? (trail ++ rest) = none := by
  cases rest with
  | nil =>
      rw [default?, Text.dropWhile_append_of_stops trailBlank Text.stops_nil]
      rfl
  | cons c cs =>
      obtain rfl : c = ',' := by simpa using Text.stops_cons.mp ends
      have comma : Text.Stops Text.isBlank (',' :: cs) := Text.stops_cons.mpr (by decide)
      rw [default?, Text.dropWhile_append_of_stops trailBlank comma]
      rfl

end Parameter

namespace Formal

open Parameter

/-- A type holds word characters only, after its mark. -/
theorem notMem_type {c : Char} (formal : Formal) (word : Text.isWord c = false) (mark : c ≠ '?') :
    ∀ type ∈ formal.type, c ∉ type := by
  intro type written
  obtain ⟨front, letters, marked, wordRun, rfl⟩ := formal.type_written type written
  rw [List.mem_append, not_or]
  constructor
  · rcases marked with rfl | rfl
    · exact List.not_mem_nil
    · simpa using mark
  · intro member
    rw [wordRun.2 c member] at word
    contradiction

def parameter (formal : Formal) : Parameter :=
  ⟨formal.type.map .ofList, .ofList formal.name, formal.default.map .ofList⟩

/-- The default with its sign, and with these blanks before and after the sign. -/
def defaultText (before after : List Char) (formal : Formal) : List Char :=
  formal.default.elim [] fun text => before ++ '=' :: (after ++ text)

/-- The parameter with these blanks after its type and around the sign of its default. -/
def spaced (gap before after : List Char) (formal : Formal) : List Char :=
  formal.type.elim [] (· ++ gap) ++ '$' :: (formal.name ++ formal.defaultText before after)

theorem spaced_ne_nil (gap before after : List Char) (formal : Formal) :
    formal.spaced gap before after ≠ [] := by
  simp [spaced]

section Written

variable {formal : Formal} {gap before after trail rest : List Char}

theorem withDefault_written (beforeBlank : Text.AllBlank before) (afterBlank : Text.AllBlank after)
    (trailBlank : Text.AllBlank trail) (ends : Text.Stops (· != ',') rest) (type : Option String)
    (name : String) :
    withDefault type name (formal.defaultText before after ++ (trail ++ rest)) =
      (⟨type, name, formal.default.map .ofList⟩, formal.default.elim (trail ++ rest) fun _ => rest) := by
  cases written : formal.default with
  | none =>
      have unread := default?_eq_none trailBlank ends
      simp only [withDefault, defaultText, written, Option.elim_none, List.nil_append, unread,
        Option.map_none]
  | some text =>
      obtain ⟨trimmed, single⟩ := formal.default_written text written
      have read := default?_written beforeBlank afterBlank trimmed single trailBlank ends
      simp only [withDefault, defaultText, written, Option.elim_some, List.append_assoc,
        List.cons_append, read, Text.trim_blank_append trimmed afterBlank trailBlank,
        Option.map_some]

theorem stops_isWord_defaultText (beforeBlank : Text.AllBlank before)
    (trailBlank : Text.AllBlank trail) (ends : Text.Stops (· != ',') rest) :
    Text.Stops Text.isWord (formal.defaultText before after ++ (trail ++ rest)) := by
  have stops {blanks cs : List Char} (blank : Text.AllBlank blanks)
      (stopsAfter : Text.Stops Text.isWord cs) : Text.Stops Text.isWord (blanks ++ cs) := by
    cases blanks with
    | nil => exact stopsAfter
    | cons c blanks =>
        exact Text.stops_cons.mpr (Text.isWord_eq_false_of_isBlank (blank c List.mem_cons_self))
  cases written : formal.default with
  | none =>
      rw [defaultText, written, Option.elim_none, List.nil_append]
      apply stops trailBlank
      cases rest with
      | nil => exact Text.stops_nil
      | cons c cs =>
          obtain rfl : c = ',' := by simpa using Text.stops_cons.mp ends
          exact Text.stops_cons.mpr (by decide)
  | some text =>
      rw [defaultText, written, Option.elim_some, List.append_assoc, List.cons_append]
      apply stops beforeBlank
      exact Text.stops_cons.mpr (by decide)

theorem declaredForm_spaced (gapRun : Text.IsRun Text.isBlank gap)
    (beforeBlank : Text.AllBlank before) (afterBlank : Text.AllBlank after)
    (trailBlank : Text.AllBlank trail) (ends : Text.Stops (· != ',') rest)
    (preceding : Option Char) :
    declaredForm preceding (formal.spaced gap before after ++ (trail ++ rest)) =
      some (formal.parameter, formal.default.elim (trail ++ rest) fun _ => rest) := by
  have named := named?_written formal.name_isRun
    (@stops_isWord_defaultText formal before after trail rest beforeBlank trailBlank ends)
  have read := @withDefault_written formal before after trail rest beforeBlank afterBlank trailBlank
    ends
  cases written : formal.type with
  | none =>
      have untyped : type? ('$' :: (formal.name ++
          (formal.defaultText before after ++ (trail ++ rest)))) = none :=
        type?_eq_none (by decide) (by decide)
      rw [spaced, written, Option.elim_none, List.nil_append, List.cons_append, List.append_assoc,
        declaredForm_untyped preceding untyped named, read, parameter, written, Option.map_none]
  | some type =>
      obtain ⟨mark, word, marked, wordRun, rfl⟩ := formal.type_written type written
      have sigil : Text.Stops Text.isBlank ('$' :: (formal.name ++
          (formal.defaultText before after ++ (trail ++ rest)))) :=
        Text.stops_cons.mpr (by decide)
      have typed := type?_written marked wordRun gapRun sigil
      simp only [spaced, written, Option.elim_some, List.append_assoc, List.cons_append]
      rw [declaredForm_typed preceding typed named, read, parameter, written, Option.map_some]

/-- A written parameter is read back, and reading goes on after it. -/
theorem yields_spaced (gapRun : Text.IsRun Text.isBlank gap)
    (beforeBlank : Text.AllBlank before) (afterBlank : Text.AllBlank after)
    (trailBlank : Text.AllBlank trail) (ends : Text.Stops (· != ',') rest) {later : List Parameter}
    (yields : declaredForm.Yields rest later) :
    declaredForm.Yields (formal.spaced gap before after ++ (trail ++ rest))
      (formal.parameter :: later) := by
  have read := @declaredForm_spaced formal gap before after trail rest gapRun beforeBlank afterBlank
    trailBlank ends
  have present := formal.spaced_ne_nil gap before after
  cases written : formal.default with
  | none =>
      rw [written, Option.elim_none] at read
      apply Text.Form.yields_found present read
      apply Text.Form.yields_skip _ yields
      intro preceding
      exact skips_declaredForm (fun c member => Or.inl (trailBlank c member)) preceding rest
  | some text =>
      rw [written, Option.elim_some, ← List.append_assoc] at read
      rw [← List.append_assoc]
      exact Text.Form.yields_found (by simp [present]) read yields

end Written

end Formal

namespace Tag

open Parameter

def parameter (tag : Tag) : Parameter := ⟨some (.ofList tag.type), .ofList tag.name, none⟩

/-- The tag with these blanks before and after its type. -/
def spaced (gap middle : List Char) (tag : Tag) : List Char :=
  "@param".toList ++ (gap ++ (tag.type ++ (middle ++ '$' :: tag.name)))

theorem spaced_append (tag : Tag) (gap middle rest : List Char) :
    tag.spaced gap middle ++ rest =
      "@param".toList ++ (gap ++ (tag.type ++ (middle ++ '$' :: (tag.name ++ rest)))) := by
  unfold spaced
  simp only [List.append_assoc, List.cons_append]

theorem name_suffix_spaced (tag : Tag) (gap middle : List Char) :
    tag.name <:+ tag.spaced gap middle :=
  calc
    tag.name <:+ '$' :: tag.name := List.suffix_cons '$' tag.name
    _ <:+ middle ++ '$' :: tag.name := List.suffix_append middle _
    _ <:+ tag.type ++ (middle ++ '$' :: tag.name) := List.suffix_append tag.type _
    _ <:+ gap ++ (tag.type ++ (middle ++ '$' :: tag.name)) := List.suffix_append gap _
    _ <:+ tag.spaced gap middle := List.suffix_append "@param".toList _

theorem isSolid_eq_false_of_isBlank {c : Char} (blank : Text.isBlank c = true) : isSolid c = false := by
  rw [isSolid, blank, Bool.not_true]

theorem isBlank_eq_false_of_isSolid {c : Char} (solid : isSolid c = true) :
    Text.isBlank c = false := by
  rwa [isSolid, Bool.not_eq_true'] at solid

theorem documentedForm_spaced {tag : Tag} {gap middle rest : List Char}
    (gapRun : Text.IsRun Text.isBlank gap) (middleRun : Text.IsRun Text.isBlank middle)
    (stops : Text.Stops isSolid rest) (before : Option Char) :
    documentedForm before (tag.spaced gap middle ++ rest) = some (tag.parameter, rest) := by
  let afterType := middle ++ '$' :: (tag.name ++ rest)
  have opened : "@param".toList.isPrefixOf? (tag.spaced gap middle ++ rest) =
      some (gap ++ (tag.type ++ afterType)) := by
    rw [Text.isPrefixOf?_eq_some, spaced_append]
  have solid : Text.Stops Text.isBlank (tag.type ++ afterType) :=
    tag.type_isRun.stops (fun _ => isBlank_eq_false_of_isSolid) afterType
  have sigil : Text.Stops Text.isBlank ('$' :: (tag.name ++ rest)) := Text.stops_cons.mpr (by decide)
  have readGap := Text.run?_eq_some_iff.mpr ⟨gapRun, solid, rfl⟩
  have readType : Text.run? isSolid (tag.type ++ afterType) = some (tag.type, afterType) :=
    Text.run?_eq_some_iff.mpr ⟨tag.type_isRun, middleRun.stops (fun _ => isSolid_eq_false_of_isBlank) _, rfl⟩
  have readMiddle : Text.run? Text.isBlank afterType = some (middle, '$' :: (tag.name ++ rest)) :=
    Text.run?_eq_some_iff.mpr ⟨middleRun, sigil, rfl⟩
  have readName := Text.run?_eq_some_iff.mpr ⟨tag.name_isRun, stops, rfl⟩
  simp only [documentedForm, opened, readGap, readType, readMiddle, Text.after?, if_true,
    readName, Option.bind_eq_bind, Option.bind_some, Option.pure_def, parameter]

theorem documentedForm_eq_some_iff {before : Option Char} {cs rest : List Char}
    {parameter : Parameter} :
    documentedForm before cs = some (parameter, rest) ↔
      ∃ (tag : Tag) (gap middle : List Char), Text.IsRun Text.isBlank gap ∧
        Text.IsRun Text.isBlank middle ∧ Text.Stops isSolid rest ∧ tag.parameter = parameter ∧
          tag.spaced gap middle ++ rest = cs := by
  constructor
  · intro found
    simp only [documentedForm, Option.bind_eq_bind, Option.bind_eq_some_iff, Option.pure_def,
      Option.some.injEq, Prod.mk.injEq, Text.isPrefixOf?_eq_some, Text.after?_eq_some] at found
    obtain ⟨_, rfl, ⟨gap, _⟩, readGap, ⟨type, afterType⟩, readType, ⟨middle, _⟩, readMiddle,
      ⟨name, _⟩, ⟨_, rfl, readName⟩, rfl, rfl⟩ := found
    obtain ⟨gapRun, _, rfl⟩ := Text.run?_eq_some_iff.mp readGap
    obtain ⟨typeRun, _, rfl⟩ := Text.run?_eq_some_iff.mp readType
    obtain ⟨nameRun, stops, rfl⟩ := Text.run?_eq_some_iff.mp readName
    obtain ⟨middleRun, _, split⟩ := Text.run?_eq_some_iff.mp readMiddle
    refine ⟨⟨type, name, typeRun, nameRun⟩, gap, middle, gapRun, middleRun, stops, rfl, ?_⟩
    change _ = afterType at split
    rw [spaced_append, split]
  · rintro ⟨tag, gap, middle, gapRun, middleRun, stops, rfl, rfl⟩
    exact documentedForm_spaced gapRun middleRun stops before

/-- Nothing is read off a word if the word after the next one begins without a sigil. -/
theorem documentedForm_eq_none {word gap type middle rest : List Char} {c : Char}
    (wordRun : Text.IsRun isSolid word) (gapRun : Text.IsRun Text.isBlank gap)
    (typeRun : Text.IsRun isSolid type) (middleRun : Text.IsRun Text.isBlank middle)
    (solid : isSolid c = true) (sigil : c ≠ '$') (before : Option Char) :
    documentedForm before (word ++ (gap ++ (type ++ (middle ++ c :: rest)))) = none := by
  have solidBlank : ∀ d, isSolid d = true → Text.isBlank d = false :=
    fun _ => isBlank_eq_false_of_isSolid
  have blankSolid : ∀ d, Text.isBlank d = true → isSolid d = false :=
    fun _ => isSolid_eq_false_of_isBlank
  apply Option.eq_none_iff_forall_ne_some.mpr
  rintro ⟨parameter, after⟩ found
  obtain ⟨tag, tagGap, tagMiddle, tagGapRun, tagMiddleRun, _, _, split⟩ :=
    documentedForm_eq_some_iff.mp found
  rw [spaced_append] at split
  obtain ⟨_, split⟩ := Text.append_inj_of_stops (List.all_eq_true.mp (by decide)) wordRun.2
    (tagGapRun.stops blankSolid _) (gapRun.stops blankSolid _) split
  obtain ⟨_, split⟩ := Text.append_inj_of_stops tagGapRun.2 gapRun.2
    (tag.type_isRun.stops solidBlank _) (typeRun.stops solidBlank _) split
  obtain ⟨_, split⟩ := Text.append_inj_of_stops tag.type_isRun.2 typeRun.2
    (tagMiddleRun.stops blankSolid _) (middleRun.stops blankSolid _) split
  obtain ⟨_, split⟩ := Text.append_inj_of_stops tagMiddleRun.2 middleRun.2
    (Text.stops_cons.mpr (by decide)) (Text.stops_cons.mpr (solidBlank c solid)) split
  exact sigil (List.cons.inj split).1.symm

theorem skips_word {word gap type middle rest : List Char} {c : Char}
    (wordRun : Text.IsRun isSolid word) (gapRun : Text.IsRun Text.isBlank gap)
    (typeRun : Text.IsRun isSolid type) (middleRun : Text.IsRun Text.isBlank middle)
    (solid : isSolid c = true) (sigil : c ≠ '$') (before : Option Char) :
    documentedForm.Skips before word (gap ++ (type ++ (middle ++ c :: rest))) := by
  intro left right split present
  have rightRun : Text.IsRun isSolid right :=
    ⟨present, fun d member => wordRun.2 d (split ▸ List.mem_append_right left member)⟩
  exact documentedForm_eq_none rightRun gapRun typeRun middleRun solid sigil _

/-- Nothing is read off a text without the character that a tag's word begins with. -/
theorem skips_of_notMem {text : List Char} (absent : '@' ∉ text) (before : Option Char)
    (rest : List Char) : documentedForm.Skips before text rest := by
  intro left right split present
  apply Option.eq_none_iff_forall_ne_some.mpr
  rintro ⟨parameter, after⟩ found
  obtain ⟨tag, gap, middle, _, _, _, _, equal⟩ := documentedForm_eq_some_iff.mp found
  obtain ⟨c, right, rfl⟩ := List.exists_cons_of_ne_nil present
  obtain rfl : '@' = c := (List.cons.inj equal).1
  exact absent (split ▸ List.mem_append_right left List.mem_cons_self)

theorem consumes_documentedForm : documentedForm.Consumes := by
  intro before cs parameter rest found
  obtain ⟨tag, gap, middle, _, _, _, _, split⟩ := documentedForm_eq_some_iff.mp found
  exact ⟨tag.spaced gap middle, List.cons_ne_nil _ _, split⟩

/-- A written tag is read back, and reading goes on after it. -/
theorem yields_spaced {tag : Tag} {gap middle rest : List Char}
    (gapRun : Text.IsRun Text.isBlank gap) (middleRun : Text.IsRun Text.isBlank middle)
    (stops : Text.Stops isSolid rest) {later : List Parameter}
    (yields : documentedForm.Yields rest later) :
    documentedForm.Yields (tag.spaced gap middle ++ rest) (tag.parameter :: later) := by
  apply Text.Form.yields_found
  · exact List.cons_ne_nil _ _
  · exact documentedForm_spaced gapRun middleRun stops
  · exact yields

/-- Nothing is read off a text without the tag's word, unless the text after it completes one. -/
theorem yields_text {text rest : List Char} (absent : ¬ "@param".toList <:+: text)
    (apart : Text.Stops "param".toList.contains rest) {later : List Parameter}
    (yields : documentedForm.Yields rest later) : documentedForm.Yields (text ++ rest) later := by
  apply Text.Form.yields_skip _ yields
  intro before left right split present
  have unread : "@param".toList.isPrefixOf? (right ++ rest) = none := by
    cases found : "@param".toList.isPrefixOf? (right ++ rest) with
    | none => rfl
    | some after =>
        have begins : "@param".toList <+: right ++ rest := ⟨after, Text.isPrefixOf?_eq_some.mp found⟩
        have lacking : ∀ c ∈ rest.head?, c ∉ "param".toList := by
          intro c first
          simpa using apart c first
        have inside := Text.prefix_left_of_head_notMem begins present lacking
        rw [← split] at absent
        exact absurd (List.infix_append_of_infix_right inside.isInfix) absent
  simp only [documentedForm, unread, Option.bind_eq_bind, Option.bind_none]

end Tag

end DocBlock
