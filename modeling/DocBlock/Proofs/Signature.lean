import DocBlock.Proofs.Text.Run
import DocBlock.Signature

/-! The grammar of signatures. Main statement: a signature is read off exactly if it is well formed
and nothing after it belongs to its return part, so each text has one reading. -/

namespace DocBlock

theorem isBlank_eq_false_of_isTypeChar {c : Char} (member : isTypeChar c = true) :
    Text.isBlank c = false := by
  simp only [isTypeChar, Bool.or_eq_true, beq_iff_eq] at member
  rcases member with ((rfl | rfl) | rfl) | word
  · decide
  · decide
  · decide
  · exact Text.isBlank_eq_false_of_isWord word

namespace ReturnPart

structure WellFormed (part : ReturnPart) : Prop where
  lead : Text.AllBlank part.lead
  gap : Text.AllBlank part.gap.toList
  type : Text.IsRun isTypeChar part.type

theorem read?_eq_some_iff {cs rest : List Char} {part : ReturnPart} :
    read? cs = some (part, rest) ↔
      part.WellFormed ∧ Text.Stops isTypeChar rest ∧ part.toList ++ rest = cs := by
  constructor
  · intro found
    have lossless := append_of_read? found
    simp only [read?, Option.bind_eq_bind, Option.bind_eq_some_iff, Option.pure_def,
      Option.some.injEq, Prod.mk.injEq] at found
    obtain ⟨afterColon, colon, ⟨type, _⟩, typed, rfl, rfl⟩ := found
    obtain ⟨isRun, stops, _⟩ := Text.run?_eq_some_iff.mp typed
    refine ⟨⟨?_, ?_, isRun⟩, stops, lossless⟩
    · intro c member
      exact List.mem_takeWhile_imp member
    · intro c member
      exact (Option.filter_eq_some_iff.mp (Option.mem_toList.mp member)).2
  · rintro ⟨⟨lead, gap, type⟩, stops, rfl⟩
    have colon : Text.Stops Text.isBlank (':' :: (part.gap.toList ++ (part.type ++ rest))) :=
      Text.stops_cons.mpr (by decide)
    have split : part.toList ++ rest =
        part.lead ++ ':' :: (part.gap.toList ++ (part.type ++ rest)) := by
      simp only [toList, List.append_assoc, List.cons_append]
    have taken := Text.takeWhile_append_of_stops lead colon
    have dropped := Text.dropWhile_append_of_stops lead colon
    have single : (part.gap.toList ++ (part.type ++ rest)).head?.filter Text.isBlank = part.gap := by
      obtain ⟨c, cs, equal, member⟩ := type.exists_cons
      cases blank : part.gap with
      | none =>
          simp [equal, Option.filter, isBlank_eq_false_of_isTypeChar member]
      | some d =>
          have member := gap d (by simp [blank])
          simp [Option.filter, member]
    have typed : Text.run? isTypeChar (part.type ++ rest) = some (part.type, rest) :=
      Text.run?_eq_some_iff.mpr ⟨type, stops, rfl⟩
    rw [split, read?, dropped, taken]
    simp only [Text.after?, if_pos, Option.bind_eq_bind, Option.bind_some, single,
      List.drop_left, typed, Option.pure_def]

/-- Nothing is read only where no return part begins, whatever follows it. -/
theorem read?_eq_none_iff {cs : List Char} :
    read? cs = none ↔ ∀ part rest, WellFormed part → part.toList ++ rest ≠ cs := by
  constructor
  · rintro missing part rest ⟨lead, gap, type⟩ rfl
    let longest := part.type ++ rest.takeWhile isTypeChar
    have longer : read? (part.toList ++ rest) =
        some ({ part with type := longest }, rest.dropWhile isTypeChar) := by
      refine read?_eq_some_iff.mpr ⟨⟨lead, gap, ?_, ?_⟩, Text.stops_dropWhile rest, ?_⟩
      · simp [longest, type.1]
      · intro c member
        rcases List.mem_append.mp member with first | later
        · exact type.2 c first
        · exact List.mem_takeWhile_imp later
      · simp only [longest, toList, List.append_assoc, List.cons_append,
          List.takeWhile_append_dropWhile]
    rw [missing] at longer
    contradiction
  · intro missing
    cases found : read? cs with
    | none => rfl
    | some result =>
        obtain ⟨part, rest⟩ := result
        obtain ⟨wellFormed, _, split⟩ := read?_eq_some_iff.mp found
        exact absurd split (missing part rest wellFormed)

end ReturnPart

theorem Visibility.word_eq_cons (kind : Visibility) : ∃ cs, kind.word = 'p' :: cs := by
  cases kind <;> exact ⟨_, rfl⟩

namespace Signature

structure WellFormed (signature : Signature) : Prop where
  visibility : ∀ part ∈ signature.visibility, Text.IsRun Text.isBlank part.2
  static : ∀ blanks ∈ signature.static, Text.IsRun Text.isBlank blanks
  gap : Text.IsRun Text.isBlank signature.gap
  name : Text.IsRun Text.isWord signature.name
  space : Text.AllBlank signature.space
  parameters : ')' ∉ signature.parameters
  result : ∀ part ∈ signature.result, part.WellFormed

/-- The text after a signature neither extends its return type nor begins a return part that the
signature lacks. -/
def EndsBefore (signature : Signature) (rest : List Char) : Prop :=
  match signature.result with
  | some _ => Text.Stops isTypeChar rest
  | none => ∀ part after, ReturnPart.WellFormed part → part.toList ++ after ≠ rest

/-- Blanks and a character other than a colon belong to no signature before them. -/
theorem endsBefore_of_blanks {signature : Signature} {blanks cs : List Char} {c : Char}
    (blank : Text.AllBlank blanks) (solid : Text.isBlank c = false) (other : c ≠ ':')
    (stops : Text.Stops isTypeChar (blanks ++ c :: cs)) :
    signature.EndsBefore (blanks ++ c :: cs) := by
  rw [EndsBefore]
  split
  · exact stops
  · apply ReturnPart.read?_eq_none_iff.mp
    have mark : Text.Stops Text.isBlank (c :: cs) := Text.stops_cons.mpr solid
    rw [ReturnPart.read?, Text.dropWhile_append_of_stops blank mark, Text.after?, if_neg other]
    rfl

theorem modifier?_eq_some_iff {word cs blanks rest : List Char} :
    modifier? word cs = some (blanks, rest) ↔
      Text.IsRun Text.isBlank blanks ∧ Text.Stops Text.isBlank rest ∧
        word ++ (blanks ++ rest) = cs := by
  simp only [modifier?, Option.bind_eq_some_iff, Text.isPrefixOf?_eq_some, Text.run?_eq_some_iff]
  constructor
  · rintro ⟨_, split, isRun, stops, rfl⟩
    exact ⟨isRun, stops, split⟩
  · rintro ⟨isRun, stops, split⟩
    exact ⟨_, split, isRun, stops, rfl⟩

theorem modifier?_eq_none {c d : Char} {word cs : List Char} (other : c ≠ d) :
    modifier? (c :: word) (d :: cs) = none := by
  rw [modifier?, Option.bind_eq_none_iff]
  intro rest found
  exact absurd (List.cons.inj (Text.isPrefixOf?_eq_some.mp found)).1 other

theorem visibility?_word {kind : Visibility} {blanks rest : List Char}
    (isRun : Text.IsRun Text.isBlank blanks) (stops : Text.Stops Text.isBlank rest) :
    visibility? (kind.word ++ (blanks ++ rest)) = some ((kind, blanks), rest) := by
  have read : modifier? kind.word (kind.word ++ (blanks ++ rest)) = some (blanks, rest) :=
    modifier?_eq_some_iff.mpr ⟨isRun, stops, rfl⟩
  cases kind with
  | pub => rw [visibility?, List.findSome?_cons, read, Option.map_some]
  | priv =>
      have other : modifier? Visibility.pub.word (Visibility.priv.word ++ (blanks ++ rest)) = none :=
        rfl
      rw [visibility?, List.findSome?_cons, other, Option.map_none, List.findSome?_cons, read,
        Option.map_some]
  | prot =>
      have first : modifier? Visibility.pub.word (Visibility.prot.word ++ (blanks ++ rest)) = none :=
        rfl
      have second :
          modifier? Visibility.priv.word (Visibility.prot.word ++ (blanks ++ rest)) = none :=
        rfl
      rw [visibility?, List.findSome?_cons, first, Option.map_none, List.findSome?_cons, second,
        Option.map_none, List.findSome?_cons, read, Option.map_some]

theorem isRun_of_visibility? {cs blanks rest : List Char} {kind : Visibility}
    (found : visibility? cs = some ((kind, blanks), rest)) : Text.IsRun Text.isBlank blanks := by
  obtain ⟨_, _, found⟩ := List.exists_of_findSome?_eq_some found
  obtain ⟨_, read, equal⟩ := Option.map_eq_some_iff.mp found
  obtain ⟨⟨rfl, rfl⟩, rfl⟩ := by simpa only [Prod.mk.injEq] using equal
  exact (modifier?_eq_some_iff.mp read).1

section Optional

variable {α : Type} {read? : List Char → Option (α × List Char)} {cs rest : List Char} {part : α}

theorem optional_of_some (found : read? cs = some (part, rest)) :
    optional read? cs = (some part, rest) := by
  rw [optional, found]

theorem optional_of_none (missing : read? cs = none) : optional read? cs = (none, cs) := by
  rw [optional, missing]

theorem read_of_mem_optional (present : part ∈ (optional read? cs).1) :
    read? cs = some (part, (optional read? cs).2) := by
  cases found : read? cs with
  | none =>
      rw [optional_of_none found] at present
      contradiction
  | some result =>
      obtain ⟨other, after⟩ := result
      rw [optional_of_some found] at present ⊢
      obtain rfl := Option.some.inj (Option.mem_def.mp present)
      rfl

end Optional

theorem endsBefore_optional (signature : Signature) (afterList : List Char)
    (result : signature.result = (optional ReturnPart.read? afterList).1) :
    signature.EndsBefore (optional ReturnPart.read? afterList).2 := by
  cases found : ReturnPart.read? afterList with
  | none =>
      rw [optional_of_none found] at result ⊢
      simp only [EndsBefore, result]
      exact ReturnPart.read?_eq_none_iff.mp found
  | some read =>
      obtain ⟨part, rest⟩ := read
      rw [optional_of_some found] at result ⊢
      simp only [EndsBefore, result]
      exact (ReturnPart.read?_eq_some_iff.mp found).2.1

theorem wellFormed_of_read? {cs rest : List Char} {signature : Signature}
    (found : read? cs = some (signature, rest)) :
    signature.WellFormed ∧ signature.EndsBefore rest := by
  simp only [read?, Option.bind_eq_bind, Option.bind_eq_some_iff, Option.pure_def,
    Option.some.injEq, Prod.mk.injEq] at found
  obtain ⟨⟨gap, _⟩, function, ⟨name, _⟩, named, _, opened, afterList, closed, rfl, rfl⟩ := found
  refine ⟨?_, endsBefore_optional _ afterList rfl⟩
  constructor
  · rintro ⟨kind, blanks⟩ present
    exact isRun_of_visibility? (read_of_mem_optional present)
  · intro blanks present
    exact (modifier?_eq_some_iff.mp (read_of_mem_optional present)).1
  · exact (modifier?_eq_some_iff.mp function).1
  · exact (Text.run?_eq_some_iff.mp named).1
  · intro c member
    exact List.mem_takeWhile_imp member
  · intro member
    have other := List.mem_takeWhile_imp member
    simp at other
  · intro part present
    exact (ReturnPart.read?_eq_some_iff.mp (read_of_mem_optional present)).1

/-- The signature from its keyword on. -/
def afterModifiers (signature : Signature) : List Char :=
  "function".toList ++ (signature.gap ++ (signature.name ++ (signature.space ++
    '(' :: (signature.parameters ++ ')' :: signature.result.elim [] ReturnPart.toList))))

def staticText (signature : Signature) : List Char :=
  signature.static.elim [] fun blanks => "static".toList ++ blanks

def visibilityText (signature : Signature) : List Char :=
  signature.visibility.elim [] fun (kind, blanks) => kind.word ++ blanks

theorem toList_eq (signature : Signature) :
    signature.toList =
      signature.visibilityText ++ (signature.staticText ++ signature.afterModifiers) := by
  unfold toList visibilityText staticText afterModifiers
  simp only [List.append_assoc, List.cons_append]

/-- The signature through the parenthesis that closes its parameter list. -/
def throughList (signature : Signature) : List Char :=
  signature.visibilityText ++ (signature.staticText ++ ("function".toList ++ (signature.gap ++
    (signature.name ++ (signature.space ++ '(' :: (signature.parameters ++ [')']))))))

theorem toList_eq_throughList (signature : Signature) :
    signature.toList = signature.throughList ++ signature.result.elim [] ReturnPart.toList := by
  rw [toList_eq]
  unfold throughList afterModifiers
  simp only [List.append_assoc, List.cons_append, List.nil_append]

/-- What stands before the blanks in front of the name. -/
def keywords (signature : Signature) : List Char :=
  signature.visibilityText ++ (signature.staticText ++ "function".toList)

theorem keywords_prefix (signature : Signature) : signature.keywords <+: signature.toList := by
  obtain ⟨rest, equal⟩ : ∃ rest, signature.afterModifiers = "function".toList ++ rest := ⟨_, rfl⟩
  refine ⟨rest, ?_⟩
  rw [toList_eq, equal, keywords]
  simp only [List.append_assoc]

theorem keywords_plain {signature : Signature} (wellFormed : signature.WellFormed) :
    ∀ c ∈ signature.keywords, Text.isWord c = true ∨ Text.isBlank c = true := by
  intro c member
  rw [keywords, List.mem_append, List.mem_append] at member
  rcases member with inVisibility | inStatic | inKeyword
  · cases present : signature.visibility with
    | none => simp [visibilityText, present] at inVisibility
    | some part =>
        obtain ⟨kind, blanks⟩ := part
        rw [visibilityText, present, Option.elim_some, List.mem_append] at inVisibility
        rcases inVisibility with inWord | inBlanks
        · have letters : kind.word.all Text.isWord = true := by cases kind <;> decide
          exact Or.inl (List.all_eq_true.mp letters c inWord)
        · exact Or.inr ((wellFormed.visibility _ present).2 c inBlanks)
  · cases present : signature.static with
    | none => simp [staticText, present] at inStatic
    | some blanks =>
        rw [staticText, present, Option.elim_some, List.mem_append] at inStatic
        rcases inStatic with inWord | inBlanks
        · have letters : "static".toList.all Text.isWord = true := by decide
          exact Or.inl (List.all_eq_true.mp letters c inWord)
        · exact Or.inr ((wellFormed.static _ present).2 c inBlanks)
  · have letters : "function".toList.all Text.isWord = true := by decide
    exact Or.inl (List.all_eq_true.mp letters c inKeyword)

theorem afterModifiers_eq_cons (signature : Signature) :
    ∃ cs, signature.afterModifiers = 'f' :: cs :=
  ⟨_, rfl⟩

theorem unmodified_eq_cons (signature : Signature) (rest : List Char) :
    ∃ c cs, (c = 's' ∨ c = 'f') ∧
      signature.staticText ++ (signature.afterModifiers ++ rest) = c :: cs := by
  obtain ⟨keyword, equal⟩ := afterModifiers_eq_cons signature
  cases static : signature.static with
  | none => exact ⟨'f', keyword ++ rest, Or.inr rfl, by simp [staticText, static, equal]⟩
  | some blanks =>
      exact ⟨'s', "tatic".toList ++ blanks ++ (signature.afterModifiers ++ rest), Or.inl rfl,
        by simp [staticText, static]⟩

theorem visibility?_eq_none {c : Char} {cs : List Char} (other : c ≠ 'p') :
    visibility? (c :: cs) = none := by
  have unread (kind : Visibility) : modifier? kind.word (c :: cs) = none := by
    obtain ⟨word, equal⟩ := kind.word_eq_cons
    rw [equal]
    exact modifier?_eq_none other.symm
  simp [visibility?, unread]

/-- The modifiers begin with different letters than the keyword, so none is read in its place. -/
theorem optional_visibility? {signature : Signature} (wellFormed : signature.WellFormed)
    (rest : List Char) :
    optional visibility? (signature.toList ++ rest) =
      (signature.visibility, signature.staticText ++ (signature.afterModifiers ++ rest)) := by
  obtain ⟨c, cs, letter, equal⟩ := unmodified_eq_cons signature rest
  rw [toList_eq, List.append_assoc, List.append_assoc, equal]
  cases visibility : signature.visibility with
  | none =>
      have other : c ≠ 'p' := by rcases letter with rfl | rfl <;> decide
      rw [visibilityText, visibility]
      exact optional_of_none (visibility?_eq_none other)
  | some part =>
      obtain ⟨kind, blanks⟩ := part
      have stops : Text.Stops Text.isBlank (c :: cs) := by
        rw [Text.stops_cons]
        rcases letter with rfl | rfl <;> decide
      rw [visibilityText, visibility, Option.elim_some, List.append_assoc]
      exact optional_of_some (visibility?_word (wellFormed.visibility _ visibility) stops)

theorem optional_static {signature : Signature} (wellFormed : signature.WellFormed)
    (rest : List Char) :
    optional (modifier? "static".toList)
        (signature.staticText ++ (signature.afterModifiers ++ rest)) =
      (signature.static, signature.afterModifiers ++ rest) := by
  obtain ⟨cs, equal⟩ := afterModifiers_eq_cons signature
  rw [equal, List.cons_append]
  cases static : signature.static with
  | none =>
      rw [staticText, static]
      exact optional_of_none (modifier?_eq_none (by decide))
  | some blanks =>
      have stops : Text.Stops Text.isBlank ('f' :: (cs ++ rest)) := Text.stops_cons.mpr (by decide)
      rw [staticText, static, Option.elim_some, List.append_assoc]
      exact optional_of_some
        (modifier?_eq_some_iff.mpr ⟨wellFormed.static _ static, stops, rfl⟩)

theorem read?_result {signature : Signature} (wellFormed : signature.WellFormed)
    {rest : List Char} (ends : signature.EndsBefore rest) :
    ReturnPart.read? (signature.result.elim [] ReturnPart.toList ++ rest) =
      signature.result.map fun part => (part, rest) := by
  cases result : signature.result with
  | none =>
      simp only [EndsBefore, result] at ends
      exact ReturnPart.read?_eq_none_iff.mpr ends
  | some part =>
      simp only [EndsBefore, result] at ends
      exact ReturnPart.read?_eq_some_iff.mpr ⟨wellFormed.result part result, ends, rfl⟩

theorem optional_result {signature : Signature} (wellFormed : signature.WellFormed)
    {rest : List Char} (ends : signature.EndsBefore rest) :
    optional ReturnPart.read? (signature.result.elim [] ReturnPart.toList ++ rest) =
      (signature.result, rest) := by
  rw [optional, read?_result wellFormed ends]
  cases signature.result <;> rfl

theorem read?_toList_append {signature : Signature} (wellFormed : signature.WellFormed)
    {rest : List Char} (ends : signature.EndsBefore rest) :
    read? (signature.toList ++ rest) = some (signature, rest) := by
  let afterList := signature.result.elim [] ReturnPart.toList ++ rest
  let opened := signature.parameters ++ ')' :: afterList
  let afterName := signature.space ++ '(' :: opened
  have split : signature.afterModifiers ++ rest =
      "function".toList ++ (signature.gap ++ (signature.name ++ afterName)) := by
    unfold afterModifiers
    simp only [afterName, opened, afterList, List.append_assoc, List.cons_append]
  have paren : Text.Stops Text.isBlank ('(' :: opened) := Text.stops_cons.mpr (by decide)
  have close : Text.Stops (· != ')') (')' :: afterList) := Text.stops_cons.mpr (by decide)
  have inner : ∀ c ∈ signature.parameters, (c != ')') = true := by
    intro c member
    rw [bne_iff_ne]
    rintro rfl
    exact wellFormed.parameters member
  have stops : Text.Stops Text.isWord afterName := by
    intro c first
    cases space : signature.space with
    | nil =>
        simp only [afterName, space, List.nil_append, List.head?_cons, Option.mem_some_iff] at first
        subst first
        decide
    | cons blank blanks =>
        simp only [afterName, space, List.cons_append, List.head?_cons,
          Option.mem_some_iff] at first
        subst first
        exact Text.isWord_eq_false_of_isBlank (wellFormed.space _ (by simp [space]))
  have keyword : modifier? "function".toList (signature.afterModifiers ++ rest) =
      some (signature.gap, signature.name ++ afterName) :=
    modifier?_eq_some_iff.mpr ⟨wellFormed.gap,
      wellFormed.name.stops (fun _ => Text.isBlank_eq_false_of_isWord) afterName,
      split.symm⟩
  have named : Text.run? Text.isWord (signature.name ++ afterName) =
      some (signature.name, afterName) :=
    Text.run?_eq_some_iff.mpr ⟨wellFormed.name, stops, rfl⟩
  simp only [read?, optional_visibility? wellFormed, optional_static wellFormed, keyword, named,
    afterName, Text.dropWhile_append_of_stops wellFormed.space paren,
    Text.takeWhile_append_of_stops wellFormed.space paren, Text.after?, if_pos, opened,
    Text.dropWhile_append_of_stops inner close, Text.takeWhile_append_of_stops inner close,
    afterList, optional_result wellFormed ends, Option.bind_eq_bind, Option.bind_some,
    Option.pure_def]

theorem read?_eq_some_iff {cs rest : List Char} {signature : Signature} :
    read? cs = some (signature, rest) ↔
      signature.WellFormed ∧ signature.EndsBefore rest ∧ signature.toList ++ rest = cs := by
  constructor
  · intro found
    obtain ⟨wellFormed, ends⟩ := wellFormed_of_read? found
    exact ⟨wellFormed, ends, append_of_read? found⟩
  · rintro ⟨wellFormed, ends, rfl⟩
    exact read?_toList_append wellFormed ends

end Signature

end DocBlock
