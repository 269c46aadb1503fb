import DocBlock.Proofs.Comment
import DocBlock.Proofs.Signature
import DocBlock.Proofs.Text.Occurrence

/-! The grammar of declarations with what stands above them. Main statement: a block is read at the
start of a line exactly if blanks, perhaps a doc comment, and a signature begin there. -/

namespace DocBlock

namespace Signature

/-- A signature begins with the first letter of a modifier or of its keyword. -/
theorem toList_eq_cons (signature : Signature) :
    ∃ c cs, (c = 'p' ∨ c = 's' ∨ c = 'f') ∧ signature.toList = c :: cs := by
  rw [toList_eq]
  cases visibility : signature.visibility with
  | none =>
      obtain ⟨c, cs, letter, equal⟩ := unmodified_eq_cons signature []
      rw [List.append_nil] at equal
      rw [visibilityText, visibility]
      exact ⟨c, cs, Or.inr letter, equal⟩
  | some part =>
      obtain ⟨kind, blanks⟩ := part
      obtain ⟨word, equal⟩ := kind.word_eq_cons
      simp only [visibilityText, visibility, Option.elim_some, equal]
      exact ⟨'p', _, Or.inl rfl, rfl⟩

theorem stops_isBlank_toList (signature : Signature) (rest : List Char) :
    Text.Stops Text.isBlank (signature.toList ++ rest) := by
  obtain ⟨c, cs, letter, equal⟩ := signature.toList_eq_cons
  rw [equal, List.cons_append, Text.stops_cons]
  rcases letter with rfl | rfl | rfl <;> decide

theorem toList_ne_nil (signature : Signature) : signature.toList ≠ [] := by
  obtain ⟨c, cs, _, equal⟩ := signature.toList_eq_cons
  simp [equal]

/-- A signature ends with its parenthesis or inside a type, never with a blank. -/
theorem WellFormed.getLast?_toList {signature : Signature} (wellFormed : signature.WellFormed) :
    ∃ c ∈ signature.toList.getLast?, Text.isBlank c = false := by
  cases result : signature.result with
  | none =>
      refine ⟨')', ?_, by decide⟩
      unfold toList
      simp only [result, Option.elim_none, List.getLast?_append, List.getLast?_singleton,
        Option.some_or, Option.mem_some_iff]
  | some part =>
      have isRun := (wellFormed.result part result).type
      have last := List.getLast_mem isRun.1
      refine ⟨part.type.getLast isRun.1, ?_, isBlank_eq_false_of_isTypeChar (isRun.2 _ last)⟩
      unfold toList
      simp only [result, Option.elim_some, ReturnPart.toList, List.getLast?_append,
        List.getLast?_cons, List.getLast?_eq_some_getLast isRun.1, Option.some_or,
        Option.getD_some, Option.mem_some_iff]

end Signature

namespace Declaration

theorem docPart?_eq_some_iff {cs doc blanks rest : List Char} :
    docPart? cs = some ((doc, blanks), rest) ↔
      IsDocComment doc ∧ Text.AllBlank blanks ∧ Text.Stops Text.isBlank rest ∧
        doc ++ (blanks ++ rest) = cs := by
  constructor
  · intro found
    have lossless := append_of_docPart? found
    obtain ⟨⟨_, afterDoc⟩, read, equal⟩ := Option.map_eq_some_iff.mp found
    obtain ⟨⟨rfl, rfl⟩, rfl⟩ := by simpa only [Prod.mk.injEq] using equal
    refine ⟨(docComment?_eq_some_iff.mp read).1, ?_, Text.stops_dropWhile afterDoc, lossless⟩
    intro c member
    exact List.mem_takeWhile_imp member
  · rintro ⟨isDoc, blank, stops, rfl⟩
    have read : docComment? (doc ++ (blanks ++ rest)) = some (doc, blanks ++ rest) :=
      docComment?_eq_some_iff.mpr ⟨isDoc, rfl⟩
    simp only [docPart?, read, Option.map_some, Text.takeWhile_append_of_stops blank stops,
      Text.dropWhile_append_of_stops blank stops]

theorem IsDocComment.eq_cons {doc : List Char} (isDoc : IsDocComment doc) :
    ∃ cs, doc = '/' :: cs := by
  obtain ⟨inner, _, rfl⟩ := isDoc
  exact ⟨_, rfl⟩

theorem docPart?_eq_none {c : Char} {cs : List Char} (other : c ≠ '/') :
    docPart? (c :: cs) = none := by
  cases found : docPart? (c :: cs) with
  | none => rfl
  | some result =>
      obtain ⟨⟨doc, blanks⟩, rest⟩ := result
      obtain ⟨isDoc, _, _, split⟩ := docPart?_eq_some_iff.mp found
      obtain ⟨tail, rfl⟩ := isDoc.eq_cons
      exact absurd (List.cons.inj split).1.symm other

namespace Block

structure WellFormed (block : Block) : Prop where
  lead : Text.AllBlank block.lead
  doc : ∀ doc blanks, block.doc = some (doc, blanks) → IsDocComment doc ∧ Text.AllBlank blanks
  signature : block.signature.WellFormed

theorem wellFormed_of_read? {cs rest : List Char} {block : Block}
    (found : read? cs = some (block, rest)) :
    block.WellFormed ∧ block.signature.EndsBefore rest := by
  simp only [read?, Option.bind_eq_bind, Option.bind_eq_some_iff, Option.pure_def,
    Option.some.injEq, Prod.mk.injEq] at found
  obtain ⟨⟨signature, _⟩, signed, rfl, rfl⟩ := found
  obtain ⟨wellFormed, ends, _⟩ := Signature.read?_eq_some_iff.mp signed
  refine ⟨⟨?_, ?_, wellFormed⟩, ends⟩
  · intro c member
    exact List.mem_takeWhile_imp member
  · intro doc blanks present
    obtain ⟨isDoc, blank, _⟩ := docPart?_eq_some_iff.mp (Signature.read_of_mem_optional present)
    exact ⟨isDoc, blank⟩

theorem optional_doc {block : Block} (wellFormed : block.WellFormed) (rest : List Char) :
    Signature.optional docPart?
        ((block.doc.elim [] fun (doc, blanks) => doc ++ blanks) ++
          (block.signature.toList ++ rest)) =
      (block.doc, block.signature.toList ++ rest) := by
  cases present : block.doc with
  | none =>
      obtain ⟨c, cs, letter, equal⟩ := block.signature.toList_eq_cons
      have other : c ≠ '/' := by rcases letter with rfl | rfl | rfl <;> decide
      rw [equal, Option.elim_none, List.nil_append]
      exact Signature.optional_of_none (docPart?_eq_none other)
  | some part =>
      obtain ⟨doc, blanks⟩ := part
      obtain ⟨isDoc, blank⟩ := wellFormed.doc doc blanks present
      have stops := block.signature.stops_isBlank_toList rest
      simp only [Option.elim_some, List.append_assoc]
      exact Signature.optional_of_some (docPart?_eq_some_iff.mpr ⟨isDoc, blank, stops, rfl⟩)

theorem read?_toList_append {block : Block} (wellFormed : block.WellFormed) {rest : List Char}
    (ends : block.signature.EndsBefore rest) : read? (block.toList ++ rest) = some (block, rest) := by
  let below := (block.doc.elim [] fun (doc, blanks) => doc ++ blanks) ++
    (block.signature.toList ++ rest)
  have split : block.toList ++ rest = block.lead ++ below := by
    simp only [toList, above, below, List.append_assoc]
  have stops : Text.Stops Text.isBlank below := by
    cases present : block.doc with
    | none =>
        simp only [below, present, Option.elim_none, List.nil_append]
        exact block.signature.stops_isBlank_toList rest
    | some part =>
        obtain ⟨doc, blanks⟩ := part
        obtain ⟨cs, equal⟩ := (wellFormed.doc doc blanks present).1.eq_cons
        simp only [below, present, Option.elim_some, equal, List.cons_append]
        exact Text.stops_cons.mpr (by decide)
  have signed := Signature.read?_toList_append wellFormed.signature ends
  rw [split, read?, Text.dropWhile_append_of_stops wellFormed.lead stops,
    Text.takeWhile_append_of_stops wellFormed.lead stops]
  simp only [below, optional_doc wellFormed, signed, Option.bind_eq_bind, Option.bind_some,
    Option.pure_def]

theorem read?_eq_some_iff {cs rest : List Char} {block : Block} :
    read? cs = some (block, rest) ↔
      block.WellFormed ∧ block.signature.EndsBefore rest ∧ block.toList ++ rest = cs := by
  constructor
  · intro found
    obtain ⟨wellFormed, ends⟩ := wellFormed_of_read? found
    exact ⟨wellFormed, ends, append_of_read? found⟩
  · rintro ⟨wellFormed, ends, rfl⟩
    exact read?_toList_append wellFormed ends

/-- The text begins or a line feed stands before. -/
def StartsLine (before : Option Char) : Prop := ∀ c ∈ before, c = '\n'

theorem form_eq_some_iff {before : Option Char} {cs rest : List Char} {block : Block} :
    form before cs = some (block, rest) ↔
      StartsLine before ∧ block.WellFormed ∧ block.signature.EndsBefore rest ∧
        block.toList ++ rest = cs := by
  have line : before.all (· == '\n') = true ↔ StartsLine before := by
    cases before <;> simp [StartsLine]
  rw [form]
  split
  · rename_i starts
    rw [read?_eq_some_iff]
    exact (and_iff_right (line.mp starts)).symm
  · rename_i middle
    constructor
    · intro found
      contradiction
    · intro found
      exact absurd (line.mpr found.1) middle

theorem toList_ne_nil (block : Block) : block.toList ≠ [] := by
  have present := block.signature.toList_ne_nil
  simp [toList, present]

theorem consumes_form : form.Consumes := by
  intro before cs block rest found
  exact ⟨block.toList, block.toList_ne_nil, (form_eq_some_iff.mp found).2.2.2⟩

theorem takes_form : form.Takes fun block => Text.byteLength block.toList := by
  intro before taken rest block found
  have split := (form_eq_some_iff.mp found).2.2.2
  exact congrArg Text.byteLength (List.append_cancel_right split).symm

end Block

end Declaration

end DocBlock
