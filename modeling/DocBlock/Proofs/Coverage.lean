import DocBlock.Proofs.Declaration

/-! What a scan for declarations leaves out. Main statement: wherever a line begins with a signature,
a declaration is reported there or that place lies inside one. -/

namespace DocBlock.Declaration

/-- The place at an offset is where the signature begins, or lies strictly inside the signature or
inside the doc comment. -/
def Covers (code : String) (declaration : Declaration) (offset : Nat) : Prop :=
  declaration.start = offset ∨ (declaration.start < offset ∧ offset < declaration.stop) ∨
    ∃ span ∈ declaration.docSpan? code, span.1 < offset ∧ offset < span.2

/-- At the head stands a signature, read through its parameter list. -/
def BeginsDeclaration (below : List Char) : Prop :=
  ∃ signature rest, Signature.WellFormed signature ∧ signature.result = none ∧
    signature.toList ++ rest = below

theorem BeginsDeclaration.read? {below : List Char} (begins : BeginsDeclaration below) :
    ∃ signature rest, Signature.read? below = some (signature, rest) := by
  obtain ⟨signature, rest, wellFormed, bare, rfl⟩ := begins
  let result := (Signature.optional ReturnPart.read? rest).1
  let after := (Signature.optional ReturnPart.read? rest).2
  let whole : Signature := { signature with result := result }
  have wholeWellFormed : whole.WellFormed := by
    refine { wellFormed with result := ?_ }
    intro part present
    exact (ReturnPart.read?_eq_some_iff.mp (Signature.read_of_mem_optional present)).1
  have ends : whole.EndsBefore after := Signature.endsBefore_optional whole rest rfl
  have lossless : result.elim [] ReturnPart.toList ++ after = rest :=
    Signature.append_of_optional ReturnPart.toList ReturnPart.append_of_read? rest
  have split : whole.toList ++ after = signature.toList ++ rest := by
    rw [Signature.toList_eq_throughList, Signature.toList_eq_throughList signature, bare,
      Option.elim_none, List.append_nil, List.append_assoc, lossless]
    rfl
  exact ⟨whole, after, Signature.read?_eq_some_iff.mpr ⟨wholeWellFormed, ends, split⟩⟩

theorem BeginsDeclaration.eq_cons {below : List Char} (begins : BeginsDeclaration below) :
    ∃ c cs, Text.isBlank c = false ∧ c ≠ '/' ∧ below = c :: cs := by
  obtain ⟨signature, rest, _, _, rfl⟩ := begins
  obtain ⟨c, cs, letter, equal⟩ := signature.toList_eq_cons
  refine ⟨c, cs ++ rest, ?_, ?_, by rw [equal, List.cons_append]⟩
  · rcases letter with rfl | rfl | rfl <;> decide
  · rcases letter with rfl | rfl | rfl <;> decide

theorem Block.form_ne_none {before : Option Char} {lead below : List Char}
    (line : StartsLine before) (blank : Text.AllBlank lead) (begins : BeginsDeclaration below) :
    form before (lead ++ below) ≠ none := by
  obtain ⟨signature, rest, read⟩ := begins.read?
  obtain ⟨wellFormed, ends, split⟩ := Signature.read?_eq_some_iff.mp read
  have found : form before (lead ++ below) = some (⟨lead, none, signature⟩, rest) := by
    refine form_eq_some_iff.mpr ⟨line, ⟨blank, ?_, wellFormed⟩, ends, ?_⟩
    · intro doc blanks present
      contradiction
    · rw [← split]
      simp only [toList, above, Option.elim_none, List.append_nil, List.append_assoc]
  rw [found]
  exact Option.some_ne_none _

/-- A place of a block before something other than a blank and a slash is past what stands above
the signature, or inside the doc comment. -/
theorem Block.place_cases {block : Block} (wellFormed : block.WellFormed)
    {front back : List Char} {c : Char} (split : front ++ c :: back = block.toList)
    (solid : Text.isBlank c = false) (other : c ≠ '/') :
    (∃ passed, block.above ++ passed = front ∧ passed ++ c :: back = block.signature.toList) ∨
      ∃ doc blanks inside left, block.doc = some (doc, blanks) ∧ block.lead ++ inside = front ∧
        inside ++ left = doc ∧ inside ≠ [] ∧ left ≠ [] := by
  have notBlank : ∀ {cs tail left right : List Char}, Text.AllBlank cs → left ++ tail = cs →
      tail ≠ [] → tail ++ right = c :: back → False := by
    intro cs tail left right blank equal present first
    obtain ⟨d, tail, rfl⟩ := List.exists_cons_of_ne_nil present
    obtain ⟨rfl, _⟩ := List.cons.inj first
    have member := blank d (by simp [← equal])
    rw [solid] at member
    contradiction
  rcases Text.append_cases split with ⟨tail, present, aboveSplit, first⟩ | ⟨passed, done, rest⟩
  · right
    cases documented : block.doc with
    | none =>
        rw [Block.above, documented, Option.elim_none, List.append_nil] at aboveSplit
        exact (notBlank wellFormed.lead aboveSplit present first).elim
    | some part =>
        obtain ⟨doc, blanks⟩ := part
        obtain ⟨isDoc, blank⟩ := wellFormed.doc doc blanks documented
        simp only [Block.above, documented, Option.elim_some] at aboveSplit
        rcases Text.append_cases aboveSplit with ⟨led, nonempty, leadSplit, rfl⟩ | ⟨inside, led, rest⟩
        · rw [List.append_assoc] at first
          exact (notBlank wellFormed.lead leadSplit nonempty first).elim
        · rcases Text.append_cases rest with ⟨left, unfinished, rfl, rfl⟩ | ⟨_, _, rest⟩
          · refine ⟨_, blanks, inside, left, rfl, led, rfl, ?_, unfinished⟩
            rintro rfl
            obtain ⟨cs, equal⟩ := isDoc.eq_cons
            rw [List.nil_append] at equal
            rw [equal] at first
            exact other (List.cons.inj first).1.symm
          · exact (notBlank blank rest present first).elim
  · exact Or.inl ⟨passed, done, rest⟩

theorem Block.covers {code : String} {block : Block} {before after : List Char}
    (split : before ++ (block.toList ++ after) = code.toList) (stands : block.Stands before after)
    {front back : List Char} {c : Char} (place : front ++ c :: back = block.toList)
    (solid : Text.isBlank c = false) (other : c ≠ '/') :
    (ofBlock (Text.byteLength before) block).Covers code (Text.byteLength (before ++ front)) := by
  have start := start_ofBlock before block
  rcases place_cases stands.wellFormed place solid other with
    ⟨passed, rfl, rest⟩ | ⟨doc, blanks, inside, left, present, rfl, rfl, begun, unfinished⟩
  · by_cases first : passed = []
    · left
      rw [start, first, List.append_nil]
    · right
      left
      have stop := stop_ofBlock before block
      have length := congrArg Text.byteLength place
      have past := Text.byteLength_pos first
      have remaining := Text.byteLength_pos (List.cons_ne_nil c back)
      simp only [Text.byteLength_append] at start stop length ⊢
      omega
  · right
    right
    refine ⟨_, docSpan?_ofBlock split stands present, ?_, ?_⟩
    · have past := Text.byteLength_pos begun
      simp only [Text.byteLength_append]
      omega
    · have remaining := Text.byteLength_pos unfinished
      simp only [Text.byteLength_append]
      omega

/-- Wherever only blanks stand between the start of a line and a signature, a declaration is
reported that begins there, or there lies inside one that is reported or inside its doc comment. -/
theorem scan_passes_over_nothing (code : String) {above below : List Char}
    (split : above ++ below = code.toList) (opens : OpensLine above)
    (begins : BeginsDeclaration below) :
    ∃ declaration ∈ scan code, declaration.Covers code (Text.byteLength above) := by
  obtain ⟨line, lead, rfl, starts, blank⟩ := opens
  obtain ⟨c, cs, solid, other, rfl⟩ := begins.eq_cons
  have reads : Block.form (Text.lastOf none line) (lead ++ c :: cs) ≠ none := by
    rw [Text.lastOf, Option.or_none]
    exact Block.form_ne_none starts blank begins
  rw [List.append_assoc] at split
  have cut := Text.cut_occurrencesFrom Block.consumes_form none 0 code.toList
  obtain ⟨offset, block, found, first, last⟩ :=
    cut.covers Block.takes_form split (by simp) reads
  refine ⟨ofBlock offset block, List.mem_map.mpr ⟨_, found, rfl⟩, ?_⟩
  obtain ⟨before, after, whole, rfl, stands⟩ := Block.stands_of_mem found
  rw [Nat.zero_add] at first last
  rcases Text.append_cases (split.trans whole.symm) with ⟨within, present, rfl, _⟩ | ⟨passed, rfl, rest⟩
  · have positive := Text.byteLength_pos present
    rw [Text.byteLength_append] at first
    omega
  rcases Text.append_cases rest with ⟨within, present, inside, rest⟩ | ⟨beyond, rfl, _⟩
  · -- A block does not end with a blank, so it reaches beyond the blanks of the line.
    rcases Text.append_cases rest.symm with ⟨tail, unfinished, rfl, equal⟩ | ⟨beyond, rfl, _⟩
    · obtain ⟨d, tail, rfl⟩ := List.exists_cons_of_ne_nil unfinished
      obtain ⟨rfl, _⟩ := List.cons.inj equal
      have place : (passed ++ lead) ++ d :: tail = block.toList := by
        rw [← inside, List.append_assoc]
      have covers := Block.covers whole stands place solid other
      rwa [← List.append_assoc] at covers
    · obtain ⟨d, ends, dark⟩ := stands.wellFormed.signature.getLast?_toList
      have member : d ∈ within := by
        have shown : d ∈ block.toList.getLast? := by
          rw [Block.toList, List.getLast?_append, Option.mem_def.mp ends]
          rfl
        rw [← inside] at shown
        exact Text.mem_of_getLast?_append shown present
      have light := blank d (List.mem_append_left beyond member)
      rw [dark] at light
      contradiction
  · simp only [Text.byteLength_append] at last
    omega

theorem scan_reaches_line_inside_parameter_list :
    let code := "function f(\nfunction g()"
    let above := "function f(\n".toList
    above ++ "function g()".toList = code.toList ∧ OpensLine above ∧
      BeginsDeclaration "function g()".toList ∧
      ∃ declaration ∈ scan code, declaration.Covers code (Text.byteLength above) := by
  have opens : OpensLine "function f(\n".toList :=
    ⟨"function f(\n".toList, [], rfl, by simp [Block.StartsLine], by simp [Text.AllBlank]⟩
  have begins : BeginsDeclaration "function g()".toList := by
    refine ⟨⟨none, none, [' '], ['g'], [], [], none⟩, [], ?_, rfl, rfl⟩
    constructor <;> simp [Text.AllBlank, Text.IsRun] <;> decide
  exact ⟨rfl, opens, begins, scan_passes_over_nothing _ rfl opens begins⟩

end DocBlock.Declaration
