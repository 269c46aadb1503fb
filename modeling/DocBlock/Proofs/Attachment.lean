import DocBlock.Proofs.Declaration

/-! Which doc comment a declaration gets. Main statement: a doc block directly above a declaration is
its doc comment exactly if nothing but blanks stands before the block on its line. -/

namespace DocBlock

namespace Text

/-- Two ways to split a text at one offset are the same. -/
theorem append_inj_of_byteLength {left right front back : List Char}
    (split : left ++ right = front ++ back) (length : byteLength left = byteLength front) :
    left = front ∧ right = back := by
  have first := takeBytes?_byteLength left right
  rw [split, length, takeBytes?_byteLength] at first
  obtain rfl := Option.some.inj first
  exact ⟨rfl, List.append_cancel_left split⟩

/-- A text that does not end with a blank does not end within blanks. -/
theorem byteLength_le_of_blank {text rest front blanks back : List Char} {last : Char}
    (split : text ++ rest = front ++ (blanks ++ back)) (ends : last ∈ text.getLast?)
    (solid : isBlank last = false) (blank : AllBlank blanks)
    (within : byteLength text ≤ byteLength (front ++ blanks)) :
    byteLength text ≤ byteLength front := by
  rcases append_cases split with ⟨more, _, rfl, _⟩ | ⟨beyond, rfl, below⟩
  · rw [byteLength_append]
    exact Nat.le_add_right _ _
  · by_cases begun : beyond = []
    · rw [begun, List.append_nil]
    · have member : last ∈ beyond := mem_of_getLast?_append ends begun
      rcases append_cases below with ⟨more, _, rfl, _⟩ | ⟨further, rfl, _⟩
      · have light := blank last (List.mem_append_left more member)
        rw [solid] at light
        contradiction
      · by_cases finished : further = []
        · rw [finished, List.append_nil] at member
          have light := blank last member
          rw [solid] at light
          contradiction
        · have longer := byteLength_pos finished
          simp only [byteLength_append] at within
          omega

end Text

namespace Declaration

/-- A doc block with a blank after its opener and no other comment mark before its end. -/
structure IsPlainBlock (doc : List Char) : Prop where
  opens : "/**".toList <+: doc
  spaced : ∃ c ∈ (doc.drop 3).head?, Text.isBlank c = true
  closes : "*/".toList <:+ doc
  opensOnce : ¬ "/*".toList <:+: doc.tail
  closesOnce : ¬ "*/".toList <:+: doc.dropLast

namespace IsPlainBlock

variable {doc : List Char}

theorem eq_append (isBlock : IsPlainBlock doc) :
    ∃ body, doc = "/**".toList ++ (body ++ "*/".toList) := by
  obtain ⟨inner, rfl⟩ := isBlock.opens
  obtain ⟨c, first, blank⟩ := isBlock.spaced
  obtain ⟨tail, rfl⟩ : ∃ tail, inner = c :: tail := List.head?_eq_some_iff.mp first
  have star : c ≠ '*' := by
    rintro rfl
    contradiction
  have slash : c ≠ '/' := by
    rintro rfl
    contradiction
  -- The closing mark cannot begin in the opener, since a blank follows that.
  have closes := isBlock.closes
  simp only [String.reduceToList, List.cons_append, List.nil_append, List.suffix_cons_iff,
    List.cons.injEq, star.symm, slash.symm, false_and, and_false, false_or, Char.reduceEq]
    at closes
  obtain ⟨body, closed⟩ := closes
  exact ⟨c :: body, by rw [← closed]; rfl⟩

theorem isDocComment (isBlock : IsPlainBlock doc) : IsDocComment doc := by
  obtain ⟨body, rfl⟩ := isBlock.eq_append
  refine ⟨body ++ "*/".toList, ⟨⟨body, rfl⟩, ?_⟩, rfl⟩
  intro left right split
  by_contra more
  apply isBlock.closesOnce
  refine ⟨"/**".toList ++ left, right.dropLast, ?_⟩
  have whole : "/**".toList ++ (body ++ "*/".toList) =
      ("/**".toList ++ left ++ "*/".toList) ++ right := by
    rw [← split]
    simp
  rw [whole, List.dropLast_append_of_ne_nil more]

theorem getLast?_eq (isBlock : IsPlainBlock doc) : '/' ∈ doc.getLast? :=
  Option.mem_def.mpr isBlock.isDocComment.getLast?_eq

/-- Where no comment opens before the block, no other doc comment ends where it ends. -/
theorem eq_of_append_eq {front other above : List Char} (isBlock : IsPlainBlock doc)
    (isDoc : IsDocComment other) (unopened : ¬ "/*".toList <:+: above)
    (split : front ++ other = above ++ doc) : front = above ∧ other = doc := by
  have opens : "/*".toList <+: other := by
    obtain ⟨inner, _, rfl⟩ := isDoc
    exact ⟨'*' :: inner, rfl⟩
  obtain ⟨body, equal⟩ := isBlock.eq_append
  rcases Text.append_cases split with ⟨within, present, rfl, rfl⟩ | ⟨beyond, rfl, equalDoc⟩
  · have lacking : ∀ c ∈ doc.head?, c ∉ "/*".toList.tail := by
      rw [equal]
      rintro c ⟨⟩
      decide
    have inside := (Text.prefix_left_of_head_notMem opens present lacking).isInfix
    exact absurd (List.infix_append_of_infix_right inside) unopened
  · cases beyond with
    | nil => exact ⟨List.append_nil above, equalDoc⟩
    | cons c beyond =>
        apply absurd _ isBlock.opensOnce
        rw [← equalDoc]
        exact List.infix_append_of_infix_right opens.isInfix

end IsPlainBlock

theorem Block.getLast?_append_toList {block : Block} (wellFormed : block.WellFormed)
    (front : List Char) : ∃ c ∈ (front ++ block.toList).getLast?, Text.isBlank c = false := by
  obtain ⟨c, last, solid⟩ := wellFormed.signature.getLast?_toList
  refine ⟨c, ?_, solid⟩
  rw [Block.toList, ← List.append_assoc, List.getLast?_append, Option.mem_def.mp last]
  rfl

theorem start_lt_stop (offset : Nat) (block : Block) :
    (ofBlock offset block).start < (ofBlock offset block).stop :=
  Nat.lt_add_of_pos_right (Text.byteLength_pos block.signature.toList_ne_nil)

/-- A block that begins before another one also ends before it. -/
theorem Block.end_le_of_lt {cs : List Char} {first second : Nat × Block}
    (firstFound : first ∈ Text.occurrences form cs) (secondFound : second ∈ Text.occurrences form cs)
    (earlier : first.1 < second.1) : first.1 + Text.byteLength first.2.toList ≤ second.1 := by
  have cut := Text.cut_occurrencesFrom consumes_form none 0 cs
  rcases cut.eq_or_apart takes_form firstFound secondFound with rfl | before | after
  · omega
  · exact before
  · omega

section Above

variable {code : String} {above doc blanks before after : List Char} {block : Block}

/-- At the line that a doc block begins, the form reads the block with the signature below it. -/
theorem Block.form_documented {line lead : List Char} {signature : Signature}
    (starts : StartsLine line.getLast?) (leadBlank : Text.AllBlank lead)
    (isBlock : IsPlainBlock doc) (blank : Text.AllBlank blanks)
    (wellFormed : signature.WellFormed) (ends : signature.EndsBefore after) :
    form (Text.lastOf none line) (lead ++ (doc ++ (blanks ++ (signature.toList ++ after)))) =
      some (⟨lead, some (doc, blanks), signature⟩, after) := by
  refine form_eq_some_iff.mpr ⟨?_, ⟨leadBlank, ?_, wellFormed⟩, ends, ?_⟩
  · rwa [Text.lastOf, Option.or_none]
  · rintro _ _ ⟨⟩
    exact ⟨isBlock.isDocComment, blank⟩
  · simp only [toList, Block.above, Option.elim_some, List.append_assoc]

/-- A block with only blanks above its signature begins below a doc block that stands there. -/
theorem Block.doc_before (stands : block.Stands before after) (isBlock : IsPlainBlock doc)
    (equal : before ++ block.above = above ++ (doc ++ blanks)) (missing : block.doc = none) :
    Text.byteLength (above ++ doc) ≤ Text.byteLength before := by
  have bare : block.lead = block.above := by
    rw [Block.above, missing, Option.elim_none, List.append_nil]
  have docLast : '/' ∈ (above ++ doc).getLast? := by
    rw [List.getLast?_append, Option.mem_def.mp isBlock.getLast?_eq]
    rfl
  have parts : (above ++ doc) ++ blanks = before ++ (block.lead ++ []) := by
    rw [List.append_nil, bare, equal, List.append_assoc]
  apply Text.byteLength_le_of_blank parts docLast (by decide) stands.wellFormed.lead
  rw [bare, equal, ← List.append_assoc, Text.byteLength_append _ blanks]
  exact Nat.le_add_right _ _

/-- Where a doc block begins its line, only a declaration that reaches into it keeps it from the
signature below. -/
theorem Block.exists_overlapping
    (found : (Text.byteLength before, block) ∈ Text.occurrences Block.form code.toList)
    (stands : block.Stands before after)
    (split : above ++ (doc ++ (blanks ++ (block.signature.toList ++ after))) = code.toList)
    (isBlock : IsPlainBlock doc) (blank : Text.AllBlank blanks) (opens : OpensLine above)
    (equal : before ++ block.above = above ++ (doc ++ blanks)) (missing : block.doc = none) :
    ∃ other ∈ scan code, other ≠ ofBlock (Text.byteLength before) block ∧
      Text.byteLength above < other.stop ∧ other.start < Text.byteLength (above ++ doc) := by
  have lower := Block.doc_before stands isBlock equal missing
  have upper : Text.byteLength before ≤ Text.byteLength (above ++ doc ++ blanks) := by
    rw [List.append_assoc, ← equal, Text.byteLength_append]
    exact Nat.le_add_right _ _
  have nonempty : doc ≠ [] := List.ne_nil_of_mem (List.mem_of_mem_getLast? isBlock.getLast?_eq)
  obtain ⟨line, lead, rfl, starts, leadBlank⟩ := opens
  -- The form reads at the line of the doc block, so some block covers that place.
  have read := Block.form_documented starts leadBlank isBlock blank
    stands.wellFormed.signature stands.ends
  have reads : form (Text.lastOf none line)
      (lead ++ (doc ++ (blanks ++ (block.signature.toList ++ after)))) ≠ none := by
    rw [read]
    exact Option.some_ne_none _
  have cut := Text.cut_occurrencesFrom consumes_form none 0 code.toList
  obtain ⟨_, other, member, first, last⟩ :=
    cut.covers takes_form (by rw [← split, List.append_assoc]) (by simp [nonempty]) reads
  obtain ⟨front, back, place, rfl, otherStands⟩ := Block.stands_of_mem member
  rw [Nat.zero_add] at first last
  -- It ends with a signature, before the given block and thus inside the doc block.
  have earlier : Text.byteLength front < Text.byteLength before := by
    have positive := Text.byteLength_pos nonempty
    simp only [Text.byteLength_append] at lower
    omega
  have ended := Block.end_le_of_lt member found earlier
  obtain ⟨c, ends, solid⟩ := Block.getLast?_append_toList otherStands.wellFormed front
  have stop : (ofBlock (Text.byteLength front) other).stop =
      Text.byteLength (front ++ other.toList) := by
    rw [stop_ofBlock, Text.byteLength_append]
  have start := start_lt_stop (Text.byteLength front) other
  refine ⟨ofBlock (Text.byteLength front) other, List.mem_map.mpr ⟨_, member, rfl⟩, ?_, ?_, ?_⟩
  · intro same
    have starts := congrArg Declaration.start same
    rw [start_ofBlock before, Text.byteLength_append] at starts
    rw [stop, Text.byteLength_append] at start
    simp only at ended
    omega
  · rw [stop]
    by_contra within
    have parts : (front ++ other.toList) ++ back =
        line ++ (lead ++ (doc ++ (blanks ++ (block.signature.toList ++ after)))) := by
      rw [List.append_assoc, place, ← split, List.append_assoc]
    have short := Text.byteLength_le_of_blank parts ends solid leadBlank (Nat.not_lt.mp within)
    rw [Text.byteLength_append] at short
    omega
  · have parts : (front ++ other.toList) ++ back =
        line ++ lead ++ doc ++ (blanks ++ (block.signature.toList ++ after)) := by
      rw [List.append_assoc, place, ← split, List.append_assoc (line ++ lead)]
    have short := Text.byteLength_le_of_blank parts ends solid blank (by
      rw [Text.byteLength_append front]
      exact Nat.le_trans ended upper)
    rw [stop] at start
    exact Nat.lt_of_lt_of_le start short

/-- A doc comment read right below a doc block is that block, and begins its line. -/
theorem Block.eq_of_documented {other gap : List Char} (stands : block.Stands before after)
    (unopened : ¬ "/*".toList <:+: above) (isBlock : IsPlainBlock doc)
    (blank : Text.AllBlank blanks) (equal : before ++ block.above = above ++ (doc ++ blanks))
    (documented : block.doc = some (other, gap)) : other = doc ∧ OpensLine above := by
  obtain ⟨isDoc, gapBlank⟩ := stands.wellFormed.doc other gap documented
  have parts : (before ++ block.lead ++ other) ++ gap = (above ++ doc) ++ blanks := by
    rw [List.append_assoc above, ← equal, Block.above, documented]
    simp only [Option.elim_some, List.append_assoc]
  have otherLast : '/' ∈ (before ++ block.lead ++ other).getLast? := by
    rw [List.getLast?_append, isDoc.getLast?_eq]
    rfl
  have docLast : '/' ∈ (above ++ doc).getLast? := by
    rw [List.getLast?_append, Option.mem_def.mp isBlock.getLast?_eq]
    rfl
  -- Both comments end where the blanks before the signature begin.
  have sameBlanks : gap = blanks := by
    apply List.reverse_injective
    rw [← Text.trailing_blanks gapBlank otherLast (by decide), parts,
      Text.trailing_blanks blank docLast (by decide)]
  rw [sameBlanks] at parts
  obtain ⟨rfl, same⟩ := isBlock.eq_of_append_eq isDoc unopened (List.append_cancel_right parts)
  exact ⟨same, before, block.lead, rfl, stands.line, stands.wellFormed.lead⟩

end Above

/-- A doc block with only blanks between it and a declaration is the declaration's doc comment if
only blanks stand before it on its line, and the declaration has none otherwise. -/
theorem scan_attaches_iff_opensLine (code : String) {above doc blanks below : List Char}
    {declaration : Declaration} (split : above ++ (doc ++ (blanks ++ below)) = code.toList)
    (unopened : ¬ "/*".toList <:+: above) (isBlock : IsPlainBlock doc)
    (blank : Text.AllBlank blanks) (member : declaration ∈ scan code)
    (start : declaration.start = Text.byteLength (above ++ (doc ++ blanks)))
    (apart : ∀ other ∈ scan code, other ≠ declaration →
      other.stop ≤ Text.byteLength above ∨ Text.byteLength (above ++ doc) ≤ other.start) :
    (declaration.docComment = some (String.ofList doc) ↔ OpensLine above) ∧
      (declaration.docComment = none ↔ ¬ OpensLine above) := by
  obtain ⟨⟨offset, block⟩, found, rfl⟩ := List.mem_map.mp member
  obtain ⟨before, after, whole, rfl, stands⟩ := Block.stands_of_mem found
  have parts : (before ++ block.above) ++ (block.signature.toList ++ after) =
      (above ++ (doc ++ blanks)) ++ below := by
    rw [Block.split_above whole, ← split]
    simp only [List.append_assoc]
  rw [start_ofBlock] at start
  obtain ⟨equal, rfl⟩ := Text.append_inj_of_byteLength parts start
  cases documented : block.doc with
  | none =>
      have missing : (ofBlock (Text.byteLength before) block).docComment = none := by
        rw [ofBlock, documented]
        rfl
      have closed : ¬ OpensLine above := by
        intro opens
        obtain ⟨other, reported, different, beyond, within⟩ :=
          Block.exists_overlapping found stands split isBlock blank opens equal documented
        rcases apart other reported different with low | high
        · omega
        · omega
      simp [missing, closed]
  | some part =>
      obtain ⟨other, gap⟩ := part
      obtain ⟨rfl, opens⟩ :=
        Block.eq_of_documented stands unopened isBlock blank equal documented
      have present : (ofBlock (Text.byteLength before) block).docComment =
          some (String.ofList other) := by
        rw [ofBlock, documented]
        rfl
      simp [present, opens]

theorem scan_attaches_below_another_function :
    let code := "function a() {}\n  /** B. */\n\n function b() {}\n"
    let above := "function a() {}\n  ".toList
    let doc := "/** B. */".toList
    let first : Declaration := ⟨none, 0, ⟨none, none, [' '], ['a'], [], [], none⟩⟩
    let second : Declaration := ⟨some "/** B. */", 30, ⟨none, none, [' '], ['b'], [], [], none⟩⟩
    scan code = [first, second] ∧ IsPlainBlock doc ∧ OpensLine above ∧
      ((second.docComment = some (String.ofList doc) ↔ OpensLine above) ∧
        (second.docComment = none ↔ ¬ OpensLine above)) := by
  intro code above doc first second
  have found : scan code = [first, second] := by decide +kernel
  have isBlock : IsPlainBlock doc := by
    refine ⟨?_, ⟨' ', rfl, by decide⟩, ?_, ?_, ?_⟩ <;> decide
  have opens : OpensLine above :=
    ⟨"function a() {}\n".toList, "  ".toList, rfl, by simp [Block.StartsLine], by decide⟩
  have attaches := @scan_attaches_iff_opensLine code above doc "\n\n ".toList
    "function b() {}\n".toList second (by decide) (by decide) isBlock (by decide)
    (by simp [found]) (by decide) (by
      intro other member different
      rw [found] at member
      left
      obtain rfl : other = first := by simpa [different] using member
      decide)
  exact ⟨found, isBlock, opens, attaches⟩

/-- Code before a doc block on its line takes the block from the declaration below. -/
theorem scan_drops_doc_behind_code :
    let code := "<?php /** Adds. */\nfunction add() {}\n"
    let above := "<?php ".toList
    let doc := "/** Adds. */".toList
    let declaration : Declaration := ⟨none, 19, ⟨none, none, [' '], "add".toList, [], [], none⟩⟩
    above ++ (doc ++ ("\n".toList ++ "function add() {}\n".toList)) = code.toList ∧
      ¬ "/*".toList <:+: above ∧ IsPlainBlock doc ∧ scan code = [declaration] ∧
      declaration.start = Text.byteLength (above ++ (doc ++ "\n".toList)) ∧
      declaration.docComment ≠ some (String.ofList doc) := by
  refine ⟨rfl, by decide, ?_, by decide +kernel, by decide, by decide⟩
  refine ⟨?_, ⟨' ', rfl, by decide⟩, ?_, ?_, ?_⟩ <;> decide

end Declaration

end DocBlock
