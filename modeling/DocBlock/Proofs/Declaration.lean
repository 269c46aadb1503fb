import DocBlock.Proofs.Block

/-! What a scan for declarations reports. Main statements: each declaration is one that stands in
the text where it says, declarations do not overlap, and a doc comment holds a closing mark before
its end exactly if its opener overlaps one. -/

namespace DocBlock

namespace Text

/-- The text between two byte offsets; none if one is past the end or inside a character. -/
def slice? (start stop : Nat) (cs : List Char) : Option (List Char) :=
  (dropBytes? start cs).bind (takeBytes? (stop - start))

theorem slice?_append (left middle right : List Char) :
    slice? (byteLength left) (byteLength left + byteLength middle) (left ++ (middle ++ right)) =
      some middle := by
  rw [slice?, dropBytes?_byteLength, Option.bind_some, Nat.add_sub_cancel_left,
    takeBytes?_byteLength]

end Text

namespace Declaration

/-- The byte range of the doc comment, which ends where the blanks before the signature begin. -/
def docSpan? (code : String) (declaration : Declaration) : Option (Nat × Nat) :=
  declaration.docComment.map fun doc =>
    let above := (Text.takeBytes? declaration.start code.toList).getD []
    let stop := declaration.start - Text.byteLength (above.reverse.takeWhile Text.isBlank)
    (stop - Text.byteLength doc.toList, stop)

/-- The offset at which the doc comment begins, or the signature if there is none. -/
def opening (code : String) (declaration : Declaration) : Nat :=
  (declaration.docSpan? code).elim declaration.start Prod.fst

/-- A block between what stands before and after it in a text. -/
structure Block.Stands (block : Block) (before after : List Char) : Prop where
  line : StartsLine before.getLast?
  wellFormed : block.WellFormed
  ends : block.signature.EndsBefore after

theorem Block.stands_of_mem {cs : List Char} {offset : Nat} {block : Block}
    (member : (offset, block) ∈ Text.occurrences form cs) :
    ∃ before after, before ++ (block.toList ++ after) = cs ∧ offset = Text.byteLength before ∧
      block.Stands before after := by
  have cut := Text.cut_occurrencesFrom consumes_form none 0 cs
  obtain ⟨before, below, rfl, rfl, after, read⟩ := cut.mem member
  obtain ⟨line, wellFormed, ends, rfl⟩ := form_eq_some_iff.mp read
  rw [Text.lastOf, Option.or_none] at line
  exact ⟨before, after, rfl, Nat.zero_add _, line, wellFormed, ends⟩

/-- A text that is one block holds one declaration. -/
theorem Block.scan_toList {block : Block} (wellFormed : block.WellFormed)
    (ends : block.signature.EndsBefore []) : scan (.ofList block.toList) = [ofBlock 0 block] := by
  have line : StartsLine none := by
    intro c present
    contradiction
  have read : form none (block.toList ++ []) = some (block, []) :=
    form_eq_some_iff.mpr ⟨line, wellFormed, ends, rfl⟩
  have found := Text.occurrencesFrom_of_found block.toList_ne_nil read 0
  rw [List.append_nil] at found
  rw [scan, String.toList_ofList, Text.occurrences, found]
  rfl

theorem mem_scan {code : String} {declaration : Declaration}
    (member : declaration ∈ scan code) :
    ∃ block before after, before ++ (block.toList ++ after) = code.toList ∧
      declaration = ofBlock (Text.byteLength before) block ∧ block.Stands before after := by
  obtain ⟨⟨offset, block⟩, found, rfl⟩ := List.mem_map.mp member
  obtain ⟨before, after, split, rfl, stands⟩ := Block.stands_of_mem found
  exact ⟨block, before, after, split, rfl, stands⟩

theorem start_ofBlock (before : List Char) (block : Block) :
    (ofBlock (Text.byteLength before) block).start = Text.byteLength (before ++ block.above) :=
  (Text.byteLength_append before block.above).symm

theorem stop_ofBlock (before : List Char) (block : Block) :
    (ofBlock (Text.byteLength before) block).stop =
      Text.byteLength before + Text.byteLength block.toList := by
  rw [Block.toList, Text.byteLength_append, ← Nat.add_assoc]
  rfl

section Standing

variable {code : String} {block : Block} {before after : List Char}

theorem Block.split_above (split : before ++ (block.toList ++ after) = code.toList) :
    (before ++ block.above) ++ (block.signature.toList ++ after) = code.toList := by
  rw [← split, Block.toList]
  simp only [List.append_assoc]

theorem takeBytes?_start (split : before ++ (block.toList ++ after) = code.toList) :
    Text.takeBytes? (ofBlock (Text.byteLength before) block).start code.toList =
      some (before ++ block.above) := by
  rw [← Block.split_above split, start_ofBlock, Text.takeBytes?_byteLength]

theorem dropBytes?_start (split : before ++ (block.toList ++ after) = code.toList) :
    Text.dropBytes? (ofBlock (Text.byteLength before) block).start code.toList =
      some (block.signature.toList ++ after) := by
  rw [← Block.split_above split, start_ofBlock, Text.dropBytes?_byteLength]

theorem docSpan?_ofBlock (split : before ++ (block.toList ++ after) = code.toList)
    (stands : block.Stands before after) {doc blanks : List Char}
    (present : block.doc = some (doc, blanks)) :
    (ofBlock (Text.byteLength before) block).docSpan? code =
      some (Text.byteLength (before ++ block.lead),
        Text.byteLength ((before ++ block.lead) ++ doc)) := by
  obtain ⟨isDoc, blank⟩ := stands.wellFormed.doc _ _ present
  have above : before ++ block.above = ((before ++ block.lead) ++ doc) ++ blanks := by
    simp only [Block.above, present, Option.elim_some, List.append_assoc]
  have last : '/' ∈ ((before ++ block.lead) ++ doc).getLast? := by
    rw [List.getLast?_append, isDoc.getLast?_eq]
    rfl
  have comment : (ofBlock (Text.byteLength before) block).docComment = some (String.ofList doc) := by
    rw [ofBlock, present]
    rfl
  rw [docSpan?, comment, takeBytes?_start split, start_ofBlock, above]
  simp only [Option.map_some, Option.getD_some, Text.trailing_blanks blank last (by decide),
    Text.byteLength_reverse, String.toList_ofList, Text.byteLength_append]
  congr 2
  · omega
  · omega

end Standing

/-- Only blanks stand between the start of a line and the end of the text. -/
def OpensLine (above : List Char) : Prop :=
  ∃ line lead, line ++ lead = above ∧ Block.StartsLine line.getLast? ∧ Text.AllBlank lead

theorem docComment_ofBlock {offset : Nat} {block : Block} {doc : String} :
    (ofBlock offset block).docComment = some doc ↔
      ∃ blanks, block.doc = some (doc.toList, blanks) := by
  simp only [ofBlock, Option.map_eq_some_iff]
  constructor
  · rintro ⟨⟨text, blanks⟩, present, rfl⟩
    exact ⟨blanks, by rw [present, String.toList_ofList]⟩
  · rintro ⟨blanks, present⟩
    exact ⟨_, present, String.ofList_toList⟩

theorem toList_text (declaration : Declaration) :
    declaration.text.toList = declaration.signature.toList :=
  String.toList_ofList

/-- The closing mark stands in a doc comment only at its end, unless the opener's last star begins
one, and then at no other place before the end. -/
theorem scan_doc_closes_once_iff {code : String} {declaration : Declaration} {doc : String}
    (member : declaration ∈ scan code) (documented : declaration.docComment = some doc) :
    ((∀ left right, left ++ '*' :: '/' :: right = doc.toList → right = []) ↔
        ¬ "/**/".toList <+: doc.toList) ∧
      ∀ left right, left ++ '*' :: '/' :: right = doc.toList → right = [] ∨ left = ['/', '*'] := by
  obtain ⟨block, before, after, _, rfl, stands⟩ := mem_scan member
  obtain ⟨blanks, present⟩ := docComment_ofBlock.mp documented
  obtain ⟨isDoc, _⟩ := stands.wellFormed.doc _ _ present
  refine ⟨isDoc.closes_once_iff, ?_⟩
  intro left right split
  exact isDoc.closing_at split

theorem scan_doc_closes_once_above_function :
    let code := "/** a **/\nfunction b() {}\n"
    let declaration : Declaration :=
      ⟨some "/** a **/", 10, ⟨none, none, [' '], ['b'], [], [], none⟩⟩
    declaration ∈ scan code ∧ declaration.docComment = some "/** a **/" ∧
      (((∀ left right, left ++ '*' :: '/' :: right = "/** a **/".toList → right = []) ↔
          ¬ "/**/".toList <+: "/** a **/".toList) ∧
        ∀ left right, left ++ '*' :: '/' :: right = "/** a **/".toList →
          right = [] ∨ left = ['/', '*']) := by
  intro code declaration
  have member : declaration ∈ scan code := by decide +kernel
  exact ⟨member, rfl, scan_doc_closes_once_iff member rfl⟩

/-- An opener that is a whole comment by itself swallows the function below it. -/
theorem scan_doc_swallows_function :
    let code := "/**/\nfunction a() {}\n/** x */\nfunction b() {}\n"
    let doc := "/**/\nfunction a() {}\n/** x */"
    (scan code).map (fun declaration => (declaration.name, declaration.docComment)) =
        [("b", some doc)] ∧
      ¬ ∀ left right, left ++ '*' :: '/' :: right = doc.toList → right = [] := by
  refine ⟨by decide +kernel, ?_⟩
  intro once
  have last := once ['/', '*'] "\nfunction a() {}\n/** x */".toList rfl
  contradiction

end Declaration

end DocBlock
