import DocBlock.Proofs.Declaration
import DocBlock.Proofs.Parameter

/-! Types that are made of several names. Main statement: as the return type of a function a type is
read whole, but before a parameter it is only if it is a single name, and otherwise its last name is
read. -/

namespace DocBlock

/-- A character that joins the names of a type. -/
def isJoint (c : Char) : Bool := c == '\\' || c == '|'

/-- A type: names with joints between them, behind a question mark and a backslash or without. -/
structure JoinedType where
  nullable : Bool
  rooted : Bool
  first : List Char
  /-- Each with the joint before it. -/
  others : List (List Char × List Char)
  first_isRun : Text.IsRun Text.isWord first
  others_isRun : ∀ other ∈ others, Text.IsRun isJoint other.1 ∧ Text.IsRun Text.isWord other.2

namespace JoinedType

open Parameter

def mark (joined : JoinedType) : List Char := if joined.nullable then ['?'] else []

def root (joined : JoinedType) : List Char := if joined.rooted then ['\\'] else []

def toList (joined : JoinedType) : List Char :=
  joined.mark ++ (joined.root ++ (joined.first ++
    joined.others.flatMap fun (joint, name) => joint ++ name))

def lastName (joined : JoinedType) : List Char :=
  (joined.others.getLast?.map Prod.snd).getD joined.first

/-- One name without a backslash before it. -/
def IsSimple (joined : JoinedType) : Prop := joined.rooted = false ∧ joined.others = []

instance (joined : JoinedType) : Decidable joined.IsSimple :=
  inferInstanceAs (Decidable (_ ∧ _))

/-- The part of a type that is read before a parameter. -/
def kept (joined : JoinedType) : List Char :=
  if joined.IsSimple then joined.toList else joined.lastName

theorem mark_cases (joined : JoinedType) : joined.mark = [] ∨ joined.mark = ['?'] := by
  rw [mark]
  cases joined.nullable with
  | false => exact Or.inl rfl
  | true => exact Or.inr rfl

theorem isTypeChar_of_isWord {c : Char} (word : Text.isWord c = true) : isTypeChar c = true := by
  simp [isTypeChar, word]

theorem isTypeChar_of_isJoint {c : Char} (joint : isJoint c = true) : isTypeChar c = true := by
  rw [isJoint, Bool.or_eq_true, beq_iff_eq, beq_iff_eq] at joint
  rcases joint with rfl | rfl <;> decide

theorem interrupts_of_isJoint {c : Char} (joint : isJoint c = true) : Interrupts c := by
  rw [isJoint, Bool.or_eq_true, beq_iff_eq, beq_iff_eq] at joint
  rcases joint with rfl | rfl <;> exact ⟨by decide, by decide, by decide, by decide⟩

theorem isRun_toList (joined : JoinedType) : Text.IsRun isTypeChar joined.toList := by
  refine ⟨by simp [toList, joined.first_isRun.1], ?_⟩
  intro c member
  rw [toList, List.mem_append, List.mem_append, List.mem_append] at member
  rcases member with inMark | inRoot | inFirst | inOthers
  · rcases joined.mark_cases with empty | marked
    · rw [empty] at inMark
      contradiction
    · rw [marked, List.mem_singleton] at inMark
      subst inMark
      decide
  · obtain ⟨_, rfl⟩ : joined.rooted = true ∧ c = '\\' := by simpa [root] using inRoot
    decide
  · exact isTypeChar_of_isWord (joined.first_isRun.2 c inFirst)
  · obtain ⟨⟨joint, name⟩, known, written⟩ := List.mem_flatMap.mp inOthers
    obtain ⟨jointRun, nameRun⟩ := joined.others_isRun _ known
    rcases List.mem_append.mp written with inJoint | inName
    · exact isTypeChar_of_isJoint (jointRun.2 c inJoint)
    · exact isTypeChar_of_isWord (nameRun.2 c inName)

theorem toList_of_isSimple {joined : JoinedType} (simple : joined.IsSimple) :
    joined.toList = joined.mark ++ joined.first := by
  rw [toList, root, simple.1, simple.2]
  simp

theorem isRun_lastName (joined : JoinedType) : Text.IsRun Text.isWord joined.lastName := by
  rw [lastName]
  cases last : joined.others.getLast? with
  | none => exact joined.first_isRun
  | some other => exact (joined.others_isRun other (List.mem_of_getLast? last)).2

/-- Right before the last of several names, or of one behind a backslash, stands a joint. -/
theorem exists_joint_before {joined : JoinedType} (compound : ¬ joined.IsSimple) :
    ∃ front c, joined.toList = (front ++ [c]) ++ joined.lastName ∧ isJoint c = true := by
  rcases List.eq_nil_or_concat' joined.others with single | ⟨init, ⟨joint, name⟩, split⟩
  · have rooted : joined.rooted = true := by
      by_contra plain
      exact compound ⟨Bool.eq_false_iff.mpr plain, single⟩
    refine ⟨joined.mark, '\\', ?_, by decide⟩
    rw [toList, root, lastName, single, rooted]
    simp
  · have known : (joint, name) ∈ joined.others := by simp [split]
    obtain ⟨jointRun, _⟩ := joined.others_isRun _ known
    obtain ⟨front, c, equal⟩ := (List.eq_nil_or_concat' joint).resolve_left jointRun.1
    have isJoint : isJoint c = true := jointRun.2 c (by simp [equal])
    refine ⟨joined.mark ++ (joined.root ++ (joined.first ++
      (init.flatMap (fun (joint, name) => joint ++ name) ++ front))), c, ?_, isJoint⟩
    rw [toList, lastName, split, equal, List.flatMap_append, List.flatMap_singleton,
      List.getLast?_concat, Option.map_some, Option.getD_some]
    simp only [List.append_assoc]

theorem kept_eq_toList_iff (joined : JoinedType) :
    joined.kept = joined.toList ↔ joined.IsSimple := by
  rw [kept]
  split
  · rename_i simple
    exact iff_of_true rfl simple
  · rename_i compound
    obtain ⟨front, c, split, _⟩ := exists_joint_before compound
    apply iff_of_false _ compound
    intro equal
    have lengths := congrArg List.length (equal.trans split)
    simp only [List.length_append, List.length_singleton] at lengths
    omega

/-- The parameter that is read behind a type. -/
def formal (joined : JoinedType) (name : List Char) (nameRun : Text.IsRun Text.isWord name) :
    Formal where
  type := some joined.kept
  name := name
  default := none
  type_written := by
    rintro _ ⟨⟩
    by_cases simple : joined.IsSimple
    · rw [kept, if_pos simple, toList_of_isSimple simple]
      exact ⟨joined.mark, joined.first, joined.mark_cases, joined.first_isRun, rfl⟩
    · rw [kept, if_neg simple]
      exact ⟨[], joined.lastName, Or.inl rfl, joined.isRun_lastName, rfl⟩
  name_isRun := nameRun
  default_written := by simp

/-- Nothing is read off what stands before the part that is read. -/
theorem exists_skipped_front (joined : JoinedType) :
    ∃ front, joined.toList = front ++ joined.kept ∧
      ∀ before rest, declaredForm.Skips before front rest := by
  by_cases simple : joined.IsSimple
  · refine ⟨[], ?_, Text.Form.skips_nil⟩
    rw [kept, if_pos simple, List.nil_append]
  · obtain ⟨front, c, split, joint⟩ := exists_joint_before simple
    have absent : '$' ∉ front := by
      intro member
      have inside : '$' ∈ joined.toList := by simp [split, member]
      exact absurd (joined.isRun_toList.2 _ inside) (by decide)
    refine ⟨front ++ [c], ?_, skips_interrupted absent (interrupts_of_isJoint joint)⟩
    rw [kept, if_neg simple, split]

/-- The function without parameters that has the type as its return type. -/
def block (joined : JoinedType) : Declaration.Block where
  lead := []
  doc := none
  signature :=
    { visibility := none, static := none, gap := [' '], name := ['f'], space := [], parameters := []
      result := some ⟨[], some ' ', joined.toList⟩ }

theorem toList_block (joined : JoinedType) :
    joined.block.toList = "function f(): ".toList ++ joined.toList := by
  have opening : "function f(): ".toList = "function".toList ++ [' ', 'f', '(', ')', ':', ' '] := rfl
  rw [opening]
  simp only [block, Declaration.Block.toList, Declaration.Block.above, Signature.toList,
    ReturnPart.toList, Option.elim_none, Option.elim_some, Option.toList_some, List.append_assoc,
    List.nil_append, List.cons_append]

theorem wellFormed_block (joined : JoinedType) : joined.block.WellFormed := by
  have blank : Text.IsRun Text.isBlank [' '] := by decide
  constructor
  · exact Text.allBlank_nil
  · intro doc blanks present
    contradiction
  · constructor
    · intro part present
      contradiction
    · intro blanks present
      contradiction
    · exact blank
    · exact (by decide : Text.IsRun Text.isWord ['f'])
    · exact Text.allBlank_nil
    · exact List.not_mem_nil
    · rintro part ⟨⟩
      exact ⟨Text.allBlank_nil, blank.2, joined.isRun_toList⟩

theorem returnType_scan (joined : JoinedType) :
    (Declaration.scan (.ofList ("function f(): ".toList ++ joined.toList))).map
      Declaration.returnType = [some (.ofList joined.toList)] := by
  rw [← toList_block, Declaration.Block.scan_toList joined.wellFormed_block Text.stops_nil]
  rfl

/-- As a return type a type is read whole. Before a parameter it is exactly if it is simple, and else
only its last name is. -/
theorem declared_whole_iff_simple (joined : JoinedType) {name : List Char}
    (nameRun : Text.IsRun Text.isWord name) :
    (Declaration.scan (.ofList ("function f(): ".toList ++ joined.toList))).map
        Declaration.returnType = [some (.ofList joined.toList)] ∧
      declared (.ofList (joined.toList ++ ' ' :: '$' :: name)) =
        [⟨some (.ofList joined.kept), .ofList name, none⟩] ∧
      (joined.kept = joined.toList ↔ joined.IsSimple) := by
  refine ⟨joined.returnType_scan, ?_, joined.kept_eq_toList_iff⟩
  obtain ⟨front, split, skips⟩ := joined.exists_skipped_front
  have blank : Text.IsRun Text.isBlank [' '] := by decide
  have read := @Formal.yields_spaced (joined.formal name nameRun) [' '] [] [] [] [] blank
    Text.allBlank_nil Text.allBlank_nil Text.allBlank_nil Text.stops_nil [] Text.Form.yields_nil
  have text : joined.toList ++ ' ' :: '$' :: name =
      front ++ ((joined.formal name nameRun).spaced [' '] [] [] ++ ([] ++ [])) := by
    rw [split]
    simp [Formal.spaced, Formal.defaultText, formal]
  rw [declared, String.toList_ofList, text]
  exact Text.Form.yields_skip (fun before => skips before _) read none 0

/-- Of a nullable type with a namespace and an alternative the alternative is read. -/
theorem declared_whole_iff_simple_three_names :
    ∃ joined : JoinedType, String.ofList joined.toList = "?\\App\\Model|int" ∧
      Text.IsRun Text.isWord ['x'] ∧
      (Declaration.scan "function f(): ?\\App\\Model|int").map Declaration.returnType =
        [some "?\\App\\Model|int"] ∧
      declared "?\\App\\Model|int $x" = [⟨some "int", "x", none⟩] ∧
      joined.kept ≠ joined.toList := by
  let joined : JoinedType :=
    { nullable := true, rooted := true, first := "App".toList
      others := [(['\\'], "Model".toList), (['|'], "int".toList)]
      first_isRun := by decide
      others_isRun := by decide }
  have nameRun : Text.IsRun Text.isWord ['x'] := by decide
  obtain ⟨returned, read, whole⟩ := declared_whole_iff_simple joined nameRun
  exact ⟨joined, by decide +kernel, nameRun, returned, read,
    fun equal => absurd (whole.mp equal) (by decide)⟩

/-- A type that is read whole behind a parameter list is cut to its last name inside one. -/
theorem declared_cuts_alternatives :
    (Declaration.scan "function f(): int|string").map Declaration.returnType =
        [some "int|string"] ∧
      declared "int|string $x" = [⟨some "string", "x", none⟩] := by
  decide +kernel

end JoinedType

end DocBlock
