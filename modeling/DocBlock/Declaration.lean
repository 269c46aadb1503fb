import DocBlock.Signature
import DocBlock.Text.Occurrence

/-! Function declarations in a source text, each with the doc comment directly above it. Strings and
other comments are not told apart from code: a declaration is found wherever a line starts with one.
Main statement: a block is printed as it stood in the text. -/

namespace DocBlock

structure Declaration where
  docComment : Option String
  /-- The byte offset of the signature. -/
  start : Nat
  signature : Signature
  deriving DecidableEq, Repr

namespace Declaration

/-- The text through the first closing mark of a comment, with the rest. -/
def throughClose? : List Char → Option (List Char × List Char)
  | [] => none
  | c :: cs =>
    match c, cs with
    | '*', '/' :: rest => some (['*', '/'], rest)
    | _, _ => (throughClose? cs).map fun (inner, rest) => (c :: inner, rest)

theorem append_of_throughClose? {cs inner rest : List Char}
    (found : throughClose? cs = some (inner, rest)) : inner ++ rest = cs := by
  induction cs generalizing inner with
  | nil => contradiction
  | cons c cs ih =>
      unfold throughClose? at found
      split at found
      · obtain ⟨rfl, rfl⟩ := Prod.mk.inj (Option.some.inj found)
        rfl
      · obtain ⟨⟨tail, _⟩, later, equal⟩ := Option.map_eq_some_iff.1 found
        obtain ⟨rfl, rfl⟩ := Prod.mk.inj equal
        rw [List.cons_append, ih later]

/-- A doc comment runs from its opener to the first closing mark after it, so the opener's own stars
close nothing. -/
def docComment? (cs : List Char) : Option (List Char × List Char) := do
  let inner ← "/**".toList.isPrefixOf? cs
  let (body, rest) ← throughClose? inner
  return ("/**".toList ++ body, rest)

theorem append_of_docComment? {cs doc rest : List Char}
    (found : docComment? cs = some (doc, rest)) : doc ++ rest = cs := by
  simp only [docComment?, Option.bind_eq_bind, Option.bind_eq_some_iff, Option.pure_def,
    Option.some.injEq, Prod.mk.injEq] at found
  obtain ⟨inner, opened, ⟨body, _⟩, closed, rfl, rfl⟩ := found
  rw [List.append_assoc, append_of_throughClose? closed, Text.isPrefixOf?_eq_some.1 opened]

/-- A declaration as written from the start of its line: blanks, perhaps a doc comment with the
blanks after it, and the signature. -/
structure Block where
  lead : List Char
  doc : Option (List Char × List Char)
  signature : Signature
  deriving DecidableEq, Repr

/-- A doc comment with the blanks after it. -/
def docPart? (cs : List Char) : Option ((List Char × List Char) × List Char) :=
  (docComment? cs).map fun (doc, rest) =>
    ((doc, rest.takeWhile Text.isBlank), rest.dropWhile Text.isBlank)

theorem append_of_docPart? {cs doc blanks rest : List Char}
    (found : docPart? cs = some ((doc, blanks), rest)) : doc ++ (blanks ++ rest) = cs := by
  obtain ⟨⟨_, afterDoc⟩, doc, equal⟩ := Option.map_eq_some_iff.1 found
  obtain ⟨⟨rfl, rfl⟩, rfl⟩ := by simpa only [Prod.mk.injEq] using equal
  rw [List.takeWhile_append_dropWhile, append_of_docComment? doc]

namespace Block

def read? (cs : List Char) : Option (Block × List Char) := do
  let (doc, body) := Signature.optional docPart? (cs.dropWhile Text.isBlank)
  let (signature, rest) ← Signature.read? body
  return (⟨cs.takeWhile Text.isBlank, doc, signature⟩, rest)

/-- What stands before the signature. -/
def above (block : Block) : List Char :=
  block.lead ++ block.doc.elim [] fun (doc, blanks) => doc ++ blanks

def toList (block : Block) : List Char :=
  block.above ++ block.signature.toList

theorem append_of_read? {cs rest : List Char} {block : Block}
    (found : read? cs = some (block, rest)) : block.toList ++ rest = cs := by
  simp only [read?, Option.bind_eq_bind, Option.bind_eq_some_iff, Option.pure_def,
    Option.some.injEq, Prod.mk.injEq] at found
  obtain ⟨⟨signature, _⟩, signed, rfl, rfl⟩ := found
  have documented := Signature.append_of_optional (fun (doc, blanks) => doc ++ blanks)
    (fun found => by rw [List.append_assoc]; exact append_of_docPart? found)
    (cs.dropWhile Text.isBlank)
  rw [toList, above, List.append_assoc, Signature.append_of_read? signed, List.append_assoc,
    documented, List.takeWhile_append_dropWhile]

/-- Blocks begin only where a line does. -/
def form : Text.Form Block := fun before cs =>
  if before.all (· == '\n') then read? cs else none

end Block

def ofBlock (offset : Nat) (block : Block) : Declaration where
  docComment := block.doc.map fun (doc, _) => String.ofList doc
  start := offset + Text.byteLength block.above
  signature := block.signature

/-- All declarations of a source text, in order. -/
def scan (code : String) : List Declaration :=
  (Text.occurrences Block.form code.toList).map fun (offset, block) => ofBlock offset block

def text (declaration : Declaration) : String := .ofList declaration.signature.toList

/-- The byte offset just past the signature. -/
def stop (declaration : Declaration) : Nat :=
  declaration.start + Text.byteLength declaration.signature.toList

def name (declaration : Declaration) : String := .ofList declaration.signature.name

/-- The text between the parentheses, untouched. -/
def parameterList (declaration : Declaration) : String :=
  .ofList declaration.signature.parameters

def returnType (declaration : Declaration) : Option String :=
  declaration.signature.result.map fun part => .ofList part.type

end Declaration

end DocBlock
