import DocBlock.Text.Blank
import DocBlock.Text.Run
import DocBlock.Text.Word

/-! Function signatures as they are written, from the first modifier through the return type, with
the blanks between their words. Main statement: a signature is printed as it stood in the text. -/

namespace DocBlock

inductive Visibility
  | pub | priv | prot
  deriving DecidableEq, Repr

def Visibility.word : Visibility → List Char
  | .pub => "public".toList
  | .priv => "private".toList
  | .prot => "protected".toList

def isTypeChar (c : Char) : Bool :=
  c == '?' || c == '\\' || c == '|' || Text.isWord c

/-- The annotation after a parameter list: blanks, a colon, at most one blank, and the type. -/
structure ReturnPart where
  lead : List Char
  gap : Option Char
  type : List Char
  deriving DecidableEq, Repr

/-- A signature with the blanks that follow its modifiers and surround its name. -/
structure Signature where
  visibility : Option (Visibility × List Char)
  static : Option (List Char)
  gap : List Char
  name : List Char
  space : List Char
  parameters : List Char
  result : Option ReturnPart
  deriving DecidableEq, Repr

namespace ReturnPart

def toList (part : ReturnPart) : List Char :=
  part.lead ++ ':' :: (part.gap.toList ++ part.type)

def read? (cs : List Char) : Option (ReturnPart × List Char) := do
  let afterColon ← Text.after? ':' (cs.dropWhile Text.isBlank)
  let gap := afterColon.head?.filter Text.isBlank
  let (type, rest) ← Text.run? isTypeChar (afterColon.drop gap.toList.length)
  return (⟨cs.takeWhile Text.isBlank, gap, type⟩, rest)

theorem append_of_read? {cs rest : List Char} {part : ReturnPart}
    (found : read? cs = some (part, rest)) : part.toList ++ rest = cs := by
  simp only [read?, Option.bind_eq_bind, Option.bind_eq_some_iff, Option.pure_def,
    Option.some.injEq, Prod.mk.injEq] at found
  obtain ⟨afterColon, colon, ⟨type, _⟩, typed, rfl, rfl⟩ := found
  have gap : (afterColon.head?.filter Text.isBlank).toList ++
      afterColon.drop (afterColon.head?.filter Text.isBlank).toList.length = afterColon := by
    cases afterColon with
    | nil => rfl
    | cons c cs => cases blank : Text.isBlank c <;> simp [Option.filter, blank]
  rw [toList, List.append_assoc, List.cons_append, List.append_assoc, Text.append_of_run? typed,
    gap, ← Text.after?_eq_some.1 colon, List.takeWhile_append_dropWhile]

end ReturnPart

namespace Signature

/-- The blanks after a word at the head, with the rest; none if the word or the blanks are
missing. -/
def modifier? (word cs : List Char) : Option (List Char × List Char) :=
  (word.isPrefixOf? cs).bind (Text.run? Text.isBlank)

def visibility? (cs : List Char) : Option ((Visibility × List Char) × List Char) :=
  [Visibility.pub, .priv, .prot].findSome? fun kind =>
    (modifier? kind.word cs).map fun (blanks, rest) => ((kind, blanks), rest)

/-- Reads an optional part: where it is missing, nothing is taken. -/
def optional {α : Type} (read? : List Char → Option (α × List Char)) (cs : List Char) :
    Option α × List Char :=
  match read? cs with
  | some (part, rest) => (some part, rest)
  | none => (none, cs)

theorem append_of_modifier? {word cs blanks rest : List Char}
    (found : modifier? word cs = some (blanks, rest)) : word ++ (blanks ++ rest) = cs := by
  obtain ⟨afterWord, word, run⟩ := Option.bind_eq_some_iff.1 found
  rw [Text.append_of_run? run, Text.isPrefixOf?_eq_some.1 word]

theorem append_of_visibility? {cs rest blanks : List Char} {kind : Visibility}
    (found : visibility? cs = some ((kind, blanks), rest)) :
    kind.word ++ (blanks ++ rest) = cs := by
  obtain ⟨_, _, found⟩ := List.exists_of_findSome?_eq_some found
  obtain ⟨_, modifier, equal⟩ := Option.map_eq_some_iff.1 found
  obtain ⟨⟨rfl, rfl⟩, rfl⟩ := by simpa only [Prod.mk.injEq] using equal
  exact append_of_modifier? modifier

/-- An optional part loses nothing if its reader does not. -/
theorem append_of_optional {α : Type} {read? : List Char → Option (α × List Char)}
    (print : α → List Char)
    (lossless : ∀ {cs part rest}, read? cs = some (part, rest) → print part ++ rest = cs)
    (cs : List Char) :
    (optional read? cs).1.elim [] print ++ (optional read? cs).2 = cs := by
  unfold optional
  split
  · rename_i found
    exact lossless found
  · rfl

/-- The parameter list ends at the first closing parenthesis, whatever stands before it. -/
def read? (cs : List Char) : Option (Signature × List Char) := do
  let (visibility, cs) := optional visibility? cs
  let (static, cs) := optional (modifier? "static".toList) cs
  let (gap, cs) ← modifier? "function".toList cs
  let (name, cs) ← Text.run? Text.isWord cs
  let parameters ← Text.after? '(' (cs.dropWhile Text.isBlank)
  let afterList ← Text.after? ')' (parameters.dropWhile (· != ')'))
  let (result, rest) := optional ReturnPart.read? afterList
  return (⟨visibility, static, gap, name, cs.takeWhile Text.isBlank,
    parameters.takeWhile (· != ')'), result⟩, rest)

def toList (signature : Signature) : List Char :=
  (signature.visibility.elim [] fun (kind, blanks) => kind.word ++ blanks) ++
    (signature.static.elim [] fun blanks => "static".toList ++ blanks) ++
    "function".toList ++ signature.gap ++ signature.name ++ signature.space ++
    '(' :: signature.parameters ++ ')' :: (signature.result.elim [] ReturnPart.toList)

theorem append_of_read? {cs rest : List Char} {signature : Signature}
    (found : read? cs = some (signature, rest)) : signature.toList ++ rest = cs := by
  simp only [read?, Option.bind_eq_bind, Option.bind_eq_some_iff, Option.pure_def,
    Option.some.injEq, Prod.mk.injEq] at found
  obtain ⟨⟨gap, _⟩, function, ⟨name, _⟩, named, _, opened, afterList, closed, rfl, rfl⟩ := found
  have visible := append_of_optional (fun (kind, blanks) => Visibility.word kind ++ blanks)
    (fun found => by rw [List.append_assoc]; exact append_of_visibility? found) cs
  have still := append_of_optional ("static".toList ++ ·)
    (fun found => by rw [List.append_assoc]; exact append_of_modifier? found)
    (optional visibility? cs).2
  have typed := append_of_optional ReturnPart.toList ReturnPart.append_of_read? afterList
  simp only [toList, List.append_assoc, List.cons_append, typed]
  rw [← Text.after?_eq_some.1 closed, List.takeWhile_append_dropWhile,
    ← Text.after?_eq_some.1 opened, List.takeWhile_append_dropWhile, Text.append_of_run? named,
    append_of_modifier? function, still, visible]

end Signature

end DocBlock
