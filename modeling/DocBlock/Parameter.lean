import DocBlock.Text.Blank
import DocBlock.Text.Occurrence
import DocBlock.Text.Run
import DocBlock.Text.Word

/-! Parameters as a declaration lists them and as the tags of a doc comment name them. -/

namespace DocBlock

structure Parameter where
  type : Option String
  /-- Without the sigil. -/
  name : String
  default : Option String
  deriving DecidableEq, Repr

namespace Parameter

/-- A type annotation with the blanks after it dropped: a word, perhaps with a question mark before
it. -/
def type? (cs : List Char) : Option (List Char × List Char) := do
  let mark := if cs.head? = some '?' then ['?'] else []
  let (word, afterWord) ← Text.run? Text.isWord (cs.drop mark.length)
  let (_, rest) ← Text.run? Text.isBlank afterWord
  return (mark ++ word, rest)

/-- The sigil and the name after it. -/
def named? (cs : List Char) : Option (List Char × List Char) :=
  (Text.after? '$' cs).bind (Text.run? Text.isWord)

/-- A default runs from its equals sign to the next comma or the end, whatever it holds. -/
def default? (cs : List Char) : Option (List Char × List Char) :=
  (Text.after? '=' (cs.dropWhile Text.isBlank)).bind (Text.run? (· != ','))

def declaredForm : Text.Form Parameter := fun _ cs => do
  let typed := (type? cs).bind fun (type, rest) =>
    (named? rest).map fun (name, rest) => (some (String.ofList type), name, rest)
  let (type, name, rest) ← typed <|> (named? cs).map fun (name, rest) => (none, name, rest)
  match default? rest with
  | some (run, rest) => return (⟨type, .ofList name, some (.ofList (Text.trim run))⟩, rest)
  | none => return (⟨type, .ofList name, none⟩, rest)

/-- The parameters in the text between a declaration's parentheses. -/
def declared (list : String) : List Parameter :=
  (Text.occurrences declaredForm list.toList).map Prod.snd

def isSolid (c : Char) : Bool := !Text.isBlank c

def documentedForm : Text.Form Parameter := fun _ cs => do
  let afterTag ← "@param".toList.isPrefixOf? cs
  let (_, cs) ← Text.run? Text.isBlank afterTag
  let (type, cs) ← Text.run? isSolid cs
  let (_, cs) ← Text.run? Text.isBlank cs
  let (name, rest) ← (Text.after? '$' cs).bind (Text.run? isSolid)
  return (⟨some (.ofList type), .ofList name, none⟩, rest)

/-- The parameters that the tags of a doc comment name, in comment order. -/
def documented (doc : String) : List Parameter :=
  (Text.occurrences documentedForm doc.toList).map Prod.snd

/-- As many on both sides, with the same name at every position. -/
def sameNames (left right : List Parameter) : Bool :=
  left.map name == right.map name

end Parameter

end DocBlock
