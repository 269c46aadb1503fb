import DocBlock.Text.Bytes

/-! The occurrences of a form in a text, leftmost first and without overlap. -/

namespace DocBlock.Text

/-- A form reads the head of a text, given the character before it, and returns what it read with
the rest. -/
abbrev Form (α : Type) := Option Char → List Char → Option (α × List Char)

/-- The occurrences from a position on, each with its byte offset. The first `skip` characters
belong to an occurrence already reported. -/
def occurrencesFrom {α : Type} (form : Form α) :
    (before : Option Char) → (skip offset : Nat) → List Char → List (Nat × α)
  | _, _, _, [] => []
  | _, skip + 1, offset, c :: cs => occurrencesFrom form (some c) skip (offset + c.utf8Size) cs
  | before, 0, offset, c :: cs =>
    match form before (c :: cs) with
    | some (found, rest) =>
      (offset, found) ::
        occurrencesFrom form (some c) (cs.length - rest.length) (offset + c.utf8Size) cs
    | none => occurrencesFrom form (some c) 0 (offset + c.utf8Size) cs

def occurrences {α : Type} (form : Form α) (cs : List Char) : List (Nat × α) :=
  occurrencesFrom form none 0 0 cs

end DocBlock.Text
