/-! Runs: the longest stretch of characters of one class at the head of a text. -/

namespace DocBlock.Text

/-- The longest run of the class at the head, with the rest; none if the run is empty. -/
def run? (isMember : Char → Bool) (cs : List Char) : Option (List Char × List Char) :=
  match cs.takeWhile isMember with
  | [] => none
  | c :: run => some (c :: run, cs.dropWhile isMember)

/-- What follows the given character at the head. -/
def after? (c : Char) : List Char → Option (List Char)
  | [] => none
  | d :: cs => if d = c then some cs else none

theorem run?_eq_some {isMember : Char → Bool} {cs run rest : List Char}
    (found : run? isMember cs = some (run, rest)) :
    run ≠ [] ∧ run = cs.takeWhile isMember ∧ rest = cs.dropWhile isMember := by
  unfold run? at found
  split at found
  · contradiction
  · rename_i equal
    obtain ⟨rfl, rfl⟩ := Prod.mk.inj (Option.some.inj found)
    exact ⟨List.cons_ne_nil _ _, equal.symm, rfl⟩

theorem append_of_run? {isMember : Char → Bool} {cs run rest : List Char}
    (found : run? isMember cs = some (run, rest)) : run ++ rest = cs := by
  obtain ⟨_, rfl, rfl⟩ := run?_eq_some found
  exact List.takeWhile_append_dropWhile

theorem after?_eq_some {c : Char} {cs rest : List Char} :
    after? c cs = some rest ↔ cs = c :: rest := by
  cases cs with
  | nil => simp [after?]
  | cons d cs => by_cases same : d = c <;> simp [after?, same]

theorem isPrefixOf?_eq_some {word cs rest : List Char} :
    word.isPrefixOf? cs = some rest ↔ word ++ rest = cs := by
  induction word generalizing cs with
  | nil =>
      change some cs = some rest ↔ rest = cs
      rw [Option.some.injEq, eq_comm]
  | cons c word ih =>
      cases cs with
      | nil =>
          constructor
          · intro found
            contradiction
          · intro split
            contradiction
      | cons d cs =>
          change (if c == d then word.isPrefixOf? cs else none) = some rest ↔
            c :: (word ++ rest) = d :: cs
          by_cases same : c = d
          · simp [same, ih]
          · simp [same]

end DocBlock.Text
