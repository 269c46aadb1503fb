/-! Positions in a text, measured in the bytes of its UTF-8 form. -/

namespace DocBlock.Text

def byteLength (cs : List Char) : Nat :=
  cs.foldr (fun c length => c.utf8Size + length) 0

/-- The text from a byte offset on; none past the end or inside a character. -/
def dropBytes? : Nat → List Char → Option (List Char)
  | 0, cs => some cs
  | _ + 1, [] => none
  | n + 1, c :: cs => if c.utf8Size ≤ n + 1 then dropBytes? (n + 1 - c.utf8Size) cs else none

/-- The text before a byte offset; none past the end or inside a character. -/
def takeBytes? : Nat → List Char → Option (List Char)
  | 0, _ => some []
  | _ + 1, [] => none
  | n + 1, c :: cs =>
    if c.utf8Size ≤ n + 1 then (takeBytes? (n + 1 - c.utf8Size) cs).map (c :: ·) else none

/-- How many line feeds start before a byte offset. -/
def lineFeedsBefore : Nat → List Char → Nat
  | 0, _ => 0
  | _ + 1, [] => 0
  | n + 1, c :: cs =>
    (if c = '\n' then 1 else 0) + lineFeedsBefore (n + 1 - c.utf8Size) cs

/-- The line of a byte offset, the first line being 1. -/
def lineOf (code : String) (offset : Nat) : Nat :=
  lineFeedsBefore offset code.toList + 1

@[simp] theorem byteLength_nil : byteLength [] = 0 := rfl

@[simp] theorem byteLength_cons (c : Char) (cs : List Char) :
    byteLength (c :: cs) = c.utf8Size + byteLength cs := rfl

@[simp] theorem byteLength_append (left right : List Char) :
    byteLength (left ++ right) = byteLength left + byteLength right := by
  induction left with
  | nil => simp
  | cons c left ih => simp [ih, Nat.add_assoc]

theorem byteLength_reverse (cs : List Char) : byteLength cs.reverse = byteLength cs := by
  induction cs with
  | nil => rfl
  | cons c cs ih => simp [ih, Nat.add_comm]

theorem byteLength_pos {cs : List Char} (present : cs ≠ []) : 0 < byteLength cs := by
  cases cs with
  | nil => contradiction
  | cons c cs =>
      have positive := c.utf8Size_pos
      rw [byteLength_cons]
      omega

theorem byteLength_cons_eq_succ (c : Char) (cs : List Char) :
    ∃ n, byteLength (c :: cs) = n + 1 ∧ c.utf8Size ≤ n + 1 ∧ n + 1 - c.utf8Size = byteLength cs := by
  have positive := c.utf8Size_pos
  refine ⟨c.utf8Size + byteLength cs - 1, ?_, ?_, ?_⟩
  · rw [byteLength_cons]
    omega
  · omega
  · omega

theorem dropBytes?_byteLength (left right : List Char) :
    dropBytes? (byteLength left) (left ++ right) = some right := by
  induction left with
  | nil => simp [dropBytes?]
  | cons c cs ih =>
      obtain ⟨n, length, fits, remaining⟩ := byteLength_cons_eq_succ c cs
      rw [length, List.cons_append, dropBytes?, if_pos fits, remaining, ih]

theorem takeBytes?_byteLength (left right : List Char) :
    takeBytes? (byteLength left) (left ++ right) = some left := by
  induction left with
  | nil => simp [takeBytes?]
  | cons c cs ih =>
      obtain ⟨n, length, fits, remaining⟩ := byteLength_cons_eq_succ c cs
      rw [length, List.cons_append, takeBytes?, if_pos fits, remaining, ih]
      rfl

theorem lineFeedsBefore_byteLength (left right : List Char) :
    lineFeedsBefore (byteLength left) (left ++ right) = left.count '\n' := by
  induction left with
  | nil => simp [lineFeedsBefore]
  | cons c cs ih =>
      obtain ⟨n, length, _, remaining⟩ := byteLength_cons_eq_succ c cs
      rw [length, List.cons_append, lineFeedsBefore, remaining, ih, List.count_cons]
      by_cases feed : c = '\n' <;> simp [feed, Nat.add_comm]

example : lineOf "a\nb\n" 2 = 2 ∧ lineOf "é\n" 1 = 1 ∧ lineOf "a\n" 99 = 2 := by decide
example : dropBytes? 1 "éa".toList = none ∧ dropBytes? 2 "éa".toList = some ['a'] := by decide

end DocBlock.Text
