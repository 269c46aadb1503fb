import Mathlib.Data.List.Infix

/-! Ways to split a text, where a word that lacks a character can stand in one, and texts of several
lines. -/

namespace DocBlock.Text

theorem suffix_of_append {front middle back cs : List Char}
    (split : front ++ (middle ++ back) = cs) : back <:+ cs :=
  ⟨front ++ middle, by rw [List.append_assoc, split]⟩

/-- Of two ways to split a text, the first splits the front of the second or its back. -/
theorem append_cases {left right front back : List Char} (split : left ++ right = front ++ back) :
    (∃ within, within ≠ [] ∧ left ++ within = front ∧ within ++ back = right) ∨
      ∃ beyond, front ++ beyond = left ∧ beyond ++ right = back := by
  rcases List.append_eq_append_iff.mp split with ⟨within, rfl, rfl⟩ | ⟨beyond, rfl, rfl⟩
  · by_cases empty : within = []
    · right
      exact ⟨[], by simp [empty], by simp [empty]⟩
    · exact Or.inl ⟨within, empty, rfl, rfl⟩
  · exact Or.inr ⟨beyond, rfl, rfl⟩

/-- A character that the front of a text lacks stands in its back. -/
theorem append_of_notMem {left right front back : List Char} {c : Char}
    (split : left ++ c :: right = front ++ back) (absent : c ∉ front) :
    ∃ beyond, front ++ beyond = left ∧ beyond ++ c :: right = back := by
  rcases append_cases split with ⟨within, present, rfl, rest⟩ | found
  · obtain ⟨d, within, rfl⟩ := List.exists_cons_of_ne_nil present
    obtain ⟨rfl, _⟩ := List.cons.inj rest
    exact absurd (List.mem_append_right left List.mem_cons_self) absent
  · exact found

theorem mem_of_getLast?_append {left right : List Char} {last : Char}
    (ends : (left ++ right).getLast? = some last) (present : right ≠ []) : last ∈ right := by
  rw [List.getLast?_append, List.getLast?_eq_some_getLast present, Option.some_or] at ends
  rw [← Option.some.inj ends]
  exact List.getLast_mem present

theorem prefix_append_cases {word left right : List Char} (begins : word <+: left ++ right) :
    word <+: left ∨ ∃ more, more ≠ [] ∧ word = left ++ more ∧ more <+: right := by
  rcases List.prefix_or_prefix_of_prefix begins (List.prefix_append left right) with
    within | ⟨more, rfl⟩
  · exact Or.inl within
  · by_cases complete : more = []
    · left
      simp [complete]
    · exact Or.inr ⟨more, complete, rfl, (List.prefix_append_right_inj left).mp begins⟩

/-- A word cannot reach beyond a character that it lacks. -/
theorem prefix_left_of_notMem {word left right : List Char} {c : Char}
    (begins : word <+: left ++ right) (member : c ∈ left) (lacking : c ∉ word) :
    word <+: left := by
  rcases prefix_append_cases begins with within | ⟨more, _, rfl, _⟩
  · exact within
  · exact absurd (List.mem_append_left more member) lacking

/-- A word cannot reach into a text that begins with a character which the word has only first. -/
theorem prefix_left_of_head_notMem {word left right : List Char} (begins : word <+: left ++ right)
    (present : left ≠ []) (lacking : ∀ c ∈ right.head?, c ∉ word.tail) : word <+: left := by
  rcases prefix_append_cases begins with within | ⟨more, beyond, rfl, further⟩
  · exact within
  · obtain ⟨c, more, rfl⟩ := List.exists_cons_of_ne_nil beyond
    obtain ⟨rest, rfl⟩ := further
    refine absurd ?_ (lacking c (by simp))
    rw [List.tail_append_of_ne_nil present]
    exact List.mem_append_right _ List.mem_cons_self

/-- A word that lacks a character stands on one side of it. -/
theorem not_infix_append_cons {word left right : List Char} {c : Char} (lacking : c ∉ word)
    (absentLeft : ¬ word <:+: left) (absentRight : ¬ word <:+: right) :
    ¬ word <:+: left ++ c :: right := by
  induction left with
  | nil =>
      intro present
      rcases List.infix_cons_iff.mp present with begins | later
      · have within : word <+: [c] := prefix_left_of_notMem begins List.mem_cons_self lacking
        cases word with
        | nil => exact absentLeft List.nil_infix
        | cons d word =>
            obtain ⟨rfl, _⟩ := List.cons_prefix_cons.mp within
            exact lacking List.mem_cons_self
      · exact absentRight later
  | cons d left ih =>
      intro present
      rcases List.infix_cons_iff.mp present with begins | later
      · have member : c ∈ (d :: left) ++ [c] := by simp
        have within : word <+: (d :: left) ++ [c] := by
          refine @prefix_left_of_notMem word _ right c ?_ member lacking
          rwa [List.append_assoc]
        rcases List.prefix_concat_iff.mp within with whole | inside
        · exact lacking (by simp [whole])
        · exact absentLeft inside.isInfix
      · exact ih (fun inside => absentLeft (List.infix_cons inside)) later

theorem notMem_intercalate {separator : List Char} {texts : List (List Char)} {c : Char}
    (absent : c ∉ separator) (absentTexts : ∀ text ∈ texts, c ∉ text) :
    c ∉ separator.intercalate texts := by
  induction texts with
  | nil => exact List.not_mem_nil
  | cons text texts ih =>
      obtain ⟨first, others⟩ := List.forall_mem_cons.mp absentTexts
      cases texts with
      | nil => rwa [List.intercalate_singleton]
      | cons next texts =>
          rw [List.intercalate_cons_cons, List.mem_append, List.mem_append, not_or, not_or]
          exact ⟨⟨first, absent⟩, ih others⟩

/-- Lines are told apart by the line feeds at their ends. -/
theorem splitOn_lines {lines : List (List Char)} (unbroken : ∀ line ∈ lines, '\n' ∉ line) :
    (lines.flatMap (· ++ ['\n'])).splitOn '\n' = lines ++ [[]] := by
  induction lines with
  | nil => rfl
  | cons line lines ih =>
      obtain ⟨first, others⟩ := List.forall_mem_cons.mp unbroken
      rw [List.flatMap_cons, List.append_assoc, List.singleton_append,
        List.splitOn_append_cons_self_of_not_mem first, ih others, List.cons_append]

end DocBlock.Text
