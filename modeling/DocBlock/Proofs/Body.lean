import DocBlock.Body
import DocBlock.Proofs.Signature

/-! Where a body begins and where it ends. Main statements: a search that starts at a signature goes
on below it at the depth of the parentheses its parameter list leaves open, and the brace that
closes a body is the first at which the counts of both braces agree. -/

namespace DocBlock

namespace Body

/-- Characters that a search for the opening brace passes at any depth. -/
def IsPlain (c : Char) : Prop := c ∉ ['(', ')', ';', '{']

instance (c : Char) : Decidable (IsPlain c) := inferInstanceAs (Decidable (c ∉ _))

theorem opening?_plain {depth : Nat} {cs rest : List Char} (plain : ∀ c ∈ cs, IsPlain c) :
    opening? depth (cs ++ rest) = opening? depth rest := by
  induction cs with
  | nil => rfl
  | cons c cs ih =>
      have first := plain c List.mem_cons_self
      have later := ih fun d member => plain d (List.mem_cons_of_mem c member)
      simp only [IsPlain, List.mem_cons, List.not_mem_nil, or_false, not_or] at first
      simp only [List.cons_append, opening?, first, if_false, false_and]
      exact later

theorem opening?_inside {depth : Nat} {cs rest : List Char} (inside : ')' ∉ cs) :
    opening? (depth + 1) (cs ++ rest) = opening? (depth + 1 + cs.count '(') rest := by
  induction cs generalizing depth with
  | nil => rfl
  | cons c cs ih =>
      rw [List.mem_cons, not_or] at inside
      have other : c ≠ ')' := fun equal => inside.1 equal.symm
      by_cases nested : c = '('
      · subst c
        have depth_eq : depth + 1 + 1 + cs.count '(' = depth + 1 + (cs.count '(' + 1) := by omega
        rw [List.cons_append, opening?, if_pos rfl, ih inside.2, List.count_cons_self, depth_eq]
      · rw [List.count_cons_of_ne nested, List.cons_append, opening?, if_neg nested, if_neg other]
        simp only [Nat.add_eq_zero_iff, Nat.one_ne_zero, and_false, if_false]
        exact ih inside.2

theorem opening?_list {parameters rest : List Char} (inside : ')' ∉ parameters) :
    opening? 0 ('(' :: (parameters ++ ')' :: rest)) = opening? (parameters.count '(') rest := by
  rw [opening?, if_pos rfl, opening?_inside inside, opening?]
  simp only [Char.reduceEq, if_false, if_true, Nat.zero_add, Nat.add_sub_cancel_left]

/-- With this many open braces and one more in front, the braces balance at the end and nowhere
before. -/
structure Closes (depth : Nat) (span : List Char) : Prop where
  balanced : span.count '}' = span.count '{' + depth + 1
  unfinished : ∀ left right, left ++ right = span → right ≠ [] →
    left.count '}' ≤ left.count '{' + depth

theorem not_closes_nil (depth : Nat) : ¬ Closes depth [] := by
  intro closes
  have balanced := closes.balanced
  rw [List.count_nil, List.count_nil] at balanced
  omega

theorem closes_cons {depth inner : Nat} {c : Char} {cs : List Char}
    (step : depth + [c].count '{' = inner + [c].count '}') :
    Closes depth (c :: cs) ↔ Closes inner cs := by
  have opened (text : List Char) : (c :: text).count '{' = [c].count '{' + text.count '{' := by
    rw [← List.count_append, List.singleton_append]
  have closed (text : List Char) : (c :: text).count '}' = [c].count '}' + text.count '}' := by
    rw [← List.count_append, List.singleton_append]
  constructor
  · intro closes
    constructor
    · have balanced := closes.balanced
      rw [opened, closed] at balanced
      omega
    · intro left right split more
      have unfinished := closes.unfinished (c :: left) right (by rw [List.cons_append, split]) more
      rw [opened, closed] at unfinished
      omega
  · intro closes
    constructor
    · have balanced := closes.balanced
      rw [opened, closed]
      omega
    · intro left right split more
      cases left with
      | nil => simp
      | cons d left =>
          obtain ⟨rfl, later⟩ := List.cons.inj split
          have unfinished := closes.unfinished left right later more
          rw [opened, closed]
          omega

theorem closes_brace {cs : List Char} : Closes 0 ('}' :: cs) ↔ cs = [] := by
  constructor
  · intro closes
    by_contra more
    have unfinished := closes.unfinished ['}'] cs rfl more
    simp at unfinished
  · rintro rfl
    constructor
    · rfl
    · intro left right split more
      have length := congrArg List.length split
      have positive := List.length_pos_iff.mpr more
      rw [List.length_append, List.length_singleton] at length
      have empty : left = [] := List.eq_nil_of_length_eq_zero (by omega)
      rw [empty]
      exact Nat.le_refl 0

theorem closing?_open (depth : Nat) (cs : List Char) :
    closing? depth ('{' :: cs) = (closing? (depth + 1) cs).map ('{' :: ·) := by
  cases depth <;> rfl

theorem closing?_other {depth : Nat} {c : Char} {cs : List Char} (opens : c ≠ '{')
    (ends : c ≠ '}') : closing? depth (c :: cs) = (closing? depth cs).map (c :: ·) := by
  cases depth <;> simp [closing?, opens, ends]

theorem closing?_eq_some_iff {depth : Nat} {cs span : List Char} :
    closing? depth cs = some span ↔ Closes depth span ∧ span <+: cs := by
  induction cs generalizing depth span with
  | nil =>
      constructor
      · intro found
        contradiction
      · rintro ⟨closes, within⟩
        rw [List.prefix_nil.mp within] at closes
        exact absurd closes (not_closes_nil depth)
  | cons c cs ih =>
      -- One step changes the depth, and a span begins with the character read.
      have extend {inner : Nat} (step : depth + [c].count '{' = inner + [c].count '}') :
          (closing? inner cs).map (c :: ·) = some span ↔ Closes depth span ∧ span <+: c :: cs := by
        rw [Option.map_eq_some_iff]
        constructor
        · rintro ⟨tail, found, rfl⟩
          obtain ⟨closes, within⟩ := ih.mp found
          exact ⟨(closes_cons step).mpr closes, List.cons_prefix_cons.mpr ⟨rfl, within⟩⟩
        · rintro ⟨closes, within⟩
          cases span with
          | nil => exact absurd closes (not_closes_nil depth)
          | cons d tail =>
              obtain ⟨rfl, inside⟩ := List.cons_prefix_cons.mp within
              exact ⟨tail, ih.mpr ⟨(closes_cons step).mp closes, inside⟩, rfl⟩
      by_cases opens : c = '{'
      · subst c
        rw [closing?_open]
        exact extend rfl
      by_cases ends : c = '}'
      · subst c
        cases depth with
        | zero =>
            constructor
            · rintro ⟨⟩
              exact ⟨closes_brace.mpr rfl, List.cons_prefix_cons.mpr ⟨rfl, List.nil_prefix⟩⟩
            · rintro ⟨closes, within⟩
              cases span with
              | nil => exact absurd closes (not_closes_nil 0)
              | cons d tail =>
                  obtain ⟨rfl, _⟩ := List.cons_prefix_cons.mp within
                  rw [closes_brace.mp closes]
                  rfl
        | succ outer => exact extend rfl
      · rw [closing?_other opens ends]
        apply extend
        rw [List.count_singleton, List.count_singleton]
        simp [opens, ends]

/-- From an opening brace through the one that balances it. -/
structure IsGroup (span : List Char) : Prop where
  opens : span.head? = some '{'
  ends : span.getLast? = some '}'
  balanced : span.count '{' = span.count '}'
  inside : ∀ left right, left ++ right = span → left ≠ [] → right ≠ [] →
    left.count '}' < left.count '{'

theorem IsGroup.eq_cons {span : List Char} (group : IsGroup span) :
    ∃ inner, span = '{' :: inner ∧ Closes 0 inner := by
  obtain ⟨inner, rfl⟩ := List.head?_eq_some_iff.mp group.opens
  refine ⟨inner, rfl, ?_, ?_⟩
  · have balanced := group.balanced
    rw [List.count_cons_self, List.count_cons_of_ne (by decide)] at balanced
    omega
  · intro left right split more
    have open_before := group.inside ('{' :: left) right (by rw [List.cons_append, split])
      (List.cons_ne_nil _ _) more
    rw [List.count_cons_self, List.count_cons_of_ne (by decide)] at open_before
    omega

theorem ofText_of_group {cs span rest : List Char} (group : IsGroup span)
    (found : opening? 0 cs = some (span ++ rest)) : ofText cs = .closed span := by
  obtain ⟨inner, rfl, closes⟩ := group.eq_cons
  have ends : closing? 0 (inner ++ rest) = some inner :=
    closing?_eq_some_iff.mpr ⟨closes, List.prefix_append inner rest⟩
  rw [List.cons_append] at found
  simp only [ofText, found, ends]

end Body

namespace Signature

theorem isPlain_of_isBlank {c : Char} (blank : Text.isBlank c = true) : Body.IsPlain c := by
  intro special
  simp only [List.mem_cons, List.not_mem_nil, or_false] at special
  rcases special with rfl | rfl | rfl | rfl <;> revert blank <;> decide

theorem isPlain_of_isTypeChar {c : Char} (member : isTypeChar c = true) : Body.IsPlain c := by
  intro special
  simp only [List.mem_cons, List.not_mem_nil, or_false] at special
  rcases special with rfl | rfl | rfl | rfl <;> revert member <;> decide

theorem isPlain_of_isWord {c : Char} (word : Text.isWord c = true) : Body.IsPlain c := by
  apply isPlain_of_isTypeChar
  rw [isTypeChar, word, Bool.or_true]

theorem plain_result {signature : Signature} (wellFormed : signature.WellFormed) :
    ∀ c ∈ signature.result.elim [] ReturnPart.toList, Body.IsPlain c := by
  intro c member
  cases present : signature.result with
  | none =>
      rw [present] at member
      contradiction
  | some part =>
      obtain ⟨lead, gap, type⟩ := wellFormed.result _ present
      rw [present, Option.elim_some, ReturnPart.toList, List.mem_append, List.mem_cons,
        List.mem_append] at member
      rcases member with inLead | rfl | inGap | inType
      · exact isPlain_of_isBlank (lead c inLead)
      · decide
      · exact isPlain_of_isBlank (gap c inGap)
      · exact isPlain_of_isTypeChar (type.2 c inType)

/-- Below a signature the search goes on at the depth that its parameter list leaves open. -/
theorem opening?_toList {signature : Signature} (wellFormed : signature.WellFormed)
    (rest : List Char) :
    Body.opening? 0 (signature.toList ++ rest) =
      Body.opening? (signature.parameters.count '(') rest := by
  have keywords : ∀ c ∈ signature.keywords, Body.IsPlain c := by
    intro c member
    rcases keywords_plain wellFormed c member with word | blank
    · exact isPlain_of_isWord word
    · exact isPlain_of_isBlank blank
  have gap : ∀ c ∈ signature.gap, Body.IsPlain c :=
    fun c member => isPlain_of_isBlank (wellFormed.gap.2 c member)
  have name : ∀ c ∈ signature.name, Body.IsPlain c :=
    fun c member => isPlain_of_isWord (wellFormed.name.2 c member)
  have space : ∀ c ∈ signature.space, Body.IsPlain c :=
    fun c member => isPlain_of_isBlank (wellFormed.space c member)
  have split : signature.toList ++ rest = signature.keywords ++ (signature.gap ++
      (signature.name ++ (signature.space ++ '(' :: (signature.parameters ++
        ')' :: (signature.result.elim [] ReturnPart.toList ++ rest))))) := by
    rw [toList_eq_throughList]
    unfold throughList Signature.keywords
    simp only [List.append_assoc, List.cons_append, List.nil_append]
  rw [split, Body.opening?_plain keywords, Body.opening?_plain gap, Body.opening?_plain name,
    Body.opening?_plain space, Body.opening?_list wellFormed.parameters,
    Body.opening?_plain (plain_result wellFormed)]

end Signature

end DocBlock
