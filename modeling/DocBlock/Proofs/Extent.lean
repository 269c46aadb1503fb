import DocBlock.Proofs.Excerpt

/-! Where a body lies in a text. Main statement: it begins at the first brace outside parentheses,
if no semicolon outside them comes first, and runs through the shortest balanced part from there, or
to the end of the text where no part balances. -/

namespace DocBlock

theorem Text.exists_append_of_dropBytes? {n : Nat} {cs below : List Char}
    (dropped : dropBytes? n cs = some below) : ∃ above, above ++ below = cs ∧ byteLength above = n := by
  induction cs generalizing n with
  | nil =>
      cases n with
      | zero => exact ⟨[], Option.some.inj dropped.symm, rfl⟩
      | succ n => contradiction
  | cons c cs ih =>
      cases n with
      | zero => exact ⟨[], (Option.some.inj dropped).symm, rfl⟩
      | succ n =>
          rw [dropBytes?] at dropped
          split at dropped
          · obtain ⟨above, rfl, length⟩ := ih dropped
            refine ⟨c :: above, rfl, ?_⟩
            rw [byteLength_cons]
            omega
          · contradiction

namespace Body

/-- How deep in parentheses one is after a character. -/
def depthStep (depth : Nat) (c : Char) : Nat :=
  if c = '(' then depth + 1 else if c = ')' then depth - 1 else depth

/-- How deep in parentheses a text ends. -/
def depthAfter (depth : Nat) (cs : List Char) : Nat := cs.foldl depthStep depth

def IsMark (c : Char) : Prop := c = '{' ∨ c = ';'

/-- The first brace or semicolon outside parentheses, between what stands before and after it. -/
structure FirstMark (depth : Nat) (cs passed : List Char) (mark : Char) (after : List Char) :
    Prop where
  split : passed ++ mark :: after = cs
  isMark : IsMark mark
  outside : depthAfter depth passed = 0
  first : ∀ left c right, left ++ c :: right = passed → depthAfter depth left = 0 → ¬ IsMark c

section Opening

variable {depth : Nat} {c mark : Char} {cs passed after : List Char}

theorem firstMark_nil (isMark : IsMark mark) : FirstMark 0 (mark :: after) [] mark after := by
  refine ⟨rfl, isMark, rfl, ?_⟩
  intro left c right split
  simp at split

theorem firstMark_cons (unmarked : IsMark c → depth ≠ 0) :
    FirstMark depth (c :: cs) (c :: passed) mark after ↔
      FirstMark (depthStep depth c) cs passed mark after := by
  constructor
  · rintro ⟨split, isMark, outside, first⟩
    refine ⟨(List.cons.inj split).2, isMark, outside, ?_⟩
    intro left d right inside depthLeft
    exact first (c :: left) d right (by rw [List.cons_append, inside]) depthLeft
  · rintro ⟨rfl, isMark, outside, first⟩
    refine ⟨rfl, isMark, outside, ?_⟩
    intro left d right inside depthLeft
    cases left with
    | nil =>
        obtain ⟨rfl, _⟩ := List.cons.inj inside
        exact fun marked => unmarked marked depthLeft
    | cons e left =>
        obtain ⟨rfl, later⟩ := List.cons.inj inside
        exact first left d right later depthLeft

theorem opening?_cons (unmarked : IsMark c → depth ≠ 0) :
    opening? depth (c :: cs) = opening? (depthStep depth c) cs := by
  have notEnd : ¬ (c = ';' ∧ depth = 0) := fun ends => unmarked (Or.inr ends.1) ends.2
  have notOpen : ¬ (c = '{' ∧ depth = 0) := fun opens => unmarked (Or.inl opens.1) opens.2
  rw [opening?, if_neg notEnd, if_neg notOpen, depthStep]
  split
  · rfl
  split
  · rfl
  · rfl

theorem opening?_mark (isMark : IsMark mark) :
    opening? 0 (mark :: after) = if mark = '{' then some (mark :: after) else none := by
  rcases isMark with rfl | rfl <;> simp [opening?]

theorem FirstMark.unmarked (found : FirstMark depth (c :: cs) (c :: passed) mark after) :
    IsMark c → depth ≠ 0 := by
  intro marked zero
  exact found.first [] c passed rfl zero marked

theorem FirstMark.opening?_eq (found : FirstMark depth cs passed mark after) :
    opening? depth cs = if mark = '{' then some (mark :: after) else none := by
  induction passed generalizing depth cs with
  | nil =>
      obtain ⟨rfl, isMark, outside, _⟩ := found
      change depth = 0 at outside
      rw [List.nil_append, outside, opening?_mark isMark]
  | cons c passed ih =>
      obtain rfl := found.split
      have unmarked := found.unmarked
      rw [List.cons_append, opening?_cons unmarked]
      exact ih ((firstMark_cons unmarked).mp found)

/-- Without a mark outside parentheses the search runs to the end. -/
theorem opening?_eq_none (missing : ∀ passed mark after, ¬ FirstMark depth cs passed mark after) :
    opening? depth cs = none := by
  induction cs generalizing depth with
  | nil => rfl
  | cons c cs ih =>
      have unmarked : IsMark c → depth ≠ 0 := by
        rintro marked rfl
        exact missing [] c cs (firstMark_nil marked)
      rw [opening?_cons unmarked]
      apply ih
      intro passed mark after found
      exact missing (c :: passed) mark after ((firstMark_cons unmarked).mpr found)

/-- The brace at which the search stops is the first mark. -/
theorem firstMark_of_opening?
    (found : opening? depth (passed ++ '{' :: after) = some ('{' :: after)) :
    FirstMark depth (passed ++ '{' :: after) passed '{' after := by
  by_cases missing : ∀ front mark back, ¬ FirstMark depth (passed ++ '{' :: after) front mark back
  · rw [opening?_eq_none missing] at found
    contradiction
  · push Not at missing
    obtain ⟨front, mark, back, first⟩ := missing
    have stops := first.opening?_eq.symm.trans found
    split at stops
    · obtain ⟨rfl, rfl⟩ := List.cons.inj (Option.some.inj stops)
      obtain rfl := List.append_cancel_right first.split
      exact first
    · contradiction

end Opening

/-- A part from the head on that is not empty and holds as many opening as closing braces. -/
structure Balances (text span : List Char) : Prop where
  within : span <+: text
  present : span ≠ []
  balanced : span.count '{' = span.count '}'

/-- More braces are open than closed at every place after the head. -/
def StaysOpen (text : List Char) : Prop :=
  ∀ span, span <+: text → span ≠ [] → span.count '}' < span.count '{'

section Closing

variable {depth : Nat} {inner span : List Char}

/-- While no brace closes the last one, the open ones are never used up. -/
theorem count_le_of_closing?_eq_none (endless : closing? depth inner = none) {left : List Char}
    (within : left <+: inner) : left.count '}' ≤ left.count '{' + depth := by
  induction inner generalizing depth left with
  | nil =>
      rw [List.prefix_nil.mp within]
      exact Nat.zero_le _
  | cons c inner ih =>
      cases left with
      | nil => exact Nat.zero_le _
      | cons d left =>
          obtain ⟨rfl, inside⟩ := List.cons_prefix_cons.mp within
          by_cases opens : d = '{'
          · subst d
            rw [closing?_open, Option.map_eq_none_iff] at endless
            have later := ih endless inside
            rw [List.count_cons_self, List.count_cons_of_ne (by decide)]
            omega
          by_cases ends : d = '}'
          · subst d
            cases depth with
            | zero => simp [closing?] at endless
            | succ outer =>
                have endless : closing? outer inner = none := by simpa [closing?] using endless
                have later := ih endless inside
                rw [List.count_cons_self, List.count_cons_of_ne (by decide)]
                omega
          · rw [closing?_other opens ends, Option.map_eq_none_iff] at endless
            have later := ih endless inside
            rwa [List.count_cons_of_ne ends, List.count_cons_of_ne opens]

theorem staysOpen_of_closing?_eq_none (endless : closing? 0 inner = none) :
    StaysOpen ('{' :: inner) := by
  intro span within present
  obtain ⟨c, left, rfl⟩ := List.exists_cons_of_ne_nil present
  obtain ⟨rfl, inside⟩ := List.cons_prefix_cons.mp within
  have open_before := count_le_of_closing?_eq_none endless inside
  rw [List.count_cons_self, List.count_cons_of_ne (by decide)]
  omega

theorem not_balances_of_staysOpen {text : List Char} (open_ : StaysOpen text) :
    ¬ Balances text span := by
  intro balances
  have more := open_ span balances.within balances.present
  rw [balances.balanced] at more
  omega

/-- The last character of a text that closes is the brace that closes it. -/
theorem Closes.getLast?_eq (closes : Closes depth span) : span.getLast? = some '}' := by
  have present : span ≠ [] := by
    rintro rfl
    exact not_closes_nil depth closes
  have split := List.dropLast_append_getLast present
  have before := closes.unfinished span.dropLast [span.getLast present] split (by simp)
  have balanced := closes.balanced
  rw [← split, List.count_append, List.count_append] at balanced
  rw [List.getLast?_eq_some_getLast present]
  by_contra other
  have last : span.getLast present ≠ '}' := fun equal => other (congrArg some equal)
  have none : [span.getLast present].count '}' = 0 := by simp [last]
  omega

theorem Closes.isGroup (closes : Closes 0 span) : IsGroup ('{' :: span) := by
  have ends := closes.getLast?_eq
  refine ⟨rfl, ?_, ?_, ?_⟩
  · rw [List.getLast?_cons, ends]
    rfl
  · have balanced := closes.balanced
    rw [List.count_cons_self, List.count_cons_of_ne (by decide)]
    omega
  · intro left right split nonempty more
    obtain ⟨c, left, rfl⟩ := List.exists_cons_of_ne_nil nonempty
    obtain ⟨rfl, later⟩ := List.cons.inj split
    have unfinished := closes.unfinished left right later more
    rw [List.count_cons_self, List.count_cons_of_ne (by decide)]
    omega

/-- No balanced part ends inside a group. -/
theorem IsGroup.length_le {text other : List Char} (group : IsGroup span) (within : span <+: text)
    (balances : Balances text other) : span.length ≤ other.length := by
  by_contra shorter
  obtain ⟨right, split⟩ := List.prefix_of_prefix_length_le balances.within within (by omega)
  have more : right ≠ [] := by
    rintro rfl
    rw [List.append_nil] at split
    rw [split] at shorter
    omega
  have unfinished := group.inside other right split balances.present more
  have balanced := balances.balanced
  omega

end Closing

/-- What a search finds from a brace on: the shortest balanced part, which is a group, or everything
where no part balances, and then the braces stay open. -/
structure Encloses (text : List Char) (body : Body) : Prop where
  closed_iff : ∀ span, body = .closed span ↔
    Balances text span ∧ ∀ other, Balances text other → span.length ≤ other.length
  closes_iff : (∃ span, body = .closed span) ↔ ∃ span, Balances text span
  unterminated_iff : ∀ span, body = .unterminated span ↔
    span = text ∧ ¬ ∃ other, Balances text other
  group : ∀ span, body = .closed span → IsGroup span
  staysOpen : ∀ span, body = .unterminated span → StaysOpen text

section Enclosing

variable {text span cs inner : List Char} {body : Body}

theorem encloses_closed (group : IsGroup span) (within : span <+: text) :
    Encloses text (.closed span) := by
  have present : span ≠ [] := by
    rintro rfl
    have opens := group.opens
    contradiction
  have balances : Balances text span := ⟨within, present, group.balanced⟩
  constructor
  · intro other
    rw [Body.closed.injEq]
    constructor
    · rintro rfl
      exact ⟨balances, fun _ => group.length_le within⟩
    · rintro ⟨otherBalances, shortest⟩
      have same := Nat.le_antisymm (group.length_le within otherBalances) (shortest span balances)
      exact (List.prefix_of_prefix_length_le within otherBalances.within same.le).eq_of_length same
  · exact iff_of_true ⟨span, rfl⟩ ⟨span, balances⟩
  · intro other
    exact iff_of_false (by simp) fun ⟨_, unbalanced⟩ => unbalanced ⟨span, balances⟩
  · rintro _ ⟨⟩
    exact group
  · intro _ equal
    contradiction

theorem encloses_unterminated (open_ : StaysOpen text) : Encloses text (.unterminated text) := by
  have unbalanced (other : List Char) : ¬ Balances text other := not_balances_of_staysOpen open_
  constructor
  · intro other
    exact iff_of_false (by simp) fun ⟨balances, _⟩ => unbalanced other balances
  · exact iff_of_false (by simp) fun ⟨other, balances⟩ => unbalanced other balances
  · intro other
    rw [Body.unterminated.injEq, eq_comm]
    exact (and_iff_left fun ⟨other, balances⟩ => unbalanced other balances).symm
  · intro _ equal
    contradiction
  · intro _ _
    exact open_

theorem encloses_ofText (opened : opening? 0 cs = some ('{' :: inner)) :
    Encloses ('{' :: inner) (ofText cs) := by
  rcases ofText_cases cs with ⟨missing, _⟩ | ⟨other, found, ending⟩
  · rw [opened] at missing
    contradiction
  obtain rfl : inner = other := by
    rw [opened] at found
    exact (List.cons.inj (Option.some.inj found)).2
  rcases ending with ⟨span, closes, within, equal⟩ | ⟨endless, equal⟩
  · rw [equal]
    exact encloses_closed closes.isGroup (List.cons_prefix_cons.mpr ⟨rfl, within⟩)
  · rw [equal]
    exact encloses_unterminated (staysOpen_of_closing?_eq_none endless)

theorem Encloses.span_prefix (encloses : Encloses text body) : body.span <+: text := by
  cases body with
  | closed span => exact ((encloses.closed_iff span).mp rfl).1.within
  | unterminated span => exact ((encloses.unterminated_iff span).mp rfl).1 ▸ List.prefix_rfl
  | absent => exact List.nil_prefix

end Enclosing

theorem ofText_eq_absent {cs : List Char} (missing : opening? 0 cs = none) :
    ofText cs = .absent := by
  rw [ofText, missing]

section Extract

variable {code : String} {above below passed after : List Char}

theorem extract_eq_ofText (split : above ++ below = code.toList) :
    extract code (Text.byteLength above) = ofText below := by
  rw [extract, ← split, Text.dropBytes?_byteLength]

/-- What is found after the first brace lies between two offsets of the text. -/
theorem slice?_extract (split : above ++ below = code.toList)
    (opens : FirstMark 0 below passed '{' after) :
    let body := extract code (Text.byteLength above)
    let start := Text.byteLength (above ++ passed)
    Text.slice? start (start + Text.byteLength body.span) code.toList = some body.span := by
  intro body start
  have encloses : Encloses ('{' :: after) body := by
    rw [show body = ofText below from extract_eq_ofText split]
    exact encloses_ofText opens.opening?_eq
  obtain ⟨rest, equal⟩ := encloses.span_prefix
  have whole : (above ++ passed) ++ (body.span ++ rest) = code.toList := by
    rw [equal, List.append_assoc, opens.split, split]
  rw [← whole]
  exact Text.slice?_append _ _ _

end Extract

/-- From a character on, the first brace or semicolon outside parentheses decides whether there is a
body, and the body is the shortest balanced part from the brace on, or all the rest of the text. It
lies between two characters of the text. -/
theorem extract_first_group (code : String) (start : Nat) :
    ((∀ above below, above ++ below = code.toList → Text.byteLength above ≠ start) →
        extract code start = .absent) ∧
      ∀ above below, above ++ below = code.toList → Text.byteLength above = start →
        ((∀ passed mark after, ¬ FirstMark 0 below passed mark after) →
            extract code start = .absent) ∧
          (∀ passed after, FirstMark 0 below passed ';' after → extract code start = .absent) ∧
          ∀ passed after, FirstMark 0 below passed '{' after →
            Encloses ('{' :: after) (extract code start) ∧
              Text.slice? (start + Text.byteLength passed)
                (start + Text.byteLength passed + Text.byteLength (extract code start).span)
                code.toList = some (extract code start).span := by
  constructor
  · intro outside
    rw [extract]
    cases dropped : Text.dropBytes? start code.toList with
    | none => rfl
    | some below =>
        obtain ⟨above, split, length⟩ := Text.exists_append_of_dropBytes? dropped
        exact absurd length (outside above below split)
  · rintro above below split rfl
    rw [extract_eq_ofText split]
    refine ⟨?_, ?_, ?_⟩
    · intro missing
      exact ofText_eq_absent (opening?_eq_none missing)
    · intro passed after ends
      exact ofText_eq_absent ends.opening?_eq
    · intro passed after opens
      have slice := slice?_extract split opens
      rw [extract_eq_ofText split, Text.byteLength_append] at slice
      exact ⟨encloses_ofText opens.opening?_eq, slice⟩

/-- A semicolon inside parentheses and a brace that closes nothing are passed. -/
theorem extract_first_group_past_parentheses :
    let code := "é) f($a = ';') \x7d\n\x7b if (é) \x7b;\x7d \x7d \x7d"
    let passed := ") f($a = ';') \x7d\n".toList
    let after := " if (é) \x7b;\x7d \x7d \x7d".toList
    let span := "\x7b if (é) \x7b;\x7d \x7d".toList
    Text.byteLength ['é'] = 2 ∧ FirstMark 0 (passed ++ '{' :: after) passed '{' after ∧
      extract code 2 = .closed span ∧ Encloses ('{' :: after) (extract code 2) ∧
      Text.slice? 18 33 code.toList = some span := by
  intro code passed after span
  have opens : FirstMark 0 (passed ++ '{' :: after) passed '{' after :=
    firstMark_of_opening? (by decide +kernel)
  have found : extract code 2 = .closed span := by decide +kernel
  obtain ⟨encloses, slice⟩ :=
    ((extract_first_group code 2).2 ['é'] (passed ++ '{' :: after) (by decide) (by decide)).2.2
      passed after opens
  rw [found] at slice
  exact ⟨by decide, opens, found, encloses, slice⟩

end Body

end DocBlock
