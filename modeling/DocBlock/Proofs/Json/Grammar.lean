import DocBlock.Proofs.Json.Numeral

/-! The grammar of JSON texts. Main statement: a text that the grammar derives is read as what it was
derived from, whatever the spelling of its strings and numbers and the space between its tokens. -/

namespace DocBlock.Json

def AllSpace (cs : List Char) : Prop := ∀ c ∈ cs, isSpace c = true

theorem allSpace_nil : AllSpace [] := by
  intro c member
  contradiction

theorem skipSpace_append {space rest : List Char} (allSpace : AllSpace space)
    (stops : Text.Stops isSpace rest) : skipSpace (space ++ rest) = rest :=
  Text.dropWhile_append_of_stops allSpace stops

/-- The spellings of a letter in a string. -/
inductive LetterWritten : Letter → List Char → Prop
  | plain {c : Char} : c ≠ '"' → c ≠ '\\' → 0x20 ≤ c.toNat → LetterWritten (.char c) [c]
  | short {c d : Char} : escapedLetter? c = some d → LetterWritten (.char d) ['\\', c]
  | code {a b c d : Char} {letter : Letter} : escapedCode? a b c d = some letter →
      LetterWritten letter ['\\', 'u', a, b, c, d]

inductive LettersWritten : List Letter → List Char → Prop
  | nil : LettersWritten [] []
  | cons {letter : Letter} {letters : List Letter} {cs rest : List Char} :
      LetterWritten letter cs → LettersWritten letters rest →
      LettersWritten (letter :: letters) (cs ++ rest)

theorem letters?_letter {letter : Letter} {cs : List Char} (written : LetterWritten letter cs)
    (rest : List Char) :
    letters? (cs ++ rest) = (letters? rest).map fun (letters, rest) => (letter :: letters, rest) := by
  cases written with
  | @plain c quote backslash printable =>
      have control : ¬ c.toNat < 0x20 := by omega
      simp [letters?, backslash, control]
  | @short c d known =>
      unfold escapedLetter? at known
      split at known <;> first
        | contradiction
        | (obtain rfl := Option.some.inj known
           cases read : letters? rest <;> simp [letters?, escapedLetter?, read])
  | code known =>
      simp only [List.cons_append, List.nil_append, letters?, known]
      cases letters? rest <;> rfl

/-- A string is read up to its closing quote. -/
theorem letters?_append {letters : List Letter} {cs : List Char} (written : LettersWritten letters cs)
    (rest : List Char) : letters? (cs ++ '"' :: rest) = some (letters, rest) := by
  induction written with
  | nil => rfl
  | cons first _ ih => rw [List.append_assoc, letters?_letter first, ih, Option.map_some]

namespace Reading

mutual

/-- The texts of a value, without space around them. -/
inductive Written : Reading → List Char → Prop
  | null : Written .null "null".toList
  | yes : Written (.bool true) "true".toList
  | no : Written (.bool false) "false".toList
  | number {numeral : Numeral} {cs : List Char} : numeral.Written cs → Written (.number numeral) cs
  | string {letters : List Letter} {cs : List Char} : LettersWritten letters cs →
      Written (.string letters) ('"' :: (cs ++ ['"']))
  | emptyArray {space : List Char} : AllSpace space → Written (.array []) ('[' :: (space ++ [']']))
  | array {items : List Reading} {cs : List Char} : ItemsWritten items cs →
      Written (.array items) ('[' :: (cs ++ [']']))
  | emptyObject {space : List Char} : AllSpace space →
      Written (.object []) ('{' :: (space ++ ['}']))
  | object {members : List (List Letter × Reading)} {cs : List Char} : MembersWritten members cs →
      Written (.object members) ('{' :: (cs ++ ['}']))

/-- The texts of items with commas between them. -/
inductive ItemsWritten : List Reading → List Char → Prop
  | last {item : Reading} {before cs after : List Char} : AllSpace before → Written item cs →
      AllSpace after → ItemsWritten [item] (before ++ (cs ++ after))
  | cons {item : Reading} {items : List Reading} {before cs after rest : List Char} :
      AllSpace before → Written item cs → AllSpace after → ItemsWritten items rest →
      ItemsWritten (item :: items) (before ++ (cs ++ (after ++ ',' :: rest)))

/-- The texts of members with commas between them. -/
inductive MembersWritten : List (List Letter × Reading) → List Char → Prop
  | last {key : List Letter} {value : Reading} {cs : List Char} : MemberWritten key value cs →
      MembersWritten [(key, value)] cs
  | cons {key : List Letter} {value : Reading} {members : List (List Letter × Reading)}
      {cs rest : List Char} : MemberWritten key value cs → MembersWritten members rest →
      MembersWritten ((key, value) :: members) (cs ++ ',' :: rest)

/-- The texts of a key with its value, with the space around both. -/
inductive MemberWritten : List Letter → Reading → List Char → Prop
  | intro {key : List Letter} {value : Reading} {front spelled space gap cs back : List Char} :
      AllSpace front → LettersWritten key spelled → AllSpace space → AllSpace gap →
      Written value cs → AllSpace back →
      MemberWritten key value
        (front ++ '"' :: (spelled ++ '"' :: (space ++ ':' :: (gap ++ (cs ++ back)))))

end

/-- A value begins with a bracket, a quote, a letter of a word, a sign or a digit. -/
def beginsValue (c : Char) : Bool :=
  ['{', '[', '"', 'n', 't', 'f', '-'].contains c || c.isDigit

theorem Written.eq_cons {reading : Reading} {cs : List Char} (written : Written reading cs) :
    ∃ c tail, cs = c :: tail ∧ beginsValue c = true := by
  cases written with
  | number numeral =>
      obtain ⟨c, tail, equal, begins⟩ := numeral.eq_cons
      refine ⟨c, tail, equal, ?_⟩
      rcases begins with rfl | digit
      · rfl
      · rw [beginsValue, digit, Bool.or_true]
  | _ => exact ⟨_, _, rfl, by decide⟩

theorem not_beginsValue {c : Char} (begins : beginsValue c = true) :
    isSpace c = false ∧ c ≠ ']' ∧ c ≠ '}' := by
  refine ⟨?_, ?_, ?_⟩
  · cases space : isSpace c with
    | false => rfl
    | true =>
        simp only [isSpace, Bool.or_eq_true, beq_iff_eq] at space
        rcases space with ((rfl | rfl) | rfl) | rfl <;> contradiction
  · rintro rfl
    contradiction
  · rintro rfl
    contradiction

theorem Written.stops_isSpace {reading : Reading} {cs : List Char} (written : Written reading cs)
    (rest : List Char) : Text.Stops isSpace (cs ++ rest) := by
  obtain ⟨c, tail, rfl, begins⟩ := written.eq_cons
  exact Text.stops_cons.mpr (not_beginsValue begins).1

/-- The readers within so many steps read what the grammar derives. -/
structure ReadsWithin (steps : Nat) : Prop where
  value : ∀ {reading : Reading} {cs rest : List Char}, Written reading cs →
    Text.Stops continuesNumber rest → 2 * cs.length ≤ steps →
      value? steps (cs ++ rest) = some (reading, rest)
  items : ∀ {items : List Reading} {cs rest : List Char}, ItemsWritten items cs →
    2 * cs.length < steps → items? steps (cs ++ ']' :: rest) = some (items, rest)
  members : ∀ {members : List (List Letter × Reading)} {cs rest : List Char},
    MembersWritten members cs → 2 * cs.length < steps →
      members? steps (cs ++ '}' :: rest) = some (members, rest)

theorem skipSpace_value {reading : Reading} {before cs : List Char} (space : AllSpace before)
    (written : Written reading cs) (rest : List Char) :
    skipSpace (before ++ (cs ++ rest)) = cs ++ rest :=
  skipSpace_append space (written.stops_isSpace rest)

theorem ItemsWritten.unclosed {items : List Reading} {cs : List Char} (written : ItemsWritten items cs)
    (rest : List Char) : Text.after? ']' (skipSpace (cs ++ rest)) = none := by
  have open_ {reading : Reading} {before text : List Char} (space : AllSpace before)
      (written : Written reading text) (rest : List Char) :
      Text.after? ']' (skipSpace (before ++ (text ++ rest))) = none := by
    rw [skipSpace_value space written]
    obtain ⟨c, tail, rfl, begins⟩ := written.eq_cons
    rw [List.cons_append, Text.after?, if_neg (not_beginsValue begins).2.1]
  cases written with
  | last space item _ =>
      rw [List.append_assoc, List.append_assoc]
      exact open_ space item _
  | cons space item _ _ =>
      rw [List.append_assoc, List.append_assoc]
      exact open_ space item _

theorem MemberWritten.skipSpace_eq {key : List Letter} {value : Reading} {cs : List Char}
    (written : MemberWritten key value cs) (rest : List Char) :
    ∃ tail, skipSpace (cs ++ rest) = '"' :: tail := by
  cases written with
  | intro front _ _ _ _ _ =>
      rw [List.append_assoc, List.cons_append]
      exact ⟨_, skipSpace_append front (Text.stops_cons.mpr (by decide))⟩

theorem MembersWritten.unclosed {members : List (List Letter × Reading)} {cs : List Char}
    (written : MembersWritten members cs) (rest : List Char) :
    Text.after? '}' (skipSpace (cs ++ rest)) = none := by
  cases written with
  | last member =>
      obtain ⟨tail, equal⟩ := member.skipSpace_eq rest
      rw [equal]
      rfl
  | @cons _ _ _ _ others member _ =>
      rw [List.append_assoc]
      obtain ⟨tail, equal⟩ := member.skipSpace_eq (',' :: others ++ rest)
      rw [equal]
      rfl

theorem value?_number {c : Char} (begins : c = '-' ∨ c.isDigit = true) (steps : Nat)
    (cs : List Char) : value? (steps + 1) (c :: cs) =
      (numeral? (c :: cs)).map fun (numeral, rest) => (.number numeral, rest) := by
  rcases begins with rfl | digit
  · rfl
  · have other (d : Char) (letter : d.isDigit = false) : c ≠ d := by
      rintro rfl
      rw [letter] at digit
      contradiction
    rw [value?, if_neg (other _ rfl), if_neg (other _ rfl), if_neg (other _ rfl), if_neg (other _ rfl),
      if_neg (other _ rfl), if_neg (other _ rfl)]

theorem value?_succ {steps : Nat} (within : ReadsWithin steps) {reading : Reading}
    {cs rest : List Char} (written : Written reading cs) (stops : Text.Stops continuesNumber rest)
    (enough : 2 * cs.length ≤ steps + 1) : value? (steps + 1) (cs ++ rest) = some (reading, rest) := by
  have closed (c : Char) (text : List Char) : text ++ [c] ++ rest = text ++ c :: rest := by
    rw [List.append_assoc, List.singleton_append]
  cases written with
  | null => rfl
  | yes => rfl
  | no => rfl
  | number numeral =>
      have read := Numeral.numeral?_append numeral stops
      obtain ⟨c, tail, rfl, begins⟩ := numeral.eq_cons
      rw [List.cons_append] at read ⊢
      rw [value?_number begins, read, Option.map_some]
  | string letters =>
      rw [List.cons_append, closed, value?, if_neg (by decide), if_neg (by decide), if_pos rfl,
        letters?_append letters, Option.map_some]
  | emptyArray space =>
      have skipped : skipSpace _ = _ :=
        skipSpace_append space (@Text.stops_cons _ ']' rest |>.mpr (by decide))
      rw [List.cons_append, closed, value?, if_neg (by decide), if_pos rfl, skipped, Text.after?,
        if_pos rfl]
  | array items =>
      rw [List.length_cons, List.length_append, List.length_singleton] at enough
      rw [List.cons_append, closed, value?, if_neg (by decide), if_pos rfl, items.unclosed,
        within.items items (by omega), Option.map_some]
  | emptyObject space =>
      have skipped : skipSpace _ = _ :=
        skipSpace_append space (@Text.stops_cons _ '}' rest |>.mpr (by decide))
      rw [List.cons_append, closed, value?, if_pos rfl, skipped, Text.after?, if_pos rfl]
  | object members =>
      rw [List.length_cons, List.length_append, List.length_singleton] at enough
      rw [List.cons_append, closed, value?, if_pos rfl, members.unclosed,
        within.members members (by omega), Option.map_some]

/-- Space does not go on with a number. -/
theorem stops_space {space rest : List Char} (allSpace : AllSpace space)
    (stops : Text.Stops continuesNumber rest) : Text.Stops continuesNumber (space ++ rest) := by
  cases space with
  | nil => exact stops
  | cons d space =>
      have blank := allSpace d List.mem_cons_self
      simp only [isSpace, Bool.or_eq_true, beq_iff_eq] at blank
      rw [List.cons_append, Text.stops_cons]
      rcases blank with ((rfl | rfl) | rfl) | rfl <;> rfl

theorem skipSpace_mark {space : List Char} (allSpace : AllSpace space) {c : Char}
    (mark : isSpace c = false) (rest : List Char) : skipSpace (space ++ c :: rest) = c :: rest :=
  skipSpace_append allSpace (Text.stops_cons.mpr mark)

section Steps

variable {steps : Nat} (within : ReadsWithin steps) {c : Char} {rest : List Char}

include within

/-- An item is read up to the mark after it. -/
theorem items?_item {item : Reading} {before cs after : List Char} (front : AllSpace before)
    (written : Written item cs) (back : AllSpace after) (mark : c = ',' ∨ c = ']')
    (enough : 2 * cs.length ≤ steps) :
    items? (steps + 1) (before ++ (cs ++ (after ++ c :: rest))) =
      if c = ',' then (items? steps rest).map fun (items, rest) => (item :: items, rest)
      else some ([item], rest) := by
  have stops : Text.Stops continuesNumber (c :: rest) := by
    rw [Text.stops_cons]
    rcases mark with rfl | rfl <;> rfl
  have solid : isSpace c = false := by rcases mark with rfl | rfl <;> rfl
  have read := within.value written (stops_space back stops) enough
  simp only [items?, skipSpace_value front written, read, skipSpace_mark back solid]
  rcases mark with rfl | rfl <;> rfl

/-- A member is read up to the mark after it. -/
theorem members?_member {key : List Letter} {value : Reading} {cs : List Char}
    (written : MemberWritten key value cs) (mark : c = ',' ∨ c = '}')
    (enough : 2 * cs.length ≤ steps) :
    members? (steps + 1) (cs ++ c :: rest) =
      if c = ',' then
        (members? steps rest).map fun (members, rest) => ((key, value) :: members, rest)
      else some ([(key, value)], rest) := by
  have stops : Text.Stops continuesNumber (c :: rest) := by
    rw [Text.stops_cons]
    rcases mark with rfl | rfl <;> rfl
  have solid : isSpace c = false := by rcases mark with rfl | rfl <;> rfl
  cases written with
  | @intro _ _ front spelled space gap text back frontSpace letters spaceSpace gapSpace value
      backSpace =>
      simp only [List.length_append, List.length_cons] at enough
      have read := within.value value (stops_space backSpace stops) (by omega)
      have keyed := letters?_append letters (space ++ ':' :: (gap ++ (text ++ (back ++ c :: rest))))
      have opened := skipSpace_mark frontSpace (rfl : isSpace '"' = false)
        (spelled ++ '"' :: (space ++ ':' :: (gap ++ (text ++ (back ++ c :: rest)))))
      have colon := skipSpace_mark spaceSpace (rfl : isSpace ':' = false)
        (gap ++ (text ++ (back ++ c :: rest)))
      simp only [members?, List.append_assoc, List.cons_append, opened, Text.after?, if_true,
        Option.bind_some, keyed, colon, skipSpace_value gapSpace value, read,
        skipSpace_mark backSpace solid]
      rcases mark with rfl | rfl <;> rfl

theorem items?_succ {items : List Reading} {cs : List Char} (written : ItemsWritten items cs)
    (enough : 2 * cs.length < steps + 1) :
    items? (steps + 1) (cs ++ ']' :: rest) = some (items, rest) := by
  cases written with
  | last front item back =>
      simp only [List.length_append] at enough
      rw [List.append_assoc, List.append_assoc,
        items?_item within front item back (Or.inr rfl) (by omega)]
      rfl
  | cons front item back others =>
      simp only [List.length_append, List.length_cons] at enough
      rw [List.append_assoc, List.append_assoc, List.append_assoc, List.cons_append,
        items?_item within front item back (Or.inl rfl) (by omega), if_pos rfl,
        within.items others (by omega), Option.map_some]

theorem members?_succ {members : List (List Letter × Reading)} {cs : List Char}
    (written : MembersWritten members cs) (enough : 2 * cs.length < steps + 1) :
    members? (steps + 1) (cs ++ '}' :: rest) = some (members, rest) := by
  cases written with
  | last member =>
      rw [members?_member within member (Or.inr rfl) (by omega)]
      rfl
  | cons member others =>
      simp only [List.length_append, List.length_cons] at enough
      rw [List.append_assoc, List.cons_append,
        members?_member within member (Or.inl rfl) (by omega), if_pos rfl,
        within.members others (by omega), Option.map_some]

end Steps

theorem readsWithin (steps : Nat) : ReadsWithin steps := by
  -- A step is spent on each bracket and on each item, and every item has a character and a mark.
  induction steps with
  | zero =>
      constructor
      · intro reading cs rest written stops enough
        obtain ⟨c, tail, rfl, _⟩ := written.eq_cons
        rw [List.length_cons] at enough
        omega
      · intro items cs rest written enough
        omega
      · intro members cs rest written enough
        omega
  | succ steps within =>
      constructor
      · exact value?_succ within
      · exact items?_succ within
      · exact members?_succ within

/-- Every text of a value is read, with any space around it. -/
theorem ofText?_eq_some {reading : Reading} {before cs after : List Char} (front : AllSpace before)
    (written : Written reading cs) (back : AllSpace after) :
    ofText? (before ++ (cs ++ after)) = some reading := by
  have stops := stops_space back Text.stops_nil
  have ended := skipSpace_append back Text.stops_nil
  rw [List.append_nil] at stops ended
  have read := (readsWithin (2 * (before ++ (cs ++ after)).length + 2)).value written stops
    (by simp only [List.length_append]; omega)
  simp only [ofText?, skipSpace_value front written, read, ended, if_true]

/-- A text is written for one value only. -/
theorem Written.unique {reading other : Reading} {cs : List Char} (written : Written reading cs)
    (again : Written other cs) : reading = other := by
  have first := ofText?_eq_some allSpace_nil written allSpace_nil
  have second := ofText?_eq_some allSpace_nil again allSpace_nil
  exact Option.some.inj (first.symm.trans second)

theorem ItemsWritten.exists_written {items : List Reading} {cs : List Char}
    (written : ItemsWritten items cs) : ∀ item ∈ items, ∃ text, Written item text := by
  induction items generalizing cs with
  | nil => cases written
  | cons item items ih =>
      cases written with
      | last _ item _ => exact List.forall_mem_singleton.mpr ⟨_, item⟩
      | cons _ item _ others => exact List.forall_mem_cons.mpr ⟨⟨_, item⟩, ih others⟩

theorem MembersWritten.exists_written {members : List (List Letter × Reading)} {cs : List Char}
    (written : MembersWritten members cs) : ∀ member ∈ members,
      (∃ spelled, LettersWritten member.1 spelled) ∧ ∃ text, Written member.2 text := by
  have each {key : List Letter} {value : Reading} {cs : List Char}
      (member : MemberWritten key value cs) :
      (∃ spelled, LettersWritten key spelled) ∧ ∃ text, Written value text := by
    cases member with
    | intro _ spelled _ _ value _ => exact ⟨⟨_, spelled⟩, _, value⟩
  induction members generalizing cs with
  | nil => cases written
  | cons member members ih =>
      cases written with
      | last member => exact List.forall_mem_singleton.mpr (each member)
      | cons member others => exact List.forall_mem_cons.mpr ⟨each member, ih others⟩

theorem Written.exists_items {items : List Reading} {cs : List Char}
    (written : Written (.array items) cs) : ∀ item ∈ items, ∃ text, Written item text := by
  cases written with
  | emptyArray _ => exact fun _ member => absurd member List.not_mem_nil
  | array items => exact items.exists_written

theorem Written.exists_members {members : List (List Letter × Reading)} {cs : List Char}
    (written : Written (.object members) cs) : ∀ member ∈ members,
      (∃ spelled, LettersWritten member.1 spelled) ∧ ∃ text, Written member.2 text := by
  cases written with
  | emptyObject _ => exact fun _ member => absurd member List.not_mem_nil
  | object members => exact members.exists_written

/-- The text holds the value with nothing but space around it. -/
def IsTextOf (reading : Reading) (text : String) : Prop :=
  ∃ before cs after, AllSpace before ∧ Written reading cs ∧ AllSpace after ∧
    text.toList = before ++ (cs ++ after)

theorem IsTextOf.exists_written {reading : Reading} {text : String} (isText : reading.IsTextOf text) :
    ∃ cs, Written reading cs := by
  obtain ⟨_, cs, _, _, written, _, _⟩ := isText
  exact ⟨cs, written⟩

theorem IsTextOf.ofText?_eq {reading : Reading} {text : String} (isText : reading.IsTextOf text) :
    ofText? text.toList = some reading := by
  obtain ⟨before, cs, after, front, written, back, split⟩ := isText
  rw [split]
  exact ofText?_eq_some front written back

end Reading

end DocBlock.Json
