import DocBlock.Proofs.Json.Grammar

/-! What the reader of JSON texts accepts. Main statement: a text is read as a value exactly if the
grammar derives it from that value, with nothing but space around it. -/

namespace DocBlock.Json

/-- What is skipped is space. -/
theorem skipSpace_split (cs : List Char) : ∃ space, AllSpace space ∧ cs = space ++ skipSpace cs :=
  ⟨cs.takeWhile isSpace, fun _ member => List.mem_takeWhile_imp member,
    List.takeWhile_append_dropWhile.symm⟩

theorem written_of_letters? {letters : List Letter} {cs rest : List Char}
    (read : letters? cs = some (letters, rest)) :
    ∃ text, LettersWritten letters text ∧ cs = text ++ '"' :: rest := by
  -- By the cases of the reader: the end of the text, the closing quote, a code escape, a short
  -- escape, and a character that is forbidden or stands for itself.
  induction cs using letters?.induct generalizing letters with
  | case1 => contradiction
  | case2 =>
      obtain ⟨rfl, rfl⟩ := Prod.mk.inj (Option.some.inj read)
      exact ⟨[], .nil, rfl⟩
  | case3 a b c d cs ih =>
      simp only [letters?, Option.bind_eq_bind, Option.bind_eq_some_iff, Option.pure_def,
        Option.some.injEq, Prod.mk.injEq] at read
      obtain ⟨letter, code, ⟨others, after⟩, inner, rfl, rfl⟩ := read
      obtain ⟨text, written, rfl⟩ := ih inner
      exact ⟨_, .cons (.code code) written, rfl⟩
  | case4 c cs notCode ih =>
      rw [letters?.eq_4 c cs notCode] at read
      simp only [Option.bind_eq_bind, Option.bind_eq_some_iff, Option.pure_def,
        Option.some.injEq, Prod.mk.injEq] at read
      obtain ⟨letter, short, ⟨others, after⟩, inner, rfl, rfl⟩ := read
      obtain ⟨text, written, rfl⟩ := ih inner
      exact ⟨_, .cons (.short short) written, rfl⟩
  | case5 c cs notQuote notCode notShort escape =>
      rw [letters?.eq_5 c cs notQuote notCode notShort, if_pos escape] at read
      contradiction
  | case6 c cs notQuote notCode notShort plain ih =>
      rw [letters?.eq_5 c cs notQuote notCode notShort, if_neg plain] at read
      obtain ⟨⟨others, after⟩, inner, equal⟩ := Option.map_eq_some_iff.mp read
      obtain ⟨rfl, rfl⟩ := Prod.mk.inj equal
      obtain ⟨text, written, rfl⟩ := ih inner
      obtain ⟨notEscape, visible⟩ := not_or.mp plain
      exact ⟨_, .cons (.plain notQuote notEscape (Nat.le_of_not_lt visible)) written, rfl⟩

namespace Numeral

variable {cs digits rest : List Char}

theorem isWhole_of_whole? (read : whole? cs = some (digits, rest)) :
    IsWhole digits ∧ cs = digits ++ rest := by
  unfold whole? at read
  split at read
  · rename_i after zero
    obtain ⟨rfl, rfl⟩ := Prod.mk.inj (Option.some.inj read)
    exact ⟨Or.inl rfl, Text.after?_eq_some.mp zero⟩
  · rename_i noZero
    obtain ⟨isRun, _, rfl⟩ := Text.run?_eq_some_iff.mp read
    refine ⟨Or.inr ⟨isRun, ?_⟩, rfl⟩
    obtain ⟨c, tail, rfl, _⟩ := isRun.exists_cons
    intro zero
    obtain rfl : c = '0' := Option.some.inj zero
    rw [List.cons_append, Text.after?, if_pos rfl] at noZero
    contradiction

theorem isRun_of_fraction? (read : fraction? cs = some (digits, rest)) :
    Text.IsRun Char.isDigit digits ∧ cs = '.' :: (digits ++ rest) := by
  obtain ⟨after, point, run⟩ := Option.bind_eq_some_iff.mp read
  obtain ⟨isRun, _, rfl⟩ := Text.run?_eq_some_iff.mp run
  exact ⟨isRun, Text.after?_eq_some.mp point⟩

theorem eq_mark {after : List Char}
    (read : (Text.after? 'e' cs <|> Text.after? 'E' cs) = some after) :
    ∃ mark, (mark = 'e' ∨ mark = 'E') ∧ cs = mark :: after := by
  cases small : Text.after? 'e' cs with
  | some other =>
      rw [small] at read
      obtain rfl := Option.some.inj read
      exact ⟨_, Or.inl rfl, Text.after?_eq_some.mp small⟩
  | none =>
      rw [small] at read
      exact ⟨_, Or.inr rfl, Text.after?_eq_some.mp read⟩

theorem exponentWritten_of_exponent? {part : Bool × List Char}
    (read : exponent? cs = some (part, rest)) :
    Text.IsRun Char.isDigit part.2 ∧
      ∃ text, ExponentWritten (some part) text ∧ cs = text ++ rest := by
  obtain ⟨after, marked, read⟩ := Option.bind_eq_some_iff.mp read
  split at read
  rename_i negative unsigned sign
  simp only [Option.bind_eq_bind, Option.bind_eq_some_iff, Option.pure_def, Option.some.injEq,
    Prod.mk.injEq] at read
  obtain ⟨⟨digits, after⟩, run, rfl, rfl⟩ := read
  obtain ⟨isRun, _, rfl⟩ := Text.run?_eq_some_iff.mp run
  obtain ⟨mark, known, rfl⟩ := eq_mark marked
  refine ⟨isRun, ?_⟩
  split at sign
  · obtain ⟨rfl, rfl⟩ := Prod.mk.inj sign
    exact ⟨_, .negative known, rfl⟩
  · obtain ⟨rfl, rfl⟩ := Prod.mk.inj sign
    exact ⟨_, .positive known, rfl⟩
  · obtain ⟨rfl, rfl⟩ := Prod.mk.inj sign
    exact ⟨_, .unsigned known, rfl⟩

theorem written_of_unsigned? {negative : Bool} {numeral : Numeral}
    (read : unsigned? negative cs = some (numeral, rest)) :
    numeral.negative = negative ∧ numeral.WellFormed ∧
      ∃ exponent, ExponentWritten numeral.exponent exponent ∧
        cs = numeral.whole ++ (numeral.fractionText ++ (exponent ++ rest)) := by
  obtain ⟨⟨whole, afterWhole⟩, wholeRead, parts⟩ := Option.bind_eq_some_iff.mp read
  dsimp only at parts
  obtain ⟨isWhole, rfl⟩ := isWhole_of_whole? wholeRead
  -- The fraction and the exponent may each be missing, and then nothing is taken for it.
  split at parts
  · rename_i fraction afterFraction fractionRead
    obtain ⟨fractionRun, rfl⟩ := isRun_of_fraction? fractionRead
    split at parts
    · rename_i part after exponentRead
      obtain ⟨partRun, text, written, rfl⟩ := exponentWritten_of_exponent? exponentRead
      obtain ⟨rfl, rfl⟩ := Prod.mk.inj (Option.some.inj parts)
      exact ⟨rfl, ⟨isWhole, by simpa using fractionRun, by simpa using partRun⟩, text, written,
        by simp [fractionText]⟩
    · obtain ⟨rfl, rfl⟩ := Prod.mk.inj (Option.some.inj parts)
      exact ⟨rfl, ⟨isWhole, by simpa using fractionRun, by simp⟩, [], .missing,
        by simp [fractionText]⟩
  · split at parts
    · rename_i part after exponentRead
      obtain ⟨partRun, text, written, rfl⟩ := exponentWritten_of_exponent? exponentRead
      obtain ⟨rfl, rfl⟩ := Prod.mk.inj (Option.some.inj parts)
      exact ⟨rfl, ⟨isWhole, by simp, by simpa using partRun⟩, text, written, by simp [fractionText]⟩
    · obtain ⟨rfl, rfl⟩ := Prod.mk.inj (Option.some.inj parts)
      exact ⟨rfl, ⟨isWhole, by simp, by simp⟩, [], .missing, by simp [fractionText]⟩

theorem written_of_numeral? {numeral : Numeral} (read : numeral? cs = some (numeral, rest)) :
    ∃ text, numeral.Written text ∧ cs = text ++ rest := by
  cases cs with
  | nil => contradiction
  | cons c cs =>
      by_cases minus : c = '-'
      · subst minus
        rw [numeral?_minus] at read
        obtain ⟨sign, wellFormed, exponent, written, rfl⟩ := written_of_unsigned? read
        refine ⟨_, ⟨wellFormed, exponent, written, rfl⟩, ?_⟩
        simp [signText, sign]
      · rw [numeral?_of_ne minus] at read
        obtain ⟨sign, wellFormed, exponent, written, split⟩ := written_of_unsigned? read
        refine ⟨_, ⟨wellFormed, exponent, written, rfl⟩, ?_⟩
        simp [signText, sign, split]

end Numeral

namespace Reading

/-- The readers within so many steps accept only what the grammar derives. -/
structure AcceptsWithin (steps : Nat) : Prop where
  value : ∀ {reading : Reading} {cs rest : List Char}, value? steps cs = some (reading, rest) →
    ∃ text, Written reading text ∧ cs = text ++ rest
  items : ∀ {items : List Reading} {cs rest : List Char}, items? steps cs = some (items, rest) →
    ∃ text, ItemsWritten items text ∧ cs = text ++ ']' :: rest
  members : ∀ {members : List (List Letter × Reading)} {cs rest : List Char},
    members? steps cs = some (members, rest) →
      ∃ text, MembersWritten members text ∧ cs = text ++ '}' :: rest

theorem eq_of_word? {word : String} {value reading : Reading} {cs rest : List Char}
    (read : word? word value cs = some (reading, rest)) :
    reading = value ∧ cs = word.toList ++ rest := by
  obtain ⟨after, found, equal⟩ := Option.map_eq_some_iff.mp read
  obtain ⟨rfl, rfl⟩ := Prod.mk.inj equal
  exact ⟨rfl, (Text.isPrefixOf?_eq_some.mp found).symm⟩

theorem written_of_skipSpace {mark : Char} {cs rest : List Char}
    (read : Text.after? mark (skipSpace cs) = some rest) :
    ∃ space, AllSpace space ∧ cs = space ++ mark :: rest := by
  obtain ⟨space, allSpace, split⟩ := skipSpace_split cs
  rw [Text.after?_eq_some.mp read] at split
  exact ⟨space, allSpace, split⟩

section Steps

variable {steps : Nat} (within : AcceptsWithin steps) {cs rest : List Char}

include within

theorem written_of_value? {reading : Reading} (read : value? (steps + 1) cs = some (reading, rest)) :
    ∃ text, Written reading text ∧ cs = text ++ rest := by
  cases cs with
  | nil => contradiction
  | cons c cs =>
      rw [value?] at read
      split at read
      · rename_i brace
        subst brace
        split at read
        · rename_i closed
          obtain ⟨rfl, rfl⟩ := Prod.mk.inj (Option.some.inj read)
          obtain ⟨space, allSpace, rfl⟩ := written_of_skipSpace closed
          exact ⟨_, .emptyObject allSpace, by simp⟩
        · obtain ⟨⟨members, after⟩, inner, equal⟩ := Option.map_eq_some_iff.mp read
          obtain ⟨rfl, rfl⟩ := Prod.mk.inj equal
          obtain ⟨text, written, rfl⟩ := within.members inner
          exact ⟨_, .object written, by simp⟩
      split at read
      · rename_i bracket
        subst bracket
        split at read
        · rename_i closed
          obtain ⟨rfl, rfl⟩ := Prod.mk.inj (Option.some.inj read)
          obtain ⟨space, allSpace, rfl⟩ := written_of_skipSpace closed
          exact ⟨_, .emptyArray allSpace, by simp⟩
        · obtain ⟨⟨items, after⟩, inner, equal⟩ := Option.map_eq_some_iff.mp read
          obtain ⟨rfl, rfl⟩ := Prod.mk.inj equal
          obtain ⟨text, written, rfl⟩ := within.items inner
          exact ⟨_, .array written, by simp⟩
      split at read
      · rename_i quote
        subst quote
        obtain ⟨⟨letters, after⟩, inner, equal⟩ := Option.map_eq_some_iff.mp read
        obtain ⟨rfl, rfl⟩ := Prod.mk.inj equal
        obtain ⟨text, written, rfl⟩ := written_of_letters? inner
        exact ⟨_, .string written, by simp⟩
      split at read
      · obtain ⟨rfl, split⟩ := eq_of_word? read
        exact ⟨_, .null, split⟩
      split at read
      · obtain ⟨rfl, split⟩ := eq_of_word? read
        exact ⟨_, .yes, split⟩
      split at read
      · obtain ⟨rfl, split⟩ := eq_of_word? read
        exact ⟨_, .no, split⟩
      · obtain ⟨⟨numeral, after⟩, inner, equal⟩ := Option.map_eq_some_iff.mp read
        obtain ⟨rfl, rfl⟩ := Prod.mk.inj equal
        obtain ⟨text, written, split⟩ := Numeral.written_of_numeral? inner
        exact ⟨_, .number written, split⟩

theorem written_of_items? {items : List Reading}
    (read : items? (steps + 1) cs = some (items, rest)) :
    ∃ text, ItemsWritten items text ∧ cs = text ++ ']' :: rest := by
  obtain ⟨front, frontSpace, split⟩ := skipSpace_split cs
  rw [items?] at read
  split at read
  · contradiction
  rename_i item afterItem itemRead
  obtain ⟨text, itemWritten, itemSplit⟩ := within.value itemRead
  obtain ⟨back, backSpace, backSplit⟩ := skipSpace_split afterItem
  rw [itemSplit, backSplit] at split
  split at read
  · contradiction
  rename_i c after marked
  rw [marked] at split
  split at read
  · rename_i comma
    subst comma
    obtain ⟨⟨others, end_⟩, inner, equal⟩ := Option.map_eq_some_iff.mp read
    obtain ⟨rfl, rfl⟩ := Prod.mk.inj equal
    obtain ⟨othersText, written, rfl⟩ := within.items inner
    exact ⟨_, .cons frontSpace itemWritten backSpace written, by simp [split]⟩
  split at read
  · rename_i bracket
    subst bracket
    obtain ⟨rfl, rfl⟩ := Prod.mk.inj (Option.some.inj read)
    exact ⟨_, .last frontSpace itemWritten backSpace, by simp [split]⟩
  · contradiction

theorem written_of_members? {members : List (List Letter × Reading)}
    (read : members? (steps + 1) cs = some (members, rest)) :
    ∃ text, MembersWritten members text ∧ cs = text ++ '}' :: rest := by
  rw [members?] at read
  split at read
  · contradiction
  rename_i key afterKey keyRead
  obtain ⟨opened, quote, lettersRead⟩ := Option.bind_eq_some_iff.mp keyRead
  obtain ⟨front, frontSpace, rfl⟩ := written_of_skipSpace quote
  obtain ⟨spelled, keyWritten, rfl⟩ := written_of_letters? lettersRead
  split at read
  · contradiction
  rename_i value afterValue valueRead
  obtain ⟨afterColon, colon, inner⟩ := Option.bind_eq_some_iff.mp valueRead
  obtain ⟨space, spaceSpace, rfl⟩ := written_of_skipSpace colon
  obtain ⟨gap, gapSpace, gapSplit⟩ := skipSpace_split afterColon
  obtain ⟨text, valueWritten, valueSplit⟩ := within.value inner
  obtain ⟨back, backSpace, backSplit⟩ := skipSpace_split afterValue
  rw [valueSplit, backSplit] at gapSplit
  have member := MemberWritten.intro frontSpace keyWritten spaceSpace gapSpace valueWritten backSpace
  split at read
  · contradiction
  rename_i c after marked
  rw [marked] at gapSplit
  split at read
  · rename_i comma
    subst comma
    obtain ⟨⟨others, end_⟩, inner, equal⟩ := Option.map_eq_some_iff.mp read
    obtain ⟨rfl, rfl⟩ := Prod.mk.inj equal
    obtain ⟨othersText, written, rfl⟩ := within.members inner
    exact ⟨_, .cons member written, by simp [gapSplit]⟩
  split at read
  · rename_i brace
    subst brace
    obtain ⟨rfl, rfl⟩ := Prod.mk.inj (Option.some.inj read)
    exact ⟨_, .last member, by simp [gapSplit]⟩
  · contradiction

end Steps

theorem acceptsWithin (steps : Nat) : AcceptsWithin steps := by
  induction steps with
  | zero =>
      constructor <;>
        · intro _ _ _ read
          contradiction
  | succ steps within =>
      exact ⟨written_of_value? within, written_of_items? within, written_of_members? within⟩

/-- A text is read as a value exactly if it holds that value with nothing but space around it. -/
theorem isTextOf_iff {reading : Reading} {text : String} :
    reading.IsTextOf text ↔ ofText? text.toList = some reading := by
  refine ⟨IsTextOf.ofText?_eq, fun read => ?_⟩
  obtain ⟨before, front, split⟩ := skipSpace_split text.toList
  unfold ofText? at read
  split at read
  · rename_i value rest valueRead
    split at read
    · rename_i ended
      obtain rfl := Option.some.inj read
      obtain ⟨cs, written, valueSplit⟩ := (acceptsWithin _).value valueRead
      obtain ⟨after, back, afterSplit⟩ := skipSpace_split rest
      rw [ended, List.append_nil] at afterSplit
      subst afterSplit
      rw [valueSplit] at split
      exact ⟨before, cs, rest, front, written, back, split⟩
    · contradiction
  · contradiction

end Reading

end DocBlock.Json
