import DocBlock.Json.Evaluation
import DocBlock.Proofs.Text.Run

/-! The grammar of JSON numbers. Main statements: a number is read in any of its spellings where
nothing after it could go on with it, and numbers are written in one of them. -/

namespace DocBlock.Json

/-- Characters that may go on with a number. -/
def continuesNumber (c : Char) : Bool :=
  c.isDigit || c == '.' || c == 'e' || c == 'E'

namespace Numeral

/-- A zero alone, or digits that begin with none. -/
def IsWhole (digits : List Char) : Prop :=
  digits = ['0'] ∨ Text.IsRun Char.isDigit digits ∧ digits.head? ≠ some '0'

structure WellFormed (numeral : Numeral) : Prop where
  whole : IsWhole numeral.whole
  fraction : ∀ digits ∈ numeral.fraction, Text.IsRun Char.isDigit digits
  exponent : ∀ part ∈ numeral.exponent, Text.IsRun Char.isDigit part.2

/-- The spellings of an exponent: its mark in either case, and a plus sign or none. -/
inductive ExponentWritten : Option (Bool × List Char) → List Char → Prop
  | missing : ExponentWritten none []
  | unsigned {mark : Char} {digits : List Char} : mark = 'e' ∨ mark = 'E' →
      ExponentWritten (some (false, digits)) (mark :: digits)
  | positive {mark : Char} {digits : List Char} : mark = 'e' ∨ mark = 'E' →
      ExponentWritten (some (false, digits)) (mark :: '+' :: digits)
  | negative {mark : Char} {digits : List Char} : mark = 'e' ∨ mark = 'E' →
      ExponentWritten (some (true, digits)) (mark :: '-' :: digits)

def signText (numeral : Numeral) : List Char :=
  if numeral.negative then ['-'] else []

def fractionText (numeral : Numeral) : List Char :=
  numeral.fraction.elim [] ('.' :: ·)

/-- The spellings of a number. -/
structure Written (numeral : Numeral) (text : List Char) : Prop where
  wellFormed : numeral.WellFormed
  spelled : ∃ exponent, ExponentWritten numeral.exponent exponent ∧
    text = numeral.signText ++ (numeral.whole ++ (numeral.fractionText ++ exponent))

theorem IsWhole.isRun {digits : List Char} (isWhole : IsWhole digits) :
    Text.IsRun Char.isDigit digits := by
  rcases isWhole with rfl | ⟨isRun, _⟩
  · decide
  · exact isRun

theorem Written.eq_cons {numeral : Numeral} {text : List Char} (written : numeral.Written text) :
    ∃ c cs, text = c :: cs ∧ (c = '-' ∨ c.isDigit = true) := by
  obtain ⟨wellFormed, exponent, _, rfl⟩ := written
  obtain ⟨c, cs, equal, digit⟩ := wellFormed.whole.isRun.exists_cons
  rw [signText, equal]
  cases numeral.negative with
  | true => exact ⟨'-', _, rfl, Or.inl rfl⟩
  | false => exact ⟨c, _, rfl, Or.inr digit⟩

theorem whole?_append {digits rest : List Char} (isWhole : IsWhole digits)
    (stops : Text.Stops Char.isDigit rest) : whole? (digits ++ rest) = some (digits, rest) := by
  rcases isWhole with rfl | ⟨isRun, noZero⟩
  · rfl
  · obtain ⟨c, cs, rfl, _⟩ := isRun.exists_cons
    have other : c ≠ '0' := by simpa using noZero
    have read : Text.run? Char.isDigit (c :: cs ++ rest) = some (c :: cs, rest) :=
      Text.run?_eq_some_iff.mpr ⟨isRun, stops, rfl⟩
    have unread : Text.after? '0' (c :: cs ++ rest) = none := by
      rw [List.cons_append, Text.after?, if_neg other]
    rw [whole?, unread]
    exact read

theorem fraction?_append {numeral : Numeral} (wellFormed : numeral.WellFormed) {rest : List Char}
    (stops : Text.Stops (fun c => c.isDigit || c == '.') rest) :
    fraction? (numeral.fractionText ++ rest) = numeral.fraction.map fun digits => (digits, rest) := by
  cases present : numeral.fraction with
  | none =>
      rw [fractionText, present, Option.elim_none, List.nil_append, Option.map_none]
      cases rest with
      | nil => rfl
      | cons c cs =>
          have other : c ≠ '.' := by
            rintro rfl
            exact absurd (Text.stops_cons.mp stops) (by decide)
          rw [fraction?, Text.after?, if_neg other, Option.bind_none]
  | some digits =>
      have noDigit : Text.Stops Char.isDigit rest := by
        intro c first
        exact (Bool.or_eq_false_iff.mp (stops c first)).1
      rw [fractionText, present, Option.elim_some, List.cons_append, Option.map_some, fraction?,
        Text.after?, if_pos rfl, Option.bind_some]
      exact Text.run?_eq_some_iff.mpr ⟨wellFormed.fraction digits present, noDigit, rfl⟩

theorem after?_mark {mark : Char} (known : mark = 'e' ∨ mark = 'E') (cs : List Char) :
    (Text.after? 'e' (mark :: cs) <|> Text.after? 'E' (mark :: cs)) = some cs := by
  rcases known with rfl | rfl <;> rfl

theorem exponent?_append {numeral : Numeral} (wellFormed : numeral.WellFormed)
    {text rest : List Char} (written : ExponentWritten numeral.exponent text)
    (stops : Text.Stops continuesNumber rest) :
    exponent? (text ++ rest) = numeral.exponent.map fun exponent => (exponent, rest) := by
  have noDigit : Text.Stops Char.isDigit rest := by
    intro c first
    have stopped := stops c first
    simp only [continuesNumber, Bool.or_eq_false_iff] at stopped
    exact stopped.1.1.1
  have isRun := wellFormed.exponent
  generalize numeral.exponent = exponent at written isRun ⊢
  have read {negative : Bool} {digits : List Char} (present : exponent = some (negative, digits)) :
      Text.run? Char.isDigit (digits ++ rest) = some (digits, rest) :=
    Text.run?_eq_some_iff.mpr ⟨isRun _ present, noDigit, rfl⟩
  cases written with
  | missing =>
      cases rest with
      | nil => rfl
      | cons c cs =>
          have stopped := Text.stops_cons.mp stops
          simp only [continuesNumber, Bool.or_eq_false_iff, beq_eq_false_iff_ne] at stopped
          have small : Text.after? 'e' (c :: cs) = none := if_neg stopped.1.2
          have large : Text.after? 'E' (c :: cs) = none := if_neg stopped.2
          simp only [List.nil_append, exponent?, small, large]
          rfl
  | @unsigned mark digits known =>
      have run := read rfl
      obtain ⟨c, cs, rfl, digit⟩ := (isRun _ rfl).exists_cons
      rw [List.cons_append] at run
      have marked := after?_mark known (c :: (cs ++ rest))
      simp only [List.cons_append, exponent?, marked, Option.bind_eq_bind, Option.bind_some]
      -- A digit is no sign, so nothing is taken before the digits.
      split
      · rename_i sign
        rw [(List.cons.inj sign).1] at digit
        contradiction
      · rename_i sign
        rw [(List.cons.inj sign).1] at digit
        contradiction
      · rw [run]
        rfl
  | @positive mark digits known =>
      have marked := after?_mark known ('+' :: (digits ++ rest))
      simp only [List.cons_append, exponent?, marked, Option.bind_eq_bind, Option.bind_some, read rfl]
      rfl
  | @negative mark digits known =>
      have marked := after?_mark known ('-' :: (digits ++ rest))
      simp only [List.cons_append, exponent?, marked, Option.bind_eq_bind, Option.bind_some, read rfl]
      rfl

theorem stops_exponent {exponent : Option (Bool × List Char)} {text rest : List Char}
    (written : ExponentWritten exponent text) (stops : Text.Stops continuesNumber rest) :
    Text.Stops (fun c => c.isDigit || c == '.') (text ++ rest) := by
  have marked {mark : Char} (known : mark = 'e' ∨ mark = 'E') (cs : List Char) :
      Text.Stops (fun c => c.isDigit || c == '.') (mark :: cs ++ rest) := by
    rw [List.cons_append, Text.stops_cons]
    rcases known with rfl | rfl <;> decide
  cases written with
  | missing =>
      intro c first
      have stopped := stops c first
      simp only [continuesNumber, Bool.or_eq_false_iff] at stopped
      exact Bool.or_eq_false_iff.mpr stopped.1.1
  | unsigned known => exact marked known _
  | positive known => exact marked known _
  | negative known => exact marked known _

theorem stops_fractionText (numeral : Numeral) {rest : List Char}
    (stops : Text.Stops (fun c => c.isDigit || c == '.') rest) :
    Text.Stops Char.isDigit (numeral.fractionText ++ rest) := by
  cases present : numeral.fraction with
  | none =>
      rw [fractionText, present, Option.elim_none, List.nil_append]
      intro c first
      exact (Bool.or_eq_false_iff.mp (stops c first)).1
  | some digits =>
      rw [fractionText, present, Option.elim_some, List.cons_append]
      exact Text.stops_cons.mpr (by decide)

/-- What is read of a number after its sign. -/
def unsigned? (negative : Bool) (cs : List Char) : Option (Numeral × List Char) := do
  let (whole, afterWhole) ← whole? cs
  let (fraction, afterFraction) :=
    match fraction? afterWhole with
    | some (digits, rest) => (some digits, rest)
    | none => (none, afterWhole)
  let (exponent, rest) :=
    match exponent? afterFraction with
    | some (exponent, rest) => (some exponent, rest)
    | none => (none, afterFraction)
  return (⟨negative, whole, fraction, exponent⟩, rest)

theorem numeral?_minus (cs : List Char) : numeral? ('-' :: cs) = unsigned? true cs := rfl

theorem numeral?_of_ne {c : Char} (other : c ≠ '-') (cs : List Char) :
    numeral? (c :: cs) = unsigned? false (c :: cs) := by
  unfold numeral?
  dsimp only
  split
  · rename_i sign
    exact absurd (List.cons.inj sign).1 other
  · rfl

theorem unsigned?_append {numeral : Numeral} (wellFormed : numeral.WellFormed)
    {exponent rest : List Char} (written : ExponentWritten numeral.exponent exponent)
    (stops : Text.Stops continuesNumber rest) :
    unsigned? numeral.negative (numeral.whole ++ (numeral.fractionText ++ (exponent ++ rest))) =
      some (numeral, rest) := by
  have wholeRead := whole?_append wellFormed.whole
    (numeral.stops_fractionText (stops_exponent written stops))
  have fractionRead := fraction?_append wellFormed (stops_exponent written stops)
  have exponentRead := exponent?_append wellFormed written stops
  obtain ⟨negative, whole, fraction, part⟩ := numeral
  have unwritten : part = none → exponent = [] := by
    rintro rfl
    cases written
    rfl
  cases fraction <;> cases part <;>
    simp_all [unsigned?, fractionText]

/-- A number is read to its end, whatever spelling its exponent has. -/
theorem numeral?_append {numeral : Numeral} {text rest : List Char} (written : numeral.Written text)
    (stops : Text.Stops continuesNumber rest) : numeral? (text ++ rest) = some (numeral, rest) := by
  obtain ⟨wellFormed, exponent, spelled, rfl⟩ := written
  have unsigned := unsigned?_append wellFormed spelled stops
  obtain ⟨c, cs, equal, digit⟩ := wellFormed.whole.isRun.exists_cons
  rw [List.append_assoc, List.append_assoc, List.append_assoc]
  cases sign : numeral.negative with
  | false =>
      have other : c ≠ '-' := by rintro rfl; contradiction
      rw [sign, equal, List.cons_append] at unsigned
      rw [signText, sign, if_neg (by decide), List.nil_append, equal, List.cons_append,
        numeral?_of_ne other, unsigned]
  | true =>
      rw [sign] at unsigned
      rw [signText, sign, if_pos rfl, List.singleton_append, numeral?_minus, unsigned]

theorem naturalOf_toDigits (n : Nat) : naturalOf (Nat.toDigits 10 n) = n :=
  Nat.ofDigitChars_ten_toDigits

theorem isRun_toDigits (n : Nat) : Text.IsRun Char.isDigit (Nat.toDigits 10 n) := by
  refine ⟨Nat.toDigits_ne_nil, ?_⟩
  intro c member
  exact Nat.isDigit_of_mem_toDigits (by decide) (by decide) member

theorem head?_append_of_isRun {digits : List Char} (isRun : Text.IsRun Char.isDigit digits)
    (rest : List Char) : (digits ++ rest).head? = digits.head? := by
  obtain ⟨c, cs, rfl, _⟩ := isRun.exists_cons
  rfl

theorem head_toDigits {n : Nat} (positive : n ≠ 0) : (Nat.toDigits 10 n).head? ≠ some '0' := by
  induction n using Nat.strongRecOn with
  | _ n ih =>
      rw [Nat.toDigits_eq_if (by decide)]
      split
      · rename_i small
        have digits : ∀ m < 10, m ≠ 0 → [Nat.digitChar m].head? ≠ some '0' := by decide
        exact digits n small positive
      · rename_i large
        have higher := ih (n / 10) (by omega) (by omega)
        rwa [head?_append_of_isRun (isRun_toDigits _)]

theorem isWhole_toDigits (n : Nat) : IsWhole (Nat.toDigits 10 n) := by
  by_cases zero : n = 0
  · exact Or.inl (by rw [zero, Nat.toDigits_zero])
  · exact Or.inr ⟨isRun_toDigits n, head_toDigits zero⟩

/-- Whole numbers have neither a fraction nor an exponent. -/
def ofInt (n : Int) : Numeral := ⟨n < 0, Nat.toDigits 10 n.natAbs, none, none⟩

theorem written_ofInt (n : Int) : (ofInt n).Written (integerText n) := by
  constructor
  · constructor
    · exact isWhole_toDigits n.natAbs
    · intro digits present
      contradiction
    · intro part present
      contradiction
  · refine ⟨[], .missing, ?_⟩
    by_cases negative : n < 0 <;> simp [ofInt, integerText, signText, fractionText, negative]

/-- The digits of a positional decimal before and after the point. -/
def ofPositional (digits : List Char) (exponent : Int) : List Char × List Char :=
  if 0 ≤ exponent then (digits ++ Decimal.zeros exponent.toNat, ['0'])
  else
    let places := (-exponent).toNat
    if places < digits.length then
      (digits.take (digits.length - places), digits.drop (digits.length - places))
    else (['0'], Decimal.zeros (places - digits.length) ++ digits)

def ofDecimal (number : Decimal) : Numeral :=
  let digits := Nat.toDigits 10 number.digits
  let power := Decimal.magnitude digits number.exponent
  if number.digits = 0 then ⟨number.negative, ['0'], some ['0'], none⟩
  else if -5 ≤ power ∧ power < 16 then
    let (whole, fraction) := ofPositional digits number.exponent
    ⟨number.negative, whole, some fraction, none⟩
  else
    ⟨number.negative, digits.take 1, if digits.length ≤ 1 then none else some (digits.drop 1),
      some (power < 0, Nat.toDigits 10 power.natAbs)⟩

section Digits

variable {digits : List Char} (isRun : Text.IsRun Char.isDigit digits)
  (noZero : digits.head? ≠ some '0')

include isRun

theorem isRun_append_zeros (n : Nat) : Text.IsRun Char.isDigit (digits ++ Decimal.zeros n) := by
  refine ⟨by simp [isRun.1], ?_⟩
  intro c member
  rcases List.mem_append.mp member with inDigits | inZeros
  · exact isRun.2 c inDigits
  · rw [List.eq_of_mem_replicate inZeros]
    decide

theorem isRun_zeros_append (n : Nat) : Text.IsRun Char.isDigit (Decimal.zeros n ++ digits) := by
  refine ⟨by simp [isRun.1], ?_⟩
  intro c member
  rcases List.mem_append.mp member with inZeros | inDigits
  · rw [List.eq_of_mem_replicate inZeros]
    decide
  · exact isRun.2 c inDigits

theorem isRun_drop {n : Nat} (more : n < digits.length) : Text.IsRun Char.isDigit (digits.drop n) := by
  refine ⟨?_, fun c member => isRun.2 c (List.mem_of_mem_drop member)⟩
  rw [ne_eq, List.drop_eq_nil_iff]
  omega

include noZero

theorem isWhole_take {n : Nat} (some_ : 0 < n) : IsWhole (digits.take n) := by
  obtain ⟨c, cs, rfl, digit⟩ := isRun.exists_cons
  obtain ⟨m, rfl⟩ : ∃ m, n = m + 1 := ⟨n - 1, by omega⟩
  refine Or.inr ⟨⟨List.cons_ne_nil _ _, ?_⟩, noZero⟩
  intro d member
  exact isRun.2 d (List.mem_of_mem_take member)

theorem ofPositional_isWhole (exponent : Int) : IsWhole (ofPositional digits exponent).1 ∧
    Text.IsRun Char.isDigit (ofPositional digits exponent).2 := by
  unfold ofPositional
  split
  · have single : Text.IsRun Char.isDigit ['0'] := by decide
    refine ⟨Or.inr ⟨isRun_append_zeros isRun _, ?_⟩, single⟩
    rwa [head?_append_of_isRun isRun]
  · rename_i fractional
    dsimp only
    split
    · rename_i within
      exact ⟨isWhole_take isRun noZero (by omega), isRun_drop isRun (by omega)⟩
    · exact ⟨Or.inl rfl, isRun_zeros_append isRun _⟩

end Digits

theorem positional_eq (digits : List Char) (exponent : Int) :
    Decimal.positional digits exponent =
      (ofPositional digits exponent).1 ++ '.' :: (ofPositional digits exponent).2 := by
  unfold Decimal.positional ofPositional
  split
  · rfl
  · dsimp only
    split <;> rfl

theorem exponentWritten_signed (power : Int) (digits : List Char) :
    ExponentWritten (some (power < 0, digits))
      ('e' :: (if power < 0 then '-' else '+') :: digits) := by
  by_cases small : power < 0
  · rw [if_pos small, decide_eq_true small]
    exact .negative (Or.inl rfl)
  · rw [if_neg small, decide_eq_false small]
    exact .positive (Or.inl rfl)

theorem signed_eq (negative : Bool) (text : List Char) :
    (if negative then '-' :: text else text) = (if negative then ['-'] else []) ++ text := by
  cases negative <;> rfl

theorem written_ofDecimal (number : Decimal) : (ofDecimal number).Written number.text := by
  have isRun := isRun_toDigits number.digits
  have single : Text.IsRun Char.isDigit ['0'] := by decide
  unfold ofDecimal Decimal.text
  dsimp only
  rw [signed_eq]
  split
  · refine ⟨⟨Or.inl rfl, ?_, ?_⟩, [], .missing, rfl⟩
    · rintro _ ⟨⟩
      exact single
    · rintro _ ⟨⟩
  · rename_i nonzero
    have noZero := head_toDigits nonzero
    split
    · obtain ⟨whole, fraction⟩ := ofPositional_isWhole isRun noZero number.exponent
      refine ⟨⟨whole, ?_, ?_⟩, [], .missing, ?_⟩
      · rintro _ ⟨⟩
        exact fraction
      · rintro _ ⟨⟩
      · rw [positional_eq, fractionText, signText, Option.elim_some, List.append_nil]
    · let power := Decimal.magnitude (Nat.toDigits 10 number.digits) number.exponent
      refine ⟨⟨isWhole_take isRun noZero (by decide), ?_, ?_⟩, _, exponentWritten_signed power _, ?_⟩
      · intro digits present
        dsimp only at present
        split at present
        · contradiction
        · obtain rfl := Option.some.inj present
          exact isRun_drop isRun (by omega)
      · rintro _ ⟨⟩
        exact isRun_toDigits power.natAbs
      · by_cases short : (Nat.toDigits 10 number.digits).length ≤ 1
        · simp only [Decimal.scientific, fractionText, signText, short, if_true, List.append_assoc]
          rfl
        · simp only [Decimal.scientific, fractionText, signText, short, if_false, List.append_assoc]
          rfl

end Numeral

end DocBlock.Json
