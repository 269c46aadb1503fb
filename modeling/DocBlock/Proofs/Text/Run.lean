import DocBlock.Text.Blank
import DocBlock.Text.Run
import DocBlock.Text.Word
import Mathlib.Data.List.TakeWhile

/-! Runs of one class of characters and where they end. Main statement: a reader of runs takes
exactly the runs after which no character of the class follows. -/

namespace DocBlock.Text

def AllBlank (cs : List Char) : Prop := ∀ c ∈ cs, isBlank c = true

instance (cs : List Char) : Decidable (AllBlank cs) :=
  decidable_of_iff (cs.all isBlank = true) (by simp [AllBlank])

theorem allBlank_nil : AllBlank [] := by decide

/-- Characters of the class only, and at least one. -/
def IsRun (isMember : Char → Bool) (run : List Char) : Prop :=
  run ≠ [] ∧ ∀ c ∈ run, isMember c = true

instance (isMember : Char → Bool) (run : List Char) : Decidable (IsRun isMember run) :=
  decidable_of_iff ((!run.isEmpty && run.all isMember) = true) (by simp [IsRun])

/-- No character of the class stands at the head. -/
def Stops (isMember : Char → Bool) (cs : List Char) : Prop :=
  ∀ c ∈ cs.head?, isMember c = false

variable {isMember : Char → Bool} {run rest : List Char}

@[simp] theorem stops_nil : Stops isMember [] := by
  intro c present
  cases present

@[simp] theorem stops_cons {c : Char} {cs : List Char} :
    Stops isMember (c :: cs) ↔ isMember c = false := by
  simp [Stops]

theorem stops_append_of_ne_nil {left right : List Char} (present : left ≠ []) :
    Stops isMember (left ++ right) ↔ Stops isMember left := by
  cases left with
  | nil => contradiction
  | cons c cs => simp

theorem IsRun.exists_cons (isRun : IsRun isMember run) :
    ∃ c cs, run = c :: cs ∧ isMember c = true := by
  obtain ⟨c, cs, rfl⟩ := List.exists_cons_of_ne_nil isRun.1
  exact ⟨c, cs, rfl, isRun.2 c List.mem_cons_self⟩

theorem IsRun.notMem {c : Char} (isRun : IsRun isMember run) (outside : isMember c = false) :
    c ∉ run := by
  intro member
  rw [isRun.2 c member] at outside
  contradiction

/-- A run stops every class that its own is apart from. -/
theorem IsRun.stops {isOther : Char → Bool} (isRun : IsRun isMember run)
    (apart : ∀ c, isMember c = true → isOther c = false) (rest : List Char) :
    Stops isOther (run ++ rest) := by
  obtain ⟨c, cs, rfl, member⟩ := isRun.exists_cons
  exact stops_cons.mpr (apart c member)

theorem stops_dropWhile (cs : List Char) : Stops isMember (cs.dropWhile isMember) := by
  intro c present
  have unmatched := List.head?_dropWhile_not isMember cs
  rw [Option.mem_def.mp present] at unmatched
  simpa using unmatched

theorem takeWhile_append_of_stops (members : ∀ c ∈ run, isMember c = true)
    (stops : Stops isMember rest) : (run ++ rest).takeWhile isMember = run := by
  rw [List.takeWhile_append_of_pos members]
  cases rest with
  | nil => simp
  | cons c cs => simp [stops_cons.mp stops]

theorem dropWhile_append_of_stops (members : ∀ c ∈ run, isMember c = true)
    (stops : Stops isMember rest) : (run ++ rest).dropWhile isMember = rest := by
  rw [List.dropWhile_append_of_pos members]
  cases rest with
  | nil => simp
  | cons c cs => simp [stops_cons.mp stops]

/-- A text begins with one run of a class only. -/
theorem append_inj_of_stops {other otherRest : List Char} (members : ∀ c ∈ run, isMember c = true)
    (otherMembers : ∀ c ∈ other, isMember c = true) (stops : Stops isMember rest)
    (otherStops : Stops isMember otherRest) (equal : run ++ rest = other ++ otherRest) :
    run = other ∧ rest = otherRest := by
  have taken : run = other := by
    calc
      run = (run ++ rest).takeWhile isMember := (takeWhile_append_of_stops members stops).symm
      _ = (other ++ otherRest).takeWhile isMember := by rw [equal]
      _ = other := takeWhile_append_of_stops otherMembers otherStops
  subst taken
  exact ⟨rfl, List.append_cancel_left equal⟩

/-- Dropping stops at a character outside the class at the latest. -/
theorem dropWhile_append_cons {front : List Char} {c : Char} (outside : isMember c = false) :
    (front ++ c :: rest).dropWhile isMember = front.dropWhile isMember ++ c :: rest := by
  rw [List.dropWhile_append]
  split
  · rename_i passed
    rw [List.isEmpty_iff.mp passed, List.dropWhile_cons_of_neg (by simp [outside]), List.nil_append]
  · rfl

theorem run?_eq_some_iff {cs : List Char} :
    run? isMember cs = some (run, rest) ↔
      IsRun isMember run ∧ Stops isMember rest ∧ run ++ rest = cs := by
  constructor
  · intro found
    obtain ⟨present, taken, dropped⟩ := run?_eq_some found
    refine ⟨⟨present, ?_⟩, ?_, append_of_run? found⟩
    · intro c member
      rw [taken] at member
      exact List.mem_takeWhile_imp member
    · rw [dropped]
      exact stops_dropWhile cs
  · rintro ⟨⟨present, members⟩, stops, rfl⟩
    have taken := takeWhile_append_of_stops members stops
    have dropped := dropWhile_append_of_stops members stops
    obtain ⟨c, tail, rfl⟩ := List.exists_cons_of_ne_nil present
    simp only [run?, taken, dropped]

theorem suffix_of_run? {cs : List Char} (found : run? isMember cs = some (run, rest)) :
    rest <:+ cs :=
  ⟨run, append_of_run? found⟩

theorem run?_eq_none_iff {cs : List Char} :
    run? isMember cs = none ↔ Stops isMember cs := by
  cases cs with
  | nil => simp [run?]
  | cons c cs => cases member : isMember c <;> simp [run?, member]

/-- Not empty, and without a blank at either end. -/
structure IsTrimmed (cs : List Char) : Prop where
  present : cs ≠ []
  front : Stops isBlank cs
  back : Stops isBlank cs.reverse

theorem trim_blank_append {lead text trail : List Char} (trimmed : IsTrimmed text)
    (leadBlank : AllBlank lead) (trailBlank : AllBlank trail) :
    trim (lead ++ (text ++ trail)) = text := by
  have front : Stops isBlank (text ++ trail) :=
    (stops_append_of_ne_nil trimmed.present).mpr trimmed.front
  have trailReversed : AllBlank trail.reverse := by
    intro c member
    exact trailBlank c (List.mem_reverse.mp member)
  rw [trim, dropWhile_append_of_stops leadBlank front, List.reverse_append,
    dropWhile_append_of_stops trailReversed trimmed.back, List.reverse_reverse]

theorem trailing_blanks {front blanks : List Char} {last : Char} (blank : AllBlank blanks)
    (ends : last ∈ front.getLast?) (solid : isBlank last = false) :
    (front ++ blanks).reverse.takeWhile isBlank = blanks.reverse := by
  rw [List.reverse_append]
  apply takeWhile_append_of_stops
  · intro c member
    exact blank c (List.mem_reverse.mp member)
  · intro c first
    rw [List.head?_reverse] at first
    obtain rfl := Option.mem_unique ends first
    exact solid

/-- The code points of all blanks. -/
def blankCodes : List Nat :=
  [9, 10, 11, 12, 13, 0x20, 0x85, 0xA0, 0x1680, 0x2000, 0x2001, 0x2002, 0x2003, 0x2004, 0x2005,
    0x2006, 0x2007, 0x2008, 0x2009, 0x200A, 0x2028, 0x2029, 0x202F, 0x205F, 0x3000]

theorem isBlank_iff_mem_blankCodes (c : Char) : isBlank c = true ↔ c.toNat ∈ blankCodes := by
  simp only [isBlank, blankCodes, Bool.or_eq_true, Bool.and_eq_true, decide_eq_true_eq,
    beq_iff_eq, List.mem_cons, List.not_mem_nil, or_false]
  omega

theorem isWord_eq_false_of_isBlank {c : Char} (blank : isBlank c = true) : isWord c = false := by
  have listed : ∀ n ∈ blankCodes, isWord (Char.ofNat n) = false := by decide +kernel
  have code := listed c.toNat ((isBlank_iff_mem_blankCodes c).mp blank)
  rwa [Char.ofNat_toNat] at code

theorem isBlank_eq_false_of_isWord {c : Char} (word : isWord c = true) : isBlank c = false := by
  cases blank : isBlank c with
  | false => rfl
  | true => exact absurd (isWord_eq_false_of_isBlank blank) (by simp [word])

end DocBlock.Text
