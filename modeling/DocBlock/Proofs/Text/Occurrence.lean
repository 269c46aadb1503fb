import DocBlock.Proofs.Text.Split
import DocBlock.Text.Occurrence
import Mathlib.Data.List.Pairwise

/-! How the occurrences of a form cut a text: into the occurrences themselves and gaps at no place
of which the form reads anything. Main statement: a form that takes something wherever it reads
cuts each text in one way, and its occurrences are those of this cut. -/

namespace DocBlock.Text

/-- The last character of a text, or the one before it where the text is empty. -/
def lastOf (before : Option Char) (cs : List Char) : Option Char :=
  cs.getLast?.or before

@[simp] theorem lastOf_nil (before : Option Char) : lastOf before [] = before := rfl

@[simp] theorem lastOf_cons (before : Option Char) (c : Char) (cs : List Char) :
    lastOf before (c :: cs) = lastOf (some c) cs := by
  cases cs with
  | nil => rfl
  | cons d cs => simp [lastOf, List.getLast?_cons]

theorem lastOf_append (before : Option Char) (left right : List Char) :
    lastOf before (left ++ right) = lastOf (lastOf before left) right := by
  simp only [lastOf, List.getLast?_append, Option.or_assoc]

variable {α : Type} {form : Form α}

/-- Wherever the form reads, it takes something from the head on. -/
def Form.Consumes (form : Form α) : Prop :=
  ∀ before cs found rest, form before cs = some (found, rest) →
    ∃ taken, taken ≠ [] ∧ taken ++ rest = cs

/-- At no place of the gap does the form read, with the given text after the gap. -/
def Form.Skips (form : Form α) (before : Option Char) (gap rest : List Char) : Prop :=
  ∀ left right, left ++ right = gap → right ≠ [] → form (lastOf before left) (right ++ rest) = none

theorem Form.skips_nil (before : Option Char) (rest : List Char) : form.Skips before [] rest := by
  intro left right split present
  exact absurd (List.append_eq_nil_iff.mp split).2 present

theorem Form.skips_cons {before : Option Char} {c : Char} {gap rest : List Char} :
    form.Skips before (c :: gap) rest ↔
      form before (c :: (gap ++ rest)) = none ∧ form.Skips (some c) gap rest := by
  constructor
  · intro skips
    refine ⟨skips [] (c :: gap) rfl (by simp), ?_⟩
    intro left right split present
    have later := skips (c :: left) right (by simp [split]) present
    rwa [lastOf_cons] at later
  · rintro ⟨first, later⟩ left right split present
    cases left with
    | nil =>
        rw [List.nil_append] at split
        rw [split, lastOf_nil, List.cons_append]
        exact first
    | cons d left =>
        rw [List.cons_append, List.cons.injEq] at split
        obtain ⟨rfl, equal⟩ := split
        rw [lastOf_cons]
        exact later left right equal present

theorem Form.skips_append {before : Option Char} {left right rest : List Char} :
    form.Skips before (left ++ right) rest ↔
      form.Skips before left (right ++ rest) ∧ form.Skips (lastOf before left) right rest := by
  induction left generalizing before with
  | nil => simp [Form.skips_nil]
  | cons c left ih =>
      rw [List.cons_append, Form.skips_cons, Form.skips_cons, ih, lastOf_cons, List.append_assoc,
        and_assoc]

/-- The cuts of a text that follows a character at an offset, with the occurrences they leave. -/
inductive Cut (form : Form α) : Option Char → Nat → List Char → List (Nat × α) → Prop
  | gap {before : Option Char} {offset : Nat} {gap : List Char} :
      form.Skips before gap [] → Cut form before offset gap []
  | found {before : Option Char} {offset : Nat} {gap taken rest : List Char} {found : α}
      {later : List (Nat × α)} :
      form.Skips before gap (taken ++ rest) → taken ≠ [] →
      form (lastOf before gap) (taken ++ rest) = some (found, rest) →
      Cut form (lastOf before (gap ++ taken)) (offset + byteLength (gap ++ taken)) rest later →
      Cut form before offset (gap ++ (taken ++ rest)) ((offset + byteLength gap, found) :: later)

theorem Cut.cons {before : Option Char} {offset : Nat} {c : Char} {cs : List Char}
    {found : List (Nat × α)} (first : form before (c :: cs) = none)
    (cut : Cut form (some c) (offset + c.utf8Size) cs found) :
    Cut form before offset (c :: cs) found := by
  cases cut with
  | gap skips =>
      rw [← List.append_nil cs] at first
      exact .gap (Form.skips_cons.mpr ⟨first, skips⟩)
  | @found _ _ gap taken rest found later skips present read cut =>
      have start : offset + c.utf8Size + byteLength gap = offset + byteLength (c :: gap) := by
        rw [byteLength_cons, Nat.add_assoc]
      have stop : offset + c.utf8Size + byteLength (gap ++ taken) =
          offset + byteLength (c :: gap ++ taken) := by
        rw [List.cons_append, byteLength_cons, Nat.add_assoc]
      rw [start]
      rw [stop] at cut
      exact .found (Form.skips_cons.mpr ⟨first, skips⟩) present (by rwa [lastOf_cons])
        (by rwa [List.cons_append, lastOf_cons])

theorem occurrencesFrom_skip (before : Option Char) (offset : Nat) (taken rest : List Char) :
    occurrencesFrom form before taken.length offset (taken ++ rest) =
      occurrencesFrom form (lastOf before taken) 0 (offset + byteLength taken) rest := by
  induction taken generalizing before offset with
  | nil => rfl
  | cons c taken ih =>
      rw [List.length_cons, List.cons_append, occurrencesFrom, ih, lastOf_cons, byteLength_cons,
        Nat.add_assoc]

theorem occurrencesFrom_of_found {before : Option Char} {taken rest : List Char} {found : α}
    (present : taken ≠ []) (read : form before (taken ++ rest) = some (found, rest))
    (offset : Nat) :
    occurrencesFrom form before 0 offset (taken ++ rest) =
      (offset, found) ::
        occurrencesFrom form (lastOf before taken) 0 (offset + byteLength taken) rest := by
  obtain ⟨c, taken, rfl⟩ := List.exists_cons_of_ne_nil present
  have length : (taken ++ rest).length - rest.length = taken.length := by simp
  rw [List.cons_append] at read ⊢
  rw [occurrencesFrom, read, lastOf_cons, byteLength_cons, ← Nat.add_assoc]
  simp only [length, occurrencesFrom_skip]

theorem occurrencesFrom_of_skips {before : Option Char} {gap rest : List Char}
    (skips : form.Skips before gap rest) (offset : Nat) :
    occurrencesFrom form before 0 offset (gap ++ rest) =
      occurrencesFrom form (lastOf before gap) 0 (offset + byteLength gap) rest := by
  induction gap generalizing before offset with
  | nil => rfl
  | cons c gap ih =>
      obtain ⟨first, later⟩ := Form.skips_cons.mp skips
      rw [List.cons_append, occurrencesFrom, first, lastOf_cons, byteLength_cons, ← Nat.add_assoc]
      exact ih later (offset + c.utf8Size)

theorem cut_occurrencesFrom (consumes : form.Consumes) (before : Option Char) (offset : Nat)
    (cs : List Char) : Cut form before offset cs (occurrencesFrom form before 0 offset cs) := by
  -- A found occurrence may take many characters, so the induction is on the length.
  induction length : cs.length using Nat.strongRecOn generalizing before offset cs with
  | _ n ih =>
      cases cs with
      | nil => exact .gap (Form.skips_nil before [])
      | cons c cs =>
          cases read : form before (c :: cs) with
          | none =>
              rw [occurrencesFrom, read]
              rw [List.length_cons] at length
              exact .cons read (ih cs.length (by omega) _ _ _ rfl)
          | some result =>
              obtain ⟨found, rest⟩ := result
              obtain ⟨taken, present, split⟩ := consumes before (c :: cs) found rest read
              rw [← split] at read length ⊢
              rw [occurrencesFrom_of_found present read]
              have shorter : rest.length < n := by
                have positive := List.length_pos_iff.mpr present
                rw [List.length_append] at length
                omega
              have later := ih rest.length shorter (lastOf before taken)
                (offset + byteLength taken) rest rfl
              exact @Cut.found _ _ _ _ [] _ _ _ _ (Form.skips_nil before _) present read later

theorem Cut.occurrencesFrom_eq {before : Option Char} {offset : Nat} {cs : List Char}
    {found : List (Nat × α)} (cut : Cut form before offset cs found) :
    occurrencesFrom form before 0 offset cs = found := by
  induction cut with
  | @gap before offset gap skips =>
      have passed := occurrencesFrom_of_skips skips offset
      rwa [List.append_nil] at passed
  | @found before offset gap taken rest found later skips present read cut ih =>
      rw [occurrencesFrom_of_skips skips, occurrencesFrom_of_found present read, ← lastOf_append,
        Nat.add_assoc, ← byteLength_append, ih]

theorem Cut.mem {before : Option Char} {offset start : Nat} {cs : List Char}
    {found : List (Nat × α)} {item : α} (cut : Cut form before offset cs found)
    (member : (start, item) ∈ found) :
    ∃ left right, left ++ right = cs ∧ start = offset + byteLength left ∧
      ∃ rest, form (lastOf before left) right = some (item, rest) := by
  induction cut with
  | gap => contradiction
  | @found before offset gap taken rest found later skips present read cut ih =>
      rcases List.mem_cons.mp member with equal | member
      · obtain ⟨rfl, rfl⟩ := Prod.mk.inj equal
        exact ⟨gap, taken ++ rest, rfl, rfl, rest, read⟩
      · obtain ⟨left, right, rfl, rfl, further⟩ := ih member
        refine ⟨gap ++ taken ++ left, right, ?_, ?_, ?_⟩
        · simp only [List.append_assoc]
        · rw [byteLength_append (gap ++ taken), Nat.add_assoc]
        · rwa [lastOf_append]

theorem Cut.le_of_mem {before : Option Char} {offset start : Nat} {cs : List Char}
    {found : List (Nat × α)} {item : α} (cut : Cut form before offset cs found)
    (member : (start, item) ∈ found) : offset ≤ start := by
  obtain ⟨left, _, _, rfl, _⟩ := cut.mem member
  omega

/-- The form takes as many bytes as what it reads measures. -/
def Form.Takes (form : Form α) (size : α → Nat) : Prop :=
  ∀ before taken rest found, form before (taken ++ rest) = some (found, rest) →
    byteLength taken = size found

theorem Cut.pairwise {size : α → Nat} (takes : form.Takes size) {before : Option Char}
    {offset : Nat} {cs : List Char} {found : List (Nat × α)}
    (cut : Cut form before offset cs found) :
    found.Pairwise fun first second => first.1 + size first.2 ≤ second.1 := by
  induction cut with
  | gap => exact List.Pairwise.nil
  | @found before offset gap taken rest found later skips present read cut ih =>
      refine List.Pairwise.cons ?_ ih
      rintro ⟨start, item⟩ member
      have after := cut.le_of_mem member
      rwa [byteLength_append, takes _ _ _ _ read, ← Nat.add_assoc] at after

/-- Two occurrences are one and the same, or one ends before the other begins. -/
theorem Cut.eq_or_apart {size : α → Nat} (takes : form.Takes size) {before : Option Char}
    {offset : Nat} {cs : List Char} {found : List (Nat × α)} (cut : Cut form before offset cs found)
    {first second : Nat × α} (firstFound : first ∈ found) (secondFound : second ∈ found) :
    first = second ∨ first.1 + size first.2 ≤ second.1 ∨ second.1 + size second.2 ≤ first.1 := by
  let Apart (left right : Nat × α) : Prop :=
    left.1 + size left.2 ≤ right.1 ∨ right.1 + size right.2 ≤ left.1
  have symmetric : Std.Symm Apart := ⟨fun _ _ => Or.symm⟩
  have apart : found.Pairwise Apart := (cut.pairwise takes).imp Or.inl
  by_cases same : first = second
  · exact Or.inl same
  · exact Or.inr (apart.forall firstFound secondFound same)

/-- Wherever the form reads, an occurrence begins or one that began before is not yet over. -/
theorem Cut.covers {size : α → Nat} (takes : form.Takes size) {before : Option Char}
    {offset : Nat} {cs : List Char} {found : List (Nat × α)}
    (cut : Cut form before offset cs found) {left right : List Char} (split : left ++ right = cs)
    (present : right ≠ []) (reads : form (lastOf before left) right ≠ none) :
    ∃ start item, (start, item) ∈ found ∧ start ≤ offset + byteLength left ∧
      offset + byteLength left < start + size item := by
  induction cut generalizing left with
  | @gap before offset gap skips =>
      have missing := skips left right split present
      rw [List.append_nil] at missing
      exact absurd missing reads
  | @found before offset gap taken rest found later skips nonempty read cut ih =>
      rcases append_cases split with ⟨within, inside, rfl, rfl⟩ | ⟨beyond, rfl, remaining⟩
      · exact absurd (skips left within rfl inside) reads
      · rcases append_cases remaining with ⟨inside, unfinished, rfl, rfl⟩ | ⟨past, rfl, rfl⟩
        · have measured := takes _ _ _ _ read
          have positive := byteLength_pos unfinished
          rw [byteLength_append] at measured
          refine ⟨_, found, List.mem_cons_self, ?_, ?_⟩
          · rw [byteLength_append]
            omega
          · rw [byteLength_append]
            omega
        · rw [← List.append_assoc, lastOf_append] at reads
          obtain ⟨start, item, member, first, last⟩ := ih rfl reads
          refine ⟨start, item, List.mem_cons_of_mem _ member, ?_, ?_⟩
          · simp only [byteLength_append] at first ⊢
            omega
          · simp only [byteLength_append] at last ⊢
            omega

/-- A form that reads what another reads, seen through a map, has the same occurrences through it. -/
theorem occurrencesFrom_map {β : Type} {image : Form β} {view : α → β}
    (same : ∀ before cs, image before cs =
      (form before cs).map fun (found, rest) => (view found, rest))
    (before : Option Char) (skip offset : Nat) (cs : List Char) :
    occurrencesFrom image before skip offset cs =
      (occurrencesFrom form before skip offset cs).map fun (start, found) => (start, view found) := by
  induction cs generalizing before skip offset with
  | nil => rfl
  | cons c cs ih =>
      cases skip with
      | succ skip => exact ih (some c) skip (offset + c.utf8Size)
      | zero =>
          rw [occurrencesFrom, occurrencesFrom, same]
          cases form before (c :: cs) with
          | none => exact ih (some c) 0 (offset + c.utf8Size)
          | some read =>
              exact congrArg ((offset, view read.1) :: ·)
                (ih (some c) (cs.length - read.2.length) (offset + c.utf8Size))

/-- Each occurrence is read off some place of the text. -/
theorem exists_read_of_mem {before : Option Char} {skip offset start : Nat} {cs : List Char}
    {item : α} (member : (start, item) ∈ occurrencesFrom form before skip offset cs) :
    ∃ preceding left right rest, left ++ right = cs ∧ form preceding right = some (item, rest) := by
  induction cs generalizing before skip offset with
  | nil => contradiction
  | cons c cs ih =>
      have later {preceding : Option Char} {inner further : Nat}
          (inside : (start, item) ∈ occurrencesFrom form preceding inner further cs) :
          ∃ preceding left right rest, left ++ right = c :: cs ∧
            form preceding right = some (item, rest) := by
        obtain ⟨place, left, right, rest, rfl, read⟩ := ih inside
        exact ⟨place, c :: left, right, rest, rfl, read⟩
      cases skip with
      | succ skip => exact later member
      | zero =>
          unfold occurrencesFrom at member
          split at member
          · rename_i found rest read
            rcases List.mem_cons.mp member with equal | inside
            · obtain ⟨rfl, rfl⟩ := Prod.mk.inj equal
              exact ⟨before, [], c :: cs, rest, rfl, read⟩
            · exact later inside
          · exact later member

/-- Whatever stands before, the form reads these items off the text. -/
def Form.Yields (form : Form α) (cs : List Char) (items : List α) : Prop :=
  ∀ before offset, (occurrencesFrom form before 0 offset cs).map Prod.snd = items

theorem Form.yields_nil : form.Yields [] [] := by
  intro before offset
  rfl

theorem Form.yields_found {taken rest : List Char} {found : α} {items : List α}
    (present : taken ≠ []) (read : ∀ before, form before (taken ++ rest) = some (found, rest))
    (later : form.Yields rest items) : form.Yields (taken ++ rest) (found :: items) := by
  intro before offset
  rw [occurrencesFrom_of_found present (read before), List.map_cons, later]

theorem Form.yields_skip {gap rest : List Char} {items : List α}
    (skips : ∀ before, form.Skips before gap rest) (later : form.Yields rest items) :
    form.Yields (gap ++ rest) items := by
  intro before offset
  rw [occurrencesFrom_of_skips (skips before), later]

/-- Texts that are each read before whatever may follow them are read one after the other, as each of
them may follow as well. -/
theorem Form.yields_flatMap {β : Type} {print : β → List Char} {read : β → List α}
    {Follows : List Char → Prop} {items : List β} {rest : List Char} {later : List α}
    (begins : ∀ item ∈ items, ∀ rest, Follows rest → Follows (print item ++ rest))
    (reads : ∀ item ∈ items, ∀ rest later, Follows rest → form.Yields rest later →
      form.Yields (print item ++ rest) (read item ++ later))
    (ends : Follows rest) (yields : form.Yields rest later) :
    Follows (items.flatMap print ++ rest) ∧
      form.Yields (items.flatMap print ++ rest) (items.flatMap read ++ later) := by
  induction items with
  | nil => exact ⟨ends, yields⟩
  | cons item items ih =>
      rw [List.forall_mem_cons] at begins reads
      obtain ⟨follows, yieldsAfter⟩ := ih begins.2 reads.2
      simp only [List.flatMap_cons, List.append_assoc]
      exact ⟨begins.1 _ follows, reads.1 _ _ follows yieldsAfter⟩

end DocBlock.Text
