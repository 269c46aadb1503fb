import DocBlock.Proofs.Text.Occurrence
import DocBlock.Proofs.Text.Run
import Mathlib.Data.List.Forall2

/-! Texts with a carriage return before every line feed. Main statement: where a form reads such a
text as it reads the text without the returns, it finds the same occurrences at the same places. -/

namespace DocBlock.Text

/-- The text with a carriage return before every line feed. -/
def withReturns (cs : List Char) : List Char :=
  cs.flatMap fun c => if c = '\n' then ['\r', '\n'] else [c]

def returned (text : String) : String := .ofList (withReturns text.toList)

section Characters

variable {c : Char} {cs : List Char}

@[simp] theorem withReturns_nil : withReturns [] = [] := rfl

@[simp] theorem withReturns_append (left right : List Char) :
    withReturns (left ++ right) = withReturns left ++ withReturns right :=
  List.flatMap_append

@[simp] theorem withReturns_feed : withReturns ('\n' :: cs) = '\r' :: '\n' :: withReturns cs := rfl

theorem withReturns_cons (other : c ≠ '\n') : withReturns (c :: cs) = c :: withReturns cs := by
  simp [withReturns, other]

theorem map_cons_withReturns (other : c ≠ '\n') (found : Option (List Char)) :
    (found.map withReturns).map (c :: ·) = (found.map (c :: ·)).map withReturns := by
  cases found with
  | none => rfl
  | some cs => exact congrArg some (withReturns_cons other).symm

theorem withReturns_eq_self (plain : '\n' ∉ cs) : withReturns cs = cs := by
  induction cs with
  | nil => rfl
  | cons c cs ih =>
      rw [List.mem_cons, not_or] at plain
      rw [withReturns_cons (Ne.symm plain.1), ih plain.2]

theorem withReturns_eq_nil_iff : withReturns cs = [] ↔ cs = [] := by
  cases cs with
  | nil => simp
  | cons c cs =>
      by_cases feed : c = '\n'
      · subst feed
        simp
      · simp [withReturns_cons feed]

theorem head?_withReturns_iff (feed : c ≠ '\n') (ret : c ≠ '\r') :
    (withReturns cs).head? = some c ↔ cs.head? = some c := by
  cases cs with
  | nil => rfl
  | cons d cs =>
      by_cases line : d = '\n'
      · subst line
        simp [feed.symm, ret.symm]
      · rw [withReturns_cons line, List.head?_cons, List.head?_cons]

theorem toList_returned (text : String) : (returned text).toList = withReturns text.toList :=
  String.toList_ofList

theorem returned_ofList (cs : List Char) : returned (.ofList cs) = .ofList (withReturns cs) := by
  rw [returned, String.toList_ofList]

theorem count_feed_withReturns (cs : List Char) : (withReturns cs).count '\n' = cs.count '\n' := by
  induction cs with
  | nil => rfl
  | cons c cs ih =>
      by_cases feed : c = '\n'
      · subst feed
        rw [withReturns_feed, List.count_cons_of_ne (by decide), List.count_cons_self,
          List.count_cons_self, ih]
      · rw [withReturns_cons feed, List.count_cons_of_ne feed, List.count_cons_of_ne feed, ih]

theorem lastOf_withReturns (before : Option Char) (cs : List Char) :
    lastOf before (withReturns cs) = lastOf before cs := by
  induction cs generalizing before with
  | nil => rfl
  | cons c cs ih =>
      by_cases feed : c = '\n'
      · subst feed
        rw [withReturns_feed, lastOf_cons, lastOf_cons, lastOf_cons, ih]
      · rw [withReturns_cons feed, lastOf_cons, lastOf_cons, ih]

/-- Where a first reader commutes with a conversion and a second one after it, so do both in turn. -/
theorem map_bind_of_commutes {α β γ δ : Type} {read : Option α} {next : α → Option γ}
    {nextConverted : β → Option δ} {convert : α → β} {convertNext : γ → δ}
    (commutes : ∀ item, read = some item →
      nextConverted (convert item) = (next item).map convertNext) :
    (read.map convert).bind nextConverted = (read.bind next).map convertNext := by
  rw [Option.bind_map, Option.map_bind]
  exact Option.bind_congr commutes

end Characters

section Runs

variable {isMember : Char → Bool} {cs : List Char}

theorem takeWhile_withReturns (alike : isMember '\r' = isMember '\n') (cs : List Char) :
    (withReturns cs).takeWhile isMember = withReturns (cs.takeWhile isMember) := by
  induction cs with
  | nil => rfl
  | cons c cs ih =>
      by_cases feed : c = '\n'
      · subst feed
        cases member : isMember '\n' <;> simp [alike, member, ih]
      · cases member : isMember c <;> simp [withReturns_cons feed, member, ih]

theorem dropWhile_withReturns (alike : isMember '\r' = isMember '\n') (cs : List Char) :
    (withReturns cs).dropWhile isMember = withReturns (cs.dropWhile isMember) := by
  induction cs with
  | nil => rfl
  | cons c cs ih =>
      by_cases feed : c = '\n'
      · subst feed
        cases member : isMember '\n' <;> simp [alike, member, ih]
      · cases member : isMember c <;> simp [withReturns_cons feed, member, ih]

theorem run?_withReturns (alike : isMember '\r' = isMember '\n') (cs : List Char) :
    run? isMember (withReturns cs) =
      (run? isMember cs).map (Prod.map withReturns withReturns) := by
  have read (text : List Char) : run? isMember text =
      if text.takeWhile isMember = [] then none
      else some (text.takeWhile isMember, text.dropWhile isMember) := by
    rw [run?]
    cases text.takeWhile isMember <;> simp
  rw [read, read, takeWhile_withReturns alike, dropWhile_withReturns alike]
  by_cases empty : cs.takeWhile isMember = []
  · simp [empty]
  · have present : withReturns (cs.takeWhile isMember) ≠ [] := withReturns_eq_nil_iff.not.mpr empty
    simp [empty, present]

/-- A run of a class without line ends stays as it is. -/
theorem run?_withReturns_of_solid (feed : isMember '\n' = false) (ret : isMember '\r' = false)
    (cs : List Char) :
    run? isMember (withReturns cs) = (run? isMember cs).map (Prod.map id withReturns) := by
  rw [run?_withReturns (ret.trans feed.symm)]
  cases found : run? isMember cs with
  | none => rfl
  | some result =>
      obtain ⟨run, rest⟩ := result
      obtain ⟨isRun, _, _⟩ := run?_eq_some_iff.mp found
      have plain : '\n' ∉ run := by
        intro member
        rw [isRun.2 _ member] at feed
        contradiction
      simp [withReturns_eq_self plain]

theorem after?_withReturns {c : Char} (feed : c ≠ '\n') (ret : c ≠ '\r') (cs : List Char) :
    after? c (withReturns cs) = (after? c cs).map withReturns := by
  cases cs with
  | nil => rfl
  | cons d cs =>
      by_cases line : d = '\n'
      · subst line
        simp [after?, feed.symm, ret.symm]
      · rw [withReturns_cons line, after?, after?]
        split <;> rfl

theorem isPrefixOf?_withReturns {word : List Char} (feed : '\n' ∉ word) (ret : '\r' ∉ word)
    (cs : List Char) :
    word.isPrefixOf? (withReturns cs) = (word.isPrefixOf? cs).map withReturns := by
  induction word generalizing cs with
  | nil => rfl
  | cons c word ih =>
      rw [List.mem_cons, not_or] at feed ret
      cases cs with
      | nil => rfl
      | cons d cs =>
          by_cases line : d = '\n'
          · subst line
            simp [List.isPrefixOf?, Ne.symm ret.1, Ne.symm feed.1]
          · by_cases same : c = d
            · simp [withReturns_cons line, List.isPrefixOf?, same, ih feed.2 ret.2]
            · simp [withReturns_cons line, List.isPrefixOf?, same]

theorem reverse_dropWhile_withReturns (alike : isMember '\r' = isMember '\n') (cs : List Char) :
    ((withReturns cs).reverse.dropWhile isMember).reverse =
      withReturns (cs.reverse.dropWhile isMember).reverse := by
  -- What is dropped stands at the end, so the last character is taken off first.
  induction cs using List.reverseRecOn with
  | nil => rfl
  | append_singleton cs c ih =>
      by_cases feed : c = '\n'
      · subst feed
        cases member : isMember '\n' <;> simp [alike, member, ih]
      · cases member : isMember c <;> simp [withReturns_cons feed, member, ih]

theorem isBlank_return : isBlank '\r' = isBlank '\n' := by decide

theorem trim_withReturns (cs : List Char) : trim (withReturns cs) = withReturns (trim cs) := by
  rw [trim, trim, dropWhile_withReturns isBlank_return,
    reverse_dropWhile_withReturns isBlank_return]

end Runs

section Occurrences

variable {α : Type} {form : Form α} {convert : α → α} {Fits : List Char → Prop}

/-- The form reads a fitting text with returns as it reads the text without them, up to a conversion
of what it reads, and nothing from a line feed behind a return on. -/
structure Form.Carries (form : Form α) (Fits : List Char → Prop) (convert : α → α) : Prop where
  consumes : form.Consumes
  inherits : ∀ left right, Fits (left ++ right) → Fits right
  carries : ∀ before cs, Fits cs →
    form before (withReturns cs) = (form before cs).map (Prod.map convert withReturns)
  passes : ∀ cs, form (some '\r') ('\n' :: cs) = none

/-- The second occurrence is the first one, converted, at its place in the text with returns. -/
def Corresponds (form : Form α) (convert : α → α) (offset shifted : Nat) (cs : List Char)
    (first second : Nat × α) : Prop :=
  second.2 = convert first.2 ∧ ∃ before left right rest, left ++ right = cs ∧
    form before right = some (first.2, rest) ∧ first.1 = offset + byteLength left ∧
      second.1 = shifted + byteLength (withReturns left)

theorem Corresponds.append {offset shifted : Nat} {front cs : List Char} {first second : Nat × α}
    (corresponds : Corresponds form convert (offset + byteLength front)
      (shifted + byteLength (withReturns front)) cs first second) :
    Corresponds form convert offset shifted (front ++ cs) first second := by
  obtain ⟨converted, before, left, right, rest, rfl, read, start, shiftedStart⟩ := corresponds
  refine ⟨converted, before, front ++ left, right, rest, List.append_assoc _ _ _, read, ?_, ?_⟩
  · rw [start, byteLength_append, Nat.add_assoc]
  · rw [shiftedStart, withReturns_append, byteLength_append, Nat.add_assoc]

/-- A gap stays a gap, returns and all. -/
theorem Form.Carries.skips (carries : form.Carries Fits convert) {before : Option Char}
    {gap rest : List Char} (fits : Fits (gap ++ rest)) (skips : form.Skips before gap rest) :
    form.Skips before (withReturns gap) (withReturns rest) := by
  induction gap generalizing before with
  | nil => exact Form.skips_nil before _
  | cons c gap ih =>
      obtain ⟨first, later⟩ := Form.skips_cons.mp skips
      rw [List.cons_append] at fits
      have behind := ih (carries.inherits [c] (gap ++ rest) fits) later
      have unread : form before (withReturns (c :: (gap ++ rest))) = none := by
        rw [carries.carries before _ fits, first, Option.map_none]
      by_cases feed : c = '\n'
      · subst feed
        rw [withReturns_feed, withReturns_append] at unread
        exact Form.skips_cons.mpr ⟨unread, Form.skips_cons.mpr ⟨carries.passes _, behind⟩⟩
      · rw [withReturns_cons feed, withReturns_append] at unread
        rw [withReturns_cons feed]
        exact Form.skips_cons.mpr ⟨unread, behind⟩

/-- The returns shift the places of a cut and convert what is found there. -/
theorem Cut.withReturns (carries : form.Carries Fits convert) {before : Option Char}
    {offset shifted : Nat} {cs : List Char} {found : List (Nat × α)}
    (cut : Cut form before offset cs found) (fits : Fits cs) :
    ∃ converted, Cut form before shifted (withReturns cs) converted ∧
      List.Forall₂ (Corresponds form convert offset shifted cs) found converted := by
  induction cut generalizing shifted with
  | @gap before offset gap skips =>
      rw [← List.append_nil gap] at fits
      exact ⟨[], .gap (carries.skips fits skips), .nil⟩
  | @found before offset gap taken rest found later skips present read cut ih =>
      have fitsTaken := carries.inherits _ _ fits
      obtain ⟨converted, cutLater, correspond⟩ :=
        @ih (shifted + byteLength (Text.withReturns (gap ++ taken)))
          (carries.inherits _ _ fitsTaken)
      have skipped := carries.skips fits skips
      have reads := carries.carries (lastOf before gap) _ fitsTaken
      rw [read, Option.map_some, Prod.map_apply] at reads
      rw [withReturns_append] at skipped reads
      rw [← lastOf_withReturns before gap] at reads
      rw [← lastOf_withReturns, withReturns_append] at cutLater
      refine ⟨(shifted + byteLength (Text.withReturns gap), convert found) :: converted, ?_, ?_⟩
      · rw [withReturns_append, withReturns_append]
        exact .found skipped (withReturns_eq_nil_iff.not.mpr present) reads cutLater
      · constructor
        · exact ⟨rfl, lastOf before gap, gap, taken ++ rest, rest, rfl, read, rfl, rfl⟩
        · rw [← List.append_assoc]
          exact correspond.imp fun _ _ => Corresponds.append

/-- Occurrences correspond, one by one and in order. -/
theorem occurrencesFrom_withReturns (carries : form.Carries Fits convert) {cs : List Char}
    (fits : Fits cs) (before : Option Char) (offset shifted : Nat) :
    List.Forall₂ (Corresponds form convert offset shifted cs)
      (occurrencesFrom form before 0 offset cs)
      (occurrencesFrom form before 0 shifted (withReturns cs)) := by
  obtain ⟨converted, cut, correspond⟩ :=
    (cut_occurrencesFrom carries.consumes before offset cs).withReturns carries fits
  rwa [cut.occurrencesFrom_eq]

/-- What is found, apart from its place, is converted and nothing else. -/
theorem map_snd_occurrences_withReturns (carries : form.Carries Fits convert) {cs : List Char}
    (fits : Fits cs) :
    (occurrences form (withReturns cs)).map Prod.snd =
      ((occurrences form cs).map Prod.snd).map convert := by
  have correspond := occurrencesFrom_withReturns carries fits none 0 0
  have equal : List.Forall₂ (· = ·) (((occurrences form cs).map Prod.snd).map convert)
      ((occurrences form (withReturns cs)).map Prod.snd) := by
    rw [List.map_map, List.forall₂_map_left_iff, List.forall₂_map_right_iff]
    exact correspond.imp fun _ _ corresponds => corresponds.1.symm
  rw [List.forall₂_eq_eq_eq] at equal
  exact equal.symm

end Occurrences

end DocBlock.Text
