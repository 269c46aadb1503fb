import DocBlock.Proofs.Parameter

/-! Parameter lists as they are written, with blanks wherever they may stand. Main statement: the
parameters of a written list are read back, whatever its blanks are. -/

namespace DocBlock

/-- A parameter of a list, with the blanks around it, after its type and around the sign of its
default. -/
structure Item where
  formal : Formal
  lead : List Char
  gap : List Char
  before : List Char
  after : List Char
  trail : List Char
  lead_blank : Text.AllBlank lead
  gap_isRun : Text.IsRun Text.isBlank gap
  before_blank : Text.AllBlank before
  after_blank : Text.AllBlank after
  trail_blank : Text.AllBlank trail

/-- A parameter list: its items, and perhaps a comma after the last one with the blanks behind it. -/
structure Listing where
  items : List Item
  ending : Option (List Char)
  ending_blank : ∀ blanks ∈ ending, Text.AllBlank blanks

/-- Texts that are each read up to a comma are read one after the other, with a comma before each. -/
theorem Parameter.yields_separated {α : Type} {print : α → List Char} {read : α → Parameter}
    (reads : ∀ item rest later, Text.Stops (· != ',') rest → declaredForm.Yields rest later →
      declaredForm.Yields (print item ++ rest) (read item :: later))
    (items : List α) {rest : List Char} {later : List Parameter} (ends : Text.Stops (· != ',') rest)
    (yields : declaredForm.Yields rest later) :
    Text.Stops (· != ',') ((items.flatMap fun next => ',' :: print next) ++ rest) ∧
      declaredForm.Yields ((items.flatMap fun next => ',' :: print next) ++ rest)
        (items.map read ++ later) := by
  rw [List.map_eq_flatMap]
  apply Text.Form.yields_flatMap _ _ ends yields
  · intro item _ rest _
    exact Text.stops_cons.mpr (by decide)
  · intro item _ rest later stops yieldsAfter
    have comma : ∀ c ∈ [','], Text.isBlank c = true ∨ c = ',' :=
      fun c member => Or.inr (List.mem_singleton.mp member)
    apply @Text.Form.yields_skip _ declaredForm [','] (print item ++ rest)
    · intro before
      exact skips_declaredForm comma before _
    · exact reads item rest later stops yieldsAfter

namespace Item

open Parameter

def toList (item : Item) : List Char :=
  item.lead ++ (item.formal.spaced item.gap item.before item.after ++ item.trail)

/-- The items with a comma between them. -/
def list : List Item → List Char
  | [] => []
  | item :: items => item.toList ++ items.flatMap fun next => ',' :: next.toList

variable {rest : List Char} {later : List Parameter}

theorem yields_toList (item : Item) (ends : Text.Stops (· != ',') rest)
    (yields : declaredForm.Yields rest later) :
    declaredForm.Yields (item.toList ++ rest) (item.formal.parameter :: later) := by
  have split : item.toList ++ rest = item.lead ++
      (item.formal.spaced item.gap item.before item.after ++ (item.trail ++ rest)) := by
    unfold toList
    simp only [List.append_assoc]
  rw [split]
  apply Text.Form.yields_skip
  · intro before
    exact skips_declaredForm (fun c member => Or.inl (item.lead_blank c member)) before _
  · exact Formal.yields_spaced item.gap_isRun item.before_blank item.after_blank item.trail_blank
      ends yields

theorem yields_list (items : List Item) (ends : Text.Stops (· != ',') rest)
    (yields : declaredForm.Yields rest later) :
    declaredForm.Yields (list items ++ rest)
      (items.map (fun item => item.formal.parameter) ++ later) := by
  cases items with
  | nil => exact yields
  | cons item items =>
      obtain ⟨stops, following⟩ := yields_separated (fun next _ _ => next.yields_toList) items ends yields
      rw [list, List.append_assoc]
      exact item.yields_toList stops following

end Item

namespace Listing

open Parameter

/-- The comma after the last item with the blanks behind it. -/
def endingText (listing : Listing) : List Char := listing.ending.elim [] (',' :: ·)

def toList (listing : Listing) : List Char := Item.list listing.items ++ listing.endingText

theorem stops_endingText (listing : Listing) : Text.Stops (· != ',') listing.endingText := by
  rw [endingText]
  cases listing.ending with
  | none => exact Text.stops_nil
  | some blanks => exact Text.stops_cons.mpr (by decide)

theorem yields_endingText (listing : Listing) : declaredForm.Yields listing.endingText [] := by
  have separates : ∀ c ∈ listing.endingText, Text.isBlank c = true ∨ c = ',' := by
    intro c member
    cases ending : listing.ending with
    | none =>
        rw [endingText, ending] at member
        contradiction
    | some blanks =>
        rw [endingText, ending, Option.elim_some, List.mem_cons] at member
        rcases member with comma | blank
        · exact Or.inr comma
        · exact Or.inl (listing.ending_blank blanks ending c blank)
  have skips := @Text.Form.yields_skip _ declaredForm listing.endingText [] []
    (fun before => skips_declaredForm separates before []) Text.Form.yields_nil
  rwa [List.append_nil] at skips

/-- The parameters of a written list are read back in order, each with its type and its default. -/
theorem declared_toList (listing : Listing) :
    declared (.ofList listing.toList) = listing.items.map fun item => item.formal.parameter := by
  have read := Item.yields_list listing.items listing.stops_endingText listing.yields_endingText
  rw [List.append_nil] at read
  rw [declared, String.toList_ofList]
  exact read none 0

example : declared " ?int\t$a=[1; '$x'] ,\u3000$b ,\n" =
    [⟨some "?int", "a", some "[1; '$x']"⟩, ⟨none, "b", none⟩] := by decide +kernel

end Listing

end DocBlock
