import DocBlock.Proofs.Parameter

/-! Texts with tags, whatever is written before, between and after them. Main statement: the tags of
such a text are read back in order, each with its type and its name. -/

namespace DocBlock

/-- A tag with the blanks before and after its type. -/
structure Mention where
  tag : Tag
  gap : List Char
  middle : List Char
  gap_isRun : Text.IsRun Text.isBlank gap
  middle_isRun : Text.IsRun Text.isBlank middle

/-- What follows a tag: a blank, and then any text that does not hold the tag's word. -/
structure Description where
  blank : Char
  text : List Char
  blank_isBlank : Text.isBlank blank = true
  text_untagged : ¬ "@param".toList <:+: text

/-- A text with tags: those with a description, and perhaps one more that ends the text. -/
structure Tagging where
  header : List Char
  described : List (Mention × Description)
  last : Option Mention
  header_untagged : ¬ "@param".toList <:+: header

/-- No text goes on from here with what the tag's word has after its first character. -/
abbrev Tag.Apart (rest : List Char) : Prop := Text.Stops "param".toList.contains rest

namespace Mention

open Parameter

def toList (mention : Mention) : List Char := mention.tag.spaced mention.gap mention.middle

theorem apart_toList (mention : Mention) (rest : List Char) : Tag.Apart (mention.toList ++ rest) :=
  Text.stops_cons.mpr (by decide)

theorem yields_toList (mention : Mention) {rest : List Char} {later : List Parameter}
    (stops : Text.Stops isSolid rest) (yields : documentedForm.Yields rest later) :
    documentedForm.Yields (mention.toList ++ rest) (mention.tag.parameter :: later) :=
  Tag.yields_spaced mention.gap_isRun mention.middle_isRun stops yields

end Mention

namespace Description

open Parameter

def toList (description : Description) : List Char := description.blank :: description.text

theorem stops_toList (description : Description) (rest : List Char) :
    Text.Stops isSolid (description.toList ++ rest) :=
  Text.stops_cons.mpr (Tag.isSolid_eq_false_of_isBlank description.blank_isBlank)

theorem untagged_toList (description : Description) : ¬ "@param".toList <:+: description.toList := by
  intro inside
  rcases List.infix_cons_iff.mp inside with begins | later
  · obtain ⟨equal, _⟩ := List.cons_prefix_cons.mp begins
    have blank := description.blank_isBlank
    rw [← equal] at blank
    contradiction
  · exact description.text_untagged later

end Description

namespace Tagging

open Parameter

def tags (tagging : Tagging) : List Tag :=
  tagging.described.map (fun (mention, _) => mention.tag) ++ (tagging.last.map Mention.tag).toList

/-- The tags with a description, one after the other. -/
def describedText (tagging : Tagging) : List Char :=
  tagging.described.flatMap fun (mention, description) => mention.toList ++ description.toList

def lastText (tagging : Tagging) : List Char := tagging.last.elim [] Mention.toList

def toList (tagging : Tagging) : List Char :=
  tagging.header ++ (tagging.describedText ++ tagging.lastText)

theorem apart_lastText (tagging : Tagging) : Tag.Apart tagging.lastText := by
  rw [lastText]
  cases tagging.last with
  | none => exact Text.stops_nil
  | some mention => exact Text.stops_cons.mpr (by decide)

theorem yields_lastText (tagging : Tagging) :
    documentedForm.Yields tagging.lastText
      ((tagging.last.map Mention.tag).toList.map Tag.parameter) := by
  rw [lastText]
  cases tagging.last with
  | none => exact Text.Form.yields_nil
  | some mention =>
      have read := mention.yields_toList Text.stops_nil Text.Form.yields_nil
      rwa [List.append_nil] at read

theorem yields_describedText (tagging : Tagging) {rest : List Char} {later : List Parameter}
    (apart : Tag.Apart rest) (yields : documentedForm.Yields rest later) :
    Tag.Apart (tagging.describedText ++ rest) ∧
      documentedForm.Yields (tagging.describedText ++ rest)
        (tagging.described.map (fun (mention, _) => mention.tag.parameter) ++ later) := by
  rw [List.map_eq_flatMap]
  apply Text.Form.yields_flatMap _ _ apart yields
  · rintro ⟨mention, description⟩ _ rest _
    rw [List.append_assoc]
    exact mention.apart_toList _
  · rintro ⟨mention, description⟩ _ rest later apart yields
    rw [List.append_assoc]
    apply mention.yields_toList (description.stops_toList rest)
    exact Tag.yields_text description.untagged_toList apart yields

/-- The tags of a text are read back in order, whatever stands before, between and after them. -/
theorem documented_tags (tagging : Tagging) :
    documented (.ofList tagging.toList) = tagging.tags.map Tag.parameter := by
  obtain ⟨apart, yields⟩ :=
    tagging.yields_describedText tagging.apart_lastText tagging.yields_lastText
  have whole := Tag.yields_text tagging.header_untagged apart yields
  rw [documented, String.toList_ofList, tags, List.map_append, List.map_map]
  exact whole none 0

example : documented "/** @params\n * @param\t$a@param\n $b$ @par $c @@param ?T|U $d." =
    [⟨some "$a@param", "b$", none⟩, ⟨some "?T|U", "d.", none⟩] := by decide +kernel

end Tagging

end DocBlock
