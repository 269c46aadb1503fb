import DocBlock.Proofs.Json.Grammar

/-! How JSON values are written. Main statement: both layouts, the one without any space and the one over
several lines, are texts of the grammar, so a value that is written in one of them is read back whole. -/

namespace DocBlock.Json

theorem hexValue?_digitChar : ∀ n < 16, Text.hexValue? (Nat.digitChar n) = some n := by decide

/-- The four digits of a code are read back, unless the code is half a surrogate pair. -/
theorem escapedCode?_hex4 {code : Nat} (low : code < 0xD800) :
    escapedCode? (Nat.digitChar (code / 4096 % 16)) (Nat.digitChar (code / 256 % 16))
      (Nat.digitChar (code / 16 % 16)) (Nat.digitChar (code % 16)) =
        some (.char (Char.ofNat code)) := by
  have digit (n : Nat) : Text.hexValue? (Nat.digitChar (n % 16)) = some (n % 16) :=
    hexValue?_digitChar _ (Nat.mod_lt _ (by decide))
  have whole : (code / 4096 % 16 * 16 + code / 256 % 16) * 256 +
      (code / 16 % 16 * 16 + code % 16) = code := by omega
  have apart : ¬ (0xD800 ≤ code ∧ code ≤ 0xDFFF) := by omega
  simp only [escapedCode?, digit, Option.bind_eq_bind, Option.bind_some, Option.pure_def, whole,
    if_neg apart]

theorem letterWritten_escaped (c : Char) : LetterWritten (.char c) (escaped c) := by
  unfold escaped
  split
  all_goals try exact .short rfl
  rename_i quote backslash _ _ _ _ _
  split
  · rename_i control
    have read := escapedCode?_hex4 (Nat.lt_trans control (by decide))
    rw [Char.ofNat_toNat] at read
    exact .code read
  · rename_i printable
    exact .plain quote backslash (Nat.not_lt.mp printable)

/-- The letters of a text without halves of surrogate pairs. -/
def letters (text : String) : List Letter := text.toList.map .char

theorem text?_letters (text : String) : text? (letters text) = some text := by
  have joined (cs : List Char) : joined? (cs.map .char) = some cs := by
    induction cs with
    | nil => rfl
    | cons c cs ih => rw [List.map_cons, joined?, ih, Option.map_some]
  rw [text?, letters, joined, Option.map_some, String.ofList_toList]

theorem lettersWritten_escaped (text : String) :
    LettersWritten (letters text) (text.toList.flatMap escaped) := by
  unfold letters
  induction text.toList with
  | nil => exact .nil
  | cons c cs ih => exact .cons (letterWritten_escaped c) ih

mutual

/-- What a written value is read as. -/
def reading : Json → Reading
  | null => .null
  | bool value => .bool value
  | integer value => .number (.ofInt value)
  | decimal value => .number (.ofDecimal value)
  | string value => .string (letters value)
  | array items => .array (itemReadings items)
  | object members => .object (memberReadings members)

def itemReadings : List Json → List Reading
  | [] => []
  | item :: items => reading item :: itemReadings items

def memberReadings : List (String × Json) → List (List Letter × Reading)
  | [] => []
  | (key, value) :: members => (letters key, reading value) :: memberReadings members

end

theorem written_quoted (text : String) : Reading.Written (.string (letters text)) (quoted text) :=
  .string (lettersWritten_escaped text)

theorem written_bool (value : Bool) : Reading.Written (.bool value)
    (if value then "true".toList else "false".toList) := by
  cases value with
  | true => exact .yes
  | false => exact .no

theorem allSpace_single : AllSpace [' '] := by
  intro c member
  rw [List.mem_singleton.mp member]
  rfl

theorem allSpace_lineBreak (depth : Nat) : AllSpace (lineBreak depth) := by
  intro c member
  rcases List.mem_cons.mp member with rfl | later
  · rfl
  · rw [List.eq_of_mem_replicate later]
    rfl

theorem memberWritten_quoted {front gap cs back : List Char} {value : Reading}
    (frontSpace : AllSpace front) (key : String) (gapSpace : AllSpace gap)
    (written : Reading.Written value cs) (backSpace : AllSpace back) :
    Reading.MemberWritten (letters key) value
      (front ++ (quoted key ++ ':' :: (gap ++ (cs ++ back)))) := by
  have member := Reading.MemberWritten.intro frontSpace (lettersWritten_escaped key) allSpace_nil
    gapSpace written backSpace
  unfold quoted
  simp only [List.cons_append, List.append_assoc, List.nil_append]
  exact member

mutual

theorem written_prettyChars (depth : Nat) :
    (value : Json) → Reading.Written (reading value) (prettyChars depth value)
  | null => .null
  | bool value => written_bool value
  | integer value => .number (Numeral.written_ofInt value)
  | decimal value => .number (Numeral.written_ofDecimal value)
  | string value => written_quoted value
  | array [] => @Reading.Written.emptyArray [] allSpace_nil
  | array (item :: items) =>
      .array (written_prettyItems (depth + 1) (allSpace_lineBreak depth) (item :: items)
        (List.cons_ne_nil item items))
  | object [] => @Reading.Written.emptyObject [] allSpace_nil
  | object (member :: members) =>
      .object (written_prettyMembers (depth + 1) (allSpace_lineBreak depth) (member :: members)
        (List.cons_ne_nil member members))

theorem written_prettyItems (depth : Nat) {space : List Char} (allSpace : AllSpace space) :
    (items : List Json) → items ≠ [] →
      Reading.ItemsWritten (itemReadings items) (prettyItems depth items ++ space)
  | [], present => absurd rfl present
  | [item], _ => by
      rw [prettyItems, List.append_assoc]
      exact .last (allSpace_lineBreak depth) (written_prettyChars depth item) allSpace
  | item :: next :: items, _ => by
      have others := written_prettyItems depth allSpace (next :: items) (List.cons_ne_nil next items)
      rw [prettyItems, List.append_assoc, List.append_assoc, List.cons_append]
      exact .cons (allSpace_lineBreak depth) (written_prettyChars depth item) allSpace_nil others

theorem written_prettyMembers (depth : Nat) {space : List Char} (allSpace : AllSpace space) :
    (members : List (String × Json)) → members ≠ [] →
      Reading.MembersWritten (memberReadings members) (prettyMembers depth members ++ space)
  | [], present => absurd rfl present
  | [(key, value)], _ => by
      have member := memberWritten_quoted (allSpace_lineBreak depth) key allSpace_single
        (written_prettyChars depth value) allSpace
      rw [prettyMembers]
      simp only [List.append_assoc, List.cons_append]
      exact .last member
  | (key, value) :: next :: members, _ => by
      have member := memberWritten_quoted (allSpace_lineBreak depth) key allSpace_single
        (written_prettyChars depth value) allSpace_nil
      have others := written_prettyMembers depth allSpace (next :: members)
        (List.cons_ne_nil next members)
      rw [List.append_nil] at member
      rw [prettyMembers]
      simp only [List.append_assoc, List.cons_append]
      have whole := Reading.MembersWritten.cons member others
      simp only [List.append_assoc, List.cons_append] at whole
      exact whole

end

/-- A member without any space. -/
theorem memberWritten_tight {value : Reading} {cs : List Char} (key : String)
    (written : Reading.Written value cs) :
    Reading.MemberWritten (letters key) value (quoted key ++ ':' :: cs) := by
  have member := memberWritten_quoted allSpace_nil key allSpace_nil written allSpace_nil
  rwa [List.nil_append, List.nil_append, List.append_nil] at member

mutual

theorem written_compactChars : (value : Json) → Reading.Written (reading value) (compactChars value)
  | null => .null
  | bool value => written_bool value
  | integer value => .number (Numeral.written_ofInt value)
  | decimal value => .number (Numeral.written_ofDecimal value)
  | string value => written_quoted value
  | array [] => @Reading.Written.emptyArray [] allSpace_nil
  | array (item :: items) =>
      .array (written_compactItems (item :: items) (List.cons_ne_nil item items))
  | object [] => @Reading.Written.emptyObject [] allSpace_nil
  | object (member :: members) =>
      .object (written_compactMembers (member :: members) (List.cons_ne_nil member members))

theorem written_compactItems : (items : List Json) → items ≠ [] →
    Reading.ItemsWritten (itemReadings items) (compactItems items)
  | [], present => absurd rfl present
  | [item], _ => by
      have only := Reading.ItemsWritten.last allSpace_nil (written_compactChars item) allSpace_nil
      rwa [List.nil_append, List.append_nil] at only
  | item :: next :: items, _ => by
      have others := written_compactItems (next :: items) (List.cons_ne_nil next items)
      exact .cons allSpace_nil (written_compactChars item) allSpace_nil others

theorem written_compactMembers : (members : List (String × Json)) → members ≠ [] →
    Reading.MembersWritten (memberReadings members) (compactMembers members)
  | [], present => absurd rfl present
  | [(key, value)], _ => by
      exact .last (memberWritten_tight key (written_compactChars value))
  | (key, value) :: next :: members, _ => by
      have member := memberWritten_tight key (written_compactChars value)
      have others := written_compactMembers (next :: members) (List.cons_ne_nil next members)
      have whole := Reading.MembersWritten.cons member others
      simp only [List.append_assoc, List.cons_append] at whole
      rw [compactMembers]
      simp only [List.append_assoc, List.cons_append]
      exact whole

end

theorem ofText?_compact (value : Json) :
    Reading.ofText? value.compact.toList = some value.reading := by
  have read := Reading.ofText?_eq_some allSpace_nil (written_compactChars value) allSpace_nil
  rw [List.nil_append, List.append_nil] at read
  rw [compact, String.toList_ofList]
  exact read

/-- A value is read back from the layout over several lines, with any space after it. -/
theorem ofText?_pretty (value : Json) {space : List Char} (allSpace : AllSpace space) :
    Reading.ofText? (value.pretty.toList ++ space) = some value.reading := by
  rw [pretty, String.toList_ofList]
  exact Reading.ofText?_eq_some allSpace_nil (written_prettyChars 0 value) allSpace

end DocBlock.Json
