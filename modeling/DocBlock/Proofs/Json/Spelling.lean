import DocBlock.Proofs.Json.Layout

/-! How strings are spelled. Main statement: what is written of a string has a text exactly if the halves
of surrogate pairs in it stand together, and then it is the text that they spell. -/

namespace DocBlock.Json

namespace Letter

/-- A half is one of a surrogate pair. -/
def WellFormed : Letter → Prop
  | .char _ => True
  | .half code => 0xD800 ≤ code ∧ code ≤ 0xDFFF

/-- The first half of a character above 0xFFFF. -/
def high (c : Char) : Letter := .half (0xD800 + (c.toNat - 0x10000) / 0x400)

/-- The second half of a character above 0xFFFF. -/
def low (c : Char) : Letter := .half (0xDC00 + (c.toNat - 0x10000) % 0x400)

end Letter

/-- The letters of a text: each character stands for itself, or above 0xFFFF is made of two halves. -/
inductive Spelling : List Letter → List Char → Prop
  | nil : Spelling [] []
  | char {c : Char} {letters : List Letter} {cs : List Char} : Spelling letters cs →
      Spelling (.char c :: letters) (c :: cs)
  | pair {c : Char} {letters : List Letter} {cs : List Char} : 0x10000 ≤ c.toNat → Spelling letters cs →
      Spelling (.high c :: .low c :: letters) (c :: cs)

def Spells (letters : List Letter) (text : String) : Prop := Spelling letters text.toList

theorem toNat_lt (c : Char) : c.toNat < 0x110000 := by
  have valid := c.valid
  rcases valid with low | high
  · exact Nat.lt_trans low (by decide)
  · exact high.2

theorem toNat_ofNat {code : Nat} (large : 0x10000 ≤ code) (small : code < 0x110000) :
    (Char.ofNat code).toNat = code := by
  have valid : code.isValidChar := Or.inr ⟨by omega, small⟩
  rw [Char.ofNat, dif_pos valid]
  rfl

theorem joined?_pair {c : Char} (large : 0x10000 ≤ c.toNat) (letters : List Letter) :
    joined? (.high c :: .low c :: letters) = (joined? letters).map (c :: ·) := by
  have bound := toNat_lt c
  have halves : 0xD800 + (c.toNat - 0x10000) / 0x400 < 0xDC00 ∧
      0xDC00 ≤ 0xDC00 + (c.toNat - 0x10000) % 0x400 := by omega
  have code : 0x10000 + (0xD800 + (c.toNat - 0x10000) / 0x400 - 0xD800) * 0x400 +
      (0xDC00 + (c.toNat - 0x10000) % 0x400 - 0xDC00) = c.toNat := by omega
  rw [Letter.high, Letter.low, joined?, if_pos halves, code, Char.ofNat_toNat]

theorem eq_pair {high low : Nat} (highForm : (Letter.half high).WellFormed)
    (lowForm : (Letter.half low).WellFormed) (halves : high < 0xDC00 ∧ 0xDC00 ≤ low) :
    ∃ c : Char, 0x10000 ≤ c.toNat ∧ Letter.half high = .high c ∧ Letter.half low = .low c ∧
      Char.ofNat (0x10000 + (high - 0xD800) * 0x400 + (low - 0xDC00)) = c := by
  obtain ⟨highLeast, _⟩ := highForm
  obtain ⟨_, lowMost⟩ := lowForm
  have code := @toNat_ofNat (0x10000 + (high - 0xD800) * 0x400 + (low - 0xDC00)) (by omega) (by omega)
  refine ⟨_, ?_, ?_, ?_, rfl⟩
  · omega
  · rw [Letter.high, code, Letter.half.injEq]
    omega
  · rw [Letter.low, code, Letter.half.injEq]
    omega

theorem joined?_of_spelling {letters : List Letter} {cs : List Char} (spelling : Spelling letters cs) :
    joined? letters = some cs := by
  induction spelling with
  | nil => rfl
  | char _ ih => rw [joined?, ih, Option.map_some]
  | pair large _ ih => rw [joined?_pair large, ih, Option.map_some]

theorem spelling_of_joined? {letters : List Letter} {cs : List Char}
    (wellFormed : ∀ letter ∈ letters, letter.WellFormed) (joined : joined? letters = some cs) :
    Spelling letters cs := by
  induction letters using joined?.induct generalizing cs with
  | case1 =>
      obtain rfl := Option.some.inj joined
      exact .nil
  | case2 c letters ih =>
      obtain ⟨rest, read, rfl⟩ := Option.map_eq_some_iff.mp joined
      exact .char (ih (List.forall_mem_cons.mp wellFormed).2 read)
  | case3 high low letters halves ih =>
      rw [joined?, if_pos halves] at joined
      obtain ⟨rest, read, rfl⟩ := Option.map_eq_some_iff.mp joined
      obtain ⟨highForm, others⟩ := List.forall_mem_cons.mp wellFormed
      obtain ⟨lowForm, others⟩ := List.forall_mem_cons.mp others
      obtain ⟨c, large, highEq, lowEq, code⟩ := eq_pair highForm lowForm halves
      rw [highEq, lowEq, code]
      exact .pair large (ih others read)
  | case4 high low letters apart =>
      rw [joined?, if_neg apart] at joined
      contradiction
  | case5 high letters alone =>
      rw [joined?] at joined
      · contradiction
      · exact alone

theorem text?_of_spells {letters : List Letter} {text : String} (spells : Spells letters text) :
    text? letters = some text := by
  rw [text?, joined?_of_spelling spells, Option.map_some, String.ofList_toList]

/-- Letters have a text exactly if their halves pair up, and it is the text that they spell. -/
theorem text?_eq_some_iff {letters : List Letter} {text : String}
    (wellFormed : ∀ letter ∈ letters, letter.WellFormed) :
    text? letters = some text ↔ Spells letters text := by
  refine ⟨fun read => ?_, text?_of_spells⟩
  obtain ⟨cs, joined, rfl⟩ := Option.map_eq_some_iff.mp read
  rw [Spells, String.toList_ofList]
  exact spelling_of_joined? wellFormed joined

theorem wellFormed_of_escapedCode? {a b c d : Char} {letter : Letter}
    (read : escapedCode? a b c d = some letter) : letter.WellFormed := by
  simp only [escapedCode?, Option.bind_eq_bind, Option.bind_eq_some_iff, Option.pure_def,
    Option.some.injEq] at read
  obtain ⟨_, _, _, _, _, _, _, _, equal⟩ := read
  rw [← equal]
  split
  · rename_i halves
    exact halves
  · trivial

theorem LettersWritten.wellFormed {letters : List Letter} {cs : List Char}
    (written : LettersWritten letters cs) : ∀ letter ∈ letters, letter.WellFormed := by
  induction written with
  | nil => exact fun _ member => absurd member List.not_mem_nil
  | cons first _ ih =>
      refine List.forall_mem_cons.mpr ⟨?_, ih⟩
      cases first with
      | plain _ _ _ => trivial
      | short _ => trivial
      | code read => exact wellFormed_of_escapedCode? read

/-- What is written as a string has at most one text. -/
theorem LettersWritten.text?_eq_some_iff {letters : List Letter} {cs : List Char}
    (written : LettersWritten letters cs) {text : String} :
    text? letters = some text ↔ Spells letters text :=
  Json.text?_eq_some_iff written.wellFormed

theorem spells_letters (text : String) : Spells (letters text) text := by
  unfold Spells letters
  induction text.toList with
  | nil => exact .nil
  | cons c cs ih => exact .char ih

end DocBlock.Json
