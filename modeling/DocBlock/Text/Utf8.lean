/-! Texts as bytes, and how bytes that are no text are shown. -/

namespace DocBlock.Text

/-- The UTF-8 form of a text. -/
def utf8 (cs : List Char) : List UInt8 := cs.flatMap String.utf8EncodeChar

/-- How many bytes follow a first byte, and between which two the first of them lies. -/
def following (first : UInt8) : Nat × UInt8 × UInt8 :=
  if first < 0xC2 || 0xF4 < first then (0, 0x80, 0xBF)
  else if first < 0xE0 then (1, 0x80, 0xBF)
  else if first = 0xE0 then (2, 0xA0, 0xBF)
  else if first = 0xED then (2, 0x80, 0x9F)
  else if first < 0xF0 then (2, 0x80, 0xBF)
  else if first = 0xF0 then (3, 0x90, 0xBF)
  else if first = 0xF4 then (3, 0x80, 0x8F)
  else (3, 0x80, 0xBF)

/-- How many bytes at the head continue a character, of as many as could. -/
def continued : (expected : Nat × UInt8 × UInt8) → List UInt8 → Nat
  | (more + 1, low, high), byte :: bytes =>
    if low ≤ byte ∧ byte ≤ high then continued (more, 0x80, 0xBF) bytes + 1 else 0
  | _, _ => 0

/-- The characters that bytes stand for, and none for each byte that begins no character or breaks
one off; those that go on a broken one count with it. The first `skip` bytes belong to what has been
read already. -/
def decodedFrom : (skip : Nat) → List UInt8 → List (Option Char)
  | _, [] => []
  | skip + 1, _ :: bytes => decodedFrom skip bytes
  | 0, byte :: bytes =>
    match (byte :: bytes).toByteArray.utf8DecodeChar? 0 with
    | some c => some c :: decodedFrom (c.utf8Size - 1) bytes
    | none => none :: decodedFrom (continued (following byte) bytes) bytes

/-- The text of bytes that are UTF-8. -/
def ofUtf8? (bytes : List UInt8) : Option (List Char) := (decodedFrom 0 bytes).mapM id

/-- Bytes as they are shown, with a replacement character for each fault. -/
def shown (bytes : List UInt8) : List Char :=
  (decodedFrom 0 bytes).map fun c? => c?.getD '\uFFFD'

theorem decodedFrom_length_append (read rest : List UInt8) :
    decodedFrom read.length (read ++ rest) = decodedFrom 0 rest := by
  induction read with
  | nil => rfl
  | cons byte read ih => rw [List.length_cons, List.cons_append, decodedFrom, ih]

theorem decodedFrom_utf8EncodeChar_append (c : Char) (rest : List UInt8) :
    decodedFrom 0 (String.utf8EncodeChar c ++ rest) = some c :: decodedFrom 0 rest := by
  have decoded : (String.utf8EncodeChar c ++ rest).toByteArray.utf8DecodeChar? 0 = some c := by
    rw [List.toByteArray_append]
    exact ByteArray.utf8DecodeChar?_utf8EncodeChar_append
  have length := String.length_utf8EncodeChar c
  cases encoded : String.utf8EncodeChar c with
  | nil =>
      have positive := c.utf8Size_pos
      rw [encoded, List.length_nil] at length
      omega
  | cons byte more =>
      rw [encoded, List.cons_append] at decoded
      rw [encoded, List.length_cons] at length
      have taken : c.utf8Size - 1 = more.length := by omega
      rw [List.cons_append, decodedFrom, decoded]
      simp only [taken, decodedFrom_length_append]

theorem decodedFrom_utf8 (cs : List Char) : decodedFrom 0 (utf8 cs) = cs.map some := by
  induction cs with
  | nil => rfl
  | cons c cs ih =>
      rw [utf8, List.flatMap_cons, decodedFrom_utf8EncodeChar_append, List.map_cons, ← ih, utf8]

@[simp] theorem shown_utf8 (cs : List Char) : shown (utf8 cs) = cs := by
  simp [shown, decodedFrom_utf8, Function.comp_def]

-- Three bytes of a character of four are one fault, and so is each byte that begins no character.
example : shown [0x61, 0xF0, 0x9F, 0x98, 0x61, 0xED, 0xA0, 0xC3, 0xA9] =
    "a\uFFFDa\uFFFD\uFFFDé".toList := by
  decide +kernel

end DocBlock.Text
