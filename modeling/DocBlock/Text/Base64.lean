/-! Bytes as text in base 64, in the alphabet with plus and slash. -/

namespace DocBlock.Text

def digit64 (n : Nat) : Char :=
  "ABCDEFGHIJKLMNOPQRSTUVWXYZabcdefghijklmnopqrstuvwxyz0123456789+/".toList.getD n '='

/-- Three bytes make four digits. Equals signs fill up the last four. -/
def base64 : List UInt8 → List Char
  | [] => []
  | [a] => [digit64 (a.toNat / 4), digit64 (a.toNat % 4 * 16), '=', '=']
  | [a, b] =>
    [digit64 (a.toNat / 4), digit64 (a.toNat % 4 * 16 + b.toNat / 16),
      digit64 (b.toNat % 16 * 4), '=']
  | a :: b :: c :: rest =>
    digit64 (a.toNat / 4) :: digit64 (a.toNat % 4 * 16 + b.toNat / 16) ::
      digit64 (b.toNat % 16 * 4 + c.toNat / 64) :: digit64 (c.toNat % 64) :: base64 rest

example : base64 [102] = "Zg==".toList ∧ base64 [102, 111] = "Zm8=".toList ∧
    base64 [102, 111, 111, 98] = "Zm9vYg==".toList := by decide +kernel

end DocBlock.Text
