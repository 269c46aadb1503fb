/-! White space, as the Unicode property White_Space lists it, and trimming by it. -/

namespace DocBlock.Text

def isBlank (c : Char) : Bool :=
  let n := c.toNat
  (9 ≤ n && n ≤ 13) || n == 0x20 || n == 0x85 || n == 0xA0 || n == 0x1680 ||
    (0x2000 ≤ n && n ≤ 0x200A) || n == 0x2028 || n == 0x2029 || n == 0x202F || n == 0x205F ||
    n == 0x3000

/-- The text without the blanks at its two ends. -/
def trim (cs : List Char) : List Char :=
  ((cs.dropWhile isBlank).reverse.dropWhile isBlank).reverse

example : trim " \t a b\u00a0\n".toList = "a b".toList := by decide
example : isBlank '\u200b' = false ∧ isBlank '\u0085' = true ∧ isBlank '\x1c' = false := by decide

end DocBlock.Text
