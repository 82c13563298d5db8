/-!
# Blank characters

`isBlank` is the White_Space property of the Unicode character database, as a
table of code point ranges. `trim` takes the blank characters off both ends of
a text.
-/

namespace HackStack.Text

/-- The code points with the property White_Space, as closed ranges in order. -/
def blankRanges : List (Nat × Nat) :=
  [(0x0009, 0x000D), (0x0020, 0x0020), (0x0085, 0x0085), (0x00A0, 0x00A0), (0x1680, 0x1680),
    (0x2000, 0x200A), (0x2028, 0x2029), (0x202F, 0x202F), (0x205F, 0x205F), (0x3000, 0x3000)]

def isBlank (c : Char) : Bool :=
  blankRanges.any fun (lo, hi) => lo ≤ c.toNat && c.toNat ≤ hi

example : isBlank '\t' ∧ isBlank '\u00a0' ∧ isBlank '\u3000' := by decide

-- the zero-width space and the byte order mark are not blank
example : ¬ isBlank '\u200b' ∧ ¬ isBlank '\ufeff' := by decide

/-- The text without the blank characters at its start and at its end. -/
def trim (s : List Char) : List Char :=
  ((s.dropWhile isBlank).reverse.dropWhile isBlank).reverse

end HackStack.Text
