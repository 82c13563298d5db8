/-!
# Decimal numbers

A number is written in ASCII digits, at least one, without a sign. Leading
zeros are allowed and do not count. `word?` reads the numbers that fit sixteen
bits.
-/

namespace HackStack.Text.Decimal

/-- The number a text of digits stands for. -/
def value? (s : List Char) : Option Nat :=
  if s ≠ [] ∧ s.all Char.isDigit then some (Nat.ofDigitChars 10 s 0) else none

/-- The number a text of digits stands for, if it is at most 65535. -/
def word? (s : List Char) : Option UInt16 := do
  let n ← value? s
  if h : n < UInt16.size then some (.ofNatLT n h) else none

example : word? ['0', '7'] = some 7 ∧ word? ['6', '5', '5', '3', '6'] = none ∧ word? [] = none := by decide

end HackStack.Text.Decimal
