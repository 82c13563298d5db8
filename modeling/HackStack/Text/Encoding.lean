import HackStack.Text.CharSet
/-!
# The bytes of characters

In UTF-8 a character is one to four bytes. `CharSet.encoding` describes the
bytes of all characters of a set, in their order, by sequences of byte ranges:
such a sequence stands for every choice of a byte from each of its ranges.
-/

namespace HackStack

/-- A range of bytes for each byte of a character. -/
abbrev ByteRanges := List (Nat × Nat)

/-- The code points from `first` to `last`, where the first byte carries `mark` and `more` bytes come
after it, each with six bits of the code point. -/
def ByteRanges.between (mark : Nat) : (more : Nat) → (first last : Nat) → List ByteRanges
  | 0, first, last => [[(mark + first, mark + last)]]
  | more + 1, first, last =>
    let unit := 1 <<< (6 * (more + 1))
    let below (a b low high : Nat) := (between 0x80 more low high).map ((mark + a, mark + b) :: ·)
    let (a, b) := (first / unit, last / unit)
    let (low, high) := (first % unit, last % unit)
    if a = b then below a b low high
    else
      let wholeA := if low = 0 then a else a + 1
      let wholeB := if high = unit - 1 then b else b - 1
      (if a < wholeA then below a a low (unit - 1) else []) ++
      (if wholeA ≤ wholeB then below wholeA wholeB 0 (unit - 1) else []) ++
      (if wholeB < b then below b b 0 high else [])

namespace CharSet

/-- The ranges of the set in order. -/
def ranges (s : CharSet) : List (Nat × Nat) := pairs s.changes
where
  pairs : List Nat → List (Nat × Nat)
    | first :: next :: changes => (first, next - 1) :: pairs changes
    | _ => []

def encoding (s : CharSet) : List ByteRanges :=
  part 0x00 0 0x0 0x7F ++ part 0xC0 1 0x80 0x7FF ++ part 0xE0 2 0x800 0xD7FF ++ part 0xE0 2 0xE000 0xFFFF ++
    part 0xF0 3 0x10000 0x10FFFF
where
  /-- What the set has between two code points. -/
  part (mark more first last : Nat) : List ByteRanges :=
    (s.inter (range first last)).ranges.flatMap fun (a, b) => ByteRanges.between mark more a b

example : (range 0x41 0x7FF).encoding = [[(0x41, 0x7F)], [(0xC2, 0xDF), (0x80, 0xBF)]] := by decide +kernel

end CharSet

end HackStack
