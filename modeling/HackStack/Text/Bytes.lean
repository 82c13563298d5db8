/-!
# Texts as bytes

A file system knows names and paths as bytes. `utf8` gives the bytes of a text,
and `lossy` the text that bytes are shown as: what is no UTF-8 in them is
replaced, each time the longest part that a character could have begun with.
-/

namespace HackStack

abbrev Bytes := List UInt8

namespace Text

def utf8 (s : String) : Bytes := s.toList.flatMap String.utf8EncodeChar

/-- What stands for bytes that are no character. -/
def replacement : Char := '\uFFFD'

/-- The ranges of the bytes behind a first byte, if it begins a character of several bytes. -/
def trail (first : UInt8) : List (UInt8 × UInt8) :=
  let low : UInt8 × UInt8 := (0x80, 0xBF)
  if 0xC2 ≤ first ∧ first ≤ 0xDF then [low]
  else if first = 0xE0 then [(0xA0, 0xBF), low]
  else if first = 0xED then [(0x80, 0x9F), low]
  else if 0xE1 ≤ first ∧ first ≤ 0xEF then [low, low]
  else if first = 0xF0 then [(0x90, 0xBF), low, low]
  else if 0xF1 ≤ first ∧ first ≤ 0xF3 then [low, low, low]
  else if first = 0xF4 then [(0x80, 0x8F), low, low]
  else []

/-- How many bytes a character could begin with, where `first` and `rest` are none. -/
def brokenLength (first : UInt8) (rest : Bytes) : Nat :=
  1 + (((trail first).zip rest).takeWhile fun ((low, high), b) => low ≤ b && b ≤ high).length

/-- The character that the bytes begin with, and how many of them it takes. -/
def firstChar (first : UInt8) (rest : Bytes) : Char × Nat :=
  match ((first :: rest).take 4).toByteArray.utf8DecodeChar? 0 with
  | some c => (c, c.utf8Size)
  | none => (replacement, brokenLength first rest)

/-- The characters of bytes of which the first `skip` belong to the character before. -/
def lossyChars : (skip : Nat) → Bytes → List Char
  | _, [] => []
  | skip + 1, _ :: bytes => lossyChars skip bytes
  | 0, b :: bytes =>
    let (c, size) := firstChar b bytes
    c :: lossyChars (size - 1) bytes

def lossy (bytes : Bytes) : String := String.ofList (lossyChars 0 bytes)

example : lossy [0x61, 0xE2, 0x82, 0x62, 0xFF] = "a\uFFFDb\uFFFD" := by decide +kernel

end Text

end HackStack
