import HackStack.Pattern.Combine
import HackStack.Text.Encoding
/-!
# The size of a pattern

A pattern can be written out as steps that go through a text byte by byte, with
every repetition in full. It is written out twice, to go through a text forwards
and backwards, and `maxSize` bounds what either takes.
-/

namespace HackStack.Pattern

def maxSize : Nat := 10485760

/-- A step that takes a byte, tests a condition or does nothing. -/
def stepSize : Nat := 32

/-- A step with so many ways to go on. -/
def forkSize (ways : Nat) : Nat := stepSize + 4 * ways

/-- A step that takes a byte from one of so many ranges. -/
def tableSize (ranges : Nat) : Nat := stepSize + 8 * ranges

/-- The sizes of several things together. -/
def total (sizes : List Nat) : Nat := sizes.foldr (· + ·) 0

/-! ## Sets -/

/-- The runs of sequences with the same first range. -/
def alike (seqs : List ByteRanges) : List (List ByteRanges) :=
  seqs.splitBy fun a b => a.head? == b.head?

/-- The tables for sequences of at most `depth` ranges: one for the first ranges, and those for what
follows each of them. A table is named by the sequences that it takes. -/
def tables : (depth : Nat) → List ByteRanges → List (List ByteRanges)
  | 0, _ => []
  | depth + 1, seqs =>
    if seqs.all (·.isEmpty) then []
    else seqs :: (alike seqs).flatMap fun run => tables depth (run.map List.tail)

/-- The size of a set. Beyond ASCII it takes a table for every place in the encoding, where equal
tables are one. Backwards each sequence is written out, where equal starts are one. -/
def setSize (backwards : Bool) (s : CharSet) : Nat :=
  if s.isAscii then tableSize s.ranges.length + stepSize
  else
    let seqs := s.encoding
    if backwards then
      let starts := seqs.flatMap fun seq => (List.range seq.length).map fun n => seq.take (n + 1)
      forkSize seqs.length + stepSize * starts.eraseDups.length + stepSize
    else total ((tables 4 seqs).eraseDups.map fun seqs => tableSize (alike seqs).length) + stepSize

/-! ## Literals -/

/-- The bytes of the literals, if the pattern is a literal or a choice between literals. -/
def literals? : Pattern → Option (List (List UInt8))
  | literal cs => some [cs.flatMap String.utf8EncodeChar]
  | alt p q => do return (← p.literals?) ++ (← q.literals?)
  | _ => none

/-- The size of a tree of strings of at most `depth` bytes. Strings with the same first byte share a
branch, but not across a string that ends, as those before it go first. Of strings that end where
no other one has gone on, one counts. -/
def treeSize : (depth : Nat) → List (List UInt8) → Nat
  | 0, _ => 0
  | depth + 1, strings =>
    if strings.all (·.isEmpty) then 0
    else
      let runs := (strings.splitOn []).filter (!·.isEmpty)
      let ends := strings.countP (·.isEmpty) - ((strings.takeWhile (·.isEmpty)).length - 1)
      forkSize (runs.length + ends) + total (runs.map (runSize depth))
where
  /-- The size of the branches of strings that all go on. -/
  runSize (depth : Nat) (run : List (List UInt8)) : Nat :=
    let firsts := (run.filterMap List.head?).eraseDups
    (if firsts.length = 1 then stepSize else tableSize firsts.length) +
      total (firsts.map fun b => treeSize depth ((run.filter (·.head? == some b)).map List.tail))

/-- The size of a choice between strings. -/
def stringsSize (backwards : Bool) (strings : List (List UInt8)) : Nat :=
  let strings := if backwards then strings.map List.reverse else strings
  treeSize ((strings.map List.length).foldl max 0) strings + stepSize

/-! ## Patterns -/

/-- The least length of a text that fits; there is none if some part fits no text. -/
def leastLength? : Pattern → Option Nat
  | empty | boundary .. => some 0
  | literal cs => some cs.length
  | char s => if s.isEmpty then none else some 1
  | seq p q => do return (← p.leastLength?) + (← q.leastLength?)
  | alt p q => do return min (← p.leastLength?) (← q.leastLength?)
  | times p least .. => p.leastLength?.map (least * ·)
  | group p => p.leastLength?

/-- The size of a repetition of a pattern of size `n`. Without an upper bound a fork leads back to the
last time; if a text of no length fits, another one leads past it. With one, a fork in front of
every time that may be left out leads to the end. -/
def timesSize (n : Nat) (takesText : Bool) (least : Nat) : (most? : Option Nat) → Nat
  | none =>
    if 0 < least then least * n + forkSize 2
    else if takesText then n + forkSize 2
    else n + 2 * forkSize 2 + stepSize
  | some most =>
    if most = least then most * n
    else most * n + (most - least) * forkSize 2 + (if least = 0 ∧ 1 < most then 2 else 1) * stepSize

/-- The size of a pattern, or of a pattern as a branch with the way to it. Forwards a group marks
where it starts and stops. -/
def size (backwards isBranch : Bool) : Pattern → Nat
  | alt p q =>
    if isBranch then p.size backwards true + q.size backwards true
    else match (alt p q).literals? with
      | some strings => stringsSize backwards strings
      | none => forkSize 0 + p.size backwards true + q.size backwards true + stepSize
  | empty | boundary .. => stepSize + way
  | literal cs => stepSize * total (cs.map Char.utf8Size) + way
  | char s => setSize backwards s + way
  | seq p q => p.size backwards false + q.size backwards false + way
  | times p least most? _ =>
    timesSize (p.size backwards false) (p.leastLength?.any (0 < ·)) least most? + way
  | group p => p.size backwards false + (if backwards then 0 else 2 * stepSize) + way
where
  /-- What the way to a branch adds to the fork in front of it. -/
  way : Nat := if isBranch then forkSize 1 - forkSize 0 else 0

/-- Whether the pattern fits only at the start of a text, or backwards at its end. -/
def isAnchored (backwards : Bool) : Pattern → Bool
  | empty | literal _ | char _ => false
  | boundary b _ => b == if backwards then .textStop else .textStart
  | seq p q =>
    if backwards then q.isAnchored backwards || q.isVoid && p.isAnchored backwards
    else p.isAnchored backwards || p.isVoid && q.isAnchored backwards
  | alt p q => p.isAnchored backwards && q.isAnchored backwards
  | times p least .. => 0 < least && p.isAnchored backwards
  | group p => p.isAnchored backwards

/-- The size of a search: a way past the bytes in front, the pattern as a group, and a last step. -/
def searchSize (backwards : Bool) (p : Pattern) : Nat :=
  let passing := if p.isAnchored backwards then stepSize else forkSize 2 + tableSize 1 + stepSize
  passing + p.group.size backwards false + stepSize

example : (times (literal ['a']) 327673 (some 327673) false).searchSize false = 10485744 := by decide +kernel

end HackStack.Pattern
