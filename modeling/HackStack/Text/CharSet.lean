/-!
# Sets of characters

A set is kept as the code points where membership changes, in rising order; the
code points before the first of them are outside. All operations are one walk
over the changes of two sets, so sets with the same members that are built from
ranges are equal.
-/

namespace HackStack

structure CharSet where
  changes : List Nat
  deriving DecidableEq, Repr

namespace CharSet

def empty : CharSet := ⟨[]⟩

/-- The code points from `first` to `last`. -/
def range (first last : Nat) : CharSet := ⟨[first, last + 1]⟩

def containsCode (s : CharSet) (n : Nat) : Bool :=
  s.changes.countP (· ≤ n) % 2 == 1

def contains (s : CharSet) (c : Char) : Bool := s.containsCode c.toNat

def isEmpty (s : CharSet) : Bool := s.changes.isEmpty

/-- The changes of the set that `keep` makes of two sets. The flags say whether the walk is inside
the first and the second set. -/
def merge (keep : Bool → Bool → Bool) (inA inB : Bool) : List Nat → List Nat → List Nat
  | [], [] => []
  | a :: as, [] => change a (!inA) inB ++ merge keep (!inA) inB as []
  | [], b :: bs => change b inA (!inB) ++ merge keep inA (!inB) [] bs
  | a :: as, b :: bs =>
    if a < b then change a (!inA) inB ++ merge keep (!inA) inB as (b :: bs)
    else if b < a then change b inA (!inB) ++ merge keep inA (!inB) (a :: as) bs
    else change a (!inA) (!inB) ++ merge keep (!inA) (!inB) as bs
termination_by as bs => as.length + bs.length
where
  /-- The code point, if membership changes there. -/
  change (n : Nat) (nowA nowB : Bool) : List Nat :=
    if keep inA inB = keep nowA nowB then [] else [n]

def union (a b : CharSet) : CharSet := ⟨merge (· || ·) false false a.changes b.changes⟩

def inter (a b : CharSet) : CharSet := ⟨merge (· && ·) false false a.changes b.changes⟩

def diff (a b : CharSet) : CharSet := ⟨merge (· && !·) false false a.changes b.changes⟩

/-- What is in one of the sets only. -/
def symmDiff (a b : CharSet) : CharSet := ⟨merge (· != ·) false false a.changes b.changes⟩

example : (range 0x61 0x7A).diff (range 0x65 0x65) = ⟨[0x61, 0x65, 0x66, 0x7B]⟩ := by decide +kernel

def ofRanges (ranges : List (Nat × Nat)) : CharSet :=
  ranges.foldl (fun s (first, last) => s.union (range first last)) empty

/-- All characters: the code points less the surrogates. -/
def all : CharSet := ⟨[0, 0xD800, 0xE000, 0x110000]⟩

/-- The code points of one byte. -/
def bytes : CharSet := range 0 0xFF

def isAscii (s : CharSet) : Bool := s.changes.all (· ≤ 0x80)

/-- The set with the other case of each of its ASCII letters. -/
def foldCase (s : CharSet) : CharSet :=
  let lower : CharSet := ⟨(s.inter (range 0x41 0x5A)).changes.map (· + 32)⟩
  let upper : CharSet := ⟨(s.inter (range 0x61 0x7A)).changes.map (· - 32)⟩
  (s.union lower).union upper

end CharSet

end HackStack
