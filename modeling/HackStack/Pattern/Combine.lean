import HackStack.Pattern.Basic
/-!
# Putting patterns together

Patterns are kept plain: a row holds no row and no empty pattern, and a choice
no choice; literals in a row are one literal, a choice between characters is a
set, and what all branches of a choice start with stands in front of it.
-/

namespace HackStack.Pattern

/-- A character of a set; of a single character it is the literal. -/
def ofSet (s : CharSet) : Pattern :=
  match s.changes with
  | [first, next] => if next = first + 1 then literal [Char.ofNat first] else char s
  | _ => char s

/-- The pattern repeated. Where only the empty text fits, once is as good as often. -/
def repeated (p : Pattern) (least : Nat) (most? : Option Nat) (isLazy : Bool) : Pattern :=
  let (least, most?) := if p.isVoid then (min least 1, some (min (most?.getD 1) 1)) else (least, most?)
  if most? = some 0 then empty
  else if least = 1 ∧ most? = some 1 then p
  else times p least most? isLazy

/-! ## Rows -/

/-- The patterns that follow each other. -/
def parts : Pattern → List Pattern
  | empty => []
  | seq p q => p.parts ++ q.parts
  | p => [p]

def ofParts : List Pattern → Pattern
  | [] => empty
  | [p] => p
  | p :: ps => seq p (ofParts ps)

/-- Puts a pattern in front, as one literal with a literal there. -/
def putInFront : Pattern → List Pattern → List Pattern
  | literal cs, literal ds :: ps => literal (cs ++ ds) :: ps
  | p, ps => p :: ps

/-- The patterns one after the other. -/
def concat (ps : List Pattern) : Pattern :=
  ofParts ((ps.flatMap parts).foldr putInFront [])

/-! ## Choices -/

/-- The patterns of which one has to fit. -/
def branches : Pattern → List Pattern
  | alt p q => p.branches ++ q.branches
  | p => [p]

def ofBranches : List Pattern → Pattern
  | [] => char .empty
  | [p] => p
  | p :: ps => alt p (ofBranches ps)

/-- The character that is the whole pattern. -/
def single? : Pattern → Option CharSet
  | literal [c] => some (.range c.toNat c.toNat)
  | _ => none

/-- The set that is the whole pattern. -/
def set? : Pattern → Option CharSet
  | char s => some s
  | _ => none

/-- One of the patterns. If they are all characters or all sets, they are one set. -/
def anyOf (ps : List Pattern) : Pattern :=
  let ps := ps.flatMap branches
  match ps.mapM single? <|> ps.mapM set? with
  | some sets => ofSet (sets.foldl .union .empty)
  | none => ofBranches ps

/-- Whether there is a group in the pattern. -/
def hasGroup : Pattern → Bool
  | empty | literal _ | char _ | boundary .. => false
  | seq p q | alt p q => p.hasGroup || q.hasGroup
  | times p .. => p.hasGroup
  | group _ => true

/-- The patterns that both rows start with. Two groups are never the same. -/
def commonParts : List Pattern → List Pattern → List Pattern
  | p :: ps, q :: qs => if p = q ∧ !p.hasGroup then p :: commonParts ps qs else []
  | _, _ => []

/-- One of the patterns. If they are rows that start alike, the common start stands in front. -/
def choice (ps : List Pattern) : Pattern :=
  let rows := (ps.flatMap branches).map parts
  let start := if rows.all (2 ≤ ·.length) then rows.tail.foldl commonParts (rows.headD []) else []
  if start.isEmpty then anyOf ps
  else concat (start ++ [anyOf (rows.map fun row => concat (row.drop start.length))])

example : choice [literal ['a'], literal ['b'], char .bytes] =
    alt (literal ['a']) (alt (literal ['b']) (char .bytes)) := by decide +kernel
example : choice [literal ['a'], literal ['b']] = char (.range 0x61 0x62) := by decide +kernel

end HackStack.Pattern
