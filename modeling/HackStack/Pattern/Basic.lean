import HackStack.Text.CharSet
/-!
# Patterns

A pattern describes texts by what they consist of. `occursIn` says whether some
part of a text fits. It follows all ways through the text at once: `places`
takes the positions reached so far to the positions reached after the pattern,
with a set of positions kept as the bits of a number.
-/

namespace HackStack

/-- The characters of words, as far as ASCII goes. -/
def isWordChar (c : Char) : Bool := c.isAlphanum || c == '_'

/-- A condition on the characters on both sides of a position. -/
inductive Boundary
  | textStart | textStop
  | lineStart | lineStop
  /-- As the two before, where a carriage return ends a line too, alone or with a line feed. -/
  | lineStartReturn | lineStopReturn
  | word | notWord | wordStart | wordStop
  /-- No word in front of the position, and no word behind it. -/
  | wordStartHalf | wordStopHalf
  deriving DecidableEq, Repr

/-- Whether the condition holds between the two characters, of which there is none at an end of the
text. -/
def Boundary.holds (b : Boundary) (before after : Option Char) : Bool :=
  let inside (c : Option Char) : Bool := c.any isWordChar
  match b with
  | textStart => before.isNone
  | textStop => after.isNone
  | lineStart => before.all (· == '\n')
  | lineStop => after.all (· == '\n')
  | lineStartReturn => before.all (· == '\n') || before == some '\r' && after != some '\n'
  | lineStopReturn => after.all (· == '\r') || after == some '\n' && before != some '\r'
  | word => inside before != inside after
  | notWord => inside before == inside after
  | wordStart => !inside before && inside after
  | wordStop => inside before && !inside after
  | wordStartHalf => !inside before
  | wordStopHalf => !inside after

inductive Pattern
  | empty
  /-- The characters one after the other. -/
  | literal (cs : List Char)
  | char (s : CharSet)
  /-- The flag asks for the words of all scripts, not of ASCII alone. -/
  | boundary (b : Boundary) (allScripts : Bool)
  | seq (p q : Pattern)
  | alt (p q : Pattern)
  /-- The pattern `p` so often in a row, without an upper bound if there is no `most?`. A lazy one
  tries few repetitions first, which makes no difference to whether a text fits. -/
  | times (p : Pattern) (least : Nat) (most? : Option Nat) (isLazy : Bool)
  /-- The pattern `p`, which marks where the part of the text that fits starts and stops. -/
  | group (p : Pattern)
  deriving DecidableEq, Repr

namespace Pattern

/-- The positions in front of the characters for which `f` holds. -/
def charPlaces (f : Char → Bool) : List Char → Nat
  | [] => 0
  | c :: cs => 2 * charPlaces f cs + (f c).toNat

/-- The positions between whose neighbours `f` holds. -/
def boundaryPlaces (f : Option Char → Option Char → Bool) (before : Option Char) : List Char → Nat
  | [] => (f before none).toNat
  | c :: cs => 2 * boundaryPlaces f (some c) cs + (f before (some c)).toNat

/-- Applies `f` so often in a row, and stops where it changes nothing more. -/
def settle (f : Nat → Nat) : Nat → Nat → Nat
  | 0, s => s
  | n + 1, s =>
    let next := f s
    if next = s then s else settle f n next

/-- The positions after the pattern, from the positions `s` of the text on. Positions only move
forward, so an unbounded repetition has settled after as many steps as there are positions. -/
def places (text : List Char) : Pattern → Nat → Nat
  | empty, s => s
  | literal cs, s => cs.foldl (fun s c => (s &&& charPlaces (· == c) text) <<< 1) s
  | char cs, s => (s &&& charPlaces cs.contains text) <<< 1
  | boundary b _, s => s &&& boundaryPlaces b.holds none text
  | seq p q, s => places text q (places text p s)
  | alt p q, s => places text p s ||| places text q s
  | times p least most? _, s =>
    settle (fun s => s ||| places text p s) ((most?.map (· - least)).getD (text.length + 1))
      (settle (places text p) least s)
  | group p, s => places text p s

/-- Whether some part of the text fits the pattern. -/
def occursIn (p : Pattern) (text : List Char) : Bool :=
  places text p (1 <<< (text.length + 1) - 1) != 0

example : occursIn (.seq (.literal ['a']) (.boundary .textStop false)) ['b', 'a'] := by decide

/-- Whether nothing but the empty text can fit. -/
def isVoid : Pattern → Bool
  | empty | boundary .. => true
  | literal _ | char _ => false
  | seq p q | alt p q => p.isVoid && q.isVoid
  | times p .. | group p => p.isVoid

/-- Whether the pattern asks for a boundary of words of all scripts. -/
def asksAllScripts : Pattern → Bool
  | empty | literal _ | char _ => false
  | boundary _ allScripts => allScripts
  | seq p q | alt p q => p.asksAllScripts || q.asksAllScripts
  | times p .. | group p => p.asksAllScripts

end Pattern

end HackStack
