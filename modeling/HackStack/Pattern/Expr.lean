import HackStack.Pattern.Basic
import HackStack.Pattern.Error
/-!
# Pattern expressions

What the text of a pattern says, piece by piece, with the span of each piece.
What a piece means depends on flags that stand in front of it, so an expression
is not yet a pattern. `Expr.checkDepth` bounds how deeply expressions are nested.
-/

namespace HackStack.Pattern

inductive Flag
  | ignoreCase
  | multiLine
  /-- A dot stands for line feeds too. -/
  | dotAll
  | swapGreed
  | unicode
  /-- A carriage return ends a line too. -/
  | returns
  /-- Blank characters and comments in the text mean nothing. -/
  | spaced
  deriving DecidableEq, Repr

/-- Flags that are switched on or off. -/
abbrev FlagChanges := List (Flag × Bool)

structure Literal where
  span : Span
  char : Char
  /-- Written as a backslash, `x` and two digits. -/
  isByte : Bool := false
  deriving DecidableEq, Repr

/-- A set that a backslash and a letter stand for. -/
inductive Shorthand
  | digit | space | word
  deriving DecidableEq, Repr

/-- A named set of ASCII characters. -/
inductive AsciiSet
  | alnum | alpha | ascii | blank | cntrl | digit | graph | lower | print | punct | space | upper | word | xdigit
  deriving DecidableEq, Repr

inductive SetOperator
  | inter | diff | symmDiff
  deriving DecidableEq, Repr

/-- What stands between brackets. -/
inductive SetExpr
  | empty (span : Span)
  | literal (l : Literal)
  | range (span : Span) (first last : Literal)
  | ascii (span : Span) (name : AsciiSet) (negated : Bool)
  | shorthand (span : Span) (kind : Shorthand) (negated : Bool)
  /-- A property of characters, by its name, or by a name and a value. -/
  | property (span : Span) (name? : Option String)
  | bracketed (span : Span) (negated : Bool) (body : SetExpr)
  | union (span : Span) (items : List SetExpr)
  | combine (span : Span) (op : SetOperator) (left right : SetExpr)

/-- Where a boundary expression holds; what a line is depends on flags. -/
inductive Edge
  | lineStart | lineStop
  | fixed (b : Boundary)
  deriving DecidableEq, Repr

/-- How often something is repeated, without an upper bound if there is no `most?`. A marked count has
a question mark behind it. -/
structure Count where
  least : Nat
  most? : Option Nat
  marked : Bool := false
  deriving DecidableEq, Repr

inductive Expr
  | empty (span : Span)
  | flags (span : Span) (changes : FlagChanges)
  | literal (l : Literal)
  | dot (span : Span)
  | edge (span : Span) (e : Edge)
  | shorthand (span : Span) (kind : Shorthand) (negated : Bool)
  | property (span : Span) (name? : Option String)
  | set (span : Span) (negated : Bool) (body : SetExpr)
  | times (span : Span) (count : Count) (body : Expr)
  /-- A group that captures remembers the part of the text that fits. -/
  | group (span : Span) (captures : Bool) (changes : FlagChanges) (body : Expr)
  | choice (span : Span) (branches : List Expr)
  | concat (span : Span) (parts : List Expr)

def SetExpr.span : SetExpr → Span
  | literal l => l.span
  | empty s | range s .. | ascii s .. | shorthand s .. | property s .. | bracketed s .. | union s .. | combine s .. => s

def Expr.span : Expr → Span
  | literal l => l.span
  | empty s | flags s .. | dot s | edge s .. | shorthand s .. | property s .. | set s .. | times s .. | group s ..
  | choice s .. | concat s .. => s

/-- The expression for items in a row: none, a single one or several. -/
def SetExpr.ofItems (span : Span) : List SetExpr → SetExpr
  | [] => .empty span
  | [item] => item
  | items => .union span items

def Expr.ofParts (span : Span) : List Expr → Expr
  | [] => .empty span
  | [part] => part
  | parts => .concat span parts

def Expr.ofBranches (span : Span) : List Expr → Expr
  | [] => .empty span
  | [branch] => branch
  | branches => .choice span branches

/-! ## Depth -/

def maxDepth : Nat := 250

/-- Goes one level down. -/
def deeper (depth : Nat) (span : Span) : Except Fault Nat :=
  if depth < maxDepth then .ok (depth + 1) else .error { cause := .nesting maxDepth, span }

def SetExpr.checkDepth (depth : Nat) : SetExpr → Except Fault Unit
  | empty _ | literal _ | range .. | ascii .. | shorthand .. | property .. => .ok ()
  | bracketed span _ body => do body.checkDepth (← deeper depth span)
  | union span items => do checkAll (← deeper depth span) items
  | combine span _ left right => do
    let depth ← deeper depth span
    left.checkDepth depth
    right.checkDepth depth
where
  checkAll (depth : Nat) : List SetExpr → Except Fault Unit
    | [] => .ok ()
    | item :: items => do
      item.checkDepth depth
      checkAll depth items

/-- Refuses the first piece that is nested too deeply. -/
def Expr.checkDepth (depth : Nat) : Expr → Except Fault Unit
  | empty _ | flags .. | literal _ | dot _ | edge .. | shorthand .. | property .. => .ok ()
  | set span _ body => do body.checkDepth (← deeper depth span)
  | times span _ body | group span _ _ body => do body.checkDepth (← deeper depth span)
  | choice span parts | concat span parts => do checkAll (← deeper depth span) parts
where
  checkAll (depth : Nat) : List Expr → Except Fault Unit
    | [] => .ok ()
    | part :: parts => do
      part.checkDepth depth
      checkAll depth parts

end HackStack.Pattern
