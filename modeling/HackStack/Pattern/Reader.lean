import HackStack.Pattern.SetReader
import HackStack.Text.Letter
/-!
# Reading a pattern

`Expr.read` reads the text of a pattern. Bars separate branches, parentheses
group, and a sign or a count in braces repeats what stands right in front of
it. A question mark after an opening parenthesis gives the group a name or
changes flags, for the group or, without a group, for what follows.
-/

namespace HackStack.Pattern

def Flag.ofChar? : Char → Option Flag
  | 'i' => some ignoreCase
  | 'm' => some multiLine
  | 's' => some dotAll
  | 'U' => some swapGreed
  | 'u' => some unicode
  | 'R' => some returns
  | 'x' => some spaced
  | _ => none

/-- Flags as they are written, each with its place: a flag, or the sign that switches off all that
follow. -/
abbrev FlagItems := List (Option Flag × Span)

/-- What the items change. -/
def flagChanges (on : Bool) : FlagItems → FlagChanges
  | [] => []
  | (none, _) :: items => flagChanges false items
  | (some f, _) :: items => (f, on) :: flagChanges on items

/-- Whether the text may be spaced after the changes. -/
def spacedAfter (changes : FlagChanges) (before : Bool) : Bool :=
  (changes.lookup .spaced).getD before

/-- The characters of names of groups. -/
def isNameChar (isFirst : Bool) (c : Char) : Bool :=
  if isFirst then c == '_' || Text.isLetter c
  else c == '_' || c == '.' || c == '[' || c == ']' || Text.isLetterOrNumber c

namespace Reader

/-! ## Counts -/

/-- Reads digits, of which `fuel` is at least the number. -/
def digits : (fuel : Nat) → Reader (List Char)
  | 0 => return []
  | fuel + 1 => do
    match ← char? with
    | some c =>
      if c.isDigit then
        let _ ← step
        return c :: (← digits fuel)
      else return []
    | none => return []

/-- Passes over blank characters. -/
def blanks : Reader Unit := modify (·.passWhile Text.isBlank)

/-- Reads a number. What is wrong with it is a value, as other faults go first. -/
def number : Reader (Except Fault Nat) := do
  blanks
  let start ← place
  let ds ← digits (← get).rest.length
  let span ← spanFrom start
  blanks
  if ds.isEmpty then return .error { cause := .countEmpty, span }
  let n := Nat.ofDigitChars 10 ds 0
  if n < UInt32.size then return .ok n
  else return .error { cause := .decimalInvalid, span }

/-- Reads a count in braces; the cursor stands at the opening one. -/
def count : Reader Count := do
  let start ← place
  let unclosed {α : Type} : Reader α := do fail .countUnclosed (← spanFrom start)
  if (← step).isNone then unclosed
  let least ← number
  let (least, most?) ← match ← char? with
    | none => unclosed
    | some ',' =>
      match ← step with
      | none => unclosed
      | some '\x7d' => do pure (← least, none)
      | some _ => do
        let least ← least
        pure (least, some (← (← number)))
    | some _ => do
      let n ← least
      pure (n, some n)
  if (← char?) ≠ some '\x7d' then unclosed
  let marked := (← step) == some '?'
  if marked then advance
  if most?.any (· < least) then fail .countOrder (← spanFrom start)
  return { least, most?, marked }

/-- What a sign repeats: the last part so far, which must be there and more than flags. -/
def repeated : List Expr → Reader (Expr × List Expr)
  | [] | .empty _ :: _ | .flags .. :: _ => failHere .nothingToRepeat
  | e :: parts => return (e, parts)

/-- Reads a sign that repeats so often. -/
def sign (least : Nat) (most? : Option Nat) : Reader Count := do
  advance
  let marked := (← char?) == some '?'
  if marked then advance
  return { least, most?, marked }

/-! ## Groups -/

/-- Reads flags up to a colon or a closing parenthesis. The items so far come last one first. -/
def flagItems : (fuel : Nat) → FlagItems → Reader FlagItems
  | 0, items => return items
  | fuel + 1, items => do
    match ← char? with
    | none => failHere .flagEnd
    | some ':' | some ')' =>
      match items with
      | (none, span) :: _ => fail .flagDanglingNegation span
      | _ => return items
    | some c =>
      let span ← charSpan
      let item := if c = '-' then none else Flag.ofChar? c
      if item.isNone && c != '-' then fail .flagUnknown span
      if let some earlier := items.lookup item then
        fail (if c = '-' then .flagNegationTwice else .flagTwice) span (some earlier)
      advance
      flagItems fuel ((item, span) :: items)

/-- The characters of a name, of which `fuel` is at least the number. -/
def nameChars (isFirst : Bool) : (fuel : Nat) → Reader (List Char)
  | 0 => return []
  | fuel + 1 => do
    match ← char? with
    | none | some '>' => return []
    | some c =>
      if !isNameChar isFirst c then fail .nameInvalid (← charSpan)
      advance
      return c :: (← nameChars false fuel)

/-- Reads the name of a group and the angle that closes it. -/
def groupName : Reader Unit := do
  let start ← place
  let name := String.ofList (← nameChars true (← get).rest.length)
  if (← char?).isNone then failHere .nameEnd
  let span ← spanFrom start
  advance
  if name.isEmpty then fail .nameEmpty span
  let names := (← get).names
  if let some earlier := names.lookup name then fail .nameTwice span (some earlier)
  modify fun c => { c with names := (name, span) :: names }

/-- What an opening parenthesis starts. -/
inductive Opening
  | group (captures : Bool) (changes : FlagChanges)
  | flags (changes : FlagChanges)

/-- Reads an opening parenthesis and what belongs to it. -/
def opening : Reader Opening := do
  let span ← charSpan
  let _ ← step
  if (← accept ['?', '=']) || (← accept ['?', '!']) || (← accept ['?', '<', '=']) ||
      (← accept ['?', '<', '!']) then
    fail .lookAround (← spanFrom span.start)
  let inner ← spanFrom (← place)
  if (← accept ['?', 'P', '<']) || (← accept ['?', '<']) then
    groupName
    return .group true []
  else if ← accept ['?'] then
    if (← char?).isNone then fail .groupUnclosed span
    let items ← flagItems ((← get).rest.length + 1) []
    let isSet := (← char?) == some ')'
    advance
    if isSet && items.isEmpty then fail .nothingToRepeat inner
    let changes := flagChanges true items.reverse
    return if isSet then .flags changes else .group false changes
  else return .group true []

/-! ## Expressions -/

/-- An expression that is being read: the branches and, of the last one, the parts, both the last
one first. -/
structure OpenExpr where
  /-- The parenthesis that opened it. -/
  group? : Option Span
  start : Place
  branches : List Expr := []
  branchStart : Place
  parts : List Expr := []

namespace OpenExpr

def add (o : OpenExpr) (e : Expr) : OpenExpr := { o with parts := e :: o.parts }

/-- The expression with the branch closed. -/
def closeBranch (o : OpenExpr) (stop next : Place) : OpenExpr :=
  let branch := Expr.ofParts { start := o.branchStart, stop } o.parts.reverse
  { o with branches := branch :: o.branches, branchStart := next, parts := [] }

def close (o : OpenExpr) (stop : Place) : Expr :=
  Expr.ofBranches { start := o.start, stop } (o.closeBranch stop stop).branches.reverse

end OpenExpr

/-- The expression of a group that starts where the cursor is. -/
def openExpr (group? : Option Span) : Reader OpenExpr := do
  let start ← place
  return { group?, start, branchStart := start }

/-- Repeats the last part. -/
def repeatLast (o : OpenExpr) (count : Reader Count) : Reader OpenExpr := do
  let (e, parts) ← repeated o.parts
  let n ← count
  let span ← spanFrom e.span.start
  return { o with parts := .times span n e :: parts }

/-- Reads a part that stands for itself. -/
def single (c : Char) : Reader Expr := do
  let span ← charSpan
  match c with
  | '\\' => escape
  | '[' => bracketSet
  | '.' => advance; return .dot span
  | '^' => advance; return .edge span .lineStart
  | '$' => advance; return .edge span .lineStop
  | c => advance; return .literal { span, char := c }

/-- Reads on up to the end of the group `o`, where `fuel` is more than the number of characters
left. A closing parenthesis is left to the caller. -/
def closeExpr : (fuel : Nat) → OpenExpr → Reader Expr
  | 0, o => return o.close (← place)
  | fuel + 1, o => do
    settle
    match ← char? with
    | none =>
      match o.group? with
      | some span => fail .groupUnclosed span
      | none => return o.close (← place)
    | some ')' =>
      if o.group?.isNone then fail .groupUnopened (← charSpan)
      return o.close (← place)
    | some '|' =>
      let stop ← place
      advance
      closeExpr fuel (o.closeBranch stop (← place))
    | some '(' =>
      let start ← charSpan
      let spaced := (← get).spaced
      match ← opening with
      | .flags changes =>
        modify fun c => { c with spaced := spacedAfter changes spaced }
        closeExpr fuel (o.add (.flags (← spanFrom start.start) changes))
      | .group captures changes =>
        modify fun c => { c with spaced := spacedAfter changes spaced }
        let body ← closeExpr fuel (← openExpr (some start))
        modify fun c => { c with spaced }
        advance
        closeExpr fuel (o.add (.group (← spanFrom start.start) captures changes body))
    | some '?' => closeExpr fuel (← repeatLast o (sign 0 (some 1)))
    | some '*' => closeExpr fuel (← repeatLast o (sign 0 none))
    | some '+' => closeExpr fuel (← repeatLast o (sign 1 none))
    | some '\x7b' => closeExpr fuel (← repeatLast o count)
    | some c => closeExpr fuel (o.add (← single c))

end Reader

/-- The expression that the text of a pattern says. -/
def Expr.read (text : List Char) : Except Fault Expr := do
  let reader : Reader Expr := do Reader.closeExpr (text.length + 1) (← Reader.openExpr none)
  let (e, _) ← reader.run { rest := text }
  e.checkDepth 0
  return e

end HackStack.Pattern
