import HackStack.Pattern.Escape
/-!
# Sets in brackets

Brackets hold characters, ranges, escapes, named sets and further brackets, in
any number, and doubled signs combine what stands on both sides of them. A
hyphen at the start is a character, and so is a closing bracket right at the
start.
-/

namespace HackStack.Pattern

def AsciiSet.ofName? : String → Option AsciiSet
  | "alnum" => some alnum
  | "alpha" => some alpha
  | "ascii" => some ascii
  | "blank" => some blank
  | "cntrl" => some cntrl
  | "digit" => some digit
  | "graph" => some graph
  | "lower" => some lower
  | "print" => some print
  | "punct" => some punct
  | "space" => some space
  | "upper" => some upper
  | "word" => some word
  | "xdigit" => some xdigit
  | _ => none

def SetOperator.ofSign? : Char → Option SetOperator
  | '&' => some inter
  | '-' => some diff
  | '~' => some symmDiff
  | _ => none

namespace Reader

/-- Reads a named set such as `[:alpha:]` or `[:^alpha:]`, if one comes next. -/
def asciiSet? : Reader (Option SetExpr) := do
  let start ← place
  let before ← get
  if ← accept ['[', ':'] then
    let negated ← accept ['^']
    let name := (← get).rest.takeWhile (· != ':')
    let _ ← accept name
    if ← accept [':', ']'] then
      if let some kind := AsciiSet.ofName? (String.ofList name) then
        return some (.ascii (← spanFrom start) kind negated)
  set before
  return none

/-- The items so far, as far as `stop`. Without items the span is the place where they would start. -/
def itemsSpan (start : Place) : List SetExpr → Span
  | [] => { start, stop := start }
  | last :: before => { start := ((last :: before).getLast?.getD last).span.start, stop := last.span.stop }

/-- A set that is being read. -/
structure OpenSet where
  /-- The opening bracket with what belongs to it. -/
  opening : Span
  start : Place
  negated : Bool
  /-- The left side, after a sign that combines. -/
  left? : Option (SetOperator × SetExpr) := none
  /-- Where the items start. -/
  itemsStart : Place
  /-- The items so far, the last one first. -/
  items : List SetExpr

namespace OpenSet

/-- What has been read so far as one expression. -/
def body (o : OpenSet) : SetExpr :=
  let right := SetExpr.ofItems (itemsSpan o.itemsStart o.items) o.items.reverse
  match o.left? with
  | none => right
  | some (op, left) => .combine { start := left.span.start, stop := right.span.stop } op left right

def add (o : OpenSet) (item : SetExpr) : OpenSet := { o with items := item :: o.items }

/-- The set after a sign that combines. -/
def combine (o : OpenSet) (op : SetOperator) (next : Place) : OpenSet :=
  { o with left? := some (op, o.body), itemsStart := next, items := [] }

end OpenSet

/-- Hyphens right after the opening bracket, the last one first. -/
def hyphens (start : Place) : (fuel : Nat) → List SetExpr → Reader (List SetExpr)
  | 0, items => return items
  | fuel + 1, items => do
    if (← char?) ≠ some '-' then return items
    let item := SetExpr.literal { span := ← charSpan, char := '-' }
    if (← step).isNone then fail .classUnclosed { start, stop := start }
    hyphens start fuel (item :: items)

/-- Reads the opening bracket and what is special right after it. -/
def openSet : Reader OpenSet := do
  let start ← place
  let unclosed : Reader Unit := do fail .classUnclosed (← spanFrom start)
  if (← step).isNone then unclosed
  let negated := (← char?) == some '^'
  if negated then
    if (← step).isNone then unclosed
  let itemsStart ← place
  let items ← hyphens start (← get).rest.length []
  if items.isEmpty && (← char?) == some ']' then
    let item := SetExpr.literal { span := ← charSpan, char := ']' }
    if (← step).isNone then unclosed
    return { opening := ← spanFrom start, start, negated, itemsStart, items := [item] }
  return { opening := ← spanFrom start, start, negated, itemsStart, items }

/-- Reads a character or an escape. -/
def setItem (c : Char) : Reader Expr := do
  if c = '\\' then escape
  else
    let span ← charSpan
    advance
    return .literal { span, char := c }

/-- The literal at an end of a range. -/
def rangeEnd : Expr → Reader Literal
  | .literal l => return l
  | e => fail .classRangeLiteral e.span

/-- Reads an item that starts with `c`, or a range of them. -/
def setRange (opening : Span) (c : Char) : Reader SetExpr := do
  let first ← setItem c
  settle
  if (← char?).isNone then fail .classUnclosed opening
  let second? := (← get).secondSettled?
  if (← char?) ≠ some '-' ∨ second? = some ']' ∨ second? = some '-' then
    match first with
    | .literal l => return .literal l
    | .shorthand span kind negated => return .shorthand span kind negated
    | .property span name? => return .property span name?
    | e => fail .classEscape e.span
  else
    let some c ← step | fail .classUnclosed opening
    let last ← setItem c
    let span : Span := { start := first.span.start, stop := last.span.stop }
    let first ← rangeEnd first
    let last ← rangeEnd last
    if last.char < first.char then fail .classRangeOrder span
    return .range span first last

/-- Reads on up to the bracket that closes `o`, where `fuel` is more than the number of characters
left. -/
def closeSet : (fuel : Nat) → OpenSet → Reader OpenSet
  | 0, o => fail .classUnclosed o.opening
  | fuel + 1, o => do
    settle
    match ← char? with
    | none => fail .classUnclosed o.opening
    | some '[' =>
      match ← asciiSet? with
      | some item => closeSet fuel (o.add item)
      | none =>
        let inner ← closeSet fuel (← openSet)
        let span ← spanFrom inner.start
        closeSet fuel (o.add (.bracketed span inner.negated inner.body))
    | some ']' =>
      advance
      return o
    | some c =>
      match SetOperator.ofSign? c with
      | some op =>
        if (← get).second? = some c then
          advance
          advance
          closeSet fuel (o.combine op (← place))
        else closeSet fuel (o.add (← setRange o.opening c))
      | none => closeSet fuel (o.add (← setRange o.opening c))

/-- Reads a set in brackets, the first of which is at the cursor. -/
def bracketSet : Reader Expr := do
  let o ← closeSet ((← get).rest.length + 1) (← openSet)
  return .set (← spanFrom o.start) o.negated o.body

end Reader

end HackStack.Pattern
