import HackStack.Pattern.Reader
import HackStack.Pattern.Size
/-!
# The meaning of pattern expressions

Flags say how an expression is meant, from where they stand to the end of their
group. Under the flag `unicode`, which holds at first, texts consist of
characters of all scripts; without it sets hold bytes, and only those of ASCII
make text. Sets beyond ASCII that need a table of characters are unknown, and so
is the other case of a character.
-/

namespace HackStack.Pattern

structure Flags where
  ignoreCase : Bool := false
  multiLine : Bool := false
  dotAll : Bool := false
  swapGreed : Bool := false
  unicode : Bool := true
  returns : Bool := false
  deriving DecidableEq, Repr

def Flags.change (f : Flags) : Flag × Bool → Flags
  | (.ignoreCase, on) => { f with ignoreCase := on }
  | (.multiLine, on) => { f with multiLine := on }
  | (.dotAll, on) => { f with dotAll := on }
  | (.swapGreed, on) => { f with swapGreed := on }
  | (.unicode, on) => { f with unicode := on }
  | (.returns, on) => { f with returns := on }
  | (.spaced, _) => f

def Flags.changeAll (f : Flags) (changes : FlagChanges) : Flags := changes.foldl change f

def refuse {α : Type} (cause : Cause) (span : Span) : Except Fault α :=
  .error { cause, span }

/-! ## Sets -/

def AsciiSet.ranges : AsciiSet → List (Nat × Nat)
  | alnum => [(0x30, 0x39), (0x41, 0x5A), (0x61, 0x7A)]
  | alpha => [(0x41, 0x5A), (0x61, 0x7A)]
  | ascii => [(0x00, 0x7F)]
  | blank => [(0x09, 0x09), (0x20, 0x20)]
  | cntrl => [(0x00, 0x1F), (0x7F, 0x7F)]
  | digit => [(0x30, 0x39)]
  | graph => [(0x21, 0x7E)]
  | lower => [(0x61, 0x7A)]
  | print => [(0x20, 0x7E)]
  | punct => [(0x21, 0x2F), (0x3A, 0x40), (0x5B, 0x60), (0x7B, 0x7E)]
  | space => [(0x09, 0x0D), (0x20, 0x20)]
  | upper => [(0x41, 0x5A)]
  | word => [(0x30, 0x39), (0x41, 0x5A), (0x5F, 0x5F), (0x61, 0x7A)]
  | xdigit => [(0x30, 0x39), (0x41, 0x46), (0x61, 0x66)]

def Shorthand.asciiSet : Shorthand → AsciiSet
  | digit => .digit
  | space => .space
  | word => .word

def SetOperator.apply : SetOperator → CharSet → CharSet → CharSet
  | inter => CharSet.inter
  | diff => CharSet.diff
  | symmDiff => CharSet.symmDiff

namespace Flags

/-- The set with the other case of its characters, if the flags ask for it. -/
def withCases (f : Flags) (span : Span) (s : CharSet) : Except Fault CharSet :=
  if !f.ignoreCase || s.isEmpty then .ok s
  else if f.unicode then refuse .caseUnknown span
  else .ok s.foldCase

/-- The set, or what it leaves out. Bytes beyond ASCII are no text. -/
def orRest (f : Flags) (span : Span) (negated : Bool) (s : CharSet) : Except Fault CharSet :=
  let s := if negated then (if f.unicode then CharSet.all else CharSet.bytes).diff s else s
  if f.unicode || s.isAscii then .ok s else refuse .invalidUtf8 span

/-- The code of a character in a set. -/
def setCode (f : Flags) (l : Literal) : Except Fault Nat :=
  if f.unicode || l.char.toNat < 0x80 then .ok l.char.toNat
  else refuse (if l.isByte then .invalidUtf8 else .characterNotAllowed) l.span

def shorthand (f : Flags) (span : Span) (kind : Shorthand) (negated : Bool) : Except Fault CharSet :=
  if f.unicode then refuse .shorthandUnknown span
  else f.orRest span negated (CharSet.ofRanges kind.asciiSet.ranges)

/-- The name of a property in small letters, without blanks, signs and a leading `is`. -/
def plainName (name : String) : List Char :=
  let letters := name.toList.map Char.toLower
  let body := if ['i', 's'].isPrefixOf letters then letters.drop 2 else letters
  body.filter fun c => c.toNat < 0x80 && c != ' ' && c != '_' && c != '-'

/-- No property is known. Three names are those of values before they are those of properties. -/
def property {α : Type} (f : Flags) (span : Span) (name? : Option String) : Except Fault α :=
  if !f.unicode then refuse .characterNotAllowed span
  else if (name?.map plainName).any ([['c', 'f'], ['s', 'c'], ['l', 'c']].contains ·) then
    refuse .propertyValueUnknown span
  else refuse .propertyUnknown span

end Flags

/-- The members of a set. -/
def SetExpr.members (f : Flags) : SetExpr → Except Fault CharSet
  | empty _ => .ok .empty
  | literal l => do
    let n ← f.setCode l
    return .range n n
  | range _ first last => return CharSet.all.inter (.range (← f.setCode first) (← f.setCode last))
  | ascii span name negated => do
    f.orRest span negated (← f.withCases span (CharSet.ofRanges name.ranges))
  | shorthand span kind negated => f.shorthand span kind negated
  | property span name? => f.property span name?
  | bracketed span negated body => do
    f.orRest span negated (← f.withCases span (← body.members f))
  | union _ items => unionOf .empty items
  | combine _ op left right => do
    let l ← left.members f
    let r ← right.members f
    let r ← f.withCases right.span r
    let l ← f.withCases left.span l
    return op.apply l r
where
  unionOf (s : CharSet) : List SetExpr → Except Fault CharSet
    | [] => .ok s
    | item :: items => do unionOf (s.union (← item.members f)) items

/-! ## Expressions -/

/-- The pattern of a single character. -/
def Flags.literal (f : Flags) (l : Literal) : Except Fault Pattern :=
  let n := l.char.toNat
  if !f.unicode && l.isByte && 0x80 ≤ n then refuse .invalidUtf8 l.span
  else if !f.ignoreCase then .ok (.literal [l.char])
  else if f.unicode then refuse .caseUnknown l.span
  else .ok (.ofSet (CharSet.range n n).foldCase)

def Flags.dot (f : Flags) (span : Span) : Except Fault Pattern :=
  if !f.unicode then refuse .invalidUtf8 span
  else
    let ends := if f.dotAll then .empty
      else if f.returns then CharSet.ofRanges [(0x0A, 0x0A), (0x0D, 0x0D)]
      else .range 0x0A 0x0A
    .ok (.char (CharSet.all.diff ends))

def Flags.edge (f : Flags) : Edge → Pattern
  | .lineStart =>
    .boundary (if !f.multiLine then .textStart else if f.returns then .lineStartReturn else .lineStart) false
  | .lineStop =>
    .boundary (if !f.multiLine then .textStop else if f.returns then .lineStopReturn else .lineStop) false
  | .fixed b => .boundary b (f.unicode && b != .textStart && b != .textStop)

/-- The pattern of an expression, and the flags that hold after it. -/
def Expr.pattern : Expr → StateT Flags (Except Fault) Pattern
  | empty _ => return .empty
  | flags _ changes => do
    modify (·.changeAll changes)
    return .empty
  | literal l => do (← get).literal l
  | dot span => do (← get).dot span
  | edge _ e => return (← get).edge e
  | shorthand span kind negated => return .ofSet (← (← get).shorthand span kind negated)
  | property span name? => do (← get).property span name?
  | set span negated body => do
    let f ← get
    let s ← f.withCases span (← body.members f)
    return .ofSet (← f.orRest span negated s)
  | times _ n body => do
    let p ← body.pattern
    return p.repeated n.least n.most? (n.marked != (← get).swapGreed)
  | group _ captures changes body => do
    let outer ← get
    modify (·.changeAll changes)
    let p ← body.pattern
    modify fun _ => outer
    return if captures then .group p else p
  | choice _ branches => return .choice (← patterns branches)
  | concat _ parts => return .concat (← patterns parts)
where
  patterns : List Expr → StateT Flags (Except Fault) (List Pattern)
    | [] => return []
    | e :: es => return (← e.pattern) :: (← patterns es)

/-- The pattern that a text describes. It is written out backwards only if it is supported. -/
def read (text : String) : Except Error Pattern := do
  let pattern : Except Fault Pattern := do
    let e ← Expr.read text.toList
    (·.1) <$> e.pattern.run {}
  match pattern with
  | .error f => .error (.fault f text.toList)
  | .ok p =>
    if maxSize < p.searchSize false then .error .tooLarge
    else if p.asksAllScripts then .error .unsupported
    else if maxSize < p.searchSize true then .error .tooLarge
    else .ok p

example : (read "l{2}$").map (·.occursIn ['c', 'a', 'l', 'l']) = .ok true := by cbv

end HackStack.Pattern
