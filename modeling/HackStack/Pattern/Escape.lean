import HackStack.Pattern.Cursor
/-!
# Escapes

A backslash takes the meaning off a character, or gives one to a letter: a
control character, the code of a character in hexadecimal digits, a set, a
property or a boundary.
-/

namespace HackStack.Pattern

/-- Whether a backslash in front of the character only takes its meaning off: that goes for all of
ASCII but letters, digits and the angles, which mark boundaries. -/
def isPlainEscape (c : Char) : Bool :=
  c.toNat < 0x80 && !c.isAlphanum && c != '<' && c != '>'

/-- The control character of a letter. -/
def controlOf? : Char → Option Char
  | 'a' => some '\x07'
  | 'f' => some '\x0c'
  | 't' => some '\t'
  | 'n' => some '\n'
  | 'r' => some '\r'
  | 'v' => some '\x0b'
  | _ => none

/-- The set of a letter; a capital stands for all other characters. -/
def shorthandOf? : Char → Option (Shorthand × Bool)
  | 'd' => some (.digit, false)
  | 'D' => some (.digit, true)
  | 's' => some (.space, false)
  | 'S' => some (.space, true)
  | 'w' => some (.word, false)
  | 'W' => some (.word, true)
  | _ => none

def boundaryOf? : Char → Option Boundary
  | 'A' => some .textStart
  | 'z' => some .textStop
  | 'b' => some .word
  | 'B' => some .notWord
  | '<' => some .wordStart
  | '>' => some .wordStop
  | _ => none

/-- The boundary that a name in braces makes of the boundary of words. -/
def boundaryNamed? : List Char → Option Boundary
  | ['s', 't', 'a', 'r', 't'] => some .wordStart
  | ['e', 'n', 'd'] => some .wordStop
  | ['s', 't', 'a', 'r', 't', '-', 'h', 'a', 'l', 'f'] => some .wordStartHalf
  | ['e', 'n', 'd', '-', 'h', 'a', 'l', 'f'] => some .wordStopHalf
  | _ => none

/-- How many digits follow the letter, where there are no braces. -/
def hexWidth? : Char → Option Nat
  | 'x' => some 2
  | 'u' => some 4
  | 'U' => some 8
  | _ => none

def hexDigit? (c : Char) : Option Nat :=
  if c.isDigit then some (c.toNat - 0x30)
  else if 'a' ≤ c ∧ c ≤ 'f' then some (c.toNat - 0x57)
  else if 'A' ≤ c ∧ c ≤ 'F' then some (c.toNat - 0x37)
  else none

/-- The character whose code the digits give. -/
def charOfDigits? (digits : List Nat) : Option Char :=
  let code := digits.foldl (fun n d => 16 * n + d) 0
  if code.isValidChar then some (Char.ofNat code) else none

namespace Reader

/-- The digit at the cursor. -/
def hexDigit (c : Char) : Reader Nat := do
  match hexDigit? c with
  | some d => return d
  | none => fail .hexDigit (← charSpan)

/-- Reads `n` digits, the first of which is at the cursor. -/
def hexDigits : Nat → Reader (List Nat)
  | 0 => return []
  | n + 1 => do
    let some c ← char? | failHere .escapeEnd
    let d ← hexDigit c
    let _ ← step
    return d :: (← hexDigits n)

/-- Goes on to the closing brace and gives what each character on the way reads as. The cursor
stands in front of the first of them, and `fuel` is at least their number. -/
def inBraces {α : Type} (read : Char → Reader α) : (fuel : Nat) → Reader (List α)
  | 0 => return []
  | fuel + 1 => do
    match ← step with
    | none | some '\x7d' => return []
    | some c => return (← read c) :: (← inBraces read fuel)

/-- Reads a code in hexadecimal digits. The cursor stands at the letter of an escape that starts at
`start`. -/
def hexLiteral (start : Place) (width : Nat) : Reader Literal := do
  match ← step with
  | none => failHere .escapeEnd
  | some '\x7b' =>
    let brace ← place
    let first := (← charSpan).stop
    let digits ← inBraces hexDigit (← get).rest.length
    if (← char?).isNone then fail .escapeEnd (← spanFrom brace)
    let digitSpan ← spanFrom first
    let _ ← step
    if digits.isEmpty then fail .hexEmpty (← spanFrom brace)
    match charOfDigits? digits with
    | some c => return { span := ← spanFrom start, char := c }
    | none => fail .hexInvalid digitSpan
  | some _ =>
    let first ← place
    let digits ← hexDigits width
    match charOfDigits? digits with
    | some c => return { span := ← spanFrom start, char := c, isByte := width == 2 }
    | none => fail .hexInvalid (← spanFrom first)

/-- Reads the name of a property, which is one letter or stands in braces. A name with a value has
no name of its own. -/
def propertyName : Reader (Option String) := do
  match ← step with
  | none => failHere .escapeEnd
  | some '\x7b' =>
    let name ← inBraces (return ·) (← get).rest.length
    if (← char?).isNone then failHere .escapeEnd
    advance
    return if name.contains ':' || name.contains '=' then none else some (String.ofList name)
  | some '\\' => fail .propertyLetter (← charSpan)
  | some c =>
    let _ ← step
    return some c.toString

def isBoundaryNameChar (c : Char) : Bool := c.isAlpha || c == '-'

/-- Reads the name of a boundary, of which `fuel` is at least the length. -/
def boundaryName : (fuel : Nat) → Reader (List Char)
  | 0 => return []
  | fuel + 1 => do
    match ← char? with
    | some c =>
      if isBoundaryNameChar c then
        let _ ← step
        return c :: (← boundaryName fuel)
      else return []
    | none => return []

/-- Reads a name in braces after the boundary of words. Other braces are left alone, as they count
repetitions. -/
def boundaryInBraces (start : Place) : Reader Boundary := do
  let before ← get
  match before.rest.head? with
  | some '\x7b' =>
    match ← step with
    | none => fail .boundaryEnd (← spanFrom start)
    | some c =>
      if isBoundaryNameChar c then
        let first ← place
        let name ← boundaryName (← get).rest.length
        if (← char?) ≠ some '\x7d' then fail .boundaryUnclosed (← spanFrom before.place)
        let nameSpan ← spanFrom first
        advance
        match boundaryNamed? name with
        | some b => return b
        | none => fail .boundaryUnknown nameSpan
      else
        set before
        return .word
  | _ => return .word

/-- Reads the escape at the cursor, which stands at a backslash. -/
def escape : Reader Expr := do
  let start ← place
  advance
  let some c ← char? | fail .escapeEnd (← spanFrom start)
  if c.isDigit then fail .backreference { start, stop := (← charSpan).stop }
  if let some width := hexWidth? c then return .literal (← hexLiteral start width)
  if c = 'p' ∨ c = 'P' then
    let name? ← propertyName
    return .property (← spanFrom start) name?
  advance
  let span ← spanFrom start
  if let some (kind, negated) := shorthandOf? c then return .shorthand span kind negated
  if isPlainEscape c then return .literal { span, char := c }
  if let some control := controlOf? c then return .literal { span, char := control }
  match boundaryOf? c with
  | some .word =>
    let b ← boundaryInBraces start
    return .edge (← spanFrom start) (.fixed b)
  | some b => return .edge span (.fixed b)
  | none => fail .escapeUnknown span

end Reader

end HackStack.Pattern
