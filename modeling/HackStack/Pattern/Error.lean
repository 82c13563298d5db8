import HackStack.Text.Lines
/-!
# What can be wrong with a pattern

A fault has a cause and the span of the text it is about. The report shows the
text of the pattern with marks below the span, and then the cause; the lines of
a text of several lines are numbered. A text can also be a proper pattern that
is not supported.
-/

namespace HackStack.Pattern

/-- A line and a column of a text, from one. -/
structure Place where
  line : Nat := 1
  column : Nat := 1
  deriving DecidableEq, Repr

/-- The place after the character. -/
def Place.next (p : Place) (c : Char) : Place :=
  if c = '\n' then { line := p.line + 1, column := 1 } else { p with column := p.column + 1 }

def Place.le (p q : Place) : Bool :=
  p.line < q.line || p.line == q.line && p.column ≤ q.column

/-- From a place up to the place behind it. -/
structure Span where
  start : Place
  stop : Place
  deriving DecidableEq, Repr

def Span.le (a b : Span) : Bool :=
  if a.start = b.start then a.stop.le b.stop else a.start.le b.start

inductive Cause
  | classEscape
  | classRangeOrder
  | classRangeLiteral
  | classUnclosed
  | decimalInvalid
  | hexEmpty
  | hexInvalid
  | hexDigit
  | escapeEnd
  | escapeUnknown
  | flagDanglingNegation
  | flagTwice
  | flagNegationTwice
  | flagEnd
  | flagUnknown
  | nameTwice
  | nameEmpty
  | nameInvalid
  | nameEnd
  | groupUnclosed
  | groupUnopened
  | nesting (limit : Nat)
  | countOrder
  | countEmpty
  | countUnclosed
  | nothingToRepeat
  | boundaryUnclosed
  | boundaryUnknown
  | boundaryEnd
  | propertyLetter
  | backreference
  | lookAround
  | invalidUtf8
  | characterNotAllowed
  | propertyUnknown
  | propertyValueUnknown
  | shorthandUnknown
  | caseUnknown
  deriving DecidableEq, Repr

def Cause.message : Cause → String
  | classEscape => "invalid escape sequence found in character class"
  | classRangeOrder => "invalid character class range, the start must be <= the end"
  | classRangeLiteral => "invalid range boundary, must be a literal"
  | classUnclosed => "unclosed character class"
  | decimalInvalid => "decimal literal invalid"
  | hexEmpty => "hexadecimal literal empty"
  | hexInvalid => "hexadecimal literal is not a Unicode scalar value"
  | hexDigit => "invalid hexadecimal digit"
  | escapeEnd => "incomplete escape sequence, reached end of pattern prematurely"
  | escapeUnknown => "unrecognized escape sequence"
  | flagDanglingNegation => "dangling flag negation operator"
  | flagTwice => "duplicate flag"
  | flagNegationTwice => "flag negation operator repeated"
  | flagEnd => "expected flag but got end of regex"
  | flagUnknown => "unrecognized flag"
  | nameTwice => "duplicate capture group name"
  | nameEmpty => "empty capture group name"
  | nameInvalid => "invalid capture group character"
  | nameEnd => "unclosed capture group name"
  | groupUnclosed => "unclosed group"
  | groupUnopened => "unopened group"
  | nesting limit => s!"exceed the maximum number of nested parentheses/brackets ({limit})"
  | countOrder => "invalid repetition count range, the start must be <= the end"
  | countEmpty => "repetition quantifier expects a valid decimal"
  | countUnclosed => "unclosed counted repetition"
  | nothingToRepeat => "repetition operator missing expression"
  | boundaryUnclosed => "special word boundary assertion is either unclosed or contains an invalid character"
  | boundaryUnknown =>
    "unrecognized special word boundary assertion, valid choices are: start, end, start-half or end-half"
  | boundaryEnd =>
    "found either the beginning of a special word boundary or a bounded repetition on a \\b with an opening " ++
      "brace, but no closing brace"
  | propertyLetter => "invalid Unicode character class"
  | backreference => "backreferences are not supported"
  | lookAround => "look-around, including look-ahead and look-behind, is not supported"
  | invalidUtf8 => "pattern can match invalid UTF-8"
  | characterNotAllowed => "Unicode not allowed here"
  | propertyUnknown => "Unicode property not found"
  | propertyValueUnknown => "Unicode property value not found"
  | shorthandUnknown =>
    "Unicode-aware Perl class not found (make sure the unicode-perl feature is enabled)"
  | caseUnknown =>
    "Unicode-aware case insensitivity matching is not available " ++
      "(make sure the unicode-case feature is enabled)"

structure Fault where
  cause : Cause
  span : Span
  /-- The earlier part of the text that the fault clashes with. -/
  earlier? : Option Span := none
  deriving DecidableEq, Repr

/-! ## The report -/

/-- Marks for spans of one line, in order, where `column` columns are done. -/
def marks (column : Nat) : List Span → List Char
  | [] => []
  | s :: spans =>
    let gap := s.start.column - 1 - column
    let width := max 1 (s.stop.column - s.start.column)
    List.replicate gap ' ' ++ List.replicate width '^' ++ marks (column + gap + width) spans

/-- A line of the text, with its number if there are several, and the marks below it. -/
def noteLine (width : Nat) (spans : List Span) (line : List Char) (number : Nat) : List Char :=
  let head := if width = 0 then [' ', ' ', ' ', ' '] else
    (toString number).toList.leftpad width ' ' ++ [':', ' ']
  let here := spans.filter (·.start.line == number)
  let below := if here.isEmpty then [] else List.replicate head.length ' ' ++ marks 0 here ++ ['\n']
  head ++ line ++ '\n' :: below

/-- The words for a span of several lines. -/
def spanNote (s : Span) : String :=
  s!"on line {s.start.line} (column {s.start.column}) through line {s.stop.line} (column {s.stop.column - 1})"

def Fault.report (f : Fault) (text : List Char) : String :=
  let lines := Text.lines text
  let count := if text.getLast? = some '\n' then lines.length + 1 else lines.length
  let width := if count ≤ 1 then 0 else (toString count).length
  let spans := (f.span :: f.earlier?.toList).mergeSort Span.le
  let (inLine, across) := spans.partition fun s => s.start.line == s.stop.line
  let notes := String.ofList ((lines.zipIdx 1).flatMap fun (line, number) => noteLine width inLine line number)
  let divider := String.ofList (List.replicate 79 '~') ++ "\n"
  let body := if text.contains '\n' then
    divider ++ notes ++ divider ++ (if across.isEmpty then "" else Text.joinLines (across.map spanNote))
  else notes
  "regex parse error:\n" ++ body ++ "error: " ++ f.cause.message

example : Fault.report { cause := .groupUnclosed, span := ⟨⟨1, 2⟩, ⟨1, 3⟩⟩ } ['a', '('] =
    "regex parse error:\n    a(\n     ^\nerror: unclosed group" := by decide +kernel

/-- Why a text gives no pattern. -/
inductive Error
  | fault (f : Fault) (text : List Char)
  /-- The pattern asks for words of all scripts. -/
  | unsupported
  | tooLarge
  deriving DecidableEq, Repr

def Error.message : Error → String
  | fault f text => f.report text
  | unsupported => "error building NFA"
  | tooLarge => "Compiled regex exceeds size limit of 10485760 bytes."

end HackStack.Pattern
