import HackStack.Pattern.Expr
import HackStack.Text.Blank
/-!
# Walking over the text of a pattern

A reader takes characters off the rest of the text and keeps the place where it
stands. In a spaced text it passes over blank characters and over comments,
which run from a number sign to the end of the line.
-/

namespace HackStack.Pattern

structure Cursor where
  rest : List Char
  place : Place := {}
  spaced : Bool := false
  /-- The names of the groups so far, with their spans. -/
  names : List (String × Span) := []

abbrev Reader := StateT Cursor (Except Fault)

namespace Cursor

/-- The cursor one character further. -/
def next (c : Cursor) : Cursor :=
  match c.rest with
  | [] => c
  | ch :: rest => { c with rest, place := c.place.next ch }

/-- The cursor behind the characters at its start for which `f` holds. -/
def passWhile (f : Char → Bool) (c : Cursor) : Cursor :=
  { c with rest := c.rest.dropWhile f, place := (c.rest.takeWhile f).foldl Place.next c.place }

/-- What is left behind blank characters and comments, and the place there; `inComment` says whether
the text stands in a comment. -/
def passSpace (inComment : Bool) : List Char → Place → List Char × Place
  | [], p => ([], p)
  | ch :: rest, p =>
    if inComment then passSpace (ch != '\n') rest (p.next ch)
    else if Text.isBlank ch then passSpace false rest (p.next ch)
    else if ch = '#' then passSpace true rest (p.next ch)
    else (ch :: rest, p)

/-- The cursor behind what means nothing. -/
def settled (c : Cursor) : Cursor :=
  if c.spaced then
    let (rest, place) := passSpace false c.rest c.place
    { c with rest, place }
  else c

/-- The character at the cursor as a span. -/
def charSpan (c : Cursor) : Span :=
  { start := c.place, stop := c.next.place }

/-- The character after the one at the cursor. -/
def second? (c : Cursor) : Option Char := c.rest.tail.head?

/-- As `second?`, passing over blank characters and a number sign in a spaced text. If nothing else
follows, the character right behind counts. -/
def secondSettled? (c : Cursor) : Option Char :=
  if c.spaced then
    let found := match c.rest.tail.dropWhile Text.isBlank with
      | '#' :: comment => (comment.dropWhile Text.isBlank).head?
      | rest => rest.head?
    found <|> c.second?
  else c.second?

end Cursor

namespace Reader

variable {α : Type}

/-- The character at the cursor. -/
def char? : Reader (Option Char) := return (← get).rest.head?

def place : Reader Place := return (← get).place

def charSpan : Reader Span := return (← get).charSpan

/-- The span from a place to the cursor. -/
def spanFrom (start : Place) : Reader Span := return { start, stop := ← place }

def fail (cause : Cause) (span : Span) (earlier? : Option Span := none) : Reader α :=
  throw { cause, span, earlier? }

/-- Fails at the cursor. -/
def failHere (cause : Cause) : Reader α := do fail cause (← spanFrom (← place))

def settle : Reader Unit := modify Cursor.settled

/-- Goes one character further. -/
def advance : Reader Unit := modify Cursor.next

/-- Goes one character further and passes over what means nothing. Gives the character there. -/
def step : Reader (Option Char) := do
  advance
  settle
  char?

/-- Passes over the text, if it comes next. -/
def accept (text : List Char) : Reader Bool := do
  if text.isPrefixOf (← get).rest then
    modify fun c => text.foldl (fun c _ => c.next) c
    return true
  else return false

end Reader

end HackStack.Pattern
