/-!
# Control sequences

Some characters are directions to a terminal and not text: the control
characters other than tab, line feed, form feed and carriage return, and the
sequences that an escape character starts. `withoutControls` leaves them out.
Sequences are told by their bytes, so a character beyond ASCII within one belongs
to it.
-/

namespace HackStack.Text

/-- Where in a sequence a text stands. -/
inductive ControlState
  | ground
  /-- After an escape character. -/
  | escape
  /-- After an escape character and signs. -/
  | escapeSigns
  /-- After an escape character and an opening bracket, up to a letter. -/
  | csi
  /-- At the start of a string for a device, after digits, and after signs. -/
  | device | deviceDigits | deviceSigns
  /-- In a string that has a terminator of its own. -/
  | hidden
  /-- In a command to the terminal, which a bell ends. -/
  | command
  deriving DecidableEq, Repr

/-- A control character that is shown: it sets text apart. -/
def isShownControl (c : Char) : Bool := c == '\t' || c == '\n' || c == '\x0c' || c == '\r'

/-- A character that is text by itself. -/
def isPrintable (c : Char) : Bool :=
  (' ' ≤ c && c ≤ '~') || 0x80 ≤ c.toNat || isShownControl c

/-- The bytes of a character beyond ASCII end a hidden string if one of them is the terminator. -/
def holdsTerminator (c : Char) : Bool :=
  0x80 ≤ c.toNat && (String.utf8EncodeChar c).contains 0x9C

namespace ControlState

/-- Where the letter or sign after an escape character leads. -/
def afterEscape (c : Char) : ControlState :=
  if c = '[' then csi
  else if c = ']' then command
  else if c = 'P' then device
  else if c = 'X' ∨ c = '^' ∨ c = '_' then hidden
  else ground

/-- Where a character leads. -/
def next (s : ControlState) (c : Char) : ControlState :=
  let isSign := ' ' ≤ c && c ≤ '/'
  let isDigit := '0' ≤ c && c ≤ '?'
  let isFinal := '@' ≤ c && c ≤ '~'
  if c = '\x18' ∨ c = '\x1a' then ground
  else if c = '\x1b' then escape
  else match s with
    | ground => ground
    | escape => if isSign then escapeSigns else if isDigit || isFinal then afterEscape c else escape
    | escapeSigns => if isDigit || isFinal then ground else escapeSigns
    | csi => if isFinal then ground else csi
    | device =>
      if isSign then deviceSigns else if isDigit then deviceDigits else if isFinal then hidden else device
    | deviceDigits =>
      if isSign then deviceSigns else if '<' ≤ c ∧ c ≤ '~' then hidden else deviceDigits
    | deviceSigns => if isDigit || isFinal then hidden else deviceSigns
    | hidden => if holdsTerminator c then ground else hidden
    | command => if c = '\x07' then ground else command

/-- Whether a character is shown where the text stands at `s`. Within a sequence only the controls
that set text apart are, and within a string nothing is. -/
def shows : ControlState → Char → Bool
  | ground, c => isPrintable c
  | escape, c | escapeSigns, c | csi, c => isShownControl c
  | _, _ => false

end ControlState

/-- The text without control sequences, from the state `s` on. Where a character is shown, so is all
that follows up to the next control; that one goes on with an unfinished sequence, unless a
character beyond ASCII came in between. -/
def withoutControlsFrom (s : ControlState) (shown : Bool) : List Char → List Char
  | [] => []
  | c :: cs =>
    if shown && isPrintable c then
      c :: withoutControlsFrom (if 0x80 ≤ c.toNat then .ground else s) true cs
    else if s.shows c then c :: withoutControlsFrom (s.next c) true cs
    else withoutControlsFrom (s.next c) false cs

def withoutControls (s : List Char) : List Char := withoutControlsFrom .ground true s

example : withoutControls ['a', '\x1b', '[', '3', '1', 'm', 'b', '\x07', '\n'] = ['a', 'b', '\n'] := by decide

end HackStack.Text
