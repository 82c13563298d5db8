import HackStack.Command.Reader
import HackStack.Text.Lines
/-!
# Source text

A line of source holds at most one command. Two slashes start a comment, which
runs to the end of the line. `Source.read` reads all lines and stops at the
first one that is no command; lines are counted from one, blank ones too.
-/

namespace HackStack

/-- A command, the number of its line, and the line without comment and blank ends. -/
structure SourceCommand where
  line : Nat
  text : String
  command : Command
  deriving DecidableEq, Repr

/-- What is wrong with a line. -/
structure LineError where
  line : Nat
  text : String
  cause : CommandError
  deriving DecidableEq, Repr

def LineError.message (e : LineError) : String :=
  s!"line {e.line}: `{e.text}`: {e.cause.message}"

namespace Source

/-- The part of a line in front of the first two slashes. -/
def beforeComment : List Char → List Char
  | [] => []
  | '/' :: '/' :: _ => []
  | c :: cs => c :: beforeComment cs

/-- What is left of a line without comment and blank ends, if anything is. -/
def clean? (line : List Char) : Option (List Char) :=
  let text := Text.trim (beforeComment line)
  if text.isEmpty then none else some text

/-- The lines that have something left, with their numbers. -/
def entries (source : String) : List (Nat × String) :=
  ((Text.lines source.toList).zipIdx 1).filterMap fun (line, number) =>
    (clean? line).map fun text => (number, String.ofList text)

def readEntry (e : Nat × String) : Except LineError SourceCommand :=
  match Command.read e.2 with
  | .ok c => .ok { line := e.1, text := e.2, command := c }
  | .error cause => .error { line := e.1, text := e.2, cause }

/-- The commands of a source text, or what is wrong with its first bad line. -/
def read (source : String) : Except LineError (List SourceCommand) :=
  (entries source).mapM readEntry

end Source

end HackStack
