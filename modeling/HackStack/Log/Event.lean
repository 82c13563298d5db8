import HackStack.Command.Basic
import HackStack.File.Path
import HackStack.Text.Control
import HackStack.Text.Lines
/-!
# Progress events

A job reports its progress as events, each with a level and a topic. The level
says how much detail it is, and the topic which part of the work it is about.
-/

namespace HackStack.Log

/-- How much is shown, from nothing to everything. -/
inductive Level
  | off | error | warn | info | debug | trace
  deriving DecidableEq, Repr

namespace Level

def rank : Level → Nat
  | off => 0
  | error => 1
  | warn => 2
  | info => 3
  | debug => 4
  | trace => 5

def name : Level → String
  | off => "OFF"
  | error => "ERROR"
  | warn => "WARN"
  | info => "INFO"
  | debug => "DEBUG"
  | trace => "TRACE"

/-- The level with the given name, in capitals or not. -/
def ofName? (s : String) : Option Level :=
  [off, error, warn, info, debug, trace].find? (·.name == s.map Char.toUpper)

end Level

/-- What an event is about: a job as a whole, or the code of one command. -/
inductive Topic
  | job | code
  deriving DecidableEq, Repr

inductive Event
  | start (units : Nat) (output : FilePath) (bootstrap : Bool)
  | unitRead (unit : String) (commands : Nat)
  | command (unit : String) (c : Command)
  | finish (lines : Nat)
  deriving DecidableEq, Repr

namespace Event

def level : Event → Level
  | start .. | finish _ => .info
  | unitRead .. => .debug
  | command .. => .trace

def topic : Event → Topic
  | command .. => .code
  | _ => .job

def message : Event → String
  | start units output bootstrap => s!"translating {units} unit(s) into {output.text} (bootstrap: {bootstrap})"
  | unitRead unit commands => s!"{unit}: {commands} commands"
  | command unit c => unit ++ ": " ++ c.display
  | finish lines => s!"wrote {lines} instructions"

/-- The event as the log shows it, with its line end: further lines of the message are indented, and
control sequences are left out, which may take the line end with them. -/
def text (e : Event) : String :=
  let body := Text.indentRest "    " e.message ++ "\n"
  e.level.name ++ " " ++ String.ofList (Text.withoutControls body.toList)

end Event

end HackStack.Log
