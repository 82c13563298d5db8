import HackStack.Assembly.Code
import HackStack.Command.Check
import HackStack.Source
/-!
# Emitting code

An emitter holds the lines written so far. It appends the code of one command
after another, and its counters never go back, so several units can share one
emitter and their generated labels stay apart.

What an emitter does is an `Action`: it changes the emitter as it goes, and one
that fails leaves behind what it has changed up to there.
-/

namespace HackStack

/-- The first cell of the stack. -/
def stackBase : Nat := 256

/-- The function a program starts with. -/
def entryPoint : String := "Sys.init"

structure Emitter where
  /-- The unit whose commands follow. -/
  unit : String := ""
  counters : Counters := {}
  /-- Whether a comment goes in front of each command's code. -/
  echo : Bool := true
  lines : Array Line := #[]
  deriving DecidableEq, Repr

namespace Emitter

/-- What an emitter can do. -/
abbrev Action (ε α : Type) : Type := ExceptT ε (StateM Emitter) α

/-- The emitter that an action leaves behind, and what comes of the action. -/
def perform {ε α : Type} (e : Emitter) (a : Action ε α) : Emitter × Except ε α :=
  (a.run.run e).swap

/-- Writes lines. -/
def write (lines : List Line) : StateM Emitter Unit :=
  modify fun e => { e with lines := e.lines ++ lines }

/-- Writes the comment in front of some code, if comments are wanted. -/
def remark (text : String) : StateM Emitter Unit := do
  if (← get).echo then write [.comment text]

/-! ## Commands -/

/-- The code of an operator. A comparison takes the next number of its kind. -/
def operate (op : Operator) : StateM Emitter (List Line) := do
  let n := (← get).counters
  if let .compare c := op then modify fun e => { e with counters := n.next c }
  return op.code n

/-- The code of a call, which takes the next number. -/
def call (callee : String) (args : UInt16) : StateM Emitter (List Line) := do
  let n := (← get).counters
  modify fun e => { e with counters := { n with call := n.call + 1 } }
  return callCode callee args n.call

/-- The code of a transfer, once its index has been checked. -/
def transfer (d : Direction) (s : Segment) (index : UInt16) : Action CommandError (List Line) := do
  s.checkIndex d index
  return d.code (s.place (← get).unit index)

/-- The code of a command. -/
def code : Command → Action CommandError (List Line)
  | .operate op => operate op
  | .push s i => transfer .push s i
  | .pop s i => transfer .pop s i
  | .label name => return [.label (.named name)]
  | .goto name => return [.symbol (.named name), .jump .zero .always]
  | .ifGoto name => return popD ++ [.symbol (.named name), .jump .d .ne]
  | .function name locals => return functionCode name locals
  | .call name args => do
    checkArgs args
    call name args
  | .ret => return returnCode

def emit (c : Command) : Action CommandError Unit := do
  let code ← code c
  remark c.display
  write code

/-- Emits the commands in order up to the first one that fails, which is reported with its line. -/
def emitAll (cs : List SourceCommand) : Action LineError Unit :=
  cs.forM fun c => (emit c.command).adapt fun cause => { line := c.line, text := c.text, cause }

/-! ## Start and units -/

/-- Sets the stack pointer to the base of the stack and calls the entry point. -/
def boot : StateM Emitter Unit := do
  remark "bootstrap"
  write [.number stackBase, .set .d (.get .a), .symbol .sp, .set .m .d]
  remark s!"call {entryPoint} 0"
  write (← call entryPoint 0)

def bootstrap (e : Emitter) : Emitter := (boot.run e).2

/-- Names the unit whose commands follow. -/
def enter (e : Emitter) (unit : String) : Emitter :=
  { e with unit }

end Emitter

end HackStack
