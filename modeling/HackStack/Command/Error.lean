import HackStack.Command.Basic
/-!
# What can be wrong with a command

Each cause is a constructor with the data its text needs. `CommandError.fault`
sorts the causes into two classes: the words do not form a command, or they do
and an operand is out of its range.
-/

namespace HackStack

/-- The largest number an address instruction can load. -/
def maxImmediate : Nat := 32767

/-- The number of cells in the temp segment. -/
def tempSize : Nat := 8

/-- The number of cells a call saves on the stack: the return address and four segment bases. -/
def frameSize : Nat := 5

/-- The largest number of arguments of a call: with the frame it still fits an address instruction. -/
def maxArgs : Nat := maxImmediate - frameSize

inductive CommandError
  | empty
  | unknownCommand (word : String)
  | operandCount (word : String) (expected found : Nat)
  | badNumber (word : String)
  | badSymbol (word : String)
  | unknownSegment (word : String)
  | popConstant
  | constantRange (index : UInt16)
  | pointerRange (index : UInt16)
  | tempRange (index : UInt16)
  | offsetRange (segment : Segment) (index : UInt16)
  | argumentCount (args : UInt16)
  deriving DecidableEq, Repr

namespace CommandError

/-- The two classes of faults. -/
inductive Fault
  | malformed | invalidOperand
  deriving DecidableEq, Repr

def Fault.label : Fault → String
  | malformed => "malformed command"
  | invalidOperand => "invalid operand"

def fault : CommandError → Fault
  | empty | unknownCommand _ | operandCount .. | badNumber _ | badSymbol _ => .malformed
  | _ => .invalidOperand

def detail : CommandError → String
  | empty => "empty command"
  | unknownCommand w => s!"unknown command `{w}`"
  | operandCount w expected found => s!"`{w}` takes {expected} operand(s), found {found}"
  | badNumber w => s!"expected a non-negative integer no larger than 65535, found `{w}`"
  | badSymbol w => s!"`{w}` is not a valid symbol"
  | unknownSegment w => s!"unknown segment `{w}`"
  | popConstant => "cannot pop into the constant segment"
  | constantRange i => s!"constant {i} exceeds {maxImmediate}"
  | pointerRange i => s!"pointer index must be 0 or 1, got {i}"
  | tempRange i => s!"temp index must be in 0..={tempSize - 1}, got {i}"
  | offsetRange s i => s!"{s.name} index {i} exceeds {maxImmediate}"
  | argumentCount n => s!"call with {n} arguments exceeds {maxArgs}"

def message (e : CommandError) : String :=
  e.fault.label ++ ": " ++ e.detail

end CommandError

end HackStack
