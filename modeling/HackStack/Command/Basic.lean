/-!
# Commands of the stack machine

A program for the stack machine is a list of commands: operations on the top
of the stack, transfers between the stack and a memory segment, branches, and
calls. `Command.display` writes a command in its canonical form, words joined
by single spaces and numbers without leading zeros.
-/

namespace HackStack

/-- The segments a command can push from or pop into. -/
inductive Segment
  | constant | locals | statics | arguments | this | that | pointer | temp
  deriving DecidableEq, Repr

namespace Segment

def name : Segment → String
  | constant => "constant"
  | locals => "local"
  | statics => "static"
  | arguments => "argument"
  | this => "this"
  | that => "that"
  | pointer => "pointer"
  | temp => "temp"

def ofName? : String → Option Segment
  | "constant" => some constant
  | "local" => some locals
  | "static" => some statics
  | "argument" => some arguments
  | "this" => some this
  | "that" => some that
  | "pointer" => some pointer
  | "temp" => some temp
  | _ => none

theorem ofName?_name (s : Segment) : ofName? s.name = some s := by
  cases s <;> rfl

end Segment

/-- Which way a transfer goes: onto the stack or off it. -/
inductive Direction
  | push | pop
  deriving DecidableEq, Repr

/-- The comparisons of the cell under the top with the top. -/
inductive Comparison
  | eq | gt | lt
  deriving DecidableEq, Repr

/-- The operators on the top of the stack. -/
inductive Operator
  | add | sub | neg | and | or | not
  | compare (c : Comparison)
  deriving DecidableEq, Repr

namespace Operator

def name : Operator → String
  | add => "add"
  | sub => "sub"
  | neg => "neg"
  | compare .eq => "eq"
  | compare .gt => "gt"
  | compare .lt => "lt"
  | and => "and"
  | or => "or"
  | not => "not"

def ofName? : String → Option Operator
  | "add" => some add
  | "sub" => some sub
  | "neg" => some neg
  | "eq" => some (compare .eq)
  | "gt" => some (compare .gt)
  | "lt" => some (compare .lt)
  | "and" => some and
  | "or" => some or
  | "not" => some not
  | _ => none

theorem ofName?_name (o : Operator) : ofName? o.name = some o := by
  rcases o with _ | _ | _ | _ | _ | _ | (_ | _ | _) <;> rfl

end Operator

/-- A command. Operands are sixteen bits wide, and names are any text: `Command.check` and the
reader say which of them make sense. -/
inductive Command
  | operate (op : Operator)
  | push (segment : Segment) (index : UInt16)
  | pop (segment : Segment) (index : UInt16)
  | label (name : String)
  | goto (name : String)
  | ifGoto (name : String)
  | function (name : String) (locals : UInt16)
  | call (name : String) (args : UInt16)
  | ret
  deriving DecidableEq, Repr

namespace Command

/-- What kind of command it is, leaving out the operands. -/
inductive Kind
  | operate | push | pop | label | goto | ifGoto | function | call | ret
  deriving DecidableEq, Repr

def kind : Command → Kind
  | operate _ => .operate
  | push .. => .push
  | pop .. => .pop
  | label _ => .label
  | goto _ => .goto
  | ifGoto _ => .ifGoto
  | function .. => .function
  | call .. => .call
  | ret => .ret

/-- The word a command is about: its operator, segment, label or function. -/
def subject? : Command → Option String
  | operate op => some op.name
  | push s _ | pop s _ => some s.name
  | label n | goto n | ifGoto n | function n _ | call n _ => some n
  | ret => none

/-- The number a command carries. -/
def number? : Command → Option UInt16
  | push _ i | pop _ i | function _ i | call _ i => some i
  | _ => none

/-- The command in its canonical form. -/
def display : Command → String
  | operate op => op.name
  | push s i => "push " ++ s.name ++ " " ++ toString i.toNat
  | pop s i => "pop " ++ s.name ++ " " ++ toString i.toNat
  | label n => "label " ++ n
  | goto n => "goto " ++ n
  | ifGoto n => "if-goto " ++ n
  | function n k => "function " ++ n ++ " " ++ toString k.toNat
  | call n k => "call " ++ n ++ " " ++ toString k.toNat
  | ret => "return"

end Command

end HackStack
