import HackStack.Command.Check
import HackStack.Text.Blank
import HackStack.Text.Decimal
import HackStack.Text.Words
/-!
# Reading a command

`Command.read` reads one line. The first word decides what the line has to
be: an unknown word is refused first, then a wrong number of operands, then
the operands from left to right, and last an operand out of its range.
-/

namespace HackStack

/-- The characters of a symbol: ASCII letters and digits, and `_ . $ :`. -/
def isSymbolChar (c : Char) : Bool :=
  c.isAlphanum || c == '_' || c == '.' || c == '$' || c == ':'

/-- A symbol has at least one character and does not start with a digit. -/
def isSymbol : List Char → Bool
  | [] => false
  | c :: cs => !c.isDigit && (c :: cs).all isSymbolChar

/-- The words a command can start with. -/
inductive Keyword
  | push | pop | label | goto | ifGoto | function | call | ret
  | operate (op : Operator)
  deriving DecidableEq, Repr

namespace Keyword

def ofName? : String → Option Keyword
  | "push" => some push
  | "pop" => some pop
  | "label" => some label
  | "goto" => some goto
  | "if-goto" => some ifGoto
  | "function" => some function
  | "call" => some call
  | "return" => some ret
  | w => (Operator.ofName? w).map operate

/-- How many operands follow the word. -/
def arity : Keyword → Nat
  | push | pop | function | call => 2
  | label | goto | ifGoto => 1
  | ret | operate _ => 0

end Keyword

namespace Command

def readSegment (w : String) : Except CommandError Segment :=
  match Segment.ofName? w with
  | some s => .ok s
  | none => .error (.unknownSegment w)

def readNumber (w : String) : Except CommandError UInt16 :=
  match Text.Decimal.word? w.toList with
  | some n => .ok n
  | none => .error (.badNumber w)

def readSymbol (w : String) : Except CommandError String :=
  if isSymbol w.toList then .ok w else .error (.badSymbol w)

def readTransfer (d : Direction) (segment index : String) : Except CommandError Command := do
  let s ← readSegment segment
  let i ← readNumber index
  s.checkIndex d i
  return match d with
    | .push => push s i
    | .pop => pop s i

def ofWords : List String → Except CommandError Command
  | [] => .error .empty
  | w :: operands =>
    match Keyword.ofName? w, operands with
    | none, _ => .error (.unknownCommand w)
    | some .push, [s, i] => readTransfer .push s i
    | some .pop, [s, i] => readTransfer .pop s i
    | some .label, [n] => label <$> readSymbol n
    | some .goto, [n] => goto <$> readSymbol n
    | some .ifGoto, [n] => ifGoto <$> readSymbol n
    | some .function, [n, k] => do return function (← readSymbol n) (← readNumber k)
    | some .call, [n, k] => do
      let name ← readSymbol n
      let args ← readNumber k
      checkArgs args
      return call name args
    | some .ret, [] => .ok ret
    | some (.operate op), [] => .ok (operate op)
    | some k, _ => .error (.operandCount w k.arity operands.length)

/-- The command a line holds. -/
def read (line : String) : Except CommandError Command :=
  ofWords ((Text.words (Text.trim line.toList)).map String.ofList)

end Command

end HackStack
