import HackStack.Assembly.Line
import HackStack.Command.Error
/-!
# The code of a command

The stack grows upwards and SP points at the first free cell. The lines that
carry out a command depend on its operands, on the unit, which names static
cells, and on how many comparisons and calls came before, which keeps generated
labels apart.
-/

namespace HackStack

/-- How many comparisons of each kind and how many calls came before. -/
structure Counters where
  eq : Nat := 0
  gt : Nat := 0
  lt : Nat := 0
  call : Nat := 0
  deriving DecidableEq, Repr

namespace Counters

def get (n : Counters) : Comparison → Nat
  | .eq => n.eq
  | .gt => n.gt
  | .lt => n.lt

def next (n : Counters) : Comparison → Counters
  | .eq => { n with eq := n.eq + 1 }
  | .gt => { n with gt := n.gt + 1 }
  | .lt => { n with lt := n.lt + 1 }

end Counters

/-! ## Stack -/

/-- Pushes D. -/
def pushD : List Line :=
  [.symbol .sp, .set .m (.inc .m), .set .a (.dec .m), .set .m .d]

/-- Pops into D. -/
def popD : List Line :=
  [.symbol .sp, .set .am (.dec .m), .set .d (.get .m)]

/-- Pops into D and leaves A on the cell under it, which is the new top. -/
def popUnder : List Line :=
  popD ++ [.set .a (.dec .a)]

/-! ## Operators -/

/-- Replaces the top by what `comp` computes from it. -/
def unaryCode (comp : Comp) : List Line :=
  [.symbol .sp, .set .a (.dec .m), .set .m comp]

/-- Replaces the top two cells by what `comp` computes from D, the top, and M, the cell under it. -/
def binaryCode (comp : Comp) : List Line :=
  popUnder ++ [.set .m comp]

/-- The jump taken if the comparison holds, on the cell under the top minus the top. -/
def Comparison.jump : Comparison → Jump
  | eq => .eq
  | gt => .gt
  | lt => .lt

/-- Replaces the top two cells by minus one if the comparison holds and by zero if not. -/
def compareCode (c : Comparison) (n : Nat) : List Line :=
  popUnder ++
  [.set .d (.subD .m), .symbol (.holds c n), .jump .d c.jump,
    .set .d .zero, .symbol (.done c n), .jump .zero .always,
    .label (.holds c n), .set .d .negOne, .label (.done c n),
    .symbol .sp, .set .a (.dec .m), .set .m .d]

def Operator.code (n : Counters) : Operator → List Line
  | add => binaryCode (.add .m)
  | sub => binaryCode (.subD .m)
  | and => binaryCode (.and .m)
  | or => binaryCode (.or .m)
  | neg => unaryCode (.neg .m)
  | not => unaryCode (.not .m)
  | compare c => compareCode c (n.get c)

/-! ## Transfers -/

/-- The first cell of the temp segment. -/
def tempBase : Nat := 5

/-- How a segment's cell is reached. -/
inductive Place
  /-- The number itself; there is no cell. -/
  | immediate (n : UInt16)
  /-- The cell `offset` past the address that `base` holds. -/
  | based (base : Symbol) (offset : UInt16)
  /-- The cell the symbol stands for. -/
  | direct (s : Symbol)
  deriving DecidableEq, Repr

def Segment.place (unit : String) (index : UInt16) : Segment → Place
  | constant => .immediate index
  | locals => .based .lcl index
  | arguments => .based .arg index
  | this => .based .this index
  | that => .based .that index
  | statics => .direct (.static unit index)
  | temp => .direct (.ram (tempBase + index.toNat))
  | pointer => .direct (if index = 0 then .this else .that)

def Place.pushCode : Place → List Line
  | immediate n => [.number n.toNat, .set .d (.get .a)] ++ pushD
  | based base offset =>
    [.symbol base, .set .d (.get .m), .number offset.toNat, .set .a (.add .a), .set .d (.get .m)] ++ pushD
  | direct s => [.symbol s, .set .d (.get .m)] ++ pushD

/-- Pops into the place. A number is no place to pop into and gets no code; `Segment.checkIndex`
refuses such a transfer. -/
def Place.popCode : Place → List Line
  | immediate _ => []
  | based base offset =>
    -- the address is kept in R13, as popping needs both A and D
    [.symbol base, .set .d (.get .m), .number offset.toNat, .set .d (.add .a), .symbol (.ram 13), .set .m .d] ++
    popD ++ [.symbol (.ram 13), .set .a (.get .m), .set .m .d]
  | direct s => popD ++ [.symbol s, .set .m .d]

def Direction.code : Direction → Place → List Line
  | push => Place.pushCode
  | pop => Place.popCode

/-! ## Calls -/

/-- Declares the function and pushes a zero for each local. -/
def functionCode (name : String) (locals : UInt16) : List Line :=
  .label (.named name) ::
    (List.replicate locals.toNat [.symbol .sp, .set .m (.inc .m), .set .a (.dec .m), .set .m .zero]).flatten

/-- Saves the return address and the caller's segment bases, moves ARG and LCL, and jumps. -/
def callCode (callee : String) (args : UInt16) (n : Nat) : List Line :=
  [.symbol (.returnSite callee n), .set .d (.get .a)] ++ pushD ++
  [Symbol.lcl, .arg, .this, .that].flatMap (fun base => [.symbol base, .set .d (.get .m)] ++ pushD) ++
  [.symbol .sp, .set .d (.get .m), .number (frameSize + args.toNat), .set .d (.sub .a), .symbol .arg, .set .m .d,
    .symbol .sp, .set .d (.get .m), .symbol .lcl, .set .m .d,
    .symbol (.named callee), .jump .zero .always, .label (.returnSite callee n)]

/-- Puts the top where the arguments began, drops the frame, restores the caller's segment bases and
jumps back. -/
def returnCode : List Line :=
  -- the return address is read before the result may overwrite it: without arguments both share a cell
  [.symbol .lcl, .set .d (.get .m), .symbol (.ram 13), .set .m .d,
    .number frameSize, .set .a (.sub .a), .set .d (.get .m), .symbol (.ram 14), .set .m .d] ++
  popD ++
  [.symbol .arg, .set .a (.get .m), .set .m .d, .symbol .arg, .set .d (.inc .m), .symbol .sp, .set .m .d] ++
  [Symbol.that, .this, .arg, .lcl].flatMap (fun base =>
    [.symbol (.ram 13), .set .am (.dec .m), .set .d (.get .m), .symbol base, .set .m .d]) ++
  [.symbol (.ram 14), .set .a (.get .m), .jump .zero .always]

end HackStack
