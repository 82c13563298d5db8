import HackStack.Command.Basic
/-!
# Lines of assembly

The target is the assembly language of the Hack computer. A line loads an
address or a number into A, computes, jumps, declares a label, or is a comment.
Symbols are kept apart by what they stand for: the registers of the calling
convention, the cells of the temp and static segments, the labels and functions
of the program, and the labels that code brings along. `Line.text` writes a
line; only there do symbols become text.
-/

namespace HackStack

/-- A name in the target program. -/
inductive Symbol
  | sp | lcl | arg | this | that
  /-- The cell with this address, one of the first sixteen. -/
  | ram (address : Nat)
  /-- A cell of the static segment of a unit. -/
  | static (unit : String) (index : UInt16)
  /-- A label or function of the program. -/
  | named (name : String)
  /-- Where the `n`-th comparison of its kind goes if it holds. -/
  | holds (c : Comparison) (n : Nat)
  /-- Where both branches of the `n`-th comparison of its kind meet. -/
  | done (c : Comparison) (n : Nat)
  /-- Where the `n`-th call comes back to. -/
  | returnSite (callee : String) (n : Nat)
  deriving DecidableEq, Repr

/-- What the second input of the arithmetic unit reads: A, or the cell A points to. -/
inductive AluInput
  | a | m
  deriving DecidableEq, Repr

/-- What the arithmetic unit computes from D and its second input `y`. -/
inductive Comp
  | zero | one | negOne
  | d | notD | negD | incD | decD
  | get (y : AluInput) | not (y : AluInput) | neg (y : AluInput) | inc (y : AluInput) | dec (y : AluInput)
  | add (y : AluInput)
  /-- D minus `y`. -/
  | sub (y : AluInput)
  /-- `y` minus D. -/
  | subD (y : AluInput)
  | and (y : AluInput) | or (y : AluInput)
  deriving DecidableEq, Repr

/-- Where a result goes: any of A, the cell A points to, and D. -/
inductive Dest
  | a | m | d | am | ad | md | amd
  deriving DecidableEq, Repr

/-- When to jump, by the sign of the result. -/
inductive Jump
  | gt | eq | ge | lt | ne | le | always
  deriving DecidableEq, Repr

inductive Line
  | comment (text : String)
  | label (s : Symbol)
  /-- Loads a number into A. -/
  | number (n : Nat)
  /-- Loads what a symbol stands for into A. -/
  | symbol (s : Symbol)
  | set (dest : Dest) (comp : Comp)
  | jump (comp : Comp) (on : Jump)
  deriving DecidableEq, Repr

/-! ## Text -/

/-- The start of the labels of a comparison. -/
def Comparison.stem : Comparison → String
  | eq => "EQ"
  | gt => "GT"
  | lt => "LT"

def Symbol.text : Symbol → String
  | sp => "SP"
  | lcl => "LCL"
  | arg => "ARG"
  | this => "THIS"
  | that => "THAT"
  | ram n => "R" ++ toString n
  | static unit i => unit ++ "." ++ toString i.toNat
  | named name => name
  | holds c n => c.stem ++ "." ++ toString n ++ "$TRUE"
  | done c n => c.stem ++ "." ++ toString n ++ "$END"
  | returnSite callee n => callee ++ "$Ret." ++ toString n

def AluInput.text : AluInput → String
  | a => "A"
  | m => "M"

def Comp.text : Comp → String
  | zero => "0"
  | one => "1"
  | negOne => "-1"
  | d => "D"
  | notD => "!D"
  | negD => "-D"
  | incD => "D+1"
  | decD => "D-1"
  | get y => y.text
  | not y => "!" ++ y.text
  | neg y => "-" ++ y.text
  | inc y => y.text ++ "+1"
  | dec y => y.text ++ "-1"
  | add y => "D+" ++ y.text
  | sub y => "D-" ++ y.text
  | subD y => y.text ++ "-D"
  | and y => "D&" ++ y.text
  | or y => "D|" ++ y.text

def Dest.text : Dest → String
  | a => "A"
  | m => "M"
  | d => "D"
  | am => "AM"
  | ad => "AD"
  | md => "MD"
  | amd => "AMD"

def Jump.text : Jump → String
  | gt => "JGT"
  | eq => "JEQ"
  | ge => "JGE"
  | lt => "JLT"
  | ne => "JNE"
  | le => "JLE"
  | always => "JMP"

def Line.text : Line → String
  | comment t => "// " ++ t
  | label s => "(" ++ s.text ++ ")"
  | number n => "@" ++ toString n
  | symbol s => "@" ++ s.text
  | set dest comp => dest.text ++ "=" ++ comp.text
  | jump comp on => comp.text ++ ";" ++ on.text

end HackStack
