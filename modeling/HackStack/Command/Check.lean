import HackStack.Command.Error
/-!
# Ranges of operands

`Segment.checkIndex` and `checkArgs` say which numbers a transfer and a call
may carry. `Command.check` is the check a command has to pass before code is
made for it; labels, functions and operators pass as they are.
-/

namespace HackStack

/-- Whether `index` is a cell of the segment that can be reached in the direction `d`. -/
def Segment.checkIndex (s : Segment) (d : Direction) (index : UInt16) : Except CommandError Unit :=
  match s, d with
  | .constant, .pop => .error .popConstant
  | .constant, .push => if index.toNat ≤ maxImmediate then .ok () else .error (.constantRange index)
  | .pointer, _ => if index.toNat ≤ 1 then .ok () else .error (.pointerRange index)
  | .temp, _ => if index.toNat < tempSize then .ok () else .error (.tempRange index)
  | .statics, _ => .ok ()
  | .locals, _ | .arguments, _ | .this, _ | .that, _ =>
    if index.toNat ≤ maxImmediate then .ok () else .error (.offsetRange s index)

def checkArgs (args : UInt16) : Except CommandError Unit :=
  if args.toNat ≤ maxArgs then .ok () else .error (.argumentCount args)

def Command.check : Command → Except CommandError Unit
  | push s i => s.checkIndex .push i
  | pop s i => s.checkIndex .pop i
  | call _ args => checkArgs args
  | _ => .ok ()

end HackStack
