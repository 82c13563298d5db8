import HackStack.Command.Check
/-!
# Operands in range

The checks of operands as plain bounds: `Segment.span` is how many indices of a
segment a transfer in one direction may use.
-/

namespace HackStack

/-- How many indices a transfer may use, counted from zero. -/
def Segment.span (d : Direction) : Segment → Nat
  | constant => if d = .push then maxImmediate + 1 else 0
  | locals | arguments | this | that => maxImmediate + 1
  | statics => 65536
  | pointer => 2
  | temp => tempSize

theorem Segment.checkIndex_ok_iff (s : Segment) (d : Direction) (i : UInt16) :
    s.checkIndex d i = .ok () ↔ i.toNat < s.span d := by
  have hi := i.toNat_lt
  cases s <;> cases d <;> simp only [checkIndex, span, reduceIte, reduceCtorEq] <;>
    first | (split <;> simp <;> omega) | simp <;> omega

theorem checkArgs_ok_iff (n : UInt16) : checkArgs n = .ok () ↔ n.toNat ≤ maxArgs := by
  unfold checkArgs
  split <;> simp_all

end HackStack
