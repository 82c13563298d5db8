import HackStack.Proofs.Batches
import HackStack.Proofs.Spelling
/-!
# What is refused

The emitter refuses a command that was never read, and the reader a text that no command was
made from. `emit_agrees_read`: on the canonical form of a command they agree, down to the fault.

Code for a transfer can also be made from partial tables, each with a fault for what it does not
list (`Segment.transfer`). Behind the check of the index none of these faults comes up
(`lookup_eq`), which is why `Segment.place` is a total function.
-/

namespace HackStack

/-! ## Transfers by tables -/

namespace Direction

/-- The command that moves a cell of a segment. -/
def command : Direction → Segment → UInt16 → Command
  | push => .push
  | pop => .pop

end Direction

/-- Why a transfer gets no code. -/
inductive TransferFault
  /-- The check of its index refuses it. -/
  | refused (e : CommandError)
  /-- The segment is in no table: it cannot be pushed from, or popped into. -/
  | noPlace (d : Direction) (s : Segment)
  /-- The number of a temp cell takes more than sixteen bits. -/
  | overflow
  deriving DecidableEq, Repr

namespace Segment

/-- The register that points at the cells of a segment. -/
def baseRegister? : Segment → Option Symbol
  | locals => some .lcl
  | arguments => some .arg
  | this => some .this
  | that => some .that
  | _ => none

/-- The symbol of a cell that no register points at. -/
def cellSymbol? (unit : String) (index : UInt16) : Segment → Except TransferFault (Option Symbol)
  | statics => .ok (some (.static unit index))
  | temp =>
    if tempBase + index.toNat < UInt16.size then .ok (some (.ram (tempBase + index.toNat))) else .error .overflow
  | pointer => .ok (some (if index = 0 then .this else .that))
  | _ => .ok none

/-- The place of a cell, by one table after the other. -/
def lookup (d : Direction) (unit : String) (index : UInt16) (s : Segment) : Except TransferFault Place :=
  if s = .constant ∧ d = .push then .ok (.immediate index)
  else
    match s.baseRegister? with
    | some base => .ok (.based base index)
    | none =>
      match s.cellSymbol? unit index with
      | .ok (some symbol) => .ok (.direct symbol)
      | .ok none => .error (.noPlace d s)
      | .error fault => .error fault

/-- The code of a transfer: the index is checked, then the tables are asked. -/
def transfer (d : Direction) (unit : String) (index : UInt16) (s : Segment) : Except TransferFault (List Line) :=
  match s.checkIndex d index with
  | .error e => .error (.refused e)
  | .ok () => d.code <$> s.lookup d unit index

/-- For an index that passes its check some table has the place. -/
theorem lookup_eq {d : Direction} {index : UInt16} {s : Segment} (h : s.checkIndex d index = .ok ()) (unit : String) :
    s.lookup d unit index = .ok (s.place unit index) := by
  cases s with
  | constant =>
    cases d with
    | push => rfl
    | pop => cases h
  | temp =>
    have hi : index.toNat < tempSize := (checkIndex_ok_iff .temp d index).1 h
    have hfit : tempBase + index.toNat < UInt16.size := by
      simp only [tempSize, tempBase, UInt16.size] at *
      omega
    simp [lookup, baseRegister?, cellSymbol?, hfit, place]
  | locals | arguments | this | that | statics | pointer => cases d <;> rfl

/-- Only the check of the index refuses a transfer. -/
theorem transfer_eq (d : Direction) (unit : String) (n : Counters) (index : UInt16) (s : Segment) :
    s.transfer d unit index =
      (fun _ => (d.command s index).code unit n) <$> (d.command s index).check.mapError .refused := by
  have hcheck : (d.command s index).check = s.checkIndex d index := by cases d <;> rfl
  have hcode : (d.command s index).code unit n = d.code (s.place unit index) := by cases d <;> rfl
  rw [hcheck, hcode, transfer]
  cases h : s.checkIndex d index with
  | error e => rfl
  | ok =>
    dsimp only
    rw [lookup_eq h]
    rfl

end Segment

/-! ## Reading and emitting -/

namespace Emitter

theorem perform_emit_snd (e : Emitter) (c : Command) : (e.perform (emit c)).2 = c.check := by
  rw [perform_emit]
  cases c.check <;> rfl

/-- If the name of a command satisfies the symbol rule, the command can be emitted if its canonical form can be read,
which then gives the command back, and otherwise both fail with the same error. For a transfer there is no other way
to fail: a segment that no table lists and a number that overflows do not come up. -/
theorem emit_agrees_read (e : Emitter) (c : Command) (hn : ∀ name ∈ c.name?, isSymbol name.toList) :
    ((e.perform (emit c)).2 = .ok () ↔ ∃ c', Command.read c.display = .ok c') ∧
    (∀ c', Command.read c.display = .ok c' → c' = c) ∧
    (∀ err, (e.perform (emit c)).2 = .error err ↔ Command.read c.display = .error err) ∧
    ∀ d s i, c = Direction.command d s i →
      s.transfer d e.unit i = (fun _ => c.code e.unit e.counters) <$> c.check.mapError .refused := by
  rw [perform_emit_snd, Command.read_display_eq hn]
  refine ⟨?_, ?_, ?_, ?_⟩
  · cases c.check <;> simp
  · intro c' h
    obtain ⟨_, -, rfl⟩ := map_eq_ok.1 h
    rfl
  · intro err
    cases c.check <;> simp
  · rintro d s i rfl
    exact s.transfer_eq d e.unit e.counters i

/-- A call with more arguments than an address can count is refused in both ways. -/
theorem emit_agrees_read_call :
    (∀ name ∈ (Command.call "f" 40000).name?, isSymbol name.toList) ∧
      Command.read "call f 40000" = .error (.argumentCount 40000) := by
  have hn : ∀ name ∈ (Command.call "f" 40000).name?, isSymbol name.toList := by
    intro name hname
    cases hname
    decide
  exact ⟨hn, ((emit_agrees_read {} (.call "f" 40000) hn).2.2.1 _).1 rfl⟩

end Emitter

end HackStack
