import HackStack.Command.Error
import HackStack.Proofs.Machine
/-!
# The stack machine

What commands mean, as changes of the memory of the Hack machine. `Command.run`
follows the calling convention step by step, the two scratch cells included, so it
says what becomes of every cell of every memory, also where the stack lies over the
registers. `Command.plain` is the same machine without scratch cells.

`run_plain`: the two agree outside the scratch cells, where the cells a command reaches
by way of the stack are not scratch cells themselves.
-/

namespace HackStack

namespace Ram

/-! ## The stack -/

/-- The top of the stack. -/
def top (r : Ram) : Word := r.read (r.read Cell.sp - 1)

/-- The cell the stack pointer points to, which is the top before a pop. -/
def next (r : Ram) : Word := r.read (r.read Cell.sp)

def setTop (r : Ram) (v : Word) : Ram := r.write (r.read Cell.sp - 1) v

def push (r : Ram) (v : Word) : Ram := (r.write Cell.sp (r.read Cell.sp + 1)).write (r.read Cell.sp) v

/-- The memory with the top of the stack taken off; it is then the next cell. -/
def drop (r : Ram) : Ram := r.write Cell.sp (r.read Cell.sp - 1)

/-- Pushes what a register holds. -/
def save (r : Ram) (base : Word) : Ram := r.push (r.read base)

/-! ## Calls -/

/-- Saves the return address and the caller's segment bases, and moves ARG and LCL. -/
def enter (r : Ram) (back : Word) (args : UInt16) : Ram :=
  let r := ((((r.push back).save Cell.lcl).save Cell.arg).save Cell.this).save Cell.that
  let r := r.write Cell.arg (r.read Cell.sp - BitVec.ofNat 16 (frameSize + args.toNat))
  r.write Cell.lcl (r.read Cell.sp)

/-- Moves the cursor in R13 down by one cell and restores a register from there. -/
def restore (r : Ram) (base : Word) : Ram :=
  let r := r.write Cell.r13 (r.read Cell.r13 - 1)
  r.write base (r.read (r.read Cell.r13))

/-- Puts the top where the arguments began and takes the arguments off the stack. R13 keeps the frame
and R14 the return address. -/
def land (r : Ram) : Ram :=
  let frame := r.read Cell.lcl
  let r := r.write Cell.r13 frame
  let r := (r.write Cell.r14 (r.read (frame - BitVec.ofNat 16 frameSize))).drop
  let r := r.write (r.read Cell.arg) r.next
  r.write Cell.sp (r.read Cell.arg + 1)

/-- Returns: restores the caller's segment bases, with R13 walking down the frame. -/
def leave (r : Ram) : Ram := [Cell.that, Cell.this, Cell.arg, Cell.lcl].foldl restore r.land

/-- `land` without scratch cells. -/
def settle (r : Ram) : Ram :=
  let r := r.drop
  let r := r.write (r.read Cell.arg) r.next
  r.write Cell.sp (r.read Cell.arg + 1)

/-- `leave` without scratch cells. -/
def unwind (r : Ram) : Ram :=
  let frame := r.read Cell.lcl
  let r := r.settle
  let r := r.write Cell.that (r.read (frame - 1))
  let r := r.write Cell.this (r.read (frame - 2))
  let r := r.write Cell.arg (r.read (frame - 3))
  r.write Cell.lcl (r.read (frame - 4))

end Ram

/-! ## Operators -/

/-- Whether a comparison holds, by the sign of the difference. The difference wraps. -/
def Comparison.holds (v : Word) : Comparison → Bool
  | eq => v == 0
  | gt => 0 < v.toInt
  | lt => v.toInt < 0

/-- The word for a truth value: all ones or all zeros. -/
def truth (b : Bool) : Word := if b then -1 else 0

/-- What an operator puts in the place of the cells it works on. -/
def Operator.run (r : Ram) : Operator → Ram
  | add => r.drop.setTop (r.drop.top + r.drop.next)
  | sub => r.drop.setTop (r.drop.top - r.drop.next)
  | and => r.drop.setTop (r.drop.top &&& r.drop.next)
  | or => r.drop.setTop (r.drop.top ||| r.drop.next)
  | neg => r.setTop (-r.top)
  | not => r.setTop (~~~r.top)
  | compare c => r.drop.setTop (truth (c.holds (r.drop.top - r.drop.next)))

/-! ## Segments -/

namespace Segment

/-- The register that holds the base of a segment. -/
def base? : Segment → Option Word
  | locals => some Cell.lcl
  | arguments => some Cell.arg
  | this => some Cell.this
  | that => some Cell.that
  | _ => none

/-- The cell of a segment with an index. `cells` says where the static cells of the unit lie. -/
def cell (cells : UInt16 → Word) (r : Ram) (index : UInt16) : Segment → Word
  | locals => r.read Cell.lcl + index.toBitVec
  | arguments => r.read Cell.arg + index.toBitVec
  | this => r.read Cell.this + index.toBitVec
  | that => r.read Cell.that + index.toBitVec
  | statics => cells index
  | pointer => Cell.this + index.toBitVec
  | temp => 5 + index.toBitVec
  | constant => 0

/-- What is pushed from a segment. -/
def value (cells : UInt16 → Word) (r : Ram) (index : UInt16) : Segment → Word
  | constant => index.toBitVec
  | s => r.read (s.cell cells r index)

/-- Pops into a cell of a segment. -/
def popInto (cells : UInt16 → Word) (r : Ram) (index : UInt16) (s : Segment) : Ram :=
  let r := r.drop
  r.write (s.cell cells r index) r.next

/-- Pops into a cell of a segment. Where the cell is reached from a base, R13 keeps it. -/
def store (cells : UInt16 → Word) (r : Ram) (index : UInt16) (s : Segment) : Ram :=
  match s.base? with
  | none => s.popInto cells r index
  | some _ =>
    let target := s.cell cells r index
    let r := (r.write Cell.r13 target).drop
    r.write target r.next

end Segment

/-! ## Commands -/

/-- Where control goes after a command. -/
inductive Target
  /-- To the command behind it. -/
  | next
  /-- To the command that declares the name. -/
  | entry (name : String)
  /-- To the instruction with this number. -/
  | address (w : Word)
  deriving DecidableEq, Repr

namespace Command

/-- What a command does. `back` is the number of the instruction behind its code. -/
def run (cells : UInt16 → Word) (back : Word) (r : Ram) : Command → Ram × Target
  | operate op => (op.run r, .next)
  | push s i => (r.push (s.value cells r i), .next)
  | pop s i => (s.store cells r i, .next)
  | label _ => (r, .next)
  | goto name => (r, .entry name)
  | ifGoto name => (r.drop, if r.drop.next = 0 then .next else .entry name)
  | function _ locals => ((fun r => r.push 0)^[locals.toNat] r, .next)
  | call name args => (r.enter back args, .entry name)
  | ret => (r.leave, .address (r.leave.read Cell.r14))

/-- What a command does on a machine that needs no scratch cells. -/
def plain (cells : UInt16 → Word) (back : Word) (r : Ram) : Command → Ram × Target
  | pop s i => (s.popInto cells r i, .next)
  | ret => (r.unwind, .address (r.read (r.read Cell.lcl - BitVec.ofNat 16 frameSize)))
  | c => c.run cells back r

end Command

/-! ## Scratch cells -/

/-- A cell that no command keeps anything in. -/
def Word.Scratch (w : Word) : Prop := w.address = Cell.r13.address ∨ w.address = Cell.r14.address

namespace Ram

/-- Two memories that differ in the scratch cells at most. -/
def Like (r r' : Ram) : Prop := ∀ w : Word, ¬ w.Scratch → r.read w = r'.read w

variable {r r' : Ram}

theorem Like.refl (r : Ram) : r.Like r := fun _ _ => rfl

theorem Like.write (h : r.Like r') (w v : Word) : (r.write w v).Like (r'.write w v) := by
  intro u hu
  rw [read_write, read_write, h u hu]

theorem Like.write_scratch (h : r.Like r') {w : Word} (hw : w.Scratch) (v : Word) : (r.write w v).Like r' := by
  intro u hu
  rw [read_write_of_ne _ _ fun he => hu (by rwa [Word.Scratch, he]), h u hu]

theorem Like.sp (h : r.Like r') : r.read Cell.sp = r'.read Cell.sp := h _ (by simp [Word.Scratch])

theorem Like.arg (h : r.Like r') : r.read Cell.arg = r'.read Cell.arg := h _ (by simp [Word.Scratch])

theorem Like.drop (h : r.Like r') : r.drop.Like r'.drop := by
  rw [Ram.drop, Ram.drop, h.sp]
  exact h.write _ _

theorem drop_sp (r : Ram) : r.drop.read Cell.sp = r.read Cell.sp - 1 := read_write_self ..

theorem drop_read {w : Word} (hw : w.address ≠ Cell.sp.address) : r.drop.read w = r.read w :=
  read_write_of_ne _ _ hw

theorem Like.next (h : r.Like r') (hn : ¬ (r'.read Cell.sp).Scratch) : r.next = r'.next := by
  rw [Ram.next, Ram.next, h.sp, h _ hn]

/-- Restoring one register from the frame, which R13 points into. -/
theorem Like.restore (h : r.Like r') {w : Word} (h13 : r.read Cell.r13 - 1 = w) (hw : ¬ w.Scratch) (base : Word) :
    (r.restore base).Like (r'.write base (r'.read w)) := by
  have hl : (r.write Cell.r13 w).Like r' := h.write_scratch (.inl rfl) _
  rw [Ram.restore, h13, read_write_self, hl _ hw]
  exact hl.write _ _

theorem restore_r13 {base : Word} (hb : base.address ≠ Cell.r13.address) :
    (r.restore base).read Cell.r13 = r.read Cell.r13 - 1 := by
  rw [Ram.restore, read_write_of_ne _ _ (Ne.symm hb), read_write_self]

theorem restore_r14 {base : Word} (hb : base.address ≠ Cell.r14.address) :
    (r.restore base).read Cell.r14 = r.read Cell.r14 := by
  rw [Ram.restore, read_write_of_ne _ _ (Ne.symm hb), read_write_of_ne _ _ (by decide)]

theorem land_r13 (ha : ¬ (r.read Cell.arg).Scratch) : r.land.read Cell.r13 = r.read Cell.lcl := by
  have hne : 13#15 ≠ (r.read Cell.arg).address := fun he => ha (.inl he.symm)
  simp [land, drop, read_write, hne]

theorem land_r14 (ha : ¬ (r.read Cell.arg).Scratch)
    (h5 : ¬ (r.read Cell.lcl - BitVec.ofNat 16 frameSize).Scratch) :
    r.land.read Cell.r14 = r.read (r.read Cell.lcl - BitVec.ofNat 16 frameSize) := by
  have hne : 14#15 ≠ (r.read Cell.arg).address := fun he => ha (.inr he.symm)
  have hne5 : (r.read Cell.lcl - BitVec.ofNat 16 frameSize).address ≠ 13#15 := fun he => h5 (.inl he)
  simp [land, drop, read_write, hne, hne5]

theorem land_like (ht : ¬ (r.read Cell.sp - 1).Scratch) : r.land.Like r.settle := by
  have hl : ((r.write Cell.r13 (r.read Cell.lcl)).write Cell.r14 ((r.write Cell.r13 (r.read Cell.lcl)).read
      (r.read Cell.lcl - BitVec.ofNat 16 frameSize))).drop.Like r.drop :=
    (((Like.refl r).write_scratch (.inl rfl) _).write_scratch (.inr rfl) _).drop
  rw [land, settle]
  simp only [hl.next (by rwa [drop_sp]), hl.arg]
  rw [(hl.write _ _).arg]
  exact (hl.write _ _).write _ _

/-- The cells a return reaches by way of the stack and the frame. -/
def returnCells (r : Ram) : List Word :=
  [r.read Cell.sp - 1, r.read Cell.arg, r.read Cell.lcl - 1, r.read Cell.lcl - 2, r.read Cell.lcl - 3,
    r.read Cell.lcl - 4, r.read Cell.lcl - BitVec.ofNat 16 frameSize]

/-- A return does the same with scratch cells as without. -/
theorem leave_like (h : ∀ w ∈ r.returnCells, ¬ w.Scratch) :
    r.leave.Like r.unwind ∧ r.leave.read Cell.r14 = r.read (r.read Cell.lcl - BitVec.ofNat 16 frameSize) := by
  simp only [returnCells, List.forall_mem_cons] at h
  obtain ⟨ht, ha, h1, h2, h3, h4, h5, -⟩ := h
  constructor
  · -- R13 walks down from the frame
    have p0 : r.land.read Cell.r13 = r.read Cell.lcl := land_r13 ha
    have p1 : (r.land.restore Cell.that).read Cell.r13 = r.read Cell.lcl - 1 := by
      rw [restore_r13 (by decide), p0]
    have p2 : ((r.land.restore Cell.that).restore Cell.this).read Cell.r13 = r.read Cell.lcl - 2 := by
      rw [restore_r13 (by decide), p1]; bv_omega
    have p3 : (((r.land.restore Cell.that).restore Cell.this).restore Cell.arg).read Cell.r13 = r.read Cell.lcl - 3 := by
      rw [restore_r13 (by decide), p2]; bv_omega
    have l1 := (land_like ht).restore (congrArg (· - 1) p0) h1 Cell.that
    have l2 := l1.restore (by rw [p1]; bv_omega) h2 Cell.this
    have l3 := l2.restore (by rw [p2]; bv_omega) h3 Cell.arg
    exact l3.restore (by rw [p3]; bv_omega) h4 Cell.lcl
  · simp only [leave, List.foldl_cons, List.foldl_nil]
    rw [restore_r14 (by decide), restore_r14 (by decide), restore_r14 (by decide), restore_r14 (by decide),
      land_r14 ha h5]

end Ram

theorem Segment.cell_drop (cells : UInt16 → Word) (r : Ram) (i : UInt16) (s : Segment) :
    s.cell cells r.drop i = s.cell cells r i := by
  cases s with
  | locals | arguments | this | that => exact congrArg (· + i.toBitVec) (Ram.drop_read (by decide))
  | _ => rfl

/-- The cells a command reaches by way of the stack, where it uses a scratch cell meanwhile. -/
def Command.reaches (r : Ram) : Command → List Word
  | pop s _ => if s.base?.isSome then [r.read Cell.sp - 1] else []
  | ret => r.returnCells
  | _ => []

theorem Segment.store_like {cells : UInt16 → Word} {r : Ram} {i : UInt16} (s : Segment)
    (h : ∀ w ∈ (Command.pop s i).reaches r, ¬ w.Scratch) : (s.store cells r i).Like (s.popInto cells r i) := by
  rw [store, popInto]
  cases hb : s.base? with
  | none => exact .refl _
  | some base =>
    have ht : ¬ (r.read Cell.sp - 1).Scratch := by simpa [Command.reaches, hb] using h
    have hl : (r.write Cell.r13 (s.cell cells r i)).drop.Like r.drop := ((Ram.Like.refl r).write_scratch (.inl rfl) _).drop
    simp only [hl.next (by rwa [Ram.drop_sp]), cell_drop]
    exact hl.write _ _

/-- Outside the scratch cells a command does what it does on a machine without them. -/
theorem Command.run_plain (c : Command) (cells : UInt16 → Word) (back : Word) (r : Ram)
    (h : ∀ w ∈ c.reaches r, ¬ w.Scratch) :
    (c.run cells back r).1.Like (c.plain cells back r).1 ∧ (c.run cells back r).2 = (c.plain cells back r).2 := by
  cases c with
  | ret =>
    obtain ⟨hl, h14⟩ := Ram.leave_like h
    exact ⟨hl, congrArg Target.address h14⟩
  | pop s i =>
    exact ⟨s.store_like h, rfl⟩
  | _ => exact ⟨.refl _, rfl⟩

end HackStack
