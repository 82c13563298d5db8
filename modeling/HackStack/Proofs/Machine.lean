import HackStack.Assembly.Line
import Mathlib.Logic.Function.Iterate
/-!
# The Hack machine

Words have sixteen bits and arithmetic wraps; the address lines carry the low
fifteen. `Cpu.step` carries out one instruction, `Cpu.run` a number of them, and
`Cpu.pass` goes through a stretch of code from top to bottom until control goes
back or leaves the stretch. `pass_eq_run`: passing is a finite run.
-/

namespace HackStack

abbrev Word := BitVec 16

/-- What the address lines carry. -/
abbrev Address := BitVec 15

/-- The part of a word the address lines carry. -/
def Word.address (w : Word) : Address := w.setWidth 15

/-! ## Memory -/

def Ram := Address → Word

namespace Ram

def read (r : Ram) (w : Word) : Word := r w.address

def write (r : Ram) (w v : Word) : Ram := fun x => if x = w.address then v else r x

@[ext] theorem ext {r r' : Ram} (h : ∀ w, r.read w = r'.read w) : r = r' := by
  funext x
  have hx : x = Word.address (x.setWidth 16) := by
    simp [Word.address]
  rw [hx]
  exact h _

theorem read_write (r : Ram) (w v u : Word) :
    (r.write w v).read u = if u.address = w.address then v else r.read u := rfl

@[simp] theorem read_write_self (r : Ram) (w v : Word) : (r.write w v).read w = v := by
  simp [read_write]

theorem read_write_of_ne (r : Ram) {w u : Word} (v : Word) (h : u.address ≠ w.address) :
    (r.write w v).read u = r.read u := by
  simp [read_write, h]

end Ram

/-! ## The registers of the calling convention -/

namespace Cell

def sp : Word := 0
def lcl : Word := 1
def arg : Word := 2
def this : Word := 3
def that : Word := 4

/-- Where a pop keeps its target and a return its place in the frame. -/
def r13 : Word := 13

/-- Where a return keeps the address it goes back to. -/
def r14 : Word := 14

@[simp] theorem address_sp : sp.address = 0 := rfl
@[simp] theorem address_lcl : lcl.address = 1 := rfl
@[simp] theorem address_arg : arg.address = 2 := rfl
@[simp] theorem address_this : this.address = 3 := rfl
@[simp] theorem address_that : that.address = 4 := rfl
@[simp] theorem address_r13 : r13.address = 13 := rfl
@[simp] theorem address_r14 : r14.address = 14 := rfl

end Cell

/-! ## Instructions -/

/-- An instruction whose symbols have been resolved. -/
inductive Instr
  | load (w : Word)
  | compute (dest : Dest) (comp : Comp)
  | branch (comp : Comp) (on : Jump)
  deriving DecidableEq, Repr

/-- What instructions work on: the two registers and the memory. -/
@[ext]
structure Data where
  a : Word
  d : Word
  ram : Ram

namespace Data

/-- What the second input of the arithmetic unit reads. -/
def input (c : Data) : AluInput → Word
  | .a => c.a
  | .m => c.ram.read c.a

def eval (c : Data) : Comp → Word
  | .zero => 0
  | .one => 1
  | .negOne => -1
  | .d => c.d
  | .notD => ~~~c.d
  | .negD => -c.d
  | .incD => c.d + 1
  | .decD => c.d - 1
  | .get y => c.input y
  | .not y => ~~~c.input y
  | .neg y => -c.input y
  | .inc y => c.input y + 1
  | .dec y => c.input y - 1
  | .add y => c.d + c.input y
  | .sub y => c.d - c.input y
  | .subD y => c.input y - c.d
  | .and y => c.d &&& c.input y
  | .or y => c.d ||| c.input y

/-- Puts a result into a destination. The cell is the one A pointed to before. -/
def put (c : Data) (v : Word) : Dest → Data
  | .a => { c with a := v }
  | .m => { c with ram := c.ram.write c.a v }
  | .d => { c with d := v }
  | .am => { c with a := v, ram := c.ram.write c.a v }
  | .ad => { c with a := v, d := v }
  | .md => { c with d := v, ram := c.ram.write c.a v }
  | .amd => { a := v, d := v, ram := c.ram.write c.a v }

end Data

/-- Whether a jump is taken on a result. -/
def Jump.taken (v : Word) : Jump → Bool
  | gt => 0 < v.toInt
  | eq => v == 0
  | ge => 0 ≤ v.toInt
  | lt => v.toInt < 0
  | ne => v != 0
  | le => v.toInt ≤ 0
  | always => true

/-! ## Execution -/

/-- The processor: the number of the next instruction, and the data. -/
@[ext]
structure Cpu where
  pc : Nat
  data : Data

namespace Cpu

/-- Carries out one instruction. Past the end of the program nothing happens. -/
def step (rom : List Instr) (s : Cpu) : Cpu :=
  match rom[s.pc]? with
  | none => s
  | some (.load w) => ⟨s.pc + 1, { s.data with a := w }⟩
  | some (.compute dest comp) => ⟨s.pc + 1, s.data.put (s.data.eval comp) dest⟩
  | some (.branch comp on) =>
    if on.taken (s.data.eval comp) then ⟨s.data.a.address.toNat, s.data⟩ else ⟨s.pc + 1, s.data⟩

def run (rom : List Instr) (n : Nat) (s : Cpu) : Cpu := (step rom)^[n] s

theorem run_add (rom : List Instr) (m n : Nat) (s : Cpu) : run rom (m + n) s = run rom n (run rom m s) := by
  simp [run, Nat.add_comm m n, Function.iterate_add_apply]

/-- Goes through the code before `stop` from top to bottom, until control goes back or leaves it. -/
def pass (rom : List Instr) (stop : Nat) (s : Cpu) : Cpu :=
  if s.pc < stop then
    if s.pc < (step rom s).pc then pass rom stop (step rom s) else step rom s
  else s
termination_by stop - s.pc

theorem pass_of_le (rom : List Instr) {stop : Nat} {s : Cpu} (h : stop ≤ s.pc) : pass rom stop s = s := by
  rw [pass, if_neg (by omega)]

@[simp] theorem pass_end (rom : List Instr) (stop : Nat) (c : Data) : pass rom stop ⟨stop, c⟩ = ⟨stop, c⟩ :=
  pass_of_le rom (Nat.le_refl stop)

theorem pass_forward (rom : List Instr) {stop : Nat} {s : Cpu} (h : s.pc < stop) (hf : s.pc < (step rom s).pc) :
    pass rom stop s = pass rom stop (step rom s) := by
  rw [pass, if_pos h, if_pos hf]

/-- Passing is a finite run. -/
theorem pass_eq_run (rom : List Instr) (stop : Nat) (s : Cpu) : ∃ n, pass rom stop s = run rom n s := by
  fun_induction pass rom stop s with
  | case1 s h hf ih =>
    obtain ⟨n, hn⟩ := ih
    exact ⟨n + 1, by rw [hn, Nat.add_comm, run_add]; rfl⟩
  | case2 s h hf => exact ⟨1, rfl⟩
  | case3 s h => exact ⟨0, rfl⟩

end Cpu

end HackStack
