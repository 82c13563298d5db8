import HackStack.Proofs.Assembler
import HackStack.Proofs.StackMachine
import Mathlib.Data.BitVec
import Mathlib.Tactic.IntervalCases
/-!
# Executing code

A stretch without jumps is executed line by line on the data alone (`execAll`,
`pass_straight`), and a jump at its end leaves it (`pass_last`). From that follows
what each piece of a command's code does.
-/

namespace HackStack

/-! ## Names in an image -/

namespace Image

/-- Every name that is a number or predefined stands for its value. -/
def Fixed (img : Image) : Prop := ∀ s n, fixedValue? s = some n → img.value s = n

/-- What loading a symbol puts into A. -/
def word (img : Image) (s : Symbol) : Word := BitVec.ofNat 16 (img.value s.text)

/-- The number of the instruction at which control goes on, behind code that ends before `stop`. -/
def goto (img : Image) (stop : Nat) : Target → Nat
  | .next => stop
  | .entry name => (img.word (.named name)).address.toNat
  | .address w => w.address.toNat

/-- Passing the lines, which stand at `pc`, turns one memory into the other and then goes to the
target, whatever A and D hold. -/
def Does (img : Image) (pc : Nat) (ls : List Line) (r : Ram) (e : Ram × Target) : Prop :=
  ∀ a d, ∃ a' d', Cpu.pass img.rom (pc + codeSize ls) ⟨pc, a, d, r⟩ = ⟨img.goto (pc + codeSize ls) e.2, a', d', e.1⟩

section Fixed
variable {img : Image} (hf : img.Fixed)
include hf

theorem word_sp : img.word .sp = Cell.sp := by
  rw [word, hf _ 0 (by decide)]; rfl

theorem word_lcl : img.word .lcl = Cell.lcl := by
  rw [word, hf _ 1 (by decide)]; rfl

theorem word_arg : img.word .arg = Cell.arg := by
  rw [word, hf _ 2 (by decide)]; rfl

theorem word_this : img.word .this = Cell.this := by
  rw [word, hf _ 3 (by decide)]; rfl

theorem word_that : img.word .that = Cell.that := by
  rw [word, hf _ 4 (by decide)]; rfl

theorem word_ram {n : Nat} (h : n < 16) : img.word (.ram n) = BitVec.ofNat 16 n := by
  rw [word, hf _ n (by interval_cases n <;> decide)]

theorem word_r13 : img.word (.ram 13) = Cell.r13 := word_ram hf (by decide)

theorem word_r14 : img.word (.ram 14) = Cell.r14 := word_ram hf (by decide)

end Fixed

end Image

theorem link_fixed {ls : List Line} {img : Image} (h : link ls = some img) : img.Fixed := by
  obtain ⟨-, -, rfl⟩ := link_eq_some h
  exact fun s n => resolve_of_fixed ls

/-! ## Code without jumps -/

namespace Line

/-- Whether control always goes on to the line behind it. -/
def straight : Line → Bool
  | jump .. => false
  | _ => true

/-- What a line does to the data. -/
def exec (img : Image) (c : Data) : Line → Data
  | number n => { c with a := BitVec.ofNat 16 n }
  | symbol s => { c with a := img.word s }
  | set dest comp => c.put (c.eval comp) dest
  | _ => c

end Line

def execAll (img : Image) (c : Data) (ls : List Line) : Data := ls.foldl (Line.exec img) c

theorem execAll_append (img : Image) (c : Data) (ls ls' : List Line) :
    execAll img c (ls ++ ls') = execAll img (execAll img c ls) ls' := by
  simp [execAll]

theorem execAll_symbol (img : Image) (c : Data) (s : Symbol) :
    execAll img c [.symbol s] = { c with a := img.word s } := rfl

section Pass
variable {img : Image} {pc stop : Nat} {c : Data}

/-- A line that is no jump is either no instruction, or an instruction that goes on to the next one. -/
theorem step_straight {l : Line} (hs : l.straight) (hi : ∀ i ∈ l.instr? img.value, img.rom[pc]? = some i) :
    (l.size = 0 ∧ l.exec img c = c) ∨ (l.size = 1 ∧ Cpu.step img.rom ⟨pc, c⟩ = ⟨pc + 1, l.exec img c⟩) := by
  cases l with
  | comment | label => exact .inl ⟨rfl, rfl⟩
  | jump => simp [Line.straight] at hs
  | number | symbol | set =>
    refine .inr ⟨rfl, ?_⟩
    rw [Cpu.step, hi _ rfl]
    rfl

/-- Passing a stretch without jumps executes its lines one after another. -/
theorem pass_straight {ls : List Line} (hc : img.Carries pc ls) (hs : ls.all Line.straight)
    (hle : pc + codeSize ls ≤ stop) :
    Cpu.pass img.rom stop ⟨pc, c⟩ = Cpu.pass img.rom stop ⟨pc + codeSize ls, execAll img c ls⟩ := by
  induction ls generalizing pc c with
  | nil => rfl
  | cons l ls ih =>
    obtain ⟨-, hi, hrest⟩ := hc
    obtain ⟨hl, hls⟩ := Bool.and_eq_true_iff.1 hs
    rw [codeSize_cons] at hle
    have ih' := @ih (pc + l.size) (l.exec img c) hrest hls (by omega)
    rw [show execAll img c (l :: ls) = execAll img (l.exec img c) ls from rfl, codeSize_cons, ← Nat.add_assoc, ← ih']
    rcases step_straight hl hi with ⟨h0, he⟩ | ⟨h1, he⟩
    · rw [h0, he, Nat.add_zero]
    · rw [h1] at hle ⊢
      rw [Cpu.pass_forward _ (show pc < stop by omega) (by rw [he]; exact Nat.lt_succ_self pc), he]

variable {comp : Comp} {on : Jump} (hi : img.rom[pc]? = some (.branch comp on))
include hi

theorem pass_skip (hlt : pc < stop) (ht : on.taken (c.eval comp) = false) :
    Cpu.pass img.rom stop ⟨pc, c⟩ = Cpu.pass img.rom stop ⟨pc + 1, c⟩ := by
  have he : Cpu.step img.rom ⟨pc, c⟩ = ⟨pc + 1, c⟩ := by simp [Cpu.step, hi, ht]
  rw [Cpu.pass_forward _ hlt (by rw [he]; exact Nat.lt_succ_self pc), he]

theorem pass_jump (hlt : pc < stop) (ht : on.taken (c.eval comp) = true) (hfwd : pc < c.a.address.toNat) :
    Cpu.pass img.rom stop ⟨pc, c⟩ = Cpu.pass img.rom stop ⟨c.a.address.toNat, c⟩ := by
  have he : Cpu.step img.rom ⟨pc, c⟩ = ⟨c.a.address.toNat, c⟩ := by simp [Cpu.step, hi, ht]
  rw [Cpu.pass_forward _ hlt (by rw [he]; exact hfwd), he]

/-- A jump at the very end leaves the code, wherever it goes. -/
theorem pass_last (hlast : pc + 1 = stop) :
    Cpu.pass img.rom stop ⟨pc, c⟩ = ⟨if on.taken (c.eval comp) then c.a.address.toNat else stop, c⟩ := by
  have hlt : pc < stop := by omega
  cases ht : on.taken (c.eval comp) with
  | false =>
    rw [pass_skip hi hlt ht, Cpu.pass_of_le _ (show stop ≤ pc + 1 by omega), hlast]
    rfl
  | true =>
    -- a jump back ends the pass at once, and a jump ahead leads to the end or past it
    by_cases hfwd : pc < c.a.address.toNat
    · rw [pass_jump hi hlt ht hfwd, Cpu.pass_of_le _ (show stop ≤ c.a.address.toNat by omega)]
      rfl
    · have he : Cpu.step img.rom ⟨pc, c⟩ = ⟨c.a.address.toNat, c⟩ := by simp [Cpu.step, hi, ht]
      rw [Cpu.pass, if_pos hlt, he, if_neg hfwd]
      rfl

end Pass

/-! ## Pieces of code -/

section Pieces
variable {img : Image} (hf : img.Fixed) (c : Data)
include hf

theorem execAll_pushD : execAll img c pushD = { a := c.ram.read Cell.sp, d := c.d, ram := c.ram.push c.d } := by
  simp [execAll, pushD, Line.exec, Image.word_sp hf, Data.put, Data.eval, Data.input, Ram.push]

theorem execAll_popD :
    execAll img c popD = { a := c.ram.read Cell.sp - 1, d := c.ram.drop.next, ram := c.ram.drop } := by
  simp [execAll, popD, Line.exec, Image.word_sp hf, Data.put, Data.eval, Data.input, Ram.drop, Ram.next]

theorem execAll_popUnder :
    execAll img c popUnder = { a := c.ram.drop.read Cell.sp - 1, d := c.ram.drop.next, ram := c.ram.drop } := by
  rw [popUnder, execAll_append, execAll_popD hf]
  simp [execAll, Line.exec, Data.put, Data.eval, Data.input, Ram.drop]

/-- Saving a register whose symbol stands for the cell `base`. -/
theorem execAll_save {s : Symbol} {base : Word} (hs : img.word s = base) :
    execAll img c ([.symbol s, .set .d (.get .m)] ++ pushD) =
      { a := c.ram.read Cell.sp, d := c.ram.read base, ram := c.ram.save base } := by
  rw [execAll_append, execAll_pushD hf]
  simp [execAll, Line.exec, hs, Data.put, Data.eval, Data.input, Ram.save]

theorem execAll_restore {s : Symbol} {base : Word} (hs : img.word s = base) :
    (execAll img c [.symbol (.ram 13), .set .am (.dec .m), .set .d (.get .m), .symbol s, .set .m .d]).ram =
      c.ram.restore base := by
  simp [execAll, Line.exec, hs, Image.word_r13 hf, Data.put, Data.eval, Data.input, Ram.restore]

end Pieces

end HackStack
