import HackStack.Proofs.AssemblyText
import HackStack.Proofs.CommandCode
import HackStack.Proofs.History
/-!
# Blocks in an image

A piece of the output becomes a block of instructions. `Image.Hosts` says that the
blocks of some pieces follow each other in an image, as they do in the image of any
output that assembles and fits the address space (`hosts_of_assemble`).

`Image.Hosts.pass_piece`: passing a block does what its piece means and goes to the
block the stack machine goes on with.
-/

namespace HackStack

/-! ## Addresses -/

/-- The number of the first instruction of a block. -/
def blockStart (ps : List Piece) (k : Nat) : Nat := codeSize ((ps.take k).flatMap Piece.code)

@[simp] theorem codeSize_lines (echo : Bool) (p : Piece) : codeSize (p.lines echo) = codeSize p.code := by
  cases echo <;> simp [Piece.lines, Line.size]

@[simp] theorem codeSize_flatMap_lines (echo : Bool) (ps : List Piece) :
    codeSize (ps.flatMap (Piece.lines echo)) = codeSize (ps.flatMap Piece.code) := by
  induction ps with
  | nil => rfl
  | cons p ps ih => simp [ih]

theorem blockStart_succ {ps : List Piece} {k : Nat} {p : Piece} (hk : ps[k]? = some p) :
    blockStart ps (k + 1) = blockStart ps k + codeSize p.code := by
  simp [blockStart, List.take_add_one, hk]

theorem blockStart_le (ps : List Piece) (k : Nat) : blockStart ps k ≤ codeSize (ps.flatMap Piece.code) := by
  conv_rhs => rw [← List.take_append_drop k ps, List.flatMap_append, codeSize_append]
  exact Nat.le_add_right _ _

/-! ## Names -/

namespace Command

/-- The name a command declares. -/
def declares? : Command → Option String
  | label name | function name _ => some name
  | _ => none

/-- The name a command goes to. -/
def mentions? : Command → Option String
  | goto name | ifGoto name | call name _ => some name
  | _ => none

end Command

namespace Piece

/-- The name a piece declares. -/
def declares? : Piece → Option String
  | start => none
  | command _ _ c => c.declares?

/-- The name a piece goes to. -/
def mentions? : Piece → Option String
  | start => none
  | command _ _ c => c.mentions?

end Piece

namespace Program

/-- The names the sources declare. -/
def declares (units : List SourceUnit) : List String := (commands units).filterMap (·.2.declares?)

/-- The names the program goes to. -/
def mentions (units : List SourceUnit) (bootstrap : Bool) : List String :=
  (if bootstrap then [entryPoint] else []) ++ (commands units).filterMap (·.2.mentions?)

end Program

/-! ## Meaning of a piece -/

/-- What a piece does. `cells` says where the static cells of each unit lie, and `back` is the number
of the instruction behind its block. -/
def Piece.run (cells : String → UInt16 → Word) (back : Word) (r : Ram) : Piece → Ram × Target
  | start => (r.write Cell.sp (BitVec.ofNat 16 stackBase), .next)
  | command unit _ c => c.run (cells unit) back r

namespace Image

/-- Where the static cells of each unit lie. -/
def cells (img : Image) (unit : String) (i : UInt16) : Word := img.word (.static unit i)

/-- The blocks of the pieces follow each other in the image, and fit the address space. -/
structure Hosts (img : Image) (ps : List Piece) : Prop where
  fixed : img.Fixed
  carries : ∀ k p, ps[k]? = some p → img.Carries (blockStart ps k) p.code
  checked : ∀ p ∈ ps, p.Checked
  size : codeSize (ps.flatMap Piece.code) ≤ maxImmediate

variable {img : Image}

/-- Comments do not matter to the code behind them. -/
theorem carries_lines {pc : Nat} {echo : Bool} {p : Piece} (h : img.Carries pc (p.lines echo)) :
    img.Carries pc p.code := by
  cases echo
  · exact h
  · exact h.2.2

theorem carries_piece {ps : List Piece} {echo : Bool} (h : img.Carries 0 (ps.flatMap (Piece.lines echo)))
    {k : Nat} {p : Piece} (hk : ps[k]? = some p) : img.Carries (blockStart ps k) p.code := by
  obtain ⟨hlt, rfl⟩ := List.getElem?_eq_some_iff.1 hk
  -- the lines in front of the piece, its own, and those behind it
  rw [← List.take_append_drop k ps, List.drop_eq_getElem_cons hlt, List.flatMap_append, List.flatMap_cons,
    carries_append, carries_append] at h
  have hp := carries_lines h.2.1
  rwa [codeSize_flatMap_lines, Nat.zero_add] at hp

theorem does_piece {pc : Nat} {p : Piece} (hf : img.Fixed) (hok : p.Checked) (hc : img.Carries pc p.code)
    (hsize : pc + codeSize p.code < 32768) (r : Ram) :
    img.Does pc p.code r (p.run img.cells (BitVec.ofNat 16 (pc + codeSize p.code)) r) := by
  cases p with
  | start =>
    refine does_straight hc rfl fun a d => ?_
    simp [Piece.code, execAll, Line.exec, word_sp hf, Data.put, Data.eval, Data.input]
  | command unit n c => exact does_code hf r hok hc hsize

namespace Hosts
variable {ps : List Piece} (h : img.Hosts ps)
include h

theorem blockStart_lt (k : Nat) : blockStart ps k < 32768 :=
  Nat.lt_of_le_of_lt ((blockStart_le ps k).trans h.size) (by decide)

/-- Passing a block does what its piece means. -/
theorem pass_piece {k : Nat} {p : Piece} (hk : ps[k]? = some p) (r : Ram) (a d : Word) :
    ∃ a' d', Cpu.pass img.rom (blockStart ps (k + 1)) ⟨blockStart ps k, a, d, r⟩ =
      ⟨img.goto (blockStart ps (k + 1)) (p.run img.cells (BitVec.ofNat 16 (blockStart ps (k + 1))) r).2, a', d',
        (p.run img.cells (BitVec.ofNat 16 (blockStart ps (k + 1))) r).1⟩ := by
  have hlt := h.blockStart_lt (k + 1)
  rw [blockStart_succ hk] at hlt ⊢
  exact does_piece h.fixed (h.checked p (List.mem_of_getElem? hk)) (h.carries k p hk) hlt r a d

/-- A declared name stands for the first instruction of the block that declares it. -/
theorem value_declared {k : Nat} {p : Piece} (hk : ps[k]? = some p) {name : String}
    (hn : p.declares? = some name) : img.value name = blockStart ps k := by
  have hc := h.carries k p hk
  cases p with
  | start => cases hn
  | command unit n c =>
    cases c <;> cases hn
    · exact hc.1 _ rfl
    · exact hc.1 _ rfl

theorem goto_entry {k : Nat} {p : Piece} (hk : ps[k]? = some p) {name : String} (hn : p.declares? = some name)
    (stop : Nat) : img.goto stop (.entry name) = blockStart ps k :=
  address_word (h.value_declared hk hn) (h.blockStart_lt k)

end Hosts

end Image

/-- The image of an output that fits the address space hosts its pieces. -/
theorem hosts_of_assemble {ps : List Piece} {echo : Bool} {img : Image}
    (h : assemble ((ps.flatMap (Piece.lines echo)).map Line.text) = some img) (hok : ∀ p ∈ ps, p.Checked)
    (hsize : codeSize (ps.flatMap (Piece.lines echo)) ≤ maxImmediate) : img.Hosts ps where
  fixed := link_fixed (assemble_text (readable_of_assemble h) ▸ h)
  carries _ _ := Image.carries_piece (assemble_carries h)
  checked := hok
  size := by rwa [codeSize_flatMap_lines] at hsize

end HackStack
