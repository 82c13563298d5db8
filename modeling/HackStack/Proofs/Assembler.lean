import HackStack.Assembly.Code
import HackStack.Command.Reader
import HackStack.Proofs.Machine
import Mathlib.Data.List.Dedup
/-!
# The assembler

`Line.read?` reads a line of assembly and `link` resolves the symbols: a label
names the next instruction, some symbols are predefined, and every other one gets
a memory cell of its own from 16 up, in order of first use. `assemble` does both.

`Image.Carries` says that a stretch of lines stands in an image at an address.
`link_carries`: an image carries the lines it was linked from.
-/

namespace HackStack

/-! ## Reading a line -/

def Comp.all : List Comp :=
  [.zero, .one, .negOne, .d, .notD, .negD, .incD, .decD] ++
  [AluInput.a, .m].flatMap fun y =>
    [.get y, .not y, .neg y, .inc y, .dec y, .add y, .sub y, .subD y, .and y, .or y]

def Dest.all : List Dest := [.a, .m, .d, .am, .ad, .md, .amd]

def Jump.all : List Jump := [.gt, .eq, .ge, .lt, .ne, .le, .always]

def Comp.read? (s : List Char) : Option Comp := all.find? (·.text.toList == s)

def Dest.read? (s : List Char) : Option Dest := all.find? (·.text.toList == s)

def Jump.read? (s : List Char) : Option Jump := all.find? (·.text.toList == s)

namespace Line

/-- What stands behind the at sign: a number that fits fifteen bits, or a symbol. -/
def readOperand? (s : List Char) : Option Line :=
  match Text.Decimal.value? s with
  | some n => if n ≤ maxImmediate then some (.number n) else none
  | none => if isSymbol s then some (.symbol (.named (String.ofList s))) else none

/-- What stands behind the opening bracket: a symbol and the closing one. -/
def readLabel? (s : List Char) : Option Line :=
  if s.getLast? = some ')' ∧ isSymbol s.dropLast then some (.label (.named (String.ofList s.dropLast))) else none

/-- A computation that is stored, or one that decides a jump. -/
def readComputation? (s : List Char) : Option Line :=
  if '=' ∈ s then do
    return .set (← Dest.read? (s.takeWhile (· != '='))) (← Comp.read? (s.dropWhile (· != '=')).tail)
  else do
    return .jump (← Comp.read? (s.takeWhile (· != ';'))) (← Jump.read? (s.dropWhile (· != ';')).tail)

/-- The line a text stands for. Symbols come out as plain names, whatever they were made from. -/
def read? (text : String) : Option Line :=
  match text.toList with
  | '/' :: '/' :: rest => some (.comment (String.ofList rest))
  | '(' :: rest => readLabel? rest
  | '@' :: rest => readOperand? rest
  | s => readComputation? s

/-- The label a line declares. -/
def declared? : Line → Option String
  | .label s => some s.text
  | _ => none

/-- The symbol a line loads. -/
def operand? : Line → Option String
  | .symbol s => some s.text
  | _ => none

/-- How many instructions a line is. -/
def size : Line → Nat
  | .comment _ | .label _ => 0
  | _ => 1

/-- The instruction a line is, where symbols have these values. -/
def instr? (value : String → Nat) : Line → Option Instr
  | .comment _ | .label _ => none
  | .number n => some (.load (BitVec.ofNat 16 n))
  | .symbol s => some (.load (BitVec.ofNat 16 (value s.text)))
  | .set dest comp => some (.compute dest comp)
  | .jump comp on => some (.branch comp on)

end Line

/-! ## Symbols -/

/-- The names that stand for a cell in every program. -/
def predefined : List (String × Nat) :=
  [("SP", 0), ("LCL", 1), ("ARG", 2), ("THIS", 3), ("THAT", 4), ("SCREEN", 16384), ("KBD", 24576)] ++
  (List.range 16).map fun n => ("R" ++ toString n, n)

/-- The first cell given to a symbol that is neither predefined nor declared. -/
def firstVariable : Nat := 16

/-- How many instructions the lines are. -/
def codeSize : List Line → Nat
  | [] => 0
  | l :: ls => l.size + codeSize ls

@[simp] theorem codeSize_nil : codeSize [] = 0 := rfl

@[simp] theorem codeSize_cons (l : Line) (ls : List Line) : codeSize (l :: ls) = l.size + codeSize ls := rfl

@[simp] theorem codeSize_append (ls ls' : List Line) : codeSize (ls ++ ls') = codeSize ls + codeSize ls' := by
  induction ls with
  | nil => simp
  | cons l ls ih => simp [ih, Nat.add_assoc]

/-- The labels with the number of the instruction each names, where the first line is at `pc`. -/
def labelTable (pc : Nat) : List Line → List (String × Nat)
  | [] => []
  | l :: ls => (l.declared?.toList.map (·, pc)) ++ labelTable (pc + l.size) ls

/-- The labels the lines declare, in order. -/
def declared (ls : List Line) : List String := ls.filterMap Line.declared?

def operands (ls : List Line) : List String := ls.filterMap Line.operand?

/-- What a name stands for in every program: a number, or a predefined cell. -/
def fixedValue? (s : String) : Option Nat :=
  Text.Decimal.value? s.toList <|> predefined.lookup s

/-- The symbols that get a cell of their own, in order of first use. -/
def allocated (ls : List Line) : List String :=
  ((operands ls).filter fun s => (fixedValue? s).isNone && s ∉ declared ls).reverse.dedup.reverse

/-- What a name stands for. -/
def resolve (ls : List Line) (s : String) : Nat :=
  match fixedValue? s with
  | some n => n
  | none =>
    match (labelTable 0 ls).lookup s with
    | some pc => pc
    | none => firstVariable + (allocated ls).idxOf s

theorem resolve_of_fixed (ls : List Line) {s : String} {n : Nat} (h : fixedValue? s = some n) :
    resolve ls s = n := by
  rw [resolve, h]

/-! ## Images -/

/-- An assembled program: its instructions, and what its symbols stand for. -/
structure Image where
  rom : List Instr
  value : String → Nat

/-- The image of the lines. A label is declared once, and is no number and not predefined. -/
def link (ls : List Line) : Option Image :=
  if (declared ls).Nodup ∧ ∀ s ∈ declared ls, fixedValue? s = none then
    some { rom := ls.filterMap (Line.instr? (resolve ls)), value := resolve ls }
  else none

def assemble (text : List String) : Option Image := do
  link (← text.mapM Line.read?)

/-- The lines stand in the image from the instruction `pc` on. -/
def Image.Carries (img : Image) : Nat → List Line → Prop
  | _, [] => True
  | pc, l :: ls =>
    (∀ s ∈ l.declared?, img.value s = pc) ∧ (∀ i ∈ l.instr? img.value, img.rom[pc]? = some i) ∧
      img.Carries (pc + l.size) ls

theorem Image.carries_append (img : Image) (pc : Nat) (ls ls' : List Line) :
    img.Carries pc (ls ++ ls') ↔ img.Carries pc ls ∧ img.Carries (pc + codeSize ls) ls' := by
  induction ls generalizing pc with
  | nil => simp [Carries]
  | cons l ls ih => simp [Carries, ih, and_assoc, Nat.add_assoc]

/-! ## An image carries its lines -/

theorem filterMap_instr?_length (v : String → Nat) (ls : List Line) :
    (ls.filterMap (Line.instr? v)).length = codeSize ls := by
  induction ls with
  | nil => rfl
  | cons l ls ih => cases l <;> simp [List.filterMap_cons, Line.instr?, Line.size, ih, Nat.add_comm]

theorem labelTable_append (pc : Nat) (ls ls' : List Line) :
    labelTable pc (ls ++ ls') = labelTable pc ls ++ labelTable (pc + codeSize ls) ls' := by
  induction ls generalizing pc with
  | nil => simp [labelTable]
  | cons l ls ih => simp [labelTable, ih, Nat.add_assoc]

theorem labelTable_fst (pc : Nat) (ls : List Line) : (labelTable pc ls).map Prod.fst = declared ls := by
  induction ls generalizing pc with
  | nil => rfl
  | cons l ls ih => cases h : l.declared? <;> simp_all [labelTable, declared]

theorem lookup_eq_none_of_notMem {s : String} {t : List (String × Nat)} (h : s ∉ t.map Prod.fst) :
    t.lookup s = none := by
  rw [List.lookup_eq_none_iff]
  intro p hp
  have hne : s ≠ p.1 := fun he => h (he ▸ List.mem_map_of_mem hp)
  simpa using hne

/-- A label names the instruction behind it. -/
theorem resolve_label {pre post : List Line} {l : Line} {s : String} (hs : l.declared? = some s)
    (hn : (declared (pre ++ l :: post)).Nodup) (hf : fixedValue? s = none) :
    resolve (pre ++ l :: post) s = codeSize pre := by
  have hpre : s ∉ declared pre := by
    simp only [declared, List.filterMap_append, List.filterMap_cons, hs, List.nodup_append, List.mem_cons] at hn ⊢
    intro hm
    exact hn.2.2 s hm s (.inl rfl) rfl
  have hl : (labelTable 0 (pre ++ l :: post)).lookup s = some (codeSize pre) := by
    rw [labelTable_append, List.lookup_append, lookup_eq_none_of_notMem (by rwa [labelTable_fst])]
    simp [labelTable, hs]
  rw [resolve, hf]
  simp [hl]

theorem link_eq_some {ls : List Line} {img : Image} (h : link ls = some img) :
    (declared ls).Nodup ∧ (∀ s ∈ declared ls, fixedValue? s = none) ∧
      img = { rom := ls.filterMap (Line.instr? (resolve ls)), value := resolve ls } := by
  unfold link at h
  split at h
  · next hc => exact ⟨hc.1, hc.2, (Option.some.inj h).symm⟩
  · cases h

/-- An image carries the lines it was linked from. -/
theorem link_carries {ls : List Line} {img : Image} (h : link ls = some img) : img.Carries 0 ls := by
  obtain ⟨hn, hf, rfl⟩ := link_eq_some h
  -- over the part of the lines that is left
  have go : ∀ post pre, ls = pre ++ post →
      Image.Carries { rom := ls.filterMap (Line.instr? (resolve ls)), value := resolve ls } (codeSize pre) post := by
    intro post
    induction post with
    | nil => intros; trivial
    | cons l post ih =>
      intro pre he
      refine ⟨fun s hs => ?_, fun i hi => ?_, ?_⟩
      · have hm : s ∈ declared ls := by
          rw [he]; simp only [declared, List.mem_filterMap]; exact ⟨l, by simp, hs⟩
        subst he
        exact resolve_label hs hn (hf s hm)
      · have hlen := filterMap_instr?_length (resolve ls) pre
        simp only [Option.mem_def] at hi
        simp only [he, List.filterMap_append, List.filterMap_cons] at hlen ⊢
        rw [← hlen]
        simp only [← he, hi]
        simp
      · have := ih (pre ++ [l]) (by simp [he])
        simpa using this
  exact go ls [] rfl

end HackStack
