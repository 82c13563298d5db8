import HackStack.Proofs.Blocks
import HackStack.Proofs.Symbols
/-!
# Cells of the static segments

Every static cell an output uses gets a memory cell of its own behind the registers,
as long as its symbol is not declared as a label (`link_ownCells`). No output that
fits the address space has too many symbols for that: at most every other
instruction loads one.
-/

namespace HackStack

/-! ## How many symbols are loaded -/

/-- At most every other instruction loads a symbol. -/
def Sparse (ls : List Line) : Prop := 2 * (operands ls).length ≤ codeSize ls

theorem sparse_append {ls ls' : List Line} (h : Sparse ls) (h' : Sparse ls') : Sparse (ls ++ ls') := by
  rw [Sparse, operands, List.filterMap_append, List.length_append, codeSize_append, Nat.mul_add]
  exact Nat.add_le_add h h'

theorem sparse_flatten {lss : List (List Line)} (h : ∀ ls ∈ lss, Sparse ls) : Sparse lss.flatten := by
  induction lss with
  | nil => exact Nat.le_refl 0
  | cons ls lss ih =>
    obtain ⟨hls, hlss⟩ := List.forall_mem_cons.1 h
    exact sparse_append hls (ih hlss)

theorem sparse_pushCode (p : Place) : Sparse p.pushCode := by
  cases p <;> simp [Sparse, Place.pushCode, pushD, operands, List.filterMap_cons, Line.operand?, Line.size]

theorem sparse_popCode (p : Place) : Sparse p.popCode := by
  cases p <;> simp [Sparse, Place.popCode, popD, operands, List.filterMap_cons, Line.operand?, Line.size]

theorem Operator.sparse_code (n : Counters) (op : Operator) : Sparse (op.code n) := by
  cases op <;>
    simp [Sparse, code, binaryCode, unaryCode, compareCode, popUnder, popD, operands, List.filterMap_cons,
      Line.operand?, Line.size]

theorem sparse_functionCode (name : String) (locals : UInt16) : Sparse (functionCode name locals) := by
  have hzero : ∀ ls ∈ List.replicate locals.toNat pushZero, Sparse ls := by
    intro ls hls
    rw [List.eq_of_mem_replicate hls]
    simp [Sparse, pushZero, operands, List.filterMap_cons, Line.operand?, Line.size]
  exact @sparse_append [.label (.named name)] _ (Nat.le_refl 0) (sparse_flatten hzero)

theorem Command.sparse_code (unit : String) (n : Counters) (c : Command) : Sparse (c.code unit n) := by
  cases c with
  | operate op => exact op.sparse_code n
  | push s i => exact sparse_pushCode _
  | pop s i => exact sparse_popCode _
  | function name locals => exact sparse_functionCode name locals
  | _ => simp [Sparse, code, callCode, returnCode, pushD, popD, operands, List.filterMap_cons, Line.operand?, Line.size]

theorem Piece.sparse_lines (echo : Bool) (p : Piece) : Sparse (p.lines echo) := by
  refine sparse_append ?_ ?_
  · cases echo <;> exact Nat.le_refl 0
  · cases p with
    | start => simp [Sparse, code, operands, List.filterMap_cons, Line.operand?, Line.size]
    | command unit n c => exact c.sparse_code unit n

theorem sparse_flatMap_lines (echo : Bool) (ps : List Piece) : Sparse (ps.flatMap (Piece.lines echo)) := by
  refine sparse_flatten fun ls hls => ?_
  obtain ⟨p, -, rfl⟩ := List.mem_map.1 hls
  exact p.sparse_lines echo

/-- Each symbol that gets a cell is loaded at least once. -/
theorem allocated_length_le (ls : List Line) : (allocated ls).length ≤ (operands ls).length := by
  rw [allocated, List.length_reverse]
  refine (List.Sublist.length_le (List.dedup_sublist _)).trans ?_
  rw [List.length_reverse]
  exact List.length_filter_le _ _

/-! ## Static cells -/

/-- The static cell a line loads the address of. -/
def Line.static? : Line → Option (String × UInt16)
  | symbol (.static unit i) => some (unit, i)
  | _ => none

/-- The static cells the lines use, each with its unit. -/
def statics (ls : List Line) : List (String × UInt16) := ls.filterMap Line.static?

theorem mem_operands_of_static {ls : List Line} {x : String × UInt16} (h : x ∈ statics ls) :
    (Symbol.static x.1 x.2).text ∈ operands ls := by
  obtain ⟨l, hl, hx⟩ := List.mem_filterMap.1 h
  rw [Line.static?.eq_def] at hx
  split at hx
  · cases hx
    exact List.mem_filterMap.2 ⟨_, hl, rfl⟩
  · cases hx

/-- The static cells have memory cells of their own, behind the registers. -/
def Image.OwnCells (img : Image) (ls : List Line) : Prop :=
  ∀ x ∈ statics ls, firstVariable ≤ (img.cells x.1 x.2).address.toNat ∧
    ∀ y ∈ statics ls, (img.cells x.1 x.2).address = (img.cells y.1 y.2).address → x = y

theorem link_ownCells {ls : List Line} {img : Image} (h : link ls = some img) (hs : Sparse ls)
    (hsize : codeSize ls ≤ maxImmediate) (ha : ∀ x ∈ statics ls, (Symbol.static x.1 x.2).text ∉ declared ls) :
    img.OwnCells ls := by
  obtain ⟨-, -, rfl⟩ := link_eq_some h
  have hmem : ∀ x ∈ statics ls, (Symbol.static x.1 x.2).text ∈ allocated ls := by
    intro x hx
    have hfixed : fixedValue? (Symbol.static x.1 x.2).text = none := Symbol.fixedValue?_of_parts rfl
    simp [allocated, mem_operands_of_static hx, hfixed, ha x hx]
  have hvalue : ∀ x ∈ statics ls, resolve ls (Symbol.static x.1 x.2).text =
      firstVariable + (allocated ls).idxOf (Symbol.static x.1 x.2).text := by
    intro x hx
    have hfixed : fixedValue? (Symbol.static x.1 x.2).text = none := Symbol.fixedValue?_of_parts rfl
    have hlabel : (labelTable 0 ls).lookup (Symbol.static x.1 x.2).text = none :=
      lookup_eq_none_of_notMem (by rw [labelTable_fst]; exact ha x hx)
    rw [resolve, hfixed]
    simp [hlabel]
  have haddress : ∀ x ∈ statics ls,
      (Image.cells ⟨ls.filterMap (Line.instr? (resolve ls)), resolve ls⟩ x.1 x.2).address.toNat =
      firstVariable + (allocated ls).idxOf (Symbol.static x.1 x.2).text := by
    intro x hx
    have hlt := List.idxOf_lt_length_of_mem (hmem x hx)
    have hle := allocated_length_le ls
    -- the cells end far below the last address, as every other instruction loads a symbol at most
    refine address_word (hvalue x hx) ?_
    simp only [Sparse, maxImmediate, firstVariable] at *
    omega
  refine fun x hx => ⟨by rw [haddress x hx]; exact Nat.le_add_right _ _, fun y hy he => ?_⟩
  have hidx := congrArg BitVec.toNat he
  rw [haddress x hx, haddress y hy, Nat.add_left_cancel_iff, List.idxOf_inj (hmem x hx)] at hidx
  exact Prod.ext_iff.2 (Symbol.static_text_inj.1 hidx)

end HackStack
