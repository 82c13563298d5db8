import HackStack.Proofs.CallReturn
import HackStack.Proofs.Readable
/-!
# Comparisons and the signed order

A comparison goes by the sign of a difference of two words, which wraps. Where the difference fits a word,
that is the order of the numbers the words stand for, and where it does not, it is the reverse of it
(`Comparison.holds_sub`).

`compare_order`: in whatever state the block of a comparison was emitted and wherever it stands in a text that
assembles, it replaces its operands by the truth value of that order. `compare_order_wraps`: that is not the
order of the numbers, as 32767 is then less than -1.
-/

namespace HackStack

/-! ## The sign of a difference -/

namespace Comparison

/-- Whether a comparison holds between two numbers. -/
def between (x y : Int) : Comparison → Bool
  | eq => decide (x = y)
  | gt => decide (y < x)
  | lt => decide (x < y)

/-- Whether a comparison holds between two numbers by a difference that is kept in a word: in their own order
if the difference fits, and in the reverse one if it does not. -/
def byDifference (x y : Int) (k : Comparison) : Bool :=
  if -32768 ≤ x - y ∧ x - y < 32768 then k.between x y else k.between y x

theorem holds_eq (k : Comparison) (v : Word) : k.holds v = k.between v.toInt 0 := by
  cases k with
  | eq =>
    have hz : v = 0 ↔ v.toInt = 0 := BitVec.toInt_inj.symm
    rw [holds, between, beq_eq_decide]
    exact decide_eq_decide.2 hz
  | gt | lt => rfl

/-- The sign of a difference of words. -/
theorem holds_sub (k : Comparison) (x y : Word) : k.holds (x - y) = k.byDifference x.toInt y.toInt := by
  have hx := x.toInt_lt
  have hx' := x.le_toInt
  have hy := y.toInt_lt
  have hy' := y.le_toInt
  have hv := BitVec.toInt_sub (x := x) (y := y)
  rw [Int.bmod] at hv
  rw [holds_eq, byDifference]
  by_cases hfits : -32768 ≤ x.toInt - y.toInt ∧ x.toInt - y.toInt < 32768
  · have hdiff : (x - y).toInt = x.toInt - y.toInt := by omega
    rw [if_pos hfits, hdiff]
    cases k <;> simp only [between, decide_eq_decide] <;> omega
  · -- the difference is off by 65536, which turns its sign
    have hdiff : (x - y).toInt = x.toInt - y.toInt - 65536 ∨ (x - y).toInt = x.toInt - y.toInt + 65536 := by omega
    rw [if_neg hfits]
    cases k <;> simp only [between, decide_eq_decide] <;> omega

end Comparison

/-! ## Memory -/

namespace Ram
variable {r : Ram}

theorem cell_height_sub {k : Nat} (h : k ≤ r.height) :
    r.read Cell.sp - BitVec.ofNat 16 k = BitVec.ofNat 16 (r.height - k) := by
  rw [← ofNat_sub h]
  exact congrArg (· - BitVec.ofNat 16 k) r.cell_sp

/-- What taking the top off the stack leaves in each cell. -/
theorem drop_cell {n : Nat} (h : 0 < r.height) (hn : n < 32768) :
    r.drop.cell n = if n = 0 then BitVec.ofNat 16 (r.height - 1) else r.cell n := by
  have hsp : r.read Cell.sp - 1 = BitVec.ofNat 16 (r.height - 1) := cell_height_sub h
  rw [drop, hsp]
  exact cell_write hn (by decide) _

theorem drop_height (h : 0 < r.height) : r.drop.height = r.height - 1 := by
  have hsp : r.drop.read Cell.sp = BitVec.ofNat 16 (r.height - 1) := (drop_cell h (by decide)).trans (if_pos rfl)
  have hlt := (r.read Cell.sp).isLt
  rw [height, hsp, BitVec.toNat_ofNat, Nat.mod_eq_of_lt]
  unfold height
  omega

/-- The two cells an operator works on when the stack lies above the registers. -/
theorem operands_eq (h : 2 < r.height) (h' : r.height ≤ 32768) :
    r.drop.top = r.cell (r.height - 2) ∧ r.drop.next = r.cell (r.height - 1) := by
  have hh : r.drop.height = r.height - 2 + 1 := by rw [drop_height (by omega)]; omega
  constructor
  · rw [(top_eq hh).1, drop_cell (by omega) (by omega), if_neg (by omega)]
  · have hsp : r.drop.read Cell.sp = BitVec.ofNat 16 (r.height - 1) :=
      (drop_cell (by omega) (by decide)).trans (if_pos rfl)
    rw [next, hsp]
    exact (drop_cell (by omega) (by omega)).trans (if_neg (by omega))

/-- What putting a result in the place of two operands leaves in each cell. -/
theorem result_cell {v : Word} {n : Nat} (h : 2 < r.height) (h' : r.height ≤ 32768) (hn : n < 32768) :
    (r.drop.setTop v).cell n =
      if n = 0 then BitVec.ofNat 16 (r.height - 1) else if n = r.height - 2 then v else r.cell n := by
  have hh : r.drop.height = r.height - 2 + 1 := by rw [drop_height (by omega)]; omega
  have htop : r.drop.read Cell.sp - 1 = BitVec.ofNat 16 (r.height - 2) := (top_eq hh).2
  rw [setTop, htop, cell_write hn (by omega), drop_cell (by omega) hn]
  grind

end Ram

/-! ## Blocks of an emitter -/

/-- Where the block of a command stands in a text that assembles, passing it does what the command means. -/
theorem Emitter.pass_block {e : Emitter} {c : Command} {pre post : List Line} {img : Image}
    (h : assemble ((pre ++ e.block c ++ post).map Line.text) = some img)
    (hsize : codeSize (pre ++ e.block c ++ post) ≤ maxImmediate) (hok : c.check = .ok ()) (r : Ram) (a d : Word) :
    let stop := codeSize (pre ++ e.block c)
    let out := c.run (img.cells e.unit) (BitVec.ofNat 16 stop) r
    ∃ a' d', Cpu.pass img.rom stop ⟨codeSize pre, a, d, r⟩ = ⟨img.goto stop out.2, a', d', out.1⟩ := by
  have hblock : e.block c = (Piece.command e.unit e.counters c).lines e.echo := rfl
  have hcode : codeSize (e.block c) = codeSize (c.code e.unit e.counters) := by rw [hblock, codeSize_lines]; rfl
  have hfixed : img.Fixed := link_fixed (assemble_text (readable_of_assemble h) ▸ h)
  have hcarries := assemble_carries h
  rw [List.append_assoc, Image.carries_append, Image.carries_append, Nat.zero_add, hblock] at hcarries
  have hc : img.Carries (codeSize pre) (c.code e.unit e.counters) := Image.carries_lines hcarries.2.1
  have hlt : codeSize pre + codeSize (c.code e.unit e.counters) < 32768 := by
    rw [codeSize_append, codeSize_append, hcode] at hsize
    exact Nat.lt_of_le_of_lt ((Nat.le_add_right _ _).trans hsize) (by decide)
  intro stop out
  have hstop : stop = codeSize pre + codeSize (c.code e.unit e.counters) := by
    rw [← hcode]
    exact codeSize_append pre (e.block c)
  have hdoes := does_code hfixed r hok hc hlt a d
  rw [← hstop] at hdoes
  exact hdoes

/-- The block of a comparison assembles by itself. -/
theorem Emitter.block_assembles (e : Emitter) (k : Comparison) :
    ∃ img, assemble ((e.block (.operate (.compare k))).map Line.text) = some img := by
  have hr : ∀ l ∈ e.block (.operate (.compare k)), l.Readable := by
    intro l hl
    refine Line.Regular.readable ?_
    rcases List.mem_append.1 hl with hl | hl
    · unfold comment at hl
      split at hl
      · rw [List.mem_singleton.1 hl]
        trivial
      · cases hl
    · exact Operator.code_regular e.counters (.compare k) l hl
  let n := e.counters.get k
  have hd : declared (e.block (.operate (.compare k))) = [(Symbol.holds k n).text, (Symbol.done k n).text] := by
    unfold block comment
    cases e.echo <;> rfl
  have hne : (Symbol.holds k n).text ≠ (Symbol.done k n).text := by
    intro he
    cases Symbol.generated_text_inj rfl rfl he
  rw [assemble_text hr, link, hd]
  refine ⟨_, if_pos ⟨by simp [hne], fun s hs => ?_⟩⟩
  simp only [List.mem_cons, List.not_mem_nil, or_false] at hs
  rcases hs with rfl | rfl
  · exact Symbol.fixedValue?_of_parts rfl
  · exact Symbol.fixedValue?_of_parts rfl

/-! ## The order a comparison goes by -/

/-- The block of a comparison decides an order: in whatever state it was emitted and wherever it stands in a text
that assembles and fits the memory, and whatever A and D hold, the processor gets through it, and the two
operands are then replaced by -1 if the order holds between them and by 0 if not. -/
def Comparison.Decides (k : Comparison) (order : Int → Int → Bool) : Prop :=
  ∀ (e : Emitter) (pre post : List Line) (img : Image),
    assemble ((pre ++ e.block (.operate (.compare k)) ++ post).map Line.text) = some img →
    codeSize (pre ++ e.block (.operate (.compare k)) ++ post) ≤ maxImmediate →
    ∀ r : Ram, 258 ≤ r.height → r.height ≤ 32767 → ∀ a d : Word, ∃ n a' d' r',
      Cpu.run img.rom n ⟨codeSize pre, a, d, r⟩ = ⟨codeSize (pre ++ e.block (.operate (.compare k))), a', d', r'⟩ ∧
      r'.height = r.height - 1 ∧
      r'.cell (r.height - 2) =
        if order (r.cell (r.height - 2)).toInt (r.cell (r.height - 1)).toInt then -1 else 0

/-- What passing the block of a comparison leaves. -/
theorem pass_compare {e : Emitter} {k : Comparison} {pre post : List Line} {img : Image}
    (h : assemble ((pre ++ e.block (.operate (.compare k)) ++ post).map Line.text) = some img)
    (hsize : codeSize (pre ++ e.block (.operate (.compare k)) ++ post) ≤ maxImmediate) {r : Ram}
    (hlow : 258 ≤ r.height) (hhigh : r.height ≤ 32767) (a d : Word) :
    let v := truth (k.byDifference (r.cell (r.height - 2)).toInt (r.cell (r.height - 1)).toInt)
    ∃ a' d', Cpu.pass img.rom (codeSize (pre ++ e.block (.operate (.compare k)))) ⟨codeSize pre, a, d, r⟩ =
      ⟨codeSize (pre ++ e.block (.operate (.compare k))), a', d', r.drop.setTop v⟩ := by
  obtain ⟨hx, hy⟩ := Ram.operands_eq (r := r) (by omega) (by omega)
  intro v
  have hv : truth (k.holds (r.drop.top - r.drop.next)) = v := by rw [k.holds_sub, hx, hy]
  rw [← hv]
  exact Emitter.pass_block h hsize rfl r a d

theorem Comparison.decides_byDifference (k : Comparison) : k.Decides fun x y => k.byDifference x y := by
  intro e pre post img h hsize r hlow hhigh a d
  obtain ⟨a', d', hp⟩ := pass_compare h hsize hlow hhigh a d
  obtain ⟨n, hn⟩ := Cpu.pass_eq_run img.rom (codeSize (pre ++ e.block (.operate (.compare k)))) ⟨codeSize pre, a, d, r⟩
  refine ⟨n, a', d', _, hn.symm.trans hp, ?_, ?_⟩
  · rw [Ram.height, show Cell.sp = BitVec.ofNat 16 0 from rfl]
    exact (congrArg BitVec.toNat ((Ram.result_cell (by omega) (by omega) (by decide)).trans (if_pos rfl))).trans
      (Nat.mod_eq_of_lt (by omega))
  · rw [Ram.result_cell (by omega) (by omega) (by omega), if_neg (by omega), if_pos rfl]
    rfl

/-! ### Other orders -/

namespace Cpu
variable {rom : List Instr} {s : Cpu}

theorem run_halted (h : rom[s.pc]? = none) (n : Nat) : run rom n s = s := by
  have hs : step rom s = s := by rw [step, h]
  exact Function.iterate_fixed hs n

/-- However long two runs are, they are in the same state behind the end of the program. -/
theorem run_eq_of_halted {m n : Nat} (hm : rom[(run rom m s).pc]? = none) (hn : rom[(run rom n s).pc]? = none) :
    run rom m s = run rom n s := by
  rcases Nat.le_total m n with h | h
  · obtain ⟨k, rfl⟩ := Nat.exists_eq_add_of_le h
    rw [run_add, run_halted hm]
  · obtain ⟨k, rfl⟩ := Nat.exists_eq_add_of_le h
    rw [run_add, run_halted hn]

end Cpu

theorem length_rom {ls : List Line} {img : Image} (h : assemble (ls.map Line.text) = some img) :
    img.rom.length = codeSize ls := by
  rw [assemble_text (readable_of_assemble h)] at h
  obtain ⟨-, -, rfl⟩ := link_eq_some h
  exact filterMap_instr?_length _ ls

/-- A memory with two operands at the bottom of the stack. -/
def Ram.two (x y : Word) : Ram :=
  ((Ram.write (fun _ => 0) Cell.sp 258).write 256 x).write 257 y

theorem Ram.two_height (x y : Word) : (two x y).height = 258 := rfl

theorem Ram.two_cell (x y : Word) : (two x y).cell 256 = x ∧ (two x y).cell 257 = y := ⟨rfl, rfl⟩

theorem truth_inj {b b' : Bool} : truth b = truth b' ↔ b = b' := by
  cases b <;> cases b' <;> decide

/-- The block of a comparison does not decide two orders that words can tell apart. -/
theorem Comparison.Decides.eq {k : Comparison} {order order' : Int → Int → Bool} (h : k.Decides order)
    (h' : k.Decides order') (x y : Word) : order x.toInt y.toInt = order' x.toInt y.toInt := by
  obtain ⟨img, himg⟩ := Emitter.block_assembles {} k
  have hsize : codeSize ([] ++ ({} : Emitter).block (.operate (.compare k)) ++ []) ≤ maxImmediate := by
    cases k <;> decide
  have himg' : assemble (([] ++ ({} : Emitter).block (.operate (.compare k)) ++ []).map Line.text) = some img := by
    simpa using himg
  have hhigh : (Ram.two x y).height ≤ 32767 := by rw [Ram.two_height]; decide
  obtain ⟨m, a, d, r, hm, -, hr⟩ := h {} [] [] img himg' hsize (.two x y) (Nat.le_refl 258) hhigh 0 0
  obtain ⟨m', a', d', r', hm', -, hr'⟩ := h' {} [] [] img himg' hsize (.two x y) (Nat.le_refl 258) hhigh 0 0
  have hend : img.rom[codeSize ([] ++ ({} : Emitter).block (.operate (.compare k)))]? = none := by
    rw [List.getElem?_eq_none_iff, length_rom himg]
    exact Nat.le_refl _
  have hsame := Cpu.run_eq_of_halted (m := m) (n := m') (by rw [hm]; exact hend) (by rw [hm']; exact hend)
  rw [hm, hm'] at hsame
  injection hsame with _ hdata
  injection hdata with _ _ hram
  rw [← hram, hr, Ram.two_height, (Ram.two_cell x y).1, (Ram.two_cell x y).2] at hr'
  exact truth_inj.1 hr'

/-! ### The order -/

/-- A comparison can be emitted in every state. The block it adds assembles by itself, and it decides the order of
its operands by their difference, which is kept in a word. -/
theorem compare_order (k : Comparison) :
    (∀ e : Emitter,
      (∃ e', e.perform (Emitter.emit (.operate (.compare k))) = (e', .ok ()) ∧
        e'.lines.toList = e.lines.toList ++ e.block (.operate (.compare k))) ∧
      ∃ img, assemble ((e.block (.operate (.compare k))).map Line.text) = some img) ∧
    k.Decides fun x y => k.byDifference x y := by
  refine ⟨fun e => ⟨⟨_, e.perform_emit _, ?_⟩, e.block_assembles k⟩, k.decides_byDifference⟩
  exact Array.toList_appendList

/-- The second of two comparisons, on negative numbers. -/
theorem compare_order_second :
    let e : Emitter := { counters := { lt := 1 } }
    let pre := ({} : Emitter).block (.operate (.compare .lt))
    ∃ img n a d r, assemble ((pre ++ e.block (.operate (.compare .lt)) ++ []).map Line.text) = some img ∧
      Cpu.run img.rom n ⟨14, 0, 0, Ram.two (-3) (-2)⟩ = ⟨28, a, d, r⟩ ∧ r.height = 257 ∧ r.cell 256 = -1 := by
  intro e pre
  have hsome : (assemble ((pre ++ e.block (.operate (.compare .lt)) ++ []).map Line.text)).isSome := by decide +kernel
  obtain ⟨img, h⟩ := Option.isSome_iff_exists.1 hsome
  obtain ⟨n, a, d, r, hrun, hheight, hcell⟩ := (compare_order .lt).2 e pre [] img h (by decide) (.two (-3) (-2))
    (Nat.le_refl 258) (by rw [Ram.two_height]; decide) 0 0
  have hstart : codeSize pre = 14 := by decide
  have hstop : codeSize (pre ++ e.block (.operate (.compare .lt))) = 28 := by decide
  rw [Ram.two_height] at hheight hcell
  rw [(Ram.two_cell _ _).1, (Ram.two_cell _ _).2] at hcell
  rw [hstart, hstop] at hrun
  exact ⟨img, n, a, d, r, h, hrun, hheight, hcell.trans (by decide)⟩

/-- A comparison does not decide the order of its operands: 32767 comes out as less than -1. -/
theorem compare_order_wraps :
    ¬ Comparison.gt.Decides (fun x y => decide (y < x)) ∧ ¬ Comparison.lt.Decides (fun x y => decide (x < y)) := by
  constructor
  · intro h
    exact absurd (h.eq (Comparison.decides_byDifference .gt) 32767 (-1)) (by decide)
  · intro h
    exact absurd (h.eq (Comparison.decides_byDifference .lt) 32767 (-1)) (by decide)

end HackStack
