import HackStack.Proofs.Blocks
/-!
# Frames on the stack

What a call and a return do to each cell of the memory, when the stack lies above
the registers: `enter_cell` and `unwind_cell`. From both follows `return_restores`: a
return gives back what the call saved, if the saved cells and the callee's LCL and
ARG are still the same.
-/

namespace HackStack

namespace Ram
variable {r : Ram}

/-- The cell with this number. -/
def cell (r : Ram) (n : Nat) : Word := r.read (BitVec.ofNat 16 n)

theorem address_ofNat_inj {m n : Nat} (hm : m < 32768) (hn : n < 32768) :
    Word.address (BitVec.ofNat 16 m) = Word.address (BitVec.ofNat 16 n) ↔ m = n := by
  rw [← BitVec.toNat_inj]
  simp only [Word.address, BitVec.toNat_setWidth, BitVec.toNat_ofNat]
  omega

theorem cell_write {m n : Nat} (hm : m < 32768) (hn : n < 32768) (v : Word) :
    (r.write (BitVec.ofNat 16 n) v).cell m = if m = n then v else r.cell m := by
  rw [cell, read_write]
  simp only [address_ofNat_inj hm hn]
  rfl

theorem push_cell {v : Word} {p n : Nat} (hp : r.cell 0 = BitVec.ofNat 16 p) (h : p < 32768) (hn : n < 32768) :
    (r.push v).cell n = if n = p then v else if n = 0 then BitVec.ofNat 16 (p + 1) else r.cell n := by
  have hsp : r.read Cell.sp = BitVec.ofNat 16 p := hp
  have hz : Cell.sp = BitVec.ofNat 16 0 := rfl
  rw [push, hsp, cell_write hn h, hz, cell_write hn (by decide), BitVec.ofNat_add]
  rfl

/-! ## Calls -/

/-- The memory `r'` is `r` with the first `k` cells of a frame pushed from `p` on: the return address, and
what the registers behind SP hold. -/
def Saved (r r' : Ram) (back : Word) (p k : Nat) : Prop :=
  ∀ n < 32768, r'.cell n =
    if n = 0 then BitVec.ofNat 16 (p + k)
    else if n = p then back
    else if p < n ∧ n < p + k then r.cell (n - p)
    else r.cell n

theorem saved_push {back : Word} {p : Nat} (hp : r.cell 0 = BitVec.ofNat 16 p) (h : 0 < p) (h' : p < 32768) :
    Saved r (r.push back) back p 1 := by
  intro n hn
  rw [push_cell hp h' hn]
  grind

theorem Saved.save {r' : Ram} {back : Word} {p k : Nat} (hs : Saved r r' back p k) (h : 16 ≤ p) (h' : p + k < 32768)
    (hk : 0 < k ∧ k < 5) : Saved r (r'.save (BitVec.ofNat 16 k)) back p (k + 1) := by
  -- `k` is how many cells there are already, and the number of the next register to save
  intro n hn
  have hsp : r'.cell 0 = BitVec.ofNat 16 (p + k) := by rw [hs 0 (by decide), if_pos rfl]
  have hreg : r'.cell k = r.cell k := by rw [hs k (by omega)]; grind
  rw [Ram.save, push_cell hsp h' hn, hs n hn, show r'.read (BitVec.ofNat 16 k) = r.cell k from hreg]
  grind

/-- What a call leaves in each cell. -/
theorem enter_cell {back : Word} {args : UInt16} {p n : Nat} (hp : r.cell 0 = BitVec.ofNat 16 p) (h : 16 ≤ p)
    (h' : p + frameSize ≤ 32768) (hargs : args.toNat ≤ p) (hn : n < 32768) :
    (r.enter back args).cell n =
      if n = 0 ∨ n = 1 then BitVec.ofNat 16 (p + frameSize)
      else if n = 2 then BitVec.ofNat 16 (p - args.toNat)
      else if n = p then back
      else if p < n ∧ n < p + frameSize then r.cell (n - p)
      else r.cell n := by
  have hsize : frameSize = 5 := rfl
  have hs : Saved r (((((r.push back).save Cell.lcl).save Cell.arg).save Cell.this).save Cell.that) back p 5 :=
    ((((saved_push hp (by omega) (by omega)).save h (by omega) (by omega)).save h (by omega) (by omega)).save h
      (by omega) (by omega)).save h (by omega) (by omega)
  unfold enter
  -- what the frame was made from does not matter any more
  generalize ((((r.push back).save Cell.lcl).save Cell.arg).save Cell.this).save Cell.that = r' at hs
  have hsp : r'.read Cell.sp = BitVec.ofNat 16 (p + frameSize) := hs 0 (by decide)
  have harg : BitVec.ofNat 16 (p + frameSize) - BitVec.ofNat 16 (frameSize + args.toNat) =
      BitVec.ofNat 16 (p - args.toNat) := by
    rw [show p + frameSize = (frameSize + args.toNat) + (p - args.toNat) by omega, BitVec.ofNat_add _ (p - _),
      BitVec.add_comm, BitVec.add_sub_cancel]
  have hne : Cell.sp.address ≠ Cell.arg.address := by decide
  simp only [read_write_of_ne _ _ hne, hsp, harg]
  rw [show Cell.lcl = BitVec.ofNat 16 1 from rfl, show Cell.arg = BitVec.ofNat 16 2 from rfl,
    cell_write hn (by decide), cell_write hn (by decide), hs n hn]
  clear harg hne
  grind

/-! ## Returns -/

theorem settle_cell {args top n : Nat} (ha : r.cell 2 = BitVec.ofNat 16 args)
    (ht : r.cell 0 - 1 = BitVec.ofNat 16 top) (hargs : 16 ≤ args ∧ args < 32768) (htop : 16 ≤ top ∧ top < 32768)
    (hn : n < 32768) :
    r.settle.cell n =
      if n = 0 then BitVec.ofNat 16 (args + 1) else if n = args then r.cell top else r.cell n := by
  have hz : Cell.sp = BitVec.ofNat 16 0 := rfl
  have hdrop : ∀ m < 32768, r.drop.cell m = if m = 0 then BitVec.ofNat 16 top else r.cell m := by
    intro m hm
    rw [drop, show r.read Cell.sp - 1 = BitVec.ofNat 16 top from ht, hz, cell_write hm (by decide)]
  have harg : r.drop.read Cell.arg = BitVec.ofNat 16 args := (hdrop 2 (by decide)).trans ha
  have hnext : r.drop.next = r.cell top := by
    rw [next, show r.drop.read Cell.sp = BitVec.ofNat 16 top from hdrop 0 (by decide)]
    exact (hdrop top htop.2).trans (if_neg (by omega))
  have hput : ∀ m < 32768, (r.drop.write (BitVec.ofNat 16 args) (r.cell top)).cell m =
      if m = args then r.cell top else r.drop.cell m := fun m hm => cell_write hm hargs.2 _
  have harg' : (r.drop.write (BitVec.ofNat 16 args) (r.cell top)).read Cell.arg = BitVec.ofNat 16 args :=
    (hput 2 (by decide)).trans ((if_neg (by omega)).trans harg)
  unfold settle
  simp only [harg, hnext, harg']
  rw [hz, cell_write hn (by decide), hput n hn, hdrop n hn, BitVec.ofNat_add]
  grind

theorem ofNat_sub {base k : Nat} (h : k ≤ base) :
    BitVec.ofNat 16 base - BitVec.ofNat 16 k = BitVec.ofNat 16 (base - k) := by
  rw [show base = k + (base - k) by omega, BitVec.ofNat_add, BitVec.add_comm, BitVec.add_sub_cancel,
    Nat.add_sub_cancel_left]

/-- What a return leaves in each cell. -/
theorem unwind_cell {base args top n : Nat} (hb : r.cell 1 = BitVec.ofNat 16 base)
    (ha : r.cell 2 = BitVec.ofNat 16 args) (ht : r.cell 0 - 1 = BitVec.ofNat 16 top) (hargs : 16 ≤ args)
    (hab : args + frameSize ≤ base) (hbase : base ≤ 32768) (htop : 16 ≤ top ∧ top < 32768) (hn : n < 32768) :
    r.unwind.cell n =
      if n = 0 then BitVec.ofNat 16 (args + 1)
      else if 1 ≤ n ∧ n ≤ 4 then r.cell (base - (frameSize - n))
      else if n = args then r.cell top
      else r.cell n := by
  have hsize : frameSize = 5 := rfl
  have hs : ∀ m < 32768, r.settle.cell m =
      if m = 0 then BitVec.ofNat 16 (args + 1) else if m = args then r.cell top else r.cell m :=
    fun m => settle_cell ha ht ⟨hargs, by omega⟩ htop
  have hput : ∀ (j k : Nat) (r' : Ram) (m : Nat), j < 32768 → k ≤ base → m < 32768 →
      (r'.write (BitVec.ofNat 16 j) (r'.read (BitVec.ofNat 16 base - BitVec.ofNat 16 k))).cell m =
        if m = j then r'.cell (base - k) else r'.cell m := by
    intro j k r' m hj hk hm
    rw [cell_write hm hj, ofNat_sub hk]
    rfl
  have hunwind : r.unwind =
      let r := r.settle
      let r := r.write (BitVec.ofNat 16 4) (r.read (BitVec.ofNat 16 base - BitVec.ofNat 16 1))
      let r := r.write (BitVec.ofNat 16 3) (r.read (BitVec.ofNat 16 base - BitVec.ofNat 16 2))
      let r := r.write (BitVec.ofNat 16 2) (r.read (BitVec.ofNat 16 base - BitVec.ofNat 16 3))
      r.write (BitVec.ofNat 16 1) (r.read (BitVec.ofNat 16 base - BitVec.ofNat 16 4)) := by
    rw [← hb]; rfl
  rw [hunwind]
  -- the frame lies above the registers and the arguments
  simp (disch := omega) only [hput, hs, if_neg]
  clear hput hs hunwind
  grind

theorem not_scratch {n : Nat} (h : 16 ≤ n) (h' : n < 32768) : ¬ Word.Scratch (BitVec.ofNat 16 n) := by
  rintro (hn | hn)
  · have := (address_ofNat_inj (n := 13) h' (by decide)).1 hn
    omega
  · have := (address_ofNat_inj (n := 14) h' (by decide)).1 hn
    omega

/-- What a return leaves in each cell but the scratch cells, and the return address it takes. -/
theorem leave_cell {base args top : Nat} (hb : r.cell 1 = BitVec.ofNat 16 base)
    (ha : r.cell 2 = BitVec.ofNat 16 args) (ht : r.cell 0 - 1 = BitVec.ofNat 16 top) (hargs : 16 ≤ args)
    (hab : args + frameSize ≤ base) (hbase : base ≤ 32768) (htop : 16 ≤ top ∧ top < 32768) :
    r.leave.read Cell.r14 = r.cell (base - frameSize) ∧
    ∀ n < 32768, n ≠ 13 → n ≠ 14 → r.leave.cell n =
      if n = 0 then BitVec.ofNat 16 (args + 1)
      else if 1 ≤ n ∧ n ≤ 4 then r.cell (base - (frameSize - n))
      else if n = args then r.cell top
      else r.cell n := by
  have hsize : frameSize = 5 := rfl
  have hframe : ∀ k ≤ frameSize, r.read Cell.lcl - BitVec.ofNat 16 k = BitVec.ofNat 16 (base - k) := by
    intro k hk
    rw [show r.read Cell.lcl = BitVec.ofNat 16 base from hb, ofNat_sub (by omega)]
  have hclear : ∀ k, 0 < k ∧ k ≤ frameSize → ¬ Word.Scratch (r.read Cell.lcl - BitVec.ofNat 16 k) := by
    intro k hk
    rw [hframe k hk.2]
    exact not_scratch (by omega) (by omega)
  have hcells : ∀ w ∈ r.returnCells, ¬ w.Scratch := by
    simp only [returnCells, List.forall_mem_cons]
    refine ⟨?_, ?_, hclear 1 (by omega), hclear 2 (by omega), hclear 3 (by omega), hclear 4 (by omega),
      hclear frameSize (by omega), by simp⟩
    · rw [show r.read Cell.sp - 1 = BitVec.ofNat 16 top from ht]
      exact not_scratch htop.1 htop.2
    · rw [show r.read Cell.arg = BitVec.ofNat 16 args from ha]
      exact not_scratch hargs (by omega)
  obtain ⟨hlike, h14⟩ := leave_like hcells
  refine ⟨by rw [h14, hframe frameSize (by omega)]; rfl, fun n hn h13 h14' => ?_⟩
  have hns : ¬ Word.Scratch (BitVec.ofNat 16 n) := by
    rintro (hs | hs)
    · exact h13 ((address_ofNat_inj (n := 13) hn (by decide)).1 hs)
    · exact h14' ((address_ofNat_inj (n := 14) hn (by decide)).1 hs)
  exact (hlike _ hns).trans (unwind_cell hb ha ht hargs hab hbase htop hn)

/-! ## A call and its return -/

/-- LCL, ARG and the saved cells of the frames, given by where they end, are the same. -/
structure Keeps (frames : List Nat) (r r' : Ram) : Prop where
  lcl : r'.read Cell.lcl = r.read Cell.lcl
  arg : r'.read Cell.arg = r.read Cell.arg
  saved : ∀ base ∈ frames, ∀ i, 0 < i → i ≤ frameSize → r'.cell (base - i) = r.cell (base - i)

/-- A return gives back what the call saved. `r` is the memory before the call and `u` the one before the
return, which has kept the frame. -/
theorem return_restores {u : Ram} {back : Word} {args : UInt16} {p top : Nat} (hp : r.cell 0 = BitVec.ofNat 16 p)
    (hargs : 16 + args.toNat ≤ p) (hroom : p + frameSize ≤ 32768)
    (hk : Keeps [p + frameSize] (r.enter back args) u) (ht : u.cell 0 - 1 = BitVec.ofNat 16 top)
    (htop : 16 ≤ top ∧ top < 32768) :
    u.leave.read Cell.r14 = back ∧
    ∀ n < 32768, n ≠ 13 → n ≠ 14 → u.leave.cell n =
      if n = 0 then BitVec.ofNat 16 (p - args.toNat + 1)
      else if 1 ≤ n ∧ n ≤ 4 then r.cell n
      else if n = p - args.toNat then u.cell top
      else u.cell n := by
  have hsize : frameSize = 5 := rfl
  have he {n : Nat} (hn : n < 32768) := @enter_cell r back args p n hp (by omega) hroom (by omega) hn
  have hb : u.cell 1 = BitVec.ofNat 16 (p + frameSize) := hk.lcl.trans ((he (show 1 < 32768 by decide)).trans (by simp))
  have ha : u.cell 2 = BitVec.ofNat 16 (p - args.toNat) := hk.arg.trans ((he (show 2 < 32768 by decide)).trans (by simp))
  have hsaved : ∀ i, 0 < i → i ≤ frameSize → u.cell (p + frameSize - i) = (r.enter back args).cell (p + frameSize - i) :=
    hk.saved _ (List.mem_singleton_self _)
  obtain ⟨h14, hl⟩ := leave_cell hb ha ht (by omega) (by omega) hroom htop
  refine ⟨?_, fun n hn h13 h14' => ?_⟩
  · rw [h14, hsaved frameSize (by omega) (by omega), he (by omega)]
    grind
  · rw [hl n hn h13 h14']
    by_cases hreg : 1 ≤ n ∧ n ≤ 4
    · rw [hsaved _ (by omega) (by omega), he (by omega), show p + frameSize - (frameSize - n) = p + n by omega]
      simp (disch := omega) only [if_pos, if_neg, Nat.add_sub_cancel_left]
    · simp only [hreg, if_false]

end Ram

end HackStack
