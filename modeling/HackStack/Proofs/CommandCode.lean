import HackStack.Proofs.Emission
import HackStack.Proofs.Execution
import HackStack.Proofs.Operands
/-!
# The code of a command does what the command means

`does_code`: passing the code of a command once does what the command means on the
stack machine, on every memory and whatever A and D hold.
-/

namespace HackStack

theorem does_straight {img : Image} {pc : Nat} {ls : List Line} {r r' : Ram} (hc : img.Carries pc ls)
    (hs : ls.all Line.straight) (he : ∀ a d, (execAll img ⟨a, d, r⟩ ls).ram = r') :
    img.Does pc ls r (r', .next) := by
  intro a d
  refine ⟨(execAll img ⟨a, d, r⟩ ls).a, (execAll img ⟨a, d, r⟩ ls).d, ?_⟩
  rw [pass_straight hc hs (Nat.le_refl _), Cpu.pass_end, ← he a d]
  rfl

theorem jump_taken (k : Comparison) (v : Word) : k.jump.taken v = k.holds v := by
  cases k <;> rfl

/-- Where a symbol leads that stands for an instruction. -/
theorem address_word {img : Image} {s : Symbol} {n : Nat} (hs : img.value s.text = n) (hn : n < 32768) :
    (img.word s).address.toNat = n := by
  simp [Image.word, hs, Word.address, Nat.mod_eq_of_lt hn]

section Commands
variable {img : Image} (hf : img.Fixed) {pc : Nat} (r : Ram)
include hf

/-! ### Operators -/

theorem does_unary {comp : Comp} {f : Word → Word} (hc : img.Carries pc (unaryCode comp))
    (he : ∀ c : Data, c.eval comp = f (c.ram.read c.a)) :
    img.Does pc (unaryCode comp) r (r.setTop (f r.top), .next) := by
  refine does_straight hc rfl fun a d => ?_
  simp [unaryCode, execAll, Line.exec, Image.word_sp hf, Data.put, he, Ram.setTop, Ram.top]
  simp [Data.eval, Data.input]

theorem does_binary {comp : Comp} {f : Word → Word → Word} (hc : img.Carries pc (binaryCode comp))
    (he : ∀ c : Data, c.eval comp = f (c.ram.read c.a) c.d) :
    img.Does pc (binaryCode comp) r (r.drop.setTop (f r.drop.top r.drop.next), .next) := by
  refine does_straight hc rfl fun a d => ?_
  rw [binaryCode, execAll_append, execAll_popUnder hf]
  simp [execAll, Line.exec, Data.put, he, Ram.setTop, Ram.top]

omit hf in
/-- The code of a comparison, cut at its jumps. -/
theorem carries_compare {k : Comparison} {n : Nat} (hc : img.Carries pc (compareCode k n)) :
    img.Carries pc (popUnder ++ [.set .d (.subD .m), .symbol (.holds k n)]) ∧
    img.rom[pc + 6]? = some (.branch .d k.jump) ∧
    img.Carries (pc + 7) [.set .d .zero, .symbol (.done k n)] ∧
    img.rom[pc + 9]? = some (.branch .zero .always) ∧
    img.Carries (pc + 10) [.label (.holds k n), .set .d .negOne, .label (.done k n)] ∧
    img.Carries (pc + 11) [.symbol .sp, .set .a (.dec .m), .set .m .d] := by
  have hcode : compareCode k n =
      (popUnder ++ [Line.set .d (.subD .m), .symbol (.holds k n)]) ++ ([Line.jump .d k.jump] ++
        ([Line.set .d .zero, .symbol (.done k n)] ++ ([Line.jump .zero .always] ++
          ([Line.label (.holds k n), .set .d .negOne, .label (.done k n)] ++
            [.symbol .sp, .set .a (.dec .m), .set .m .d])))) := by
    simp [compareCode]
  rw [hcode] at hc
  obtain ⟨h1, hc⟩ := (img.carries_append _ _ _).1 hc
  obtain ⟨h2, hc⟩ := (img.carries_append _ _ _).1 hc
  obtain ⟨h3, hc⟩ := (img.carries_append _ _ _).1 hc
  obtain ⟨h4, hc⟩ := (img.carries_append _ _ _).1 hc
  obtain ⟨h5, h6⟩ := (img.carries_append _ _ _).1 hc
  exact ⟨h1, h2.2.1 _ rfl, h3, h4.2.1 _ rfl, h5, h6⟩

theorem does_compare {k : Comparison} {n : Nat} (hc : img.Carries pc (compareCode k n))
    (hsize : pc + codeSize (compareCode k n) < 32768) :
    img.Does pc (compareCode k n) r (r.drop.setTop (truth (k.holds (r.drop.top - r.drop.next))), .next) := by
  have hstop : codeSize (compareCode k n) = 14 := rfl
  obtain ⟨hfirst, hjump, hfalse, hover, htrue, hlast⟩ := carries_compare hc
  rw [hstop] at hsize
  have hholds : (img.word (.holds k n)).address.toNat = pc + 10 :=
    address_word (htrue.1 _ rfl) (by omega)
  have hdone : (img.word (.done k n)).address.toNat = pc + 11 :=
    address_word (htrue.2.2.2.2.1 _ rfl) (by omega)
  intro a d
  rw [hstop]
  -- the difference is in D when the first jump is reached
  have hbefore : Cpu.pass img.rom (pc + 14) ⟨pc, a, d, r⟩ =
      Cpu.pass img.rom (pc + 14) ⟨pc + 6, img.word (.holds k n), r.drop.top - r.drop.next, r.drop⟩ := by
    rw [pass_straight hfirst rfl (by simp [popUnder, popD, Line.size]),
      execAll_append, execAll_popUnder hf]
    rfl
  -- the truth value is in D where the two ways meet
  have hmeet : ∃ a', Cpu.pass img.rom (pc + 14) ⟨pc, a, d, r⟩ =
      Cpu.pass img.rom (pc + 14) ⟨pc + 11, a', truth (k.holds (r.drop.top - r.drop.next)), r.drop⟩ := by
    rw [hbefore]
    cases ht : k.holds (r.drop.top - r.drop.next) with
    | true =>
      rw [pass_jump hjump (by omega) (by rw [jump_taken]; exact ht) (by rw [hholds]; omega), hholds,
        pass_straight htrue rfl (by simp [Line.size])]
      exact ⟨_, rfl⟩
    | false =>
      have hzero : Cpu.pass img.rom (pc + 14) ⟨pc + 7, img.word (.holds k n), r.drop.top - r.drop.next, r.drop⟩ =
          Cpu.pass img.rom (pc + 14) ⟨pc + 9, img.word (.done k n), 0, r.drop⟩ :=
        pass_straight hfalse rfl (by simp [Line.size])
      rw [pass_skip hjump (by omega) (by rw [jump_taken]; exact ht), hzero,
        pass_jump hover (by omega) rfl (by rw [hdone]; omega), hdone]
      exact ⟨_, rfl⟩
  obtain ⟨a', hm⟩ := hmeet
  rw [hm, pass_straight hlast rfl (by simp [Line.size])]
  refine ⟨r.drop.read Cell.sp - 1, truth (k.holds (r.drop.top - r.drop.next)), ?_⟩
  simp only [execAll, List.foldl_cons, List.foldl_nil, Line.exec, Image.word_sp hf, Data.put, Data.eval, Data.input]
  exact Cpu.pass_end img.rom (pc + 14) _

theorem does_operator {unit : String} {n : Counters} {op : Operator}
    (hc : img.Carries pc ((Command.operate op).code unit n))
    (hsize : pc + codeSize ((Command.operate op).code unit n) < 32768) :
    img.Does pc ((Command.operate op).code unit n) r (op.run r, .next) := by
  cases op with
  | add => exact does_binary hf r hc fun c => BitVec.add_comm _ _
  | sub => exact does_binary hf r hc fun c => rfl
  | and => exact does_binary hf r hc fun c => BitVec.and_comm _ _
  | or => exact does_binary hf r hc fun c => BitVec.or_comm _ _
  | neg => exact does_unary hf r hc fun c => rfl
  | not => exact does_unary hf r hc fun c => rfl
  | compare k => exact does_compare hf r hc hsize

/-! ### Transfers -/

/-- What pushing from a place pushes. -/
def Place.value (img : Image) (r : Ram) : Place → Word
  | immediate n => n.toBitVec
  | based base offset => r.read (r.read (img.word base) + offset.toBitVec)
  | direct s => r.read (img.word s)

/-- Popping into a place that is no number. -/
def Place.store (img : Image) (r : Ram) : Place → Ram
  | immediate _ => r
  | based base offset =>
    let target := r.read (img.word base) + offset.toBitVec
    let r := (r.write Cell.r13 target).drop
    r.write target r.next
  | direct s => r.drop.write (img.word s) r.drop.next

theorem does_pushCode {p : Place} (hc : img.Carries pc p.pushCode) :
    img.Does pc p.pushCode r (r.push (p.value img r), .next) := by
  cases p with
  | immediate n =>
    refine does_straight hc rfl fun a d => ?_
    rw [Place.pushCode, execAll_append, execAll_pushD hf]
    simp [execAll, Line.exec, Data.put, Data.eval, Data.input, Place.value]
  | based base offset =>
    refine does_straight hc rfl fun a d => ?_
    rw [Place.pushCode, execAll_append, execAll_pushD hf]
    simp [execAll, Line.exec, Data.put, Data.eval, Data.input, Place.value]
  | direct s =>
    refine does_straight hc rfl fun a d => ?_
    rw [Place.pushCode, execAll_append, execAll_pushD hf]
    simp [execAll, Line.exec, Data.put, Data.eval, Data.input, Place.value]

theorem does_popCode {p : Place} (hc : img.Carries pc p.popCode) :
    img.Does pc p.popCode r (p.store img r, .next) := by
  cases p with
  | immediate n => exact does_straight hc rfl fun a d => rfl
  | based base offset =>
    refine does_straight hc rfl fun a d => ?_
    have hne : Cell.r13.address ≠ Cell.sp.address := by decide
    rw [Place.popCode, execAll_append, execAll_append, execAll_popD hf]
    simp [execAll, Line.exec, Image.word_r13 hf, Data.put, Data.eval, Data.input, Place.store, Ram.drop,
      Ram.read_write_of_ne _ _ hne]
  | direct s =>
    refine does_straight hc rfl fun a d => ?_
    rw [Place.popCode, execAll_append, execAll_popD hf]
    simp [execAll, Line.exec, Data.put, Data.eval, Place.store]

/-- The cell a direct place stands for. -/
theorem word_direct {unit : String} {i : UInt16} {s : Segment} {symbol : Symbol} {d : Direction}
    (hp : s.place unit i = .direct symbol) (hok : i.toNat < s.span d) :
    img.word symbol = s.cell (fun i => img.word (.static unit i)) r i := by
  cases s <;> simp only [Segment.place, Place.direct.injEq, reduceCtorEq] at hp
  case statics => rw [← hp]; rfl
  case pointer =>
    have hi : i = 0 ∨ i = 1 := by
      have : i.toNat = 0 ∨ i.toNat = 1 := by simp [Segment.span] at hok; omega
      exact this.imp UInt16.toNat_inj.1 UInt16.toNat_inj.1
    rcases hi with rfl | rfl
    · rw [← hp]; exact Image.word_this hf
    · rw [← hp]; exact Image.word_that hf
  case temp =>
    rw [← hp, Image.word_ram hf (by simp [Segment.span, tempSize, tempBase] at hok ⊢; omega)]
    simp [Segment.cell, tempBase, BitVec.ofNat_add]

theorem place_value {unit : String} {i : UInt16} {s : Segment} (hok : i.toNat < s.span .push) :
    (s.place unit i).value img r = s.value (fun i => img.word (.static unit i)) r i := by
  cases s with
  | constant => rfl
  | locals => simp [Segment.place, Place.value, Segment.value, Segment.cell, Image.word_lcl hf]
  | arguments => simp [Segment.place, Place.value, Segment.value, Segment.cell, Image.word_arg hf]
  | this => simp [Segment.place, Place.value, Segment.value, Segment.cell, Image.word_this hf]
  | that => simp [Segment.place, Place.value, Segment.value, Segment.cell, Image.word_that hf]
  | statics | pointer | temp => exact congrArg r.read (word_direct hf r rfl hok)

theorem place_store {unit : String} {i : UInt16} {s : Segment} (hok : i.toNat < s.span .pop) :
    (s.place unit i).store img r = s.store (fun i => img.word (.static unit i)) r i := by
  cases s with
  | constant => simp [Segment.span] at hok
  | locals => simp [Segment.place, Place.store, Segment.store, Segment.base?, Segment.cell, Image.word_lcl hf]
  | arguments => simp [Segment.place, Place.store, Segment.store, Segment.base?, Segment.cell, Image.word_arg hf]
  | this => simp [Segment.place, Place.store, Segment.store, Segment.base?, Segment.cell, Image.word_this hf]
  | that => simp [Segment.place, Place.store, Segment.store, Segment.base?, Segment.cell, Image.word_that hf]
  | statics | pointer | temp => exact congrArg (r.drop.write · r.drop.next) (word_direct hf r.drop rfl hok)

/-! ### Branches -/

omit hf in
/-- Code that ends in a jump, with no more than a label behind it. -/
theorem does_jump {ls ls' : List Line} {comp : Comp} {on : Jump} {e : Ram × Target}
    (hc : img.Carries pc (ls ++ .jump comp on :: ls')) (hs : ls.all Line.straight) (h0 : codeSize ls' = 0)
    (he : ∀ a d, (execAll img ⟨a, d, r⟩ ls).ram = e.1 ∧
      img.goto (pc + codeSize (ls ++ .jump comp on :: ls')) e.2 =
        if on.taken ((execAll img ⟨a, d, r⟩ ls).eval comp) then (execAll img ⟨a, d, r⟩ ls).a.address.toNat
        else pc + codeSize (ls ++ .jump comp on :: ls')) :
    img.Does pc (ls ++ .jump comp on :: ls') r e := by
  intro a d
  obtain ⟨hls, -, hj, -⟩ := (img.carries_append _ _ _).1 hc
  obtain ⟨hr, ht⟩ := he a d
  refine ⟨(execAll img ⟨a, d, r⟩ ls).a, (execAll img ⟨a, d, r⟩ ls).d, ?_⟩
  rw [pass_straight hls hs (by simp), pass_last (hj _ rfl) (by simp [Line.size, h0, Nat.add_assoc]), ht, ← hr]

omit hf in
theorem does_goto {unit : String} {n : Counters} {name : String}
    (hc : img.Carries pc ((Command.goto name).code unit n)) :
    img.Does pc ((Command.goto name).code unit n) r (r, .entry name) := by
  have hcode : (Command.goto name).code unit n = [Line.symbol (.named name)] ++ Line.jump .zero .always :: [] := rfl
  rw [hcode] at hc ⊢
  exact does_jump r hc rfl rfl fun _ _ => ⟨rfl, rfl⟩

theorem does_ifGoto {unit : String} {n : Counters} {name : String}
    (hc : img.Carries pc ((Command.ifGoto name).code unit n)) :
    img.Does pc ((Command.ifGoto name).code unit n) r
      (r.drop, if r.drop.next = 0 then .next else .entry name) := by
  have hcode : (Command.ifGoto name).code unit n = (popD ++ [Line.symbol (.named name)]) ++ [Line.jump .d .ne] := by
    simp [Command.code]
  rw [hcode] at hc ⊢
  refine does_jump r hc rfl rfl fun a d => ?_
  rw [execAll_append, execAll_popD hf]
  refine ⟨rfl, ?_⟩
  by_cases h0 : r.drop.next = 0#16
  · simp [execAll, Line.exec, Data.eval, Jump.taken, h0, Image.goto]
  · simp [execAll, Line.exec, Data.eval, Jump.taken, h0, Image.goto]

/-! ### Functions and calls -/

/-- Pushes one zero. -/
def pushZero : List Line := [.symbol .sp, .set .m (.inc .m), .set .a (.dec .m), .set .m .zero]

omit hf in
theorem mem_zeros {k : Nat} {l : Line} (hl : l ∈ (List.replicate k pushZero).flatten) : l ∈ pushZero := by
  simp only [List.mem_flatten, List.mem_replicate] at hl
  obtain ⟨_, ⟨-, rfl⟩, hl⟩ := hl
  exact hl

omit hf in
theorem mem_functionCode {name : String} {locals : UInt16} {l : Line} (hl : l ∈ functionCode name locals) :
    l = .label (.named name) ∨ l ∈ pushZero :=
  (List.mem_cons.1 hl).imp_right mem_zeros

omit hf in
/-- What holds of the lines that push a zero holds of them for any number of locals. -/
theorem forall_mem_functionCode {p : Line → Prop} {name : String} (locals : UInt16) (hlabel : p (.label (.named name)))
    (hzero : ∀ l ∈ pushZero, p l) : ∀ l ∈ functionCode name locals, p l := by
  intro l hl
  rcases mem_functionCode hl with rfl | hl
  · exact hlabel
  · exact hzero l hl

theorem execAll_pushZero (c : Data) : (execAll img c pushZero).ram = c.ram.push 0 := by
  simp [pushZero, execAll, Line.exec, Image.word_sp hf, Data.put, Data.eval, Data.input, Ram.push]

theorem execAll_zeros (k : Nat) (c : Data) :
    (execAll img c (List.replicate k pushZero).flatten).ram = (fun r => r.push 0)^[k] c.ram := by
  induction k generalizing c with
  | zero => rfl
  | succ k ih =>
    rw [List.replicate_succ, List.flatten_cons, execAll_append, ih, execAll_pushZero hf, Function.iterate_succ_apply]

theorem does_function {unit : String} {n : Counters} {name : String} {locals : UInt16}
    (hc : img.Carries pc ((Command.function name locals).code unit n)) :
    img.Does pc ((Command.function name locals).code unit n) r ((fun r => r.push 0)^[locals.toNat] r, .next) := by
  have hs : ((Command.function name locals).code unit n).all Line.straight :=
    List.all_eq_true.2 (forall_mem_functionCode locals rfl (by decide))
  exact does_straight hc hs fun a d => execAll_zeros hf locals.toNat ⟨a, d, r⟩

end Commands

/-! ### Calls -/

/-- Saves the return address. -/
def callStart (callee : String) (n : Nat) : List Line :=
  [.symbol (.returnSite callee n), .set .d (.get .a)] ++ pushD

/-- Saves the segment bases. -/
def callSaves : List Line :=
  [Symbol.lcl, .arg, .this, .that].flatMap fun base => [.symbol base, .set .d (.get .m)] ++ pushD

/-- Moves ARG and LCL. -/
def callMoves (args : UInt16) : List Line :=
  [.symbol .sp, .set .d (.get .m), .number (frameSize + args.toNat), .set .d (.sub .a), .symbol .arg, .set .m .d,
    .symbol .sp, .set .d (.get .m), .symbol .lcl, .set .m .d]

theorem callCode_eq (callee : String) (args : UInt16) (n : Nat) :
    callCode callee args n = (callStart callee n ++ callSaves ++ callMoves args ++ [.symbol (.named callee)]) ++
      .jump .zero .always :: [.label (.returnSite callee n)] := by
  simp [callCode, callStart, callSaves, callMoves]

/-- Keeps the frame and the return address in the scratch cells. -/
def returnStart : List Line :=
  [.symbol .lcl, .set .d (.get .m), .symbol (.ram 13), .set .m .d,
    .number frameSize, .set .a (.sub .a), .set .d (.get .m), .symbol (.ram 14), .set .m .d]

/-- Stores the result and drops the frame. -/
def returnResult : List Line :=
  [.symbol .arg, .set .a (.get .m), .set .m .d, .symbol .arg, .set .d (.inc .m), .symbol .sp, .set .m .d]

/-- Restores the segment bases. -/
def returnRestores : List Line :=
  [Symbol.that, .this, .arg, .lcl].flatMap fun base =>
    [.symbol (.ram 13), .set .am (.dec .m), .set .d (.get .m), .symbol base, .set .m .d]

theorem returnCode_eq :
    returnCode = (returnStart ++ popD ++ returnResult ++ returnRestores ++ [.symbol (.ram 14), .set .a (.get .m)]) ++
      .jump .zero .always :: [] := by
  simp [returnCode, returnStart, returnResult, returnRestores]

section Calls
variable {img : Image} (hf : img.Fixed) {pc : Nat} (r : Ram) (c : Data)
include hf

theorem execAll_callSaves :
    (execAll img c callSaves).ram = (((c.ram.save Cell.lcl).save Cell.arg).save Cell.this).save Cell.that := by
  simp only [callSaves, List.flatMap_cons, List.flatMap_nil, List.append_nil, execAll_append img _ (_ ++ pushD) (_ ++ _),
    execAll_save hf _ (Image.word_lcl hf), execAll_save hf _ (Image.word_arg hf),
    execAll_save hf _ (Image.word_this hf), execAll_save hf _ (Image.word_that hf)]

theorem execAll_callMoves (args : UInt16) :
    (execAll img c (callMoves args)).ram =
      let r := c.ram.write Cell.arg (c.ram.read Cell.sp - BitVec.ofNat 16 (frameSize + args.toNat))
      r.write Cell.lcl (r.read Cell.sp) := by
  simp [callMoves, execAll, Line.exec, Image.word_sp hf, Image.word_arg hf, Image.word_lcl hf, Data.put, Data.eval,
    Data.input]

theorem does_call {callee : String} {args : UInt16} {n : Nat} {back : Word}
    (hc : img.Carries pc (callCode callee args n)) (hback : img.word (.returnSite callee n) = back) :
    img.Does pc (callCode callee args n) r (r.enter back args, .entry callee) := by
  have hstart : ∀ a d, (execAll img ⟨a, d, r⟩ (callStart callee n)).ram = r.push back := by
    intro a d
    rw [callStart, execAll_append, execAll_pushD hf]
    simp [execAll, Line.exec, hback, Data.put, Data.eval, Data.input]
  rw [callCode_eq] at hc ⊢
  refine does_jump r hc rfl rfl fun a d => ⟨?_, ?_⟩
  · rw [execAll_append, execAll_symbol, execAll_append, execAll_append, execAll_callMoves hf,
      execAll_callSaves hf, hstart]
    rfl
  · rw [execAll_append, execAll_symbol]
    simp [Jump.taken, Image.goto]

theorem execAll_returnRestores :
    (execAll img c returnRestores).ram = [Cell.that, Cell.this, Cell.arg, Cell.lcl].foldl Ram.restore c.ram := by
  simp only [returnRestores, List.flatMap_cons, List.flatMap_nil, List.append_nil, execAll_append]
  rw [execAll_restore hf _ (Image.word_lcl hf), execAll_restore hf _ (Image.word_arg hf),
    execAll_restore hf _ (Image.word_this hf), execAll_restore hf _ (Image.word_that hf)]
  rfl

theorem execAll_return (a d : Word) :
    (execAll img ⟨a, d, r⟩ (returnStart ++ popD ++ returnResult ++ returnRestores)).ram = r.leave := by
  rw [execAll_append, execAll_returnRestores hf, execAll_append, execAll_append, execAll_popD hf]
  simp [returnStart, returnResult, execAll, Line.exec, Image.word_sp hf, Image.word_arg hf, Image.word_lcl hf,
    Image.word_r13 hf, Image.word_r14 hf, Data.put, Data.eval, Data.input, Ram.leave, Ram.land]

theorem does_return (hc : img.Carries pc returnCode) :
    img.Does pc returnCode r (r.leave, .address (r.leave.read Cell.r14)) := by
  rw [returnCode_eq] at hc ⊢
  refine does_jump r hc rfl rfl fun a d => ?_
  rw [execAll_append, ← execAll_return hf r a d]
  refine ⟨rfl, ?_⟩
  simp [execAll, Line.exec, Image.word_r14 hf, Data.put, Data.eval, Data.input, Jump.taken, Image.goto]

omit hf in
/-- The label behind a call names the instruction behind the call's code. -/
theorem value_returnSite {callee : String} {args : UInt16} {n : Nat} (hc : img.Carries pc (callCode callee args n)) :
    img.value (Symbol.returnSite callee n).text = pc + codeSize (callCode callee args n) := by
  rw [callCode_eq] at hc ⊢
  obtain ⟨-, -, -, hlabel, -⟩ := (img.carries_append _ _ _).1 hc
  rw [hlabel _ rfl]
  simp [Line.size, Nat.add_assoc]

/-! ### All commands -/

/-- Passing the code of a command does what the command means. -/
theorem does_code {unit : String} {n : Counters} {cmd : Command} (hok : cmd.check = .ok ())
    (hc : img.Carries pc (cmd.code unit n)) (hsize : pc + codeSize (cmd.code unit n) < 32768) :
    img.Does pc (cmd.code unit n) r
      (cmd.run (fun i => img.word (.static unit i)) (BitVec.ofNat 16 (pc + codeSize (cmd.code unit n))) r) := by
  cases cmd with
  | operate op => exact does_operator hf r hc hsize
  | push s i =>
    have hi := (s.checkIndex_ok_iff .push i).1 hok
    have h := does_pushCode hf r hc
    rwa [place_value hf r hi] at h
  | pop s i =>
    have hi := (s.checkIndex_ok_iff .pop i).1 hok
    have h := does_popCode hf r hc
    rwa [place_store hf r hi] at h
  | label name => exact does_straight hc rfl fun _ _ => rfl
  | goto name => exact does_goto r hc
  | ifGoto name => exact does_ifGoto hf r hc
  | function name locals => exact does_function hf r hc
  | call name args => exact does_call hf r hc (congrArg (BitVec.ofNat 16) (value_returnSite hc))
  | ret => exact does_return hf r hc

end Calls

end HackStack
