import HackStack.Proofs.Assembler
/-!
# Reading written lines

`read?_text` says what comes of a line that is written and read again: the same
line with its symbols as plain names, or nothing if a symbol or a number is not
one the assembler takes. `assemble_text`: assembling written lines is linking
them, as linking looks at the text of symbols only.
-/

namespace HackStack

theorem Text.Decimal.value?_toString (n : Nat) : value? (toString n).toList = some n := by
  have hs : (toString n).toList = Nat.toDigits 10 n := Nat.toList_repr
  have hd : (Nat.toDigits 10 n).all Char.isDigit = true :=
    List.all_eq_true.2 fun _ hc => Nat.isDigit_of_mem_toDigits (by decide) (by decide) hc
  rw [hs, value?, if_pos ⟨Nat.toDigits_ne_nil, hd⟩, Nat.ofDigitChars_ten_toDigits]

/-! ## Computations -/

theorem Comp.read?_text (c : Comp) : Comp.read? c.text.toList = some c := by
  rcases c with _ | _ | _ | _ | _ | _ | _ | _ | y | y | y | y | y | y | y | y | y | y <;>
    first | rfl | (cases y <;> rfl)

theorem Dest.read?_text (dest : Dest) : Dest.read? dest.text.toList = some dest := by
  cases dest <;> rfl

theorem Jump.read?_text (j : Jump) : Jump.read? j.text.toList = some j := by
  cases j <;> rfl

theorem takeWhile_ne {c : Char} {s t : List Char} (h : c ∉ s) :
    (s ++ c :: t).takeWhile (· != c) = s := by
  have hs : ∀ x ∈ s, (x != c) = true := fun x hx => bne_iff_ne.2 fun he => h (he ▸ hx)
  rw [List.takeWhile_append_of_pos hs]
  simp

theorem dropWhile_ne {c : Char} {s t : List Char} (h : c ∉ s) :
    (s ++ c :: t).dropWhile (· != c) = c :: t := by
  have hs : ∀ x ∈ s, (x != c) = true := fun x hx => bne_iff_ne.2 fun he => h (he ▸ hx)
  rw [List.dropWhile_append_of_pos hs]
  simp

/-- No result of the arithmetic unit is written with an equals sign or a semicolon. -/
theorem Comp.text_plain (c : Comp) : '=' ∉ c.text.toList ∧ ';' ∉ c.text.toList := by
  rcases c with _ | _ | _ | _ | _ | _ | _ | _ | y | y | y | y | y | y | y | y | y | y <;>
    first | decide | (cases y <;> decide)

theorem Dest.text_plain (dest : Dest) : '=' ∉ dest.text.toList := by
  cases dest <;> decide

theorem Jump.text_plain (j : Jump) : '=' ∉ j.text.toList := by
  cases j <;> decide

theorem Comp.text_head (c : Comp) : ∃ x s, c.text.toList = x :: s ∧ x ≠ '/' ∧ x ≠ '(' ∧ x ≠ '@' := by
  rcases c with _ | _ | _ | _ | _ | _ | _ | _ | y | y | y | y | y | y | y | y | y | y <;>
    first | exact ⟨_, _, rfl, by decide⟩ | (cases y <;> exact ⟨_, _, rfl, by decide⟩)

theorem Dest.text_head (dest : Dest) : ∃ x s, dest.text.toList = x :: s ∧ x ≠ '/' ∧ x ≠ '(' ∧ x ≠ '@' := by
  cases dest <;> exact ⟨_, _, rfl, by decide⟩

namespace Line

theorem toList_set (dest : Dest) (c : Comp) : (set dest c).text.toList = dest.text.toList ++ '=' :: c.text.toList := by
  simp [text]

theorem toList_jump (c : Comp) (j : Jump) : (jump c j).text.toList = c.text.toList ++ ';' :: j.text.toList := by
  simp [text]

theorem readComputation?_set (dest : Dest) (c : Comp) : readComputation? (set dest c).text.toList = some (set dest c) := by
  rw [toList_set, readComputation?, if_pos (by simp), takeWhile_ne dest.text_plain, dropWhile_ne dest.text_plain]
  simp [Dest.read?_text, Comp.read?_text]

theorem readComputation?_jump (c : Comp) (j : Jump) : readComputation? (jump c j).text.toList = some (jump c j) := by
  have he : '=' ∉ (jump c j).text.toList := by
    simp [toList_jump, c.text_plain.1, j.text_plain]
  rw [readComputation?, if_neg he, toList_jump, takeWhile_ne c.text_plain.2, dropWhile_ne c.text_plain.2]
  simp [Jump.read?_text, Comp.read?_text]

/-- A computation does not look like a comment, a label or a load. -/
theorem read?_of_computation {text : String} {c : Char} {s : List Char} (h : text.toList = c :: s)
    (hc : c ≠ '/' ∧ c ≠ '(' ∧ c ≠ '@') : read? text = readComputation? text.toList := by
  rw [read?, h]
  split
  · next h' => exact absurd (List.cons.inj h').1 hc.1
  · next h' => exact absurd (List.cons.inj h').1 hc.2.1
  · next h' => exact absurd (List.cons.inj h').1 hc.2.2
  · rfl

/-! ## Lines -/

/-- What comes of a line that is written and read again. -/
theorem read?_text (l : Line) :
    read? l.text =
      match l with
      | comment t => some (comment (" " ++ t))
      | label s => if isSymbol s.text.toList then some (label (.named s.text)) else none
      | number n => if n ≤ maxImmediate then some (number n) else none
      | symbol s => readOperand? s.text.toList
      | l => some l := by
  cases l with
  | comment t =>
    have h : (comment t).text.toList = '/' :: '/' :: (" " ++ t).toList := by simp [text]
    simp only [read?, h, String.ofList_toList]
  | label s =>
    have h : (label s).text.toList = '(' :: (s.text.toList ++ [')']) := by simp [text]
    simp [read?, h, readLabel?]
  | number n =>
    have h : (number n).text.toList = '@' :: (toString n).toList := by simp [text]
    simp only [read?, h, readOperand?, Text.Decimal.value?_toString]
  | symbol s =>
    have h : (symbol s).text.toList = '@' :: s.text.toList := by simp [text]
    simp only [read?, h]
  | set dest c =>
    obtain ⟨x, s, hd, hx⟩ := Dest.text_head dest
    rw [read?_of_computation (by rw [toList_set, hd]; rfl) hx, readComputation?_set]
  | jump c j =>
    obtain ⟨x, s, hc, hx⟩ := Comp.text_head c
    rw [read?_of_computation (by rw [toList_jump, hc]; rfl) hx, readComputation?_jump]

/-- Whether the assembler takes the line. -/
def Readable (l : Line) : Prop := (read? l.text).isSome

/-- Two lines that linking cannot tell apart. A symbol that is a number may come out as that number. -/
structure Alike (l l' : Line) : Prop where
  declared : l'.declared? = l.declared?
  size : l'.size = l.size
  instr : ∀ v, (∀ s n, fixedValue? s = some n → v s = n) → l'.instr? v = l.instr? v
  operand : l'.operand? = l.operand? ∨ (l'.operand? = none ∧ ∃ s ∈ l.operand?, (fixedValue? s).isSome)

theorem alike_of_readOperand? {s : Symbol} {l : Line} (h : readOperand? s.text.toList = some l) :
    Alike (symbol s) l := by
  unfold readOperand? at h
  split at h
  · next n hn =>
    have hf : fixedValue? s.text = some n := by rw [fixedValue?, hn]; rfl
    split at h
    · obtain rfl := Option.some.inj h
      exact ⟨rfl, rfl, fun v hv => by simp [instr?, hv _ _ hf], .inr ⟨rfl, s.text, rfl, by rw [hf]; rfl⟩⟩
    · cases h
  · split at h
    · rw [String.ofList_toList] at h
      obtain rfl := Option.some.inj h
      exact ⟨rfl, rfl, fun v _ => rfl, .inl rfl⟩
    · cases h

/-- A line that is written and read again. -/
theorem alike_of_read? {l l' : Line} (h : read? l.text = some l') : Alike l l' := by
  rw [read?_text] at h
  cases l with
  | symbol s => exact alike_of_readOperand? h
  | label s =>
    simp only at h
    split at h
    · obtain rfl := Option.some.inj h
      exact ⟨rfl, rfl, fun _ _ => rfl, .inl rfl⟩
    · cases h
  | number n =>
    simp only at h
    split at h
    · obtain rfl := Option.some.inj h
      exact ⟨rfl, rfl, fun _ _ => rfl, .inl rfl⟩
    · cases h
  | comment | set | jump =>
    obtain rfl := Option.some.inj h
    exact ⟨rfl, rfl, fun _ _ => rfl, .inl rfl⟩

end Line

/-! ## Programs -/

section Alike
variable {ls ls' : List Line} (h : List.Forall₂ Line.Alike ls ls')
include h

theorem filterMap_alike {β : Type} (f : Line → Option β) (hf : ∀ l l', Line.Alike l l' → f l' = f l) :
    ls'.filterMap f = ls.filterMap f := by
  induction h with
  | nil => rfl
  | cons ha _ ih => simp only [List.filterMap_cons, hf _ _ ha, ih]

theorem declared_alike : declared ls' = declared ls :=
  filterMap_alike h _ fun _ _ ha => ha.declared

theorem labelTable_alike (pc : Nat) : labelTable pc ls' = labelTable pc ls := by
  induction h generalizing pc with
  | nil => rfl
  | cons ha _ ih => simp [labelTable, ha.declared, ha.size, ih]

theorem operands_alike (p : String → Bool) (hp : ∀ s, (fixedValue? s).isSome → p s = false) :
    (operands ls').filter p = (operands ls).filter p := by
  induction h with
  | nil => rfl
  | @cons l l' _ _ ha _ ih =>
    simp only [operands, List.filterMap_cons] at ih ⊢
    rcases ha.operand with ho | ⟨ho, s, hs, hf⟩
    · rw [ho]
      cases l.operand? <;> simp [List.filter_cons, ih]
    · rw [ho, Option.mem_def.1 hs]
      simp [hp s hf, ih]

theorem resolve_alike : resolve ls' = resolve ls := by
  have ha : allocated ls' = allocated ls := by
    -- an operand that came out as a number has a fixed value, so it had no cell before either
    simp only [allocated, declared_alike h]
    rw [operands_alike h _ fun s hs => by simp [Option.isSome_iff_ne_none.1 hs]]
  funext s
  simp only [resolve, labelTable_alike h, ha]

theorem link_alike : link ls' = link ls := by
  have hr : ls'.filterMap (Line.instr? (resolve ls)) = ls.filterMap (Line.instr? (resolve ls)) :=
    filterMap_alike h _ fun _ _ ha => ha.instr _ fun _ _ => resolve_of_fixed ls
  rw [link, link, declared_alike h, resolve_alike h, hr]

end Alike

theorem mapM_read? {ls ls' : List Line} (h : (ls.map Line.text).mapM Line.read? = some ls') :
    List.Forall₂ Line.Alike ls ls' ∧ ∀ l ∈ ls, l.Readable := by
  induction ls generalizing ls' with
  | nil => simp at h; subst h; simp
  | cons l ls ih =>
    simp only [List.map_cons, List.mapM_cons, Option.bind_eq_bind, Option.bind_eq_some_iff, Option.pure_def] at h
    obtain ⟨l', hl, rest, hrest, he⟩ := h
    obtain rfl := Option.some.inj he
    obtain ⟨ha, hr⟩ := ih hrest
    refine ⟨.cons (Line.alike_of_read? hl) ha, ?_⟩
    simpa [Line.Readable, hl] using hr

theorem exists_mapM_read? {ls : List Line} (h : ∀ l ∈ ls, l.Readable) :
    ∃ ls', (ls.map Line.text).mapM Line.read? = some ls' := by
  induction ls with
  | nil => exact ⟨[], by simp⟩
  | cons l ls ih =>
    obtain ⟨rest, hrest⟩ := ih fun l hl => h l (by simp [hl])
    obtain ⟨l', hl⟩ := Option.isSome_iff_exists.1 (h l (by simp))
    exact ⟨l' :: rest, by simp [hl, hrest]⟩

/-- Assembling written lines is linking them, if each of them can be read. -/
theorem assemble_text {ls : List Line} (h : ∀ l ∈ ls, l.Readable) : assemble (ls.map Line.text) = link ls := by
  obtain ⟨ls', hm⟩ := exists_mapM_read? h
  rw [assemble, hm]
  exact link_alike (mapM_read? hm).1

/-- Lines whose text assembles can all be read. -/
theorem readable_of_assemble {ls : List Line} {img : Image} (h : assemble (ls.map Line.text) = some img) :
    ∀ l ∈ ls, l.Readable := by
  rw [assemble, Option.bind_eq_bind, Option.bind_eq_some_iff] at h
  obtain ⟨ls', hm, -⟩ := h
  exact (mapM_read? hm).2

/-- An image carries the lines whose text it was assembled from. -/
theorem assemble_carries {ls : List Line} {img : Image} (h : assemble (ls.map Line.text) = some img) :
    img.Carries 0 ls :=
  link_carries (assemble_text (readable_of_assemble h) ▸ h)

end HackStack
