import HackStack.Proofs.GeneratedLabels
import HackStack.Proofs.StaticCells
/-!
# Names that meet generated symbols

Labels and functions of the sources are written as they are, into one namespace with
the generated labels and with the symbols of memory cells. `compile_declared`: what an
output declares is what its sources declare and its generated labels.

`compile_captures_iff`: which names make the output declare a label twice, or declare
a label that it uses for a memory cell. There are such names, as
`compile_captures_label` shows.
-/

namespace HackStack

/-! ## Labels of an output -/

/-- The texts of the generated labels the lines declare. -/
def generatedTexts (ls : List Line) : List String := (generatedLabels ls).map Symbol.text

theorem Place.declared_code (p : Place) : declared p.pushCode = [] ∧ declared p.popCode = [] := by
  cases p <;> exact ⟨rfl, rfl⟩

theorem declared_functionCode (name : String) (locals : UInt16) : declared (functionCode name locals) = [name] := by
  refine congrArg (name :: ·) (List.filterMap_eq_nil_iff.2 fun l hl => ?_)
  have hm := mem_zeros hl
  simp only [pushZero, List.mem_cons, List.not_mem_nil, or_false] at hm
  rcases hm with rfl | rfl | rfl | rfl <;> rfl

/-- A command declares the name it is about, or its generated labels. -/
theorem Command.declared_code (unit : String) (n : Counters) (c : Command) :
    declared (c.code unit n) = c.declares?.toList ++ (Piece.generated (.command unit n c)).map Symbol.text := by
  cases c with
  | push s i => exact (s.place unit i).declared_code.1
  | pop s i => exact (s.place unit i).declared_code.2
  | function name locals => exact declared_functionCode name locals
  | operate op => cases op <;> rfl
  | _ => rfl

theorem Piece.declared_lines (echo : Bool) (p : Piece) :
    declared (p.lines echo) = p.declares?.toList ++ p.generated.map Symbol.text := by
  have hcode : declared p.code = p.declares?.toList ++ p.generated.map Symbol.text := by
    cases p with
    | start => rfl
    | command unit n c => exact c.declared_code unit n
  cases echo <;> exact hcode

theorem declared_flatMap_lines (echo : Bool) (ps : List Piece) :
    (declared (ps.flatMap (Piece.lines echo))).Perm
      (ps.filterMap Piece.declares? ++ (ps.flatMap Piece.generated).map Symbol.text) := by
  induction ps with
  | nil => rfl
  | cons p ps ih =>
    have hcons : (p :: ps).filterMap Piece.declares? = p.declares?.toList ++ ps.filterMap Piece.declares? := by
      cases h : p.declares? <;> simp [h]
    rw [List.flatMap_cons, declared, List.filterMap_append, ← declared, ← declared, p.declared_lines, hcons,
      List.flatMap_cons, List.map_append]
    -- the names and the generated labels of one piece stand next to each other in the output
    rw [List.perm_iff_count] at ih ⊢
    intro s
    have hs := ih s
    simp only [List.count_append] at hs ⊢
    omega

namespace Program

theorem pieces_numbered (units : List SourceUnit) (bootstrap : Bool) : Piece.Numbered {} (pieces units bootstrap) := by
  cases bootstrap <;> exact Piece.numbered_number _ _

theorem filterMap_declares?_number (n : Counters) (cs : List (String × Command)) :
    (Piece.number n cs).filterMap Piece.declares? = cs.filterMap (·.2.declares?) := by
  induction cs generalizing n with
  | nil => rfl
  | cons c cs ih => simp [Piece.number, List.filterMap_cons, Piece.declares?, ih]

theorem pieces_declares (units : List SourceUnit) (bootstrap : Bool) :
    (pieces units bootstrap).filterMap Piece.declares? = declares units := by
  cases bootstrap <;> exact filterMap_declares?_number _ _

/-- An output declares the names its sources declare, and its generated labels; these are written differently. -/
theorem compile_declared {units : List SourceUnit} {bootstrap echo : Bool} {lines : List Line}
    (h : compile units bootstrap echo = .ok lines) :
    (declared lines).Perm (declares units ++ generatedTexts lines) ∧ (generatedTexts lines).Nodup := by
  have hlines := (compile_lines h).1
  have hg : generatedLabels lines = (pieces units bootstrap).flatMap Piece.generated := by
    rw [hlines, (flatMap_lines_generated echo _).1]
  constructor
  · rw [generatedTexts, hg, ← pieces_declares units bootstrap]
    exact hlines ▸ declared_flatMap_lines echo _
  · have hperm := (pieces_numbered units bootstrap).generated_perm.map Symbol.text
    rw [generatedTexts, hg, hperm.nodup_iff]
    exact nodup_text_labelsFrom _ _

end Program

/-! ## Symbols of memory cells -/

/-- Whether a symbol stands for a memory cell. -/
def Symbol.cell : Symbol → Bool
  | sp | lcl | arg | this | that | ram _ | static .. => true
  | _ => false

/-- The texts of the memory cells that the lines load by a symbol. -/
def cellTexts (ls : List Line) : List String :=
  ((ls.filterMap Line.load?).filter Symbol.cell).map Symbol.text

theorem mem_generatedTexts {ls : List Line} {s : String} :
    s ∈ generatedTexts ls ↔ ∃ t : Symbol, (.label t ∈ ls ∧ t.generated) ∧ t.text = s := by
  simp only [generatedTexts, List.mem_map, mem_generatedLabels]

theorem mem_cellTexts {ls : List Line} {s : String} :
    s ∈ cellTexts ls ↔ ∃ t : Symbol, (.symbol t ∈ ls ∧ t.cell) ∧ t.text = s := by
  simp [cellTexts, List.mem_filterMap, Line.load?_eq_some]

/-- A generated label is written like a memory cell only if it is a return label and that a static cell. -/
theorem Symbol.cell_text_eq_generated {s t : Symbol} (hs : s.cell) (ht : t.generated) (h : s.text = t.text) :
    ∃ callee i, s = static (callee ++ "$Ret") i ∧ t = returnSite callee i.toNat := by
  have hdot : '.' ∈ s.text.toList := h ▸ dot_mem_text (parts?_isSome ht)
  cases s with
  | static unit i =>
    obtain ⟨callee, rfl, rfl⟩ := static_text_eq_generated ht h
    exact ⟨callee, i, rfl, rfl⟩
  | ram n =>
    simp [text, Text.Decimal.notMem_toDigits] at hdot
  | sp | lcl | arg | this | that => exact absurd hdot (by decide)
  | _ => cases hs

/-- A generated label is written like a memory cell that the lines use only if it is the return label of a call
and the cell a static one of a unit named after the callee. -/
theorem generated_cell_iff (ls : List Line) :
    (∀ s ∈ generatedTexts ls, s ∉ cellTexts ls) ↔
      ∀ callee i, .label (.returnSite callee i.toNat) ∈ ls → .symbol (.static (callee ++ "$Ret") i) ∉ ls := by
  constructor
  · intro h callee i hl hs
    refine h _ (mem_generatedTexts.2 ⟨_, ⟨hl, rfl⟩, rfl⟩) (mem_cellTexts.2 ⟨_, ⟨hs, rfl⟩, ?_⟩)
    simp [Symbol.text, ← String.toList_inj]
  · intro h s hg hc
    obtain ⟨t, ⟨hl, ht⟩, rfl⟩ := mem_generatedTexts.1 hg
    obtain ⟨u, ⟨hs, hu⟩, he⟩ := mem_cellTexts.1 hc
    obtain ⟨callee, i, rfl, rfl⟩ := Symbol.cell_text_eq_generated hu ht he
    exact h callee i hl hs

namespace Program

/-- The generated labels of an output are written differently. If the sources declare no name twice, the output
declares a label twice only where one of the names is written like a generated label. It declares a label that
it uses for a memory cell only where one of the names is written like the cell, or a return label is written
like a static cell of a unit named after the callee. -/
theorem compile_captures_iff {units : List SourceUnit} {bootstrap echo : Bool} {lines : List Line}
    (h : compile units bootstrap echo = .ok lines) (hd : (declares units).Nodup) :
    (generatedTexts lines).Nodup ∧
    ((declared lines).Nodup ↔ ∀ name ∈ declares units, name ∉ generatedTexts lines) ∧
    ((∀ s ∈ declared lines, s ∉ cellTexts lines) ↔
      (∀ name ∈ declares units, name ∉ cellTexts lines) ∧
      ∀ callee i, .label (.returnSite callee i.toNat) ∈ lines → .symbol (.static (callee ++ "$Ret") i) ∉ lines) := by
  obtain ⟨hperm, hg⟩ := compile_declared h
  refine ⟨hg, ?_, ?_⟩
  · rw [hperm.nodup_iff, List.nodup_append]
    simp only [hd, hg, true_and]
    exact ⟨fun hne name hn hm => hne name hn name hm rfl, fun hne name hn s hs he => hne name hn (he ▸ hs)⟩
  · rw [← generated_cell_iff, ← List.forall_mem_append]
    exact forall_congr' fun s => by rw [hperm.mem_iff]

/-- A label that no generated symbol is written like. -/
theorem compile_captures_iff_label :
    compile [⟨"A", "label L\neq"⟩] false false =
        .ok ([.command "A" {} (.label "L"), .command "A" {} (.operate (.compare .eq))].flatMap (Piece.lines false)) ∧
      (declares [⟨"A", "label L\neq"⟩]).Nodup ∧
      (declared ([.command "A" {} (.label "L"), .command "A" {} (.operate (.compare .eq))].flatMap
        (Piece.lines false))).Nodup := by
  have h : compile [⟨"A", "label L\neq"⟩] false false =
      .ok ([.command "A" {} (.label "L"), .command "A" {} (.operate (.compare .eq))].flatMap (Piece.lines false)) := by
    decide +kernel
  have hd : (declares [⟨"A", "label L\neq"⟩]).Nodup := by decide +kernel
  exact ⟨h, hd, (compile_captures_iff h hd).2.1.2 (by decide +kernel)⟩

/-- A label may be written like one that a comparison brings along, or like a static cell, and a return label
may be written like a static cell. -/
theorem compile_captures_label :
    (∃ lines, compile [⟨"A", "label EQ.0$TRUE\neq"⟩] false false = .ok lines ∧
      (declares [⟨"A", "label EQ.0$TRUE\neq"⟩]).Nodup ∧ ¬ (declared lines).Nodup) ∧
    (∃ lines, compile [⟨"A", "label A.0\npush static 0"⟩] false false = .ok lines ∧
      (declares [⟨"A", "label A.0\npush static 0"⟩]).Nodup ∧ ¬ ∀ s ∈ declared lines, s ∉ cellTexts lines) ∧
    ∃ lines, compile [⟨"f$Ret", "push static 0\ncall f 0"⟩] false false = .ok lines ∧
      (declares [⟨"f$Ret", "push static 0\ncall f 0"⟩]).Nodup ∧ ¬ ∀ s ∈ declared lines, s ∉ cellTexts lines := by
  refine ⟨⟨[.command "A" {} (.label "EQ.0$TRUE"), .command "A" {} (.operate (.compare .eq))].flatMap
      (Piece.lines false), ?_, ?_, ?_⟩,
    ⟨[.command "A" {} (.label "A.0"), .command "A" {} (.push .statics 0)].flatMap (Piece.lines false), ?_, ?_, ?_⟩,
    [.command "f$Ret" {} (.push .statics 0), .command "f$Ret" {} (.call "f" 0)].flatMap (Piece.lines false), ?_, ?_, ?_⟩
  all_goals decide +kernel

end Program

end HackStack
