import HackStack.Proofs.Spelling
/-!
# Legal assembly

`LegalLine` is the grammar of a line of assembly, as text: a comment, a label, a load of
a number or a symbol, or an instruction from the tables of the Hack computer.

Only the symbol of a static cell is made from a unit's name, which is any text
(`Command.code_legal_iff`). Hence `compile_legal_iff`: a program is legal if the units
that have static cells are named by symbols, or not named at all, and only then.
-/

namespace HackStack

/-! ## The grammar -/

def destTexts : List String := ["M", "D", "MD", "A", "AM", "AD", "AMD"]

def compTexts : List String :=
  ["0", "1", "-1", "D", "A", "!D", "!A", "-D", "-A", "D+1", "A+1", "D-1", "A-1", "D+A", "D-A", "A-D", "D&A", "D|A",
    "M", "!M", "-M", "M+1", "M-1", "D+M", "D-M", "M-D", "D&M", "D|M"]

def jumpTexts : List String := ["JGT", "JEQ", "JGE", "JLT", "JNE", "JLE", "JMP"]

/-- The characters that end a line in some reader of text. -/
def isLineBreak (c : Char) : Bool :=
  (0x0A ≤ c.toNat && c.toNat ≤ 0x0D) || c.toNat == 0x85 || c.toNat == 0x2028 || c.toNat == 0x2029

/-- The lines of text that are lines of Hack assembly. -/
inductive LegalLine : String → Prop
  | comment {s : String} (h : s.toList.any isLineBreak = false) : LegalLine ("// " ++ s)
  | label {s : String} (h : isSymbol s.toList) : LegalLine ("(" ++ s ++ ")")
  | number {s : String} {n : Nat} (h : Text.Decimal.value? s.toList = some n) (hn : n ≤ maxImmediate) :
      LegalLine ("@" ++ s)
  | symbol {s : String} (h : isSymbol s.toList) : LegalLine ("@" ++ s)
  | set {dest comp : String} (hd : dest ∈ destTexts) (hc : comp ∈ compTexts) : LegalLine (dest ++ "=" ++ comp)
  | jump {comp on : String} (hc : comp ∈ compTexts) (hj : on ∈ jumpTexts) : LegalLine (comp ++ ";" ++ on)

theorem Dest.text_mem (dest : Dest) : dest.text ∈ destTexts := by
  cases dest <;> decide

theorem Comp.text_mem (c : Comp) : c.text ∈ compTexts := by
  rcases c with _ | _ | _ | _ | _ | _ | _ | _ | y | y | y | y | y | y | y | y | y | y <;>
    first | decide | (cases y <;> decide)

theorem Jump.text_mem (j : Jump) : j.text ∈ jumpTexts := by
  cases j <;> decide

theorem at_notMem_tables : ∀ t ∈ destTexts ++ compTexts ++ jumpTexts, '@' ∉ t.toList := by decide

/-- What a legal line loads is a number that fits or a symbol. -/
theorem LegalLine.of_load {s : String} (h : LegalLine ("@" ++ s)) :
    (∃ n, Text.Decimal.value? s.toList = some n ∧ n ≤ maxImmediate) ∨ isSymbol s.toList := by
  have hat (t : String) : ("@" ++ t).toList = '@' :: t.toList := by simp
  generalize hl : "@" ++ s = l at h
  have hl' : l.toList = '@' :: s.toList := by rw [← hl, hat]
  -- a line that is no load does not begin like one
  cases h with
  | comment | label => simp at hl'
  | number hv hn =>
    rw [hat] at hl'
    rw [(List.cons.inj hl').2] at hv
    exact .inl ⟨_, hv, hn⟩
  | symbol hs =>
    rw [hat] at hl'
    rw [(List.cons.inj hl').2] at hs
    exact .inr hs
  | @set dest comp hd hc =>
    have hmem : '@' ∈ (dest ++ "=" ++ comp).toList := by rw [hl']; exact List.mem_cons_self
    have hdest := at_notMem_tables dest (by simp [hd])
    have hcomp := at_notMem_tables comp (by simp [hc])
    simp [hdest, hcomp] at hmem
  | @jump comp on hc hj =>
    have hmem : '@' ∈ (comp ++ ";" ++ on).toList := by rw [hl']; exact List.mem_cons_self
    have hcomp := at_notMem_tables comp (by simp [hc])
    have hon := at_notMem_tables on (by simp [hj])
    simp [hcomp, hon] at hmem

/-! ## Lines -/

/-- Whether the line is a comment. -/
def Line.isComment : Line → Bool
  | comment _ => true
  | _ => false

theorem Line.Regular.legal {l : Line} (h : l.Regular) (hc : l.isComment = false) : LegalLine l.text := by
  cases l with
  | comment t => cases hc
  | label s => exact .label (Symbol.isSymbol_text h)
  | number n => exact .number (Text.Decimal.value?_toString n) h
  | symbol s => exact .symbol (Symbol.isSymbol_text h)
  | set dest comp => exact .set dest.text_mem comp.text_mem
  | jump comp on => exact .jump comp.text_mem on.text_mem

/-- Which units can name their static cells. -/
theorem isSymbol_static_iff {unit : String} {i : UInt16} :
    isSymbol (Symbol.static unit i).text.toList ↔ unit = "" ∨ isSymbol unit.toList := by
  have htext : (Symbol.static unit i).text.toList = unit.toList ++ '.' :: Nat.toDigits 10 i.toNat := by
    simp [Symbol.text]
  have hcell : ('.' :: Nat.toDigits 10 i.toNat).all isSymbolChar := by
    simp [all_isSymbolChar_toDigits, isSymbolChar]
  rw [htext, ← String.toList_inj]
  constructor
  · intro h
    cases hu : unit.toList with
    | nil => exact .inl rfl
    | cons c cs =>
      rw [hu, List.cons_append, isSymbol, Bool.and_eq_true, List.all_cons, List.all_append] at h
      simp_all [isSymbol]
  · rintro (hu | hu)
    · rw [hu]
      exact hcell
    · exact isSymbol_append hu hcell

theorem legal_static_iff {unit : String} {i : UInt16} :
    LegalLine (Line.symbol (.static unit i)).text ↔ unit = "" ∨ isSymbol unit.toList := by
  rw [← isSymbol_static_iff (i := i)]
  constructor
  · intro h
    have hdot : '.' ∈ (Symbol.static unit i).text.toList := by simp [Symbol.text]
    rcases h.of_load with ⟨n, hn, -⟩ | hs
    · rw [Text.Decimal.value?_eq_none hdot (by decide)] at hn
      cases hn
    · exact hs
  · exact .symbol

/-! ## Code -/

namespace Command

/-- Whether the command moves a static cell. -/
def usesStatic : Command → Bool
  | push .statics _ | pop .statics _ => true
  | _ => false

theorem usesStatic_iff {c : Command} : c.usesStatic ↔ ∃ i, c = push .statics i ∨ c = pop .statics i := by
  constructor
  · intro h
    cases c with
    | push s i => cases s <;> first | exact ⟨i, .inl rfl⟩ | cases h
    | pop s i => cases s <;> first | exact ⟨i, .inr rfl⟩ | cases h
    | _ => cases h
  · rintro ⟨i, rfl | rfl⟩ <;> rfl

theorem code_no_comment (unit : String) (n : Counters) (c : Command) : ∀ l ∈ c.code unit n, l.isComment = false := by
  have hall : ((c.code unit n).all fun l => !l.isComment) = true := by
    cases c with
    | operate op => cases op <;> rfl
    | push s i | pop s i => cases s <;> rfl
    | label | goto | ifGoto | call | ret => rfl
    | function name locals => exact List.all_eq_true.2 (forall_mem_functionCode locals rfl (by decide))
  intro l hl
  simpa using List.all_eq_true.1 hall l hl

/-- A command that moves no static cell takes nothing from the name of its unit. -/
theorem code_unit {c : Command} (h : c.usesStatic = false) (unit unit' : String) (n : Counters) :
    c.code unit n = c.code unit' n := by
  cases c with
  | push s i | pop s i => cases s <;> first | rfl | cases h
  | _ => rfl

/-- The code of a command is legal if its unit can name static cells, or it moves none. -/
theorem code_legal_iff {c : Command} (h : c.Sound) (unit : String) (n : Counters) :
    (∀ l ∈ c.code unit n, LegalLine l.text) ↔ (c.usesStatic → unit = "" ∨ isSymbol unit.toList) := by
  cases hs : c.usesStatic with
  | false =>
    -- any unit will do, so one is taken that is a symbol
    have hreg := @code_regular "A" n c h (.inl (by decide))
    rw [← code_unit hs unit "A"] at hreg
    simp only [Bool.false_eq_true, false_implies, iff_true]
    exact fun l hl => (hreg l hl).legal (code_no_comment unit n c l hl)
  | true =>
    have hset (dest : Dest) (x : Comp) : LegalLine (Line.set dest x).text := .set dest.text_mem x.text_mem
    have hsp : LegalLine (Line.symbol .sp).text := .symbol (by decide)
    obtain ⟨i, rfl | rfl⟩ := usesStatic_iff.1 hs
    · simp [code, Segment.place, Place.pushCode, pushD, legal_static_iff, hset, hsp]
    · simp [code, Segment.place, Place.popCode, popD, legal_static_iff, hset, hsp]

end Command

/-! ## Programs -/

theorem isBlank_of_isLineBreak {c : Char} (h : isLineBreak c) : Text.isBlank c := by
  simp [isLineBreak] at h
  simp [Text.isBlank, Text.blankRanges]
  omega

theorem Command.legal_display {c : Command} (h : c.Sound) : LegalLine (Line.comment c.display).text := by
  refine .comment (List.any_eq_false.2 fun x hx hbreak => ?_)
  have hblank := isBlank_of_isLineBreak hbreak
  rw [display_eq] at hx
  rcases ink_of_mem_spaced h.name hx with hi | hg
  · simp [Text.isInk, hblank] at hi
  · rcases Bool.or_eq_true_iff.1 hg with hg | hg
    all_goals
      obtain rfl := beq_iff_eq.1 hg
      exact absurd hbreak (by decide)

namespace Piece

theorem legal_lines_iff {p : Piece} (hp : LegalLine (Line.comment p.remark).text) (echo : Bool) :
    (∀ l ∈ p.lines echo, LegalLine l.text) ↔ ∀ l ∈ p.code, LegalLine l.text := by
  cases echo <;> simp [lines, hp]

theorem legal_start (echo : Bool) : ∀ l ∈ start.lines echo, LegalLine l.text := by
  have hcode : ∀ l ∈ start.code, l.Regular ∧ l.isComment = false := by
    simp [code, Line.Regular, Line.isComment, Symbol.given?, stackBase, maxImmediate]
  rw [legal_lines_iff (.comment (by decide))]
  exact fun l hl => (hcode l hl).1.legal (hcode l hl).2

theorem legal_command_iff {c : Command} (h : c.Sound) (unit : String) (n : Counters) (echo : Bool) :
    (∀ l ∈ (command unit n c).lines echo, LegalLine l.text) ↔ (c.usesStatic → unit = "" ∨ isSymbol unit.toList) := by
  have hremark : LegalLine (Line.comment (command unit n c).remark).text := Command.legal_display h
  rw [legal_lines_iff hremark]
  exact Command.code_legal_iff h unit n

end Piece

namespace Program

/-- The lines of a program are legal if each unit that moves a static cell has no name, or is named by a symbol. -/
theorem compile_legal_iff {units : List SourceUnit} {bootstrap echo : Bool} {lines : List Line}
    (h : compile units bootstrap echo = .ok lines) :
    (∀ l ∈ lines, LegalLine l.text) ↔
      ∀ u ∈ units, (∃ cs, Source.read u.source = .ok cs ∧ ∃ c ∈ cs, c.command.usesStatic) →
        u.name = "" ∨ isSymbol u.name.toList := by
  rw [(compile_lines h).1, List.forall_mem_flatMap]
  constructor
  · rintro hall u hu ⟨cs, hcs, c, hc, hstatic⟩
    have hmem : (u.name, c.command) ∈ commands units := mem_commands.2 ⟨u, hu, cs, hcs, c, hc, rfl⟩
    obtain ⟨n, hn⟩ := mem_pieces_of_commands hmem bootstrap
    exact (Piece.legal_command_iff (commands_sound units _ hmem) u.name n echo).1 (hall _ hn) hstatic
  · intro hall p hp
    rcases mem_pieces hp with ⟨-, rfl | ⟨n, rfl⟩⟩ | ⟨unit, n, c, rfl, hc⟩
    · exact Piece.legal_start echo
    · exact (Piece.legal_command_iff sound_entry "" n echo).2 (by simp [Command.usesStatic])
    · refine (Piece.legal_command_iff (commands_sound units _ hc) unit n echo).2 fun hstatic => ?_
      obtain ⟨u, hu, cs, hcs, c', hc', he⟩ := mem_commands.1 hc
      cases he
      exact hall u hu ⟨cs, hcs, c', hc', hstatic⟩

/-- A unit whose name is no symbol is harmless until it moves a static cell. -/
theorem compile_legal_iff_spaced :
    (compile [⟨"", "push static 3"⟩, ⟨"my unit", "add"⟩] false true =
        .ok ([.command "" {} (.push .statics 3), .command "my unit" {} (.operate .add)].flatMap (Piece.lines true)) ∧
      ∀ l ∈ [Piece.command "" {} (.push .statics 3), .command "my unit" {} (.operate .add)].flatMap (Piece.lines true),
        LegalLine l.text) ∧
    compile [⟨"my unit", "pop static 3"⟩] false true =
        .ok ([.command "my unit" {} (.pop .statics 3)].flatMap (Piece.lines true)) ∧
      ¬ ∀ l ∈ [Piece.command "my unit" {} (.pop .statics 3)].flatMap (Piece.lines true), LegalLine l.text := by
  have h : compile [⟨"", "push static 3"⟩, ⟨"my unit", "add"⟩] false true =
      .ok ([.command "" {} (.push .statics 3), .command "my unit" {} (.operate .add)].flatMap (Piece.lines true)) := by
    decide +kernel
  have h' : compile [⟨"my unit", "pop static 3"⟩] false true =
      .ok ([.command "my unit" {} (.pop .statics 3)].flatMap (Piece.lines true)) := by
    decide +kernel
  refine ⟨⟨h, (compile_legal_iff h).2 ?_⟩, h', fun hall => ?_⟩
  · have hadd : Source.read "add" = .ok [⟨1, "add", .operate .add⟩] := by decide +kernel
    simp [hadd, Command.usesStatic]
  · have hpop : Source.read "pop static 3" = .ok [⟨1, "pop static 3", .pop .statics 3⟩] := by decide +kernel
    have hname := (compile_legal_iff h').1 hall ⟨"my unit", "pop static 3"⟩ (by simp)
      (by simp [hpop, Command.usesStatic])
    exact absurd hname (by decide)

end Program

end HackStack
