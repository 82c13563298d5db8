import HackStack.File.Tree
import HackStack.Job.Run
import HackStack.Proofs.FileNames
import HackStack.Proofs.LabelCapture
import HackStack.Proofs.ProgramOutcome
/-!
# Static cells of a job

A unit is called by the stem of its file, and its static cells by the unit. The files of a planned job
have different stems, so a static cell belongs to one file.

`plan_statics_apart`: in the output of a job, two uses of static cells load the same symbol if they
are in the same file and have the same index, and only then. Such a symbol is written like no other
symbol of a memory cell.
-/

namespace HackStack

/-! ## Static cells of an output -/

/-- The index of the static cell a command moves. -/
def Command.static? : Command → Option UInt16
  | push .statics i | pop .statics i => some i
  | _ => none

/-- The texts of the static cells the lines load, in order. -/
def staticTexts (ls : List Line) : List String := (statics ls).map fun x => (Symbol.static x.1 x.2).text

theorem statics_append (ls ls' : List Line) : statics (ls ++ ls') = statics ls ++ statics ls' :=
  List.filterMap_append

/-- The code of a command loads the static cell it moves once, and no other. -/
theorem Command.statics_code (unit : String) (n : Counters) (c : Command) :
    statics (c.code unit n) = c.static?.toList.map (unit, ·) := by
  cases c with
  | operate op => cases op <;> rfl
  | push s i | pop s i =>
    cases s
    case pointer => by_cases hi : i = 0 <;> simp only [code, Segment.place, hi, if_true, if_false] <;> rfl
    all_goals rfl
  | function name locals => exact List.filterMap_eq_nil_iff.2 (forall_mem_functionCode locals rfl (by decide))
  | _ => rfl

theorem Piece.statics_lines (echo : Bool) (p : Piece) : statics (p.lines echo) = statics p.code := by
  cases echo <;> rfl

/-- The static cells that commands move, in order, each with the unit or the file of its command. -/
def staticUses {α : Type} (cs : List (α × Command)) : List (α × UInt16) :=
  cs.filterMap fun x => x.2.static?.map (x.1, ·)

theorem mem_staticUses {α : Type} {cs : List (α × Command)} {x : α × UInt16} (h : x ∈ staticUses cs) :
    ∃ c, (x.1, c) ∈ cs := by
  obtain ⟨⟨a, c⟩, hm, hx⟩ := List.mem_filterMap.1 h
  obtain ⟨i, -, rfl⟩ := Option.map_eq_some_iff.1 hx
  exact ⟨c, hm⟩

theorem staticUses_map {α β : Type} (f : α → β) (cs : List (α × Command)) :
    staticUses (cs.map fun x => (f x.1, x.2)) = (staticUses cs).map fun x => (f x.1, x.2) := by
  rw [staticUses, staticUses, List.filterMap_map, List.map_filterMap]
  refine List.filterMap_congr fun x _ => ?_
  cases hx : x.2.static? <;> simp [hx]

theorem Piece.statics_number (n : Counters) (cs : List (String × Command)) (echo : Bool) :
    statics ((number n cs).flatMap (lines echo)) = staticUses cs := by
  induction cs generalizing n with
  | nil => rfl
  | cons x cs ih =>
    rw [number, List.flatMap_cons, statics_append, statics_lines, ih, code, Command.statics_code, staticUses,
      staticUses, List.filterMap_cons]
    cases x.2.static? <;> rfl

theorem Program.statics_compile {units : List SourceUnit} {bootstrap echo : Bool} {lines : List Line}
    (h : compile units bootstrap echo = .ok lines) :
    statics lines = staticUses (commands units) := by
  rw [(compile_lines h).1]
  cases bootstrap with
  | false => exact Piece.statics_number _ _ echo
  | true =>
    have hstart : statics (Piece.start.lines echo) = [] := by cases echo <;> rfl
    rw [pieces, if_pos rfl, List.flatMap_cons, statics_append, hstart, Piece.statics_number]
    rfl

/-! ## Other memory cells -/

/-- The memory cells that code reaches by a symbol of their own, apart from static ones. -/
def registers : List Symbol := [.sp, .lcl, .arg, .this, .that] ++ (List.range' 5 10).map .ram

example : registers.map Symbol.text =
    ["SP", "LCL", "ARG", "THIS", "THAT", "R5", "R6", "R7", "R8", "R9", "R10", "R11", "R12", "R13", "R14"] := by decide

/-- No register is written like a static cell. -/
theorem text_ne_of_mem_registers {s : Symbol} (h : s ∈ registers) (unit : String) (i : UInt16) :
    s.text ≠ (Symbol.static unit i).text := by
  have hdot : ∀ s ∈ registers, '.' ∉ s.text.toList := by decide
  intro he
  exact hdot s h (he ▸ Symbol.dot_mem_text rfl)

theorem ram_mem_registers {n : Nat} : Symbol.ram n ∈ registers ↔ 5 ≤ n ∧ n < 15 := by
  simp [registers]

/-- The symbol a place is reached by. -/
def Place.symbol? : Place → Option Symbol
  | immediate _ => none
  | based base _ => some base
  | direct s => some s

theorem Place.symbol_of_mem {p : Place} {s : Symbol} (h : .symbol s ∈ p.pushCode ++ p.popCode) :
    s = .sp ∨ s = .ram 13 ∨ p.symbol? = some s := by
  cases p <;> simp [pushCode, popCode, pushD, popD, symbol?] at h ⊢ <;> grind

theorem Segment.place_symbol {unit : String} {i : UInt16} {s : Segment} {d : Direction} {r : Symbol}
    (h : s.checkIndex d i = .ok ()) (hr : (s.place unit i).symbol? = some r) : r ∈ registers ∨ r = .static unit i := by
  cases s with
  | constant => cases hr
  | locals | arguments | this | that => cases hr; exact .inl (by decide)
  | statics => cases hr; exact .inr rfl
  | pointer =>
    cases hr
    split
    · exact .inl (by decide)
    · exact .inl (by decide)
  | temp =>
    cases hr
    have hi : i.toNat < tempSize := (checkIndex_ok_iff .temp d i).1 h
    simp only [tempSize] at hi
    exact .inl (ram_mem_registers.2 (by simp only [tempBase]; omega))

/-- Whether a memory cell that the line loads by a symbol is a register. -/
def Line.loadsRegister : Line → Bool
  | symbol s => !s.cell || decide (s ∈ registers)
  | _ => true

/-- A memory cell that the code of a command reaches by a symbol is a register or the static cell it moves. -/
theorem Command.cell_code {unit : String} {n : Counters} {c : Command} (h : c.check = .ok ()) {s : Symbol}
    (hs : .symbol s ∈ c.code unit n) (hc : s.cell) : s ∈ registers ∨ ∃ i, s = .static unit i := by
  have hplace {g : Segment} {i : UInt16} {d : Direction} (hg : g.checkIndex d i = .ok ())
      (hm : .symbol s ∈ (g.place unit i).pushCode ++ (g.place unit i).popCode) :
      s ∈ registers ∨ ∃ i, s = .static unit i := by
    rcases Place.symbol_of_mem hm with rfl | rfl | hr
    · exact .inl (by decide)
    · exact .inl (by decide)
    · exact (g.place_symbol hg hr).imp_right fun hr => ⟨i, hr⟩
  have hregister (hall : (c.code unit n).all Line.loadsRegister = true) : s ∈ registers ∨ ∃ i, s = .static unit i := by
    have hl := List.all_eq_true.1 hall _ hs
    simp only [Line.loadsRegister, hc] at hl
    exact .inl (by simpa using hl)
  cases c with
  | push g i => exact hplace h (List.mem_append_left _ hs)
  | pop g i => exact hplace h (List.mem_append_right _ hs)
  | operate op => exact hregister (by cases op <;> rfl)
  | label | goto | ifGoto | call | ret => exact hregister rfl
  | function name locals => exact hregister (List.all_eq_true.2 (forall_mem_functionCode locals rfl (by decide)))

theorem Program.cell_compile {units : List SourceUnit} {bootstrap echo : Bool} {lines : List Line}
    (h : compile units bootstrap echo = .ok lines) {s : Symbol} (hs : .symbol s ∈ lines) (hc : s.cell) :
    s ∈ registers ∨ ∃ unit i, s = .static unit i := by
  rw [(compile_lines h).1] at hs
  obtain ⟨p, hp, hs⟩ := List.mem_flatMap.1 hs
  have hcode : .symbol s ∈ p.code := by
    rcases List.mem_append.1 hs with he | hcode
    · split at he <;> simp at he
    · exact hcode
  have hok := pieces_checked h hp
  cases p with
  | start =>
    simp [Piece.code] at hcode
    exact .inl (hcode ▸ by decide)
  | command unit n c => exact (Command.cell_code hok hcode hc).imp_right fun hi => ⟨unit, hi⟩

/-! ## Files of a job -/

namespace Job

theorem mem_unitsIn {input p : FilePath} {entries : List (Bytes × Bool)} (h : p ∈ unitsIn input entries) :
    ∃ x ∈ entries, (input.join x.1).isSource ∧ p = input.join x.1 := by
  obtain ⟨name, hname, rfl⟩ := List.mem_map.1 h
  rw [List.mem_mergeSort] at hname
  obtain ⟨x, hx, rfl⟩ := List.mem_map.1 hname
  obtain ⟨hm, hs⟩ := List.mem_filter.1 hx
  exact ⟨x, hm, (Bool.and_eq_true_iff.1 hs).2, rfl⟩

/-- A job is about the input itself, or about source files right in it. -/
theorem plan_units {input : FilePath} {output? : Option FilePath} {found : Found} {job : Job}
    (h : plan input output? found = .ok job) :
    job.units = [input] ∨ ∃ name? entries, found = .directory name? entries ∧ job.units = unitsIn input entries := by
  unfold plan at h
  split at h
  · next name? entries =>
    split at h
    · cases h
    · cases h
      exact .inr ⟨name?, entries, rfl, rfl⟩
  · cases h
  · split at h
    · cases h
      exact .inl rfl
    · cases h
  · cases h

/-- The files of a job have different stems, if their names are texts. -/
theorem stem_inj_of_plan {input : FilePath} {output? : Option FilePath} {found : Found} {job : Job}
    (h : plan input output? found = .ok job)
    (hnames : ∀ name? entries, found = .directory name? entries → ∀ x ∈ entries, FilePath.IsTextName x.1)
    {p q : FilePath} (hp : p ∈ job.units) (hq : q ∈ job.units) : p.stem = q.stem ↔ p = q := by
  rcases plan_units h with hu | ⟨name?, entries, hfound, hu⟩
  · rw [hu, List.mem_singleton] at hp hq
    rw [hp, hq]
    simp
  · rw [hu] at hp hq
    obtain ⟨x, hx, hsx, rfl⟩ := mem_unitsIn hp
    obtain ⟨y, hy, hsy, rfl⟩ := mem_unitsIn hq
    exact FilePath.stem_join_inj (hnames _ _ hfound x hx) (hnames _ _ hfound y hy) hsx hsy

/-- Each unit is called by the stem of its file and has the text of the file. -/
theorem sources_ok {files : List (FilePath × Except FileError String)} {units : List SourceUnit}
    (h : sources files = .ok units) :
    List.Forall₂ (fun x u => u.name = x.1.stem ∧ x.2 = .ok u.source) files units := by
  induction files generalizing units with
  | nil => cases h; exact .nil
  | cons x files ih =>
    obtain ⟨p, text⟩ := x
    cases text with
    | error => cases h
    | ok text =>
      obtain ⟨rest, hrest, rfl⟩ := map_eq_ok.1 h
      exact .cons ⟨rfl, rfl⟩ (ih hrest)

/-- The commands of some files, in order, each with its file. -/
def fileCommands (files : List (FilePath × SourceUnit)) : List (FilePath × Command) :=
  files.flatMap fun x => (Program.unitCommands x.2).map fun c => (x.1, c.2)

theorem fileCommands_cons (p : FilePath) (u : SourceUnit) (files : List (FilePath × SourceUnit)) :
    fileCommands ((p, u) :: files) = (Program.unitCommands u).map (fun c => (p, c.2)) ++ fileCommands files :=
  List.flatMap_cons

theorem mem_fileCommands {files : List (FilePath × SourceUnit)} {x : FilePath × Command} (h : x ∈ fileCommands files) :
    ∃ u, (x.1, u) ∈ files := by
  obtain ⟨⟨p, u⟩, hf, hx⟩ := List.mem_flatMap.1 h
  obtain ⟨c, -, rfl⟩ := List.mem_map.1 hx
  exact ⟨u, hf⟩

/-- The unit of a command is the stem of its file. -/
theorem commands_stem {paths : List FilePath} {units : List SourceUnit}
    (h : List.Forall₂ (fun p u => u.name = p.stem) paths units) :
    Program.commands units = (fileCommands (paths.zip units)).map fun x => (x.1.stem, x.2) := by
  induction h with
  | nil => rfl
  | @cons p u paths units hu _ ih =>
    have hunit : Program.unitCommands u = (Program.unitCommands u).map fun c => (p.stem, c.2) := by
      unfold Program.unitCommands
      rw [← hu]
      split
      · simp
      · rfl
    rw [Program.commands, List.flatMap_cons, ← Program.commands, ih, List.zip_cons_cons, fileCommands_cons,
      List.map_append, List.map_map]
    exact congrArg (· ++ _) hunit

/-- In the output of a job, whatever the input leads to, if the names in it are texts, and whatever its files hold,
the static cells are loaded by one symbol for each use of a static cell in the files, in order. Two of these symbols
are the same if both uses are in the same file and have the same index, and only then. None of them is a symbol of
another memory cell; those that the output loads are the registers. -/
theorem plan_statics_apart {input : FilePath} {output? : Option FilePath} {found : Found} {job : Job}
    (hplan : plan input output? found = .ok job)
    (hnames : ∀ name? entries, found = .directory name? entries → ∀ x ∈ entries, FilePath.IsTextName x.1)
    {texts : FilePath → Except FileError String} {units : List SourceUnit}
    (hread : sources (job.units.map fun p => (p, texts p)) = .ok units) {bootstrap echo : Bool} {lines : List Line}
    (h : Program.compile units bootstrap echo = .ok lines) :
    staticTexts lines =
      (staticUses (fileCommands (job.units.zip units))).map (fun x => (Symbol.static x.1.stem x.2).text) ∧
    (∀ x ∈ staticUses (fileCommands (job.units.zip units)), ∀ y ∈ staticUses (fileCommands (job.units.zip units)),
      (Symbol.static x.1.stem x.2).text = (Symbol.static y.1.stem y.2).text ↔ x.1 = y.1 ∧ x.2 = y.2) ∧
    (∀ s ∈ staticTexts lines, s ∉ registers.map Symbol.text) ∧
    ∀ s, .symbol s ∈ lines → s.cell → s ∈ registers ∨ ∃ unit i, s = .static unit i := by
  have hunits : List.Forall₂ (fun p u => u.name = p.stem) job.units units := by
    have hfiles := sources_ok hread
    rw [List.forall₂_map_left_iff] at hfiles
    exact hfiles.imp fun _ _ hu => hu.1
  have hfile : ∀ x ∈ staticUses (fileCommands (job.units.zip units)), x.1 ∈ job.units := by
    intro x hx
    obtain ⟨c, hc⟩ := mem_staticUses hx
    obtain ⟨u, hu⟩ := mem_fileCommands hc
    exact (List.of_mem_zip hu).1
  refine ⟨?_, fun x hx y hy => ?_, fun s hs => ?_, fun s => Program.cell_compile h⟩
  · rw [staticTexts, Program.statics_compile h, commands_stem hunits, staticUses_map, List.map_map]
    rfl
  · rw [Symbol.static_text_inj, stem_inj_of_plan hplan hnames (hfile x hx) (hfile y hy)]
  · obtain ⟨x, -, rfl⟩ := List.mem_map.1 hs
    intro hm
    obtain ⟨r, hr, he⟩ := List.mem_map.1 hm
    exact text_ne_of_mem_registers hr x.1 x.2 he

/-- The stem of one file is that of the other with a dot and a number behind. -/
theorem plan_statics_apart_dots :
    let t := ((FileTree.empty []).putFile (["A.vm", "d"].map Text.utf8) "push static 1".toUTF8).putFile
      (["A.1.vm", "d"].map Text.utf8) "pop static 0\npush static 1".toUTF8
    let job : Job :=
      { units := [.ofText "d/A.1.vm", .ofText "d/A.vm"], output := .ofText "d/d.asm", fromDirectory := true }
    plan (.ofText "d") none (t.find (.ofText "d")) = .ok job ∧
      ∃ units lines, sources (job.units.map fun p => (p, t.readText p)) = .ok units ∧
        Program.compile units true false = .ok lines ∧ staticTexts lines = ["A.1.0", "A.1.1", "A.1"] := by
  intro t job
  let entries := [(Text.utf8 "A.1.vm", true), (Text.utf8 "A.vm", true)]
  have hfind : t.find (.ofText "d") = .directory (some (Text.utf8 "d")) entries := by decide +kernel
  have hunits : unitsIn (.ofText "d") entries = job.units := by
    rw [unitsIn, List.mergeSort_of_pairwise (by decide +kernel)]
    decide +kernel
  have hplan : plan (.ofText "d") none (t.find (.ofText "d")) = .ok job := by
    rw [hfind, plan, hunits]
    decide +kernel
  have hnames : ∀ name? entries, t.find (.ofText "d") = .directory name? entries →
      ∀ x ∈ entries, FilePath.IsTextName x.1 := by
    intro name? entries' h x hx
    rw [hfind] at h
    cases h
    simp only [entries, List.mem_cons, List.not_mem_nil, or_false] at hx
    rcases hx with rfl | rfl <;> exact ⟨⟨by decide, by decide, by decide⟩, _, rfl⟩
  have hread : sources (job.units.map fun p => (p, t.readText p)) =
      .ok [⟨"A.1", "pop static 0\npush static 1"⟩, ⟨"A", "push static 1"⟩] := by decide +kernel
  obtain ⟨lines, h⟩ : ∃ lines, Program.compile
      [⟨"A.1", "pop static 0\npush static 1"⟩, ⟨"A", "push static 1"⟩] true false = .ok lines := by
    rw [Program.compile_ok_iff_read]
    exact ⟨_, rfl⟩
  refine ⟨hplan, _, lines, hread, h, (plan_statics_apart hplan hnames hread h).1.trans ?_⟩
  decide +kernel

end Job

end HackStack
