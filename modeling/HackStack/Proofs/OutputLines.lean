import HackStack.Proofs.JobOutcome
import HackStack.Proofs.LegalAssembly
/-!
# The lines of an output

A line that is emitted has no line feed in it and no carriage return at its end, if there is no line feed in the
name of a unit: apart from the symbols of static cells, all lines are legal, and a legal line has no break.

`run_lines`: the lines of what a job has written are those it emitted. Only a job that emits nothing writes a line
nevertheless, an empty one.
-/

namespace HackStack

/-! ## Texts made of lines -/

namespace Text

/-- A text that is one line with a line feed behind it. -/
structure IsLine (s : List Char) : Prop where
  no_feed : '\n' ∉ s
  no_return : s.getLast? ≠ some '\r'

theorem lines_terminated {ls : List (List Char)} (h : ∀ s ∈ ls, IsLine s) : lines (ls.flatMap (· ++ ['\n'])) = ls := by
  induction ls with
  | nil => rfl
  | cons s ls ih =>
    obtain ⟨hs, hls⟩ := List.forall_mem_cons.1 h
    rw [List.flatMap_cons, List.append_assoc, List.singleton_append, lines_append_break hs.no_feed, ih hls, dropReturn,
      if_neg hs.no_return]

/-- With a line feed after the last one too, there is one behind each. -/
theorem intercalate_terminated {ls : List (List Char)} (h : ls ≠ []) :
    ['\n'].intercalate ls ++ ['\n'] = ls.flatMap (· ++ ['\n']) := by
  induction ls with
  | nil => exact absurd rfl h
  | cons s ls ih =>
    cases ls with
    | nil => simp
    | cons s' ls =>
      rw [List.intercalate_cons_cons, List.append_assoc, ih (List.cons_ne_nil s' ls)]
      rfl

theorem lines_joinLines {ls : List String} (h : ∀ s ∈ ls, IsLine s.toList) :
    (lines (joinLines ls).toList).map String.ofList = if ls = [] then [""] else ls := by
  split
  · next hnil =>
    rw [hnil]
    decide
  · next hne =>
    have htext : (joinLines ls).toList = (ls.map String.toList).flatMap (· ++ ['\n']) := by
      rw [joinLines, String.toList_append, String.toList_intercalate]
      exact intercalate_terminated (by simpa using hne)
    rw [htext, lines_terminated (List.forall_mem_map.2 h), List.map_map]
    simp [Function.comp_def]

end Text

/-! ## Legal lines -/

theorem not_isLineBreak_of_isInk {c : Char} (h : Text.isInk c) : ¬isLineBreak c := by
  intro hbreak
  simp [Text.isInk, isBlank_of_isLineBreak hbreak] at h

theorem no_break_of_isSymbol {s : List Char} (h : isSymbol s) : s.any isLineBreak = false :=
  List.any_eq_false.2 fun _ hc => not_isLineBreak_of_isInk ((Text.isWord_of_isSymbol h).2 _ hc)

theorem no_break_of_value? {s : List Char} {n : Nat} (h : Text.Decimal.value? s = some n) :
    s.any isLineBreak = false := by
  refine List.any_eq_false.2 fun c hc => ?_
  have hdigit : c.isDigit := by
    by_contra hdigit
    rw [Text.Decimal.value?_eq_none hc (Bool.eq_false_iff.2 hdigit)] at h
    cases h
  exact not_isLineBreak_of_isInk (Text.isInk_of_isSymbolChar (by simp [isSymbolChar, Char.isAlphanum, hdigit]))

theorem no_break_tables : ∀ t ∈ destTexts ++ compTexts ++ jumpTexts, t.toList.any isLineBreak = false := by decide

/-- No reader of text takes a legal line for more than one. -/
theorem LegalLine.no_break {s : String} (h : LegalLine s) : s.toList.any isLineBreak = false := by
  cases h with
  | comment hs =>
    rw [String.toList_append, List.any_append, hs]
    rfl
  | label hs =>
    rw [String.toList_append, String.toList_append, List.any_append, List.any_append, no_break_of_isSymbol hs]
    rfl
  | number hv =>
    rw [String.toList_append, List.any_append, no_break_of_value? hv]
    rfl
  | symbol hs =>
    rw [String.toList_append, List.any_append, no_break_of_isSymbol hs]
    rfl
  | @set dest comp hd hc =>
    have hdest := no_break_tables dest (by simp [hd])
    have hcomp := no_break_tables comp (by simp [hc])
    rw [String.toList_append, String.toList_append, List.any_append, List.any_append, hdest, hcomp]
    rfl
  | @jump comp on hc hj =>
    have hcomp := no_break_tables comp (by simp [hc])
    have hon := no_break_tables on (by simp [hj])
    rw [String.toList_append, String.toList_append, List.any_append, List.any_append, hcomp, hon]
    rfl

theorem LegalLine.isLine {s : String} (h : LegalLine s) : Text.IsLine s.toList := by
  have hno := List.any_eq_false.1 h.no_break
  refine ⟨fun hfeed => ?_, fun hreturn => ?_⟩
  · exact hno _ hfeed (by decide)
  · exact hno _ (List.mem_of_getLast? hreturn) (by decide)

/-! ## Emitted lines -/

/-- A static cell's symbol ends in a digit. -/
theorem isLine_static {unit : String} (h : '\n' ∉ unit.toList) (i : UInt16) :
    Text.IsLine (Line.symbol (.static unit i)).text.toList := by
  have htext : (Line.symbol (.static unit i)).text.toList = '@' :: unit.toList ++ '.' :: Nat.toDigits 10 i.toNat := by
    simp [Line.text, Symbol.text]
  have hdigit {c : Char} (hc : c ∈ Nat.toDigits 10 i.toNat) : c.isDigit :=
    Nat.isDigit_of_mem_toDigits (by decide) (by decide) hc
  rw [htext]
  constructor
  · intro hfeed
    have hcell : '\n' ∈ Nat.toDigits 10 i.toNat := by simpa [h] using hfeed
    exact absurd (hdigit hcell) (by decide)
  · intro hreturn
    rw [List.getLast?_append_of_ne_nil _ (List.cons_ne_nil _ _),
      List.getLast?_cons_of_ne_nil Nat.toDigits_ne_nil] at hreturn
    exact absurd (hdigit (List.mem_of_getLast? hreturn)) (by decide)

namespace Command

/-- What takes something from the name of the unit is the symbol of a static cell. -/
theorem code_static_or_legal {c : Command} (h : c.Sound) (unit : String) (n : Counters) :
    ∀ l ∈ c.code unit n, (∃ i, l = .symbol (.static unit i)) ∨ LegalLine l.text := by
  cases hs : c.usesStatic with
  | false =>
    have hlegal := (code_legal_iff h unit n).2 fun huses => absurd huses (by rw [hs]; exact Bool.false_ne_true)
    exact fun l hl => .inr (hlegal l hl)
  | true =>
    have hset (dest : Dest) (x : Comp) : LegalLine (Line.set dest x).text := .set dest.text_mem x.text_mem
    have hsp : LegalLine (Line.symbol .sp).text := .symbol (by decide)
    obtain ⟨i, rfl | rfl⟩ := usesStatic_iff.1 hs
    · simp [code, Segment.place, Place.pushCode, pushD, hset, hsp]
    · simp [code, Segment.place, Place.popCode, popD, hset, hsp]

theorem code_ne_nil {c : Command} (h : c.check = .ok ()) (unit : String) (n : Counters) : c.code unit n ≠ [] := by
  cases c with
  | operate op => cases op <;> exact List.cons_ne_nil _ _
  | push s i => cases s <;> exact List.cons_ne_nil _ _
  | pop s i =>
    cases s with
    -- there is no code for it, but its check fails
    | constant => cases h
    | _ => exact List.cons_ne_nil _ _
  | label | goto | ifGoto | function | call | ret => exact List.cons_ne_nil _ _

end Command

theorem Piece.lines_ne_nil {p : Piece} (h : p.Checked) (echo : Bool) : p.lines echo ≠ [] := by
  have hcode : p.code ≠ [] := by
    cases p with
    | start => exact List.cons_ne_nil _ _
    | command unit n c => exact Command.code_ne_nil h unit n
  exact List.append_ne_nil_of_right_ne_nil _ hcode

theorem Piece.isLine_command {c : Command} (h : c.Sound) {unit : String} (hunit : '\n' ∉ unit.toList) (n : Counters)
    (echo : Bool) : ∀ l ∈ (Piece.command unit n c).lines echo, Text.IsLine l.text.toList := by
  intro l hl
  rcases List.mem_append.1 hl with hremark | hcode
  · cases echo with
    | false => cases hremark
    | true =>
      rw [List.mem_singleton.1 hremark]
      exact (Command.legal_display h).isLine
  · rcases Command.code_static_or_legal h unit n l hcode with ⟨i, rfl⟩ | hlegal
    · exact isLine_static hunit i
    · exact hlegal.isLine

namespace Program

theorem isLine_of_compile {units : List SourceUnit} {bootstrap echo : Bool} {lines : List Line}
    (h : compile units bootstrap echo = .ok lines) (hunits : ∀ u ∈ units, '\n' ∉ u.name.toList) :
    ∀ l ∈ lines, Text.IsLine l.text.toList := by
  rw [(compile_lines h).1, List.forall_mem_flatMap]
  intro p hp
  rcases mem_pieces hp with ⟨-, rfl | ⟨n, rfl⟩⟩ | ⟨unit, n, c, rfl, hc⟩
  · exact fun l hl => (Piece.legal_start echo l hl).isLine
  · exact Piece.isLine_command sound_entry (by decide) n echo
  · obtain ⟨u, hu, _, _, _, _, he⟩ := mem_commands.1 hc
    refine Piece.isLine_command (commands_sound units _ hc) ?_ n echo
    rw [(Prod.mk.inj he).1]
    exact hunits u hu

/-- Each command has its lines, so there are none only where there is no command. -/
theorem compile_eq_nil_iff {units : List SourceUnit} {bootstrap echo : Bool} {lines : List Line}
    (h : compile units bootstrap echo = .ok lines) :
    lines = [] ↔ bootstrap = false ∧ ∀ u ∈ units, Source.read u.source = .ok [] := by
  obtain ⟨hlines, hread⟩ := compile_lines h
  rw [hlines, List.flatMap_eq_nil_iff]
  constructor
  · intro hnil
    have hpieces : pieces units bootstrap = [] := by
      rw [List.eq_nil_iff_forall_not_mem]
      exact fun p hp => Piece.lines_ne_nil (pieces_checked h hp) echo (hnil p hp)
    have hstart : bootstrap = false := by
      cases bootstrap with
      | false => rfl
      | true => cases hpieces
    refine ⟨hstart, fun u hu => ?_⟩
    obtain ⟨cs, hcs, -⟩ := hread u hu
    cases cs with
    | nil => exact hcs
    | cons c cs =>
      have hmem : (u.name, c.command) ∈ commands units :=
        mem_commands.2 ⟨u, hu, _, hcs, c, List.mem_cons_self, rfl⟩
      obtain ⟨n, hn⟩ := mem_pieces_of_commands hmem bootstrap
      rw [hpieces] at hn
      cases hn
  · rintro ⟨rfl, hempty⟩ p hp
    rcases mem_pieces hp with ⟨hstart, -⟩ | ⟨_, _, _, -, hc⟩
    · cases hstart
    · obtain ⟨u, hu, cs, hcs, c, hc, -⟩ := mem_commands.1 hc
      rw [hempty u hu] at hcs
      cases hcs
      cases hc

end Program

/-! ## The output of a job -/

namespace Job
variable {σ : Type} [MonadFiles (StateM σ)] [FileSystem σ]
variable {job : Job} {mode : Bootstrap} {echo : Bool} {s : σ} {n : Nat}

theorem write_ok {compiled : Except UnitError (List Line)}
    (h : ((job.write compiled : StateM σ _).run s).1 = .ok n) :
    ∃ lines f, compiled = .ok lines ∧ lines.length = n ∧ FileSystem.target s job.output = .ok f ∧
      FileSystem.bytes? ((job.write compiled : StateM σ _).run s).2 f = some (render lines).toUTF8 := by
  cases compiled with
  | error e => cases h
  | ok lines =>
    cases htarget : FileSystem.target s job.output with
    | error cause =>
      rw [write_unopened htarget] at h
      cases h
    | ok f =>
      obtain ⟨s', hs, hf, -⟩ := write_opened htarget lines
      rw [hs] at h ⊢
      cases h
      exact ⟨lines, f, rfl, rfl, rfl, hf⟩

/-- What a job that succeeds has written. -/
theorem run_ok (h : ((job.run mode echo : StateM σ Report).run s).1.result = .ok n) :
    ∃ units lines f, job.units.mapM (readUnit s) = .ok units ∧
      Program.compile units (job.wantsBootstrap mode) echo = .ok lines ∧ lines.length = n ∧
      FileSystem.target s job.output = .ok f ∧
      FileSystem.bytes? ((job.run mode echo : StateM σ Report).run s).2 f = some (render lines).toUTF8 := by
  obtain ⟨hresult, hstate⟩ := Prod.ext_iff.1 (run_eq job mode echo s)
  rw [Prod.map_fst, h] at hresult
  rw [Prod.map_snd, id] at hstate
  rw [hstate]
  cases hunits : job.units.mapM (readUnit s) with
  | error e =>
    rw [hunits] at hresult
    cases hresult
  | ok units =>
    rw [hunits] at hresult
    obtain ⟨lines, f, hlines, hn, htarget, hbytes⟩ := write_ok hresult.symm
    exact ⟨units, lines, f, rfl, hlines, hn, htarget, hbytes⟩

/-- The lines of what a job that succeeds has written are those that its units compile to, as many as it reports.
If that is none, as nothing is in the units and the start code is not wanted, there is an empty line. -/
theorem run_lines (hnames : ∀ p ∈ job.units, '\n' ∉ p.stem.toList)
    (h : ((job.run mode echo : StateM σ Report).run s).1.result = .ok n) :
    ∃ units lines f, ∃ text : String,
      List.Forall₂ (fun p u => u.name = p.stem ∧ FileSystem.text s p = .ok u.source) job.units units ∧
      Program.compile units (job.wantsBootstrap mode) echo = .ok lines ∧ lines.length = n ∧
      FileSystem.target s job.output = .ok f ∧
      FileSystem.bytes? ((job.run mode echo : StateM σ Report).run s).2 f = some text.toUTF8 ∧
      (Text.lines text.toList).map String.ofList = (if n = 0 then [""] else lines.map Line.text) ∧
      (n = 0 ↔ job.wantsBootstrap mode = false ∧ ∀ u ∈ units, Source.read u.source = .ok []) := by
  obtain ⟨units, lines, f, hunits, hlines, rfl, htarget, hbytes⟩ := run_ok h
  have hread := (mapM_ok_iff.1 hunits).imp fun _ _ => readUnit_ok_iff.1
  have hstems : job.units.map FilePath.stem = units.map (·.name) := by
    rw [← List.forall₂_eq_eq_eq, List.forall₂_map_left_iff, List.forall₂_map_right_iff]
    exact hread.imp fun _ _ hu => hu.1.symm
  have hfree : ∀ u ∈ units, '\n' ∉ u.name.toList := by
    rw [← List.forall_mem_map (P := fun name : String => '\n' ∉ name.toList), ← hstems, List.forall_mem_map]
    exact hnames
  refine ⟨units, lines, f, render lines, hread, hlines, rfl, htarget, hbytes, ?_, ?_⟩
  · rw [render, Text.lines_joinLines (List.forall_mem_map.2 (Program.isLine_of_compile hlines hfree))]
    simp only [List.map_eq_nil_iff, List.length_eq_zero_iff]
  · rw [List.length_eq_zero_iff]
    exact Program.compile_eq_nil_iff hlines

theorem run_lines_add :
    let t := (FileTree.empty []).putFile [Text.utf8 "A.vm"] "add".toUTF8
    let job : Job := { units := [.ofText "A.vm"], output := .ofText "A.asm", fromDirectory := false }
    let out := (job.run .auto true : StateM FileTree Report).run t
    out.1.result = .ok 6 ∧ ∃ (lines : List Line) (l : Location) (text : String), lines.length = 6 ∧
      out.2.bytes? l = some text.toUTF8 ∧ (Text.lines text.toList).map String.ofList = lines.map Line.text := by
  intro t job out
  have hrun : out.1.result = .ok 6 := by decide +kernel
  have hnames : ∀ p ∈ job.units, '\n' ∉ p.stem.toList := by decide +kernel
  obtain ⟨units, lines, l, text, -, -, hn, -, hbytes, hlines, -⟩ := run_lines hnames hrun
  exact ⟨hrun, lines, l, text, hn, hbytes, hlines⟩

/-- A unit without commands. -/
theorem run_lines_nothing :
    let t := (FileTree.empty []).putFile [Text.utf8 "A.vm"] "".toUTF8
    let job : Job := { units := [.ofText "A.vm"], output := .ofText "A.asm", fromDirectory := false }
    let out := (job.run .auto true : StateM FileTree Report).run t
    out.1.result = .ok 0 ∧ out.2.bytes? [Text.utf8 "A.asm"] = some "\n".toUTF8 ∧ Text.lines "\n".toList = [[]] := by
  decide +kernel

end Job

end HackStack
