import HackStack.Proofs.Batches
import HackStack.Proofs.SourceLines
/-!
# What comes of a program

A command that was read passes its check, so the emitter refuses nothing that a source
gives. Hence a program fails where reading its units one by one fails
(`compile_error_iff_read`), and its output is a run of the emitter over their commands.

`compile_outcome`: a program compiles if each of its lines is accepted. Otherwise the
first line that is not is reported, and if there is none the output is the start code and
a block for each command.
-/

namespace HackStack

/-! ## Loops that fail -/

/-- A loop fails like going through the list if each step fails like its element. -/
theorem foldlM_error_iff {ε σ α β : Type} {f : σ → α → Except ε σ} {g : α → Except ε β}
    (hfg : ∀ s a err, f s a = .error err ↔ g a = .error err) {s : σ} {l : List α} {err : ε} :
    l.foldlM f s = .error err ↔ l.mapM g = .error err := by
  induction l generalizing s with
  | nil => exact ⟨nofun, nofun⟩
  | cons a l ih =>
    rw [List.foldlM_cons, List.mapM_cons]
    cases hf : f s a with
    | error e =>
      rw [(hfg s a e).1 hf]
      constructor <;> rintro ⟨⟩ <;> rfl
    | ok s' =>
      cases hg : g a with
      | error e => rw [(hfg s a e).2 hg] at hf; cases hf
      | ok b =>
        refine (ih (s := s')).trans ?_
        cases l.mapM g with
        | error e => constructor <;> rintro ⟨⟩ <;> rfl
        | ok bs => exact ⟨nofun, nofun⟩

/-- A result is there if there is no fault. -/
theorem exists_ok_iff {ε α : Type} {x : Except ε α} : (∃ a, x = .ok a) ↔ ∀ err, x ≠ .error err := by
  cases x <;> simp

namespace Program

/-- The commands of a unit, or its first bad line. -/
def readUnit (u : SourceUnit) : Except UnitError (List SourceCommand) :=
  (Source.read u.source).mapError fun cause => { unit := u.name, cause }

theorem readUnit_ok_iff (u : SourceUnit) :
    (∃ cs, readUnit u = .ok cs) ↔ ∀ l ∈ Text.lines u.source.toList, Source.Accepts l := by
  rw [← Source.read_ok_iff, readUnit]
  cases Source.read u.source <;> simp [Except.mapError]

theorem readUnit_error_iff (u : SourceUnit) (err : UnitError) :
    readUnit u = .error err ↔ ∃ cause, Source.read u.source = .error cause ∧ err = { unit := u.name, cause } := by
  rw [readUnit]
  cases Source.read u.source <;> simp [Except.mapError, eq_comm]

/-- Emitting a unit fails if reading it does, and only then. -/
theorem emitUnit_error_iff (e : Emitter) (u : SourceUnit) (err : UnitError) :
    emitUnit e u = .error err ↔ readUnit u = .error err := by
  unfold emitUnit readUnit
  cases hcs : Source.read u.source with
  | error cause => constructor <;> rintro ⟨⟩ <;> rfl
  | ok cs =>
    have hall := Emitter.emitAll_ok_iff (e := e.enter u.name) |>.2 ⟨rfl, fun c hc => (Source.read_sound hcs c hc).check⟩
    dsimp only
    rw [hall]
    constructor <;> rintro ⟨⟩

theorem compile_error_iff_read (units : List SourceUnit) (bootstrap echo : Bool) (err : UnitError) :
    compile units bootstrap echo = .error err ↔ units.mapM readUnit = .error err := by
  rw [← foldlM_error_iff emitUnit_error_iff (s := start bootstrap echo), compile]
  cases units.foldlM emitUnit (start bootstrap echo) <;> simp

theorem compile_ok_iff_read (units : List SourceUnit) (bootstrap echo : Bool) :
    (∃ lines, compile units bootstrap echo = .ok lines) ↔ ∃ css, units.mapM readUnit = .ok css := by
  simp only [exists_ok_iff, ne_eq, compile_error_iff_read]

/-! ## The commands of a program -/

/-- What is left of the lines of the units, each with its unit. -/
def texts (units : List SourceUnit) : List (String × String) :=
  units.flatMap fun u => ((Text.lines u.source.toList).filterMap Source.clean?).map fun text => (u.name, .ofList text)

/-- Each text was read as a command of its unit. -/
theorem commands_read {units : List SourceUnit} (h : ∀ u ∈ units, ∃ cs, Source.read u.source = .ok cs) :
    List.Forall₂ (fun text x => x.1 = text.1 ∧ Command.read text.2 = .ok x.2) (texts units) (commands units) := by
  induction units with
  | nil => exact .nil
  | cons u units ih =>
    obtain ⟨⟨cs, hcs⟩, hunits⟩ := List.forall_mem_cons.1 h
    rw [texts, List.flatMap_cons, ← texts, commands, List.flatMap_cons, ← commands, unitCommands, hcs]
    refine List.rel_append ?_ (ih hunits)
    rw [List.forall₂_map_left_iff, List.forall₂_map_right_iff]
    exact (Source.read_commands hcs).imp fun _ _ hc => ⟨rfl, hc⟩

/-- The output of a program is what its start leaves and the blocks of a run over its commands. -/
theorem compile_emits {units : List SourceUnit} {bootstrap echo : Bool} {lines : List Line}
    (h : compile units bootstrap echo = .ok lines) :
    ∃ blocks e', (start bootstrap echo).Emits (commands units) blocks e' ∧
      lines = (start bootstrap echo).lines.toList ++ blocks.flatten := by
  have hrun := (start bootstrap echo).emits_appendEach fun x hx => (commands_sound units x hx).check
  refine ⟨_, _, hrun, ?_⟩
  have hstart := start_wrote bootstrap echo
  rw [(compile_lines h).1, hstart.lines, hstart.echo, hstart.counters]
  cases bootstrap <;> simp [pieces, Piece.number, Piece.after, List.flatMap_def]

/-- A program compiles if each line of each unit is blank, a comment or a command. If some line is not, the first
one in the first such unit is reported, by its unit, its number, what is left of it, and what is wrong with that.
If there is none, the output is the start code, if it is wanted, and then a block for each text that is left of
a line, in order: what an emitter that is in the unit of that line, and was never reset, adds for its command. -/
theorem compile_outcome (units : List SourceUnit) (bootstrap echo : Bool) :
    ((∃ lines, compile units bootstrap echo = .ok lines) ↔
      ∀ u ∈ units, ∀ l ∈ Text.lines u.source.toList, Source.Accepts l) ∧
    (∀ err, compile units bootstrap echo = .error err ↔
      ∃ us u us' pre l post text cause, units = us ++ u :: us' ∧
        (∀ v ∈ us, ∀ l ∈ Text.lines v.source.toList, Source.Accepts l) ∧
        Text.lines u.source.toList = pre ++ l :: post ∧ (∀ l ∈ pre, Source.Accepts l) ∧
        Source.clean? l = some text ∧ Command.read (.ofList text) = .error cause ∧
        err = { unit := u.name, cause := { line := pre.length + 1, text := .ofList text, cause } }) ∧
    (∀ lines, compile units bootstrap echo = .ok lines →
      ∃ cs blocks e',
        List.Forall₂ (fun text x => x.1 = text.1 ∧ Command.read text.2 = .ok x.2) (texts units) cs ∧
        (start bootstrap echo).Emits cs blocks e' ∧
        lines = (if bootstrap then ({ echo } : Emitter).bootstrap.lines.toList else []) ++ blocks.flatten) := by
  refine ⟨?_, fun err => ?_, fun lines h => ?_⟩
  · rw [compile_ok_iff_read, exists_mapM_ok_iff]
    exact forall₂_congr fun u _ => readUnit_ok_iff u
  · rw [compile_error_iff_read, mapM_error_iff]
    simp only [readUnit_ok_iff, readUnit_error_iff, Source.read_error_iff]
    constructor
    · rintro ⟨us, u, us', rfl, hus, _, ⟨pre, l, post, text, cause, hl, hpre, ht, hc, rfl⟩, rfl⟩
      exact ⟨us, u, us', pre, l, post, text, cause, rfl, hus, hl, hpre, ht, hc, rfl⟩
    · rintro ⟨us, u, us', pre, l, post, text, cause, rfl, hus, hl, hpre, ht, hc, rfl⟩
      exact ⟨us, u, us', rfl, hus, _, ⟨pre, l, post, text, cause, hl, hpre, ht, hc, rfl⟩, rfl⟩
  · have hread : ∀ u ∈ units, ∃ cs, Source.read u.source = .ok cs := fun u hu =>
      ((compile_lines h).2 u hu).imp fun _ hcs => hcs.1
    have hstart : (start bootstrap echo).lines.toList =
        if bootstrap then ({ echo } : Emitter).bootstrap.lines.toList else [] := by
      cases bootstrap <;> rfl
    obtain ⟨blocks, e', hrun, rfl⟩ := compile_emits h
    exact ⟨commands units, blocks, e', commands_read hread, hrun, by rw [hstart]⟩

end Program

end HackStack
