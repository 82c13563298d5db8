import HackStack.Job.Run
import HackStack.Proofs.FileSystems
import HackStack.Proofs.SourceLines
/-!
# What comes of a job

A job reads all its units, compiles them, and then writes one file, in whatever state holds the files.

`run_outcome`: a job fails for the first unit that cannot be read, or else for the first bad line, or else
because the output cannot be opened, and then the state is as it was. Otherwise the output holds what the
texts from before the run compile to, also if it is one of the units, and every other file is as it was.
-/

namespace HackStack.Job
variable {σ : Type} [MonadFiles (StateM σ)] [FileSystem σ]

/-! ## Reading the units -/

/-- The unit of a file. -/
def readUnit (s : σ) (p : FilePath) : Except JobError SourceUnit :=
  match FileSystem.text s p with
  | .ok source => .ok { name := p.stem, source }
  | .error cause => .error (.read p cause)

theorem readUnit_ok_iff {s : σ} {p : FilePath} {u : SourceUnit} :
    readUnit s p = .ok u ↔ u.name = p.stem ∧ FileSystem.text s p = .ok u.source := by
  unfold readUnit
  cases FileSystem.text s p <;> grind [SourceUnit]

theorem readUnit_error_iff {s : σ} {p : FilePath} {e : JobError} :
    readUnit s p = .error e ↔ ∃ cause, FileSystem.text s p = .error cause ∧ e = .read p cause := by
  unfold readUnit
  cases FileSystem.text s p <;> simp [eq_comm]

theorem exists_readUnit_ok_iff {s : σ} {p : FilePath} :
    (∃ u, readUnit s p = .ok u) ↔ ∃ source, FileSystem.text s p = .ok source := by
  unfold readUnit
  cases FileSystem.text s p <;> simp

theorem run_readTexts (ps : List FilePath) (s : σ) :
    (ps.mapM MonadFiles.readText : StateM σ (List (Except FileError String))).run s =
      (ps.map (FileSystem.text s), s) := by
  induction ps with
  | nil => rfl
  | cons p ps ih =>
    rw [List.mapM_cons, run_then (FileSystem.run_readText s p), run_then ih]
    rfl

theorem sources_eq (ps : List FilePath) (s : σ) :
    sources (ps.zip (ps.map (FileSystem.text s))) = ps.mapM (readUnit s) := by
  induction ps with
  | nil => rfl
  | cons p ps ih =>
    rw [List.map_cons, List.zip_cons_cons, List.mapM_cons, readUnit, ← ih]
    cases FileSystem.text s p with
    | error cause => rfl
    | ok source => rw [sources, map_eq_pure_bind]; rfl

/-- A run fails where reading its units does, or ends in what writing them gives. -/
theorem run_eq (job : Job) (mode : Bootstrap) (echo : Bool) (s : σ) :
    Prod.map Report.result id ((job.run mode echo : StateM σ Report).run s) =
      match job.units.mapM (readUnit s) with
      | .error e => (.error e, s)
      | .ok units => (job.write (Program.compile units (job.wantsBootstrap mode) echo) : StateM σ _).run s := by
  rw [run, run_then (run_readTexts job.units s), sources_eq]
  cases job.units.mapM (readUnit s) with
  | error e => rfl
  | ok units => rfl

/-! ## Writing the output -/

theorem write_unopened {job : Job} {s : σ} {cause : FileError} (h : FileSystem.target s job.output = .error cause)
    (lines : List Line) :
    (job.write (.ok lines) : StateM σ _).run s = (.error (.write job.output cause), s) := by
  rw [write, run_then (FileSystem.run_writeText_error s job.output (render lines) cause h)]
  rfl

theorem write_opened {job : Job} {s : σ} {f : FileSystem.File σ} (h : FileSystem.target s job.output = .ok f)
    (lines : List Line) :
    ∃ s', (job.write (.ok lines) : StateM σ _).run s = (.ok lines.length, s') ∧
      FileSystem.bytes? s' f = some (render lines).toUTF8 ∧
      ∀ g, g ≠ f → FileSystem.bytes? s' g = FileSystem.bytes? s g := by
  obtain ⟨s', hs, hf, hg⟩ := FileSystem.run_writeText_ok s job.output (render lines) f h
  refine ⟨s', ?_, hf, hg⟩
  rw [write, run_then hs]
  rfl

theorem write_failed {job : Job} {s : σ} {compiled : Except UnitError (List Line)} {e : JobError}
    (h : ((job.write compiled : StateM σ _).run s).1 = .error e) : ((job.write compiled : StateM σ _).run s).2 = s := by
  cases compiled with
  | error e => rfl
  | ok lines =>
    cases htarget : FileSystem.target s job.output with
    | error cause => rw [write_unopened htarget]
    | ok f =>
      obtain ⟨s', hs, -⟩ := write_opened htarget lines
      rw [hs] at h
      cases h

/-! ## The outcome -/

/-- A job that fails changes nothing. -/
theorem run_failed {job : Job} {mode : Bootstrap} {echo : Bool} {s : σ} {e : JobError}
    (h : ((job.run mode echo : StateM σ Report).run s).1.result = .error e) :
    ((job.run mode echo : StateM σ Report).run s).2 = s := by
  obtain ⟨hresult, hstate⟩ := Prod.ext_iff.1 (run_eq job mode echo s)
  refine hstate.trans ?_
  rw [Prod.map_fst, h] at hresult
  cases hunits : job.units.mapM (readUnit s) with
  | error e => rfl
  | ok units =>
    rw [hunits] at hresult
    exact write_failed hresult.symm

/-- What comes of a job in any state that holds files. The cases exclude one another, as they differ in what
can be read, compiled and opened before the run. -/
theorem run_outcome (job : Job) (mode : Bootstrap) (echo : Bool) (s : σ) :
    let out := (job.run mode echo : StateM σ Report).run s
    let compiled units := Program.compile units (job.wantsBootstrap mode) echo
    -- A unit cannot be read. It is the first such, whatever is in the units in front of it.
    (∃ us p us' cause, job.units = us ++ p :: us' ∧ (∀ q ∈ us, ∃ source, FileSystem.text s q = .ok source) ∧
      FileSystem.text s p = .error cause ∧ out.1.result = .error (.read p cause) ∧ out.2 = s) ∨
    -- All units can be read.
    ∃ units, List.Forall₂ (fun p u => u.name = p.stem ∧ FileSystem.text s p = .ok u.source) job.units units ∧
      -- They do not compile.
      ((∃ e, compiled units = .error e ∧ out.1.result = .error (.unit e) ∧ out.2 = s) ∨
      -- They do, and the output cannot be opened.
      (∃ lines cause, compiled units = .ok lines ∧ FileSystem.target s job.output = .error cause ∧
        out.1.result = .error (.write job.output cause) ∧ out.2 = s) ∨
      -- The output is written, and no other file.
      ∃ lines f, compiled units = .ok lines ∧ FileSystem.target s job.output = .ok f ∧
        out.1.result = .ok lines.length ∧
        FileSystem.bytes? out.2 f = some ("\n".intercalate (lines.map (·.text)) ++ "\n").toUTF8 ∧
        ∀ g, g ≠ f → FileSystem.bytes? out.2 g = FileSystem.bytes? s g) := by
  intro out compiled
  have hrun := run_eq job mode echo s
  cases hunits : job.units.mapM (readUnit s) with
  | error e =>
    rw [hunits] at hrun
    obtain ⟨hresult, hstate⟩ := Prod.ext_iff.1 hrun
    obtain ⟨us, p, us', hsplit, hus, hp⟩ := mapM_error_iff.1 hunits
    obtain ⟨cause, hcause, rfl⟩ := readUnit_error_iff.1 hp
    exact .inl ⟨us, p, us', cause, hsplit, fun q hq => exists_readUnit_ok_iff.1 (hus q hq), hcause, hresult, hstate⟩
  | ok units =>
    refine .inr ⟨units, (mapM_ok_iff.1 hunits).imp fun _ _ => readUnit_ok_iff.1, ?_⟩
    rw [hunits] at hrun
    replace hrun : _ = (job.write (compiled units) : StateM σ _).run s := hrun
    cases hlines : compiled units with
    | error e =>
      rw [hlines] at hrun
      obtain ⟨hresult, hstate⟩ := Prod.ext_iff.1 hrun
      exact .inl ⟨e, rfl, hresult, hstate⟩
    | ok lines =>
      rw [hlines] at hrun
      cases htarget : FileSystem.target s job.output with
      | error cause =>
        rw [write_unopened htarget] at hrun
        obtain ⟨hresult, hstate⟩ := Prod.ext_iff.1 hrun
        exact .inr (.inl ⟨lines, cause, rfl, rfl, hresult, hstate⟩)
      | ok f =>
        obtain ⟨s', hs, hf, hg⟩ := write_opened htarget lines
        rw [hs] at hrun
        obtain ⟨hresult, rfl⟩ := Prod.ext_iff.1 hrun
        exact .inr (.inr ⟨lines, f, rfl, rfl, hresult, hf, hg⟩)

end HackStack.Job
