import HackStack.Proofs.FileNames
import HackStack.Proofs.JobOutcome
import HackStack.Proofs.StaticNames
import Mathlib.Data.List.Induction
/-!
# Building again

A job writes into the directory its units come from. What it writes ends in the extension of outputs, so
it is no source, and a file is put where no directory was, so every path leads where it led before.

`plan_run_again`: planning and running a second time gives the same job, the same number of lines and
the same tree.
-/

namespace HackStack
namespace FileTree
variable {t : FileTree}

/-! ## Steps of a walk -/

theorem walk_append {l l' : Location} {ps qs : List Bytes} :
    t.walk l (ps ++ qs) = .ok l' ↔ ∃ m, t.walk l ps = .ok m ∧ t.walk m qs = .ok l' := by
  induction ps generalizing l with
  | nil => simp [walk]
  | cons p ps ih =>
    rw [List.cons_append, walk_cons_ok_iff, ih]
    simp only [walk_cons_ok_iff]
    constructor
    · rintro ⟨hdir, hfits, m, hps, hqs⟩
      exact ⟨m, ⟨hdir, hfits, hps⟩, hqs⟩
    · rintro ⟨m, ⟨hdir, hfits, hps⟩, hqs⟩
      exact ⟨hdir, hfits, m, hps, hqs⟩

theorem walk_singleton {l l' : Location} {piece : Bytes} (h : t.walk l [piece] = .ok l') : l' = step l piece := by
  obtain ⟨-, -, hnil⟩ := walk_cons_ok_iff.1 h
  cases hnil
  rfl

/-- Where pieces lead is called by the last one that is not idle. -/
theorem walk_last {ps : List Bytes} {a l : Location} {name : Bytes}
    (hlast : (ps.filter (!FilePath.isIdle ·)).getLast? = some name) (hparent : name ≠ FilePath.parent)
    (h : t.walk a ps = .ok l) : ∃ dir, l = name :: dir := by
  induction ps using List.reverseRecOn generalizing l with
  | nil => cases hlast
  | append_singleton ps piece ih =>
    obtain ⟨m, hps, hpiece⟩ := walk_append.1 h
    rw [walk_singleton hpiece]
    by_cases hidle : FilePath.isIdle piece
    · rw [step, if_pos hidle]
      refine ih ?_ hps
      simpa [hidle] using hlast
    · have heq : piece = name := by simpa [hidle] using hlast
      rw [step, if_neg hidle, heq, if_neg hparent]
      exact ⟨m, rfl⟩

theorem walk_fileName {p : FilePath} {a l : Location} {name : Bytes} (hname : p.fileName? = some name)
    (h : t.walk a p.pieces = .ok l) : ∃ dir, l = name :: dir := by
  obtain ⟨hlast, hparent⟩ := Option.filter_eq_some_iff.1 hname
  exact walk_last hlast (by simpa using hparent) h

/-! ## After a file is put -/

/-- A file is put where no directory is, so the directories stay. -/
theorem entry_put_directory {l : Location} (hl : t.entry? l ≠ some .directory) (e : Entry) {l' : Location}
    (h : t.entry? l' = some .directory) : entry? (t.put l e) l' = some .directory := by
  rw [entry?_put]
  split
  · rfl
  · split
    · next heq => exact absurd (heq ▸ h) hl
    · exact h

theorem walk_put {l : Location} (hl : t.entry? l ≠ some .directory) (e : Entry) {a m : Location} {ps : List Bytes}
    (h : t.walk a ps = .ok m) : (t.put l e).walk a ps = .ok m := by
  induction ps generalizing a with
  | nil => exact h
  | cons p ps ih =>
    obtain ⟨hdir, hfits, hrest⟩ := walk_cons_ok_iff.1 h
    exact walk_cons_ok_iff.2 ⟨entry_put_directory hl e hdir, hfits, ih hrest⟩

theorem target_put {p : FilePath} {l : Location} (h : t.target p = .ok l) (bytes : ByteArray) :
    (t.put l (.file bytes)).target p = .ok l := by
  obtain ⟨a, front, name, dir, ho, hp, hleads, hparent, hfits, hwalk, rfl, hdir⟩ := target_ok_iff.1 h
  have hput : entry? (t.put (name :: dir) (.file bytes)) (name :: dir) ≠ some .directory := by
    simp [entry?_put]
  exact target_ok_iff.2 ⟨a, front, name, dir, ho, hp, hleads, hparent, hfits, walk_put hdir _ hwalk, rfl, hput⟩

/-- Every path leads where it led before. Only what is at the place of the file is new. -/
theorem resolve_put {l : Location} (hl : t.entry? l ≠ some .directory) (e : Entry) {p : FilePath} {m : Location}
    {e' : Entry} (h : t.resolve p = .ok (m, e')) : (t.put l e).resolve p = .ok (m, if m = l then e else e') := by
  obtain ⟨a, ho, hwalk, hentry⟩ := resolve_ok_iff.1 h
  refine resolve_ok_iff.2 ⟨a, ho, walk_put hl e hwalk, ?_⟩
  rw [entry?_put]
  by_cases hroot : m = []
  · have hne : m ≠ l := by
      rintro rfl
      exact hl (hroot ▸ t.entry?_root)
    rw [if_pos hroot, if_neg hne, ← hentry, hroot, entry?_root]
  · rw [if_neg hroot, hentry]
    split <;> rfl

theorem readText_ok_iff {p : FilePath} {text : String} :
    t.readText p = .ok text ↔ ∃ l bytes, t.resolve p = .ok (l, .file bytes) ∧ String.fromUTF8? bytes = some text := by
  unfold readText
  cases hres : t.resolve p with
  | error cause => simp
  | ok x =>
    obtain ⟨l, e⟩ := x
    cases e with
    | directory => simp
    | file bytes => cases htext : String.fromUTF8? bytes <;> simp [htext]

/-- A place that is called like an output and is no directory. -/
structure IsOutput (t : FileTree) (name : Bytes) (dir : Location) : Prop where
  ends : FilePath.EndsIn name outputExtension
  no_directory : t.entry? (name :: dir) ≠ some .directory

/-- No source file is there. -/
theorem IsOutput.ne_source {name source : Bytes} {dir : Location} (h : t.IsOutput name dir)
    (hs : FilePath.EndsIn source sourceExtension) (dir' : Location) : source :: dir' ≠ name :: dir := by
  intro heq
  exact hs.not_output ((List.cons.inj heq).1 ▸ h.ends)

theorem readText_put {name : Bytes} {dir : Location} (ho : t.IsOutput name dir) (e : Entry) {p : FilePath}
    (hp : p.isSource) {text : String} (h : t.readText p = .ok text) :
    (t.put (name :: dir) e).readText p = .ok text := by
  obtain ⟨l, bytes, hres, htext⟩ := readText_ok_iff.1 h
  obtain ⟨a, -, hwalk, -⟩ := resolve_ok_iff.1 hres
  obtain ⟨source, hfile, hsource⟩ := FilePath.exists_fileName_of_isSource hp
  obtain ⟨dir', rfl⟩ := walk_fileName hfile hwalk
  have hput := resolve_put ho.no_directory e hres
  rw [if_neg (ho.ne_source hsource dir')] at hput
  exact readText_ok_iff.2 ⟨_, bytes, hput, htext⟩

theorem filterMap_put {α : Type} {f : Location × Entry → Option α} {l : Location} (hf : ∀ e, f (l, e) = none)
    (e : Entry) : (t.put l e).entries.filterMap f = t.entries.filterMap f := by
  rw [put, List.filterMap_cons, hf, List.filterMap_filter]
  refine List.filterMap_congr fun x _ => ?_
  obtain ⟨l', e'⟩ := x
  by_cases h : l' = l
  · simp [h, hf]
  · simp [h]

end FileTree

namespace Job
variable {t : FileTree}

/-! ## Planning again -/

/-- The name of an entry that is a source file right in the directory `dir`, which `input` leads to. -/
def sourceName? (input : FilePath) (dir : Location) : Location × Entry → Option Bytes
  | (name :: l, e) =>
    if l = dir ∧ e.isFile ∧ (input.join name).fits ∧ (input.join name).isSource then some name else none
  | ([], _) => none

theorem unitsIn_names (t : FileTree) (input : FilePath) (dir : Location) :
    unitsIn input ((t.names dir).map fun (name, isFile) => (name, isFile && (input.join name).fits)) =
      ((t.entries.filterMap (sourceName? input dir)).mergeSort inOrder).map input.join := by
  have hnames : (((t.names dir).map fun (name, isFile) => (name, isFile && (input.join name).fits)).filter
      fun (name, isFile) => isFile && (input.join name).isSource).map (·.1) =
        t.entries.filterMap (sourceName? input dir) := by
    rw [FileTree.names, List.map_filterMap, List.filter_filterMap, List.map_filterMap]
    refine List.filterMap_congr fun x _ => ?_
    obtain ⟨l, e⟩ := x
    cases l with
    | nil => rfl
    | cons name l =>
      by_cases hdir : l = dir
      · by_cases hsource : e.isFile ∧ (input.join name).fits ∧ (input.join name).isSource
        · simp [sourceName?, hdir, hsource]
        · simp [sourceName?, hdir, hsource]
          grind
      · simp [sourceName?, hdir]
  rw [unitsIn, hnames]

theorem plan_directory_congr {input : FilePath} {output? : Option FilePath} {name? : Option Bytes}
    {entries entries' : List (Bytes × Bool)} (h : unitsIn input entries = unitsIn input entries') :
    plan input output? (.directory name? entries) = plan input output? (.directory name? entries') := by
  simp only [plan, h]

/-- An output is no unit of a job. -/
theorem sourceName?_output {input : FilePath} {dir dir' : Location} {name : Bytes}
    (hname : FilePath.EndsIn name outputExtension) (e : Entry) : sourceName? input dir (name :: dir', e) = none := by
  rw [sourceName?, if_neg]
  rintro ⟨-, -, -, hsource⟩
  exact FilePath.not_isSource_of_endsIn (hname.join input) hsource

/-- All units of a planned job are source files. -/
theorem isSource_of_plan {input p : FilePath} {output? : Option FilePath} {found : Found} {job : Job}
    (h : plan input output? found = .ok job) (hp : p ∈ job.units) : p.isSource := by
  unfold plan at h
  split at h
  · split at h
    · cases h
    · cases h
      obtain ⟨_, -, hsource, rfl⟩ := mem_unitsIn hp
      exact hsource
  · cases h
  · split at h
    · next hsource =>
      cases h
      rw [List.mem_singleton.1 hp]
      exact hsource
    · cases h
  · cases h

theorem plan_put {input : FilePath} {job : Job} {name : Bytes} {dir : Location} (ho : t.IsOutput name dir)
    (bytes : ByteArray) (h : plan input none (t.find input) = .ok job) :
    plan input none ((t.put (name :: dir) (.file bytes)).find input) = .ok job := by
  cases hres : t.resolve input with
  | error cause =>
    rw [FileTree.find, hres] at h
    cases h
  | ok x =>
    obtain ⟨m, e⟩ := x
    have hput := FileTree.resolve_put ho.no_directory (.file bytes) hres
    rw [FileTree.find, hres] at h
    rw [FileTree.find, hput]
    cases e with
    | file bytes' =>
      by_cases hm : m = name :: dir
      · rw [if_pos hm]
        exact h
      · rw [if_neg hm]
        exact h
    | directory =>
      have hm : m ≠ name :: dir := by
        rintro rfl
        obtain ⟨-, -, -, hdir⟩ := FileTree.resolve_ok_iff.1 hres
        exact ho.no_directory hdir
      rw [if_neg hm, ← h]
      refine plan_directory_congr ?_
      rw [unitsIn_names, unitsIn_names, FileTree.filterMap_put (sourceName?_output ho.ends)]

/-! ## The default output -/

theorem plan_default {input : FilePath} {found : Found} {job : Job} (h : plan input none found = .ok job) :
    (∃ name, job.output = input.join (Text.utf8 (outputName name))) ∨
      job.output = input.withExtension (Text.utf8 outputExtension) := by
  unfold plan at h
  simp only [Option.getD_none] at h
  split at h
  · split at h
    · cases h
    · cases h
      exact .inl ⟨_, rfl⟩
  · cases h
  · split at h
    · cases h
      dsimp only
      exact .inr rfl
    · cases h
  · cases h

theorem endsIn_outputName (name? : Option Bytes) :
    FilePath.EndsIn (Text.utf8 (outputName name?)) outputExtension := by
  rw [outputName, String.append_assoc, Text.utf8_append, Text.utf8_append]
  exact FilePath.endsIn_append _ outputExtension

/-- A default output that has a name at all ends in the extension of outputs. -/
theorem default_endsIn {input : FilePath} {found : Found} {job : Job} (h : plan input none found = .ok job)
    {name : Bytes} (hname : job.output.fileName? = some name) : FilePath.EndsIn job.output.bytes outputExtension := by
  rcases plan_default h with ⟨name?, hout⟩ | hout
  · rw [hout]
    exact (endsIn_outputName name?).join input
  · rw [hout] at hname ⊢
    exact FilePath.endsIn_withExtension (Option.isSome_of_eq_some hname)

/-- Without a given output the result goes to a file that ends in the extension of outputs. -/
theorem plan_output {input : FilePath} {found : Found} {job : Job} {l : Location}
    (h : plan input none found = .ok job) (ht : t.target job.output = .ok l) :
    ∃ name dir, l = name :: dir ∧ t.IsOutput name dir := by
  obtain ⟨_, front, name, dir, -, hp, hleads, hparent, -, -, rfl, hdir⟩ := FileTree.target_ok_iff.1 ht
  have hfile := FilePath.fileName?_of_pieces hp hleads hparent
  obtain ⟨front', name', hp', hname'⟩ := FilePath.exists_pieces_of_endsIn (by decide) (default_endsIn h hfile)
  have heq : name = name' := by
    rw [hp] at hp'
    simpa using congrArg List.getLast? hp'
  exact ⟨name, dir, rfl, heq ▸ hname', hdir⟩

/-! ## Running again -/

/-- Writing that succeeds puts the lines at one place. -/
theorem write_ok_iff {job : Job} {compiled : Except UnitError (List Line)} {n : Nat} {t' : FileTree} :
    (job.write compiled : StateM FileTree _).run t = (.ok n, t') ↔
      ∃ lines l, compiled = .ok lines ∧ t.target job.output = .ok l ∧ lines.length = n ∧
        t.put l (.file (render lines).toUTF8) = t' := by
  cases compiled with
  | error e =>
    simp only [reduceCtorEq, false_and, exists_false, iff_false]
    rintro ⟨⟩
  | ok lines =>
    cases htarget : t.target job.output with
    | error cause =>
      rw [write, run_then (FileTree.run_writeText_error htarget (render lines))]
      simp only [reduceCtorEq, false_and, and_false, exists_false, iff_false]
      rintro ⟨⟩
    | ok l =>
      rw [write, run_then (FileTree.run_writeText_ok htarget (render lines))]
      constructor
      · rintro ⟨⟩
        exact ⟨lines, l, rfl, rfl, rfl, rfl⟩
      · rintro ⟨lines', l', hlines, hl, rfl, rfl⟩
        cases hlines
        cases hl
        rfl

/-- A run that succeeds puts at one place what its units compile to. -/
theorem run_ok_iff {job : Job} {mode : Bootstrap} {echo : Bool} {n : Nat} {t' : FileTree} :
    Prod.map Report.result id ((job.run mode echo : StateM FileTree Report).run t) = (.ok n, t') ↔
      ∃ units lines l, job.units.mapM (readUnit t) = .ok units ∧
        Program.compile units (job.wantsBootstrap mode) echo = .ok lines ∧ t.target job.output = .ok l ∧
        lines.length = n ∧ t.put l (.file (render lines).toUTF8) = t' := by
  rw [run_eq]
  cases job.units.mapM (readUnit t) with
  | error e => simp
  | ok units =>
    dsimp only
    rw [write_ok_iff]
    simp

/-- A source file is read as before. -/
theorem readUnit_put {name : Bytes} {dir : Location} (ho : t.IsOutput name dir) (e : Entry) {p : FilePath}
    {u : SourceUnit} (hp : p.isSource) (h : readUnit t p = .ok u) : readUnit (t.put (name :: dir) e) p = .ok u := by
  obtain ⟨hstem, htext⟩ := readUnit_ok_iff.1 h
  exact readUnit_ok_iff.2 ⟨hstem, FileTree.readText_put ho e hp htext⟩

/-- When a planned job without a given output succeeds, no source file of the tree has changed. The same input
leads to the same job afterwards, which succeeds with as many lines and leaves the tree as it is. -/
theorem plan_run_again {input : FilePath} {mode : Bootstrap} {echo : Bool} {job : Job} {n : Nat}
    (hplan : plan input none (t.find input) = .ok job)
    (hrun : ((job.run mode echo : StateM FileTree Report).run t).1.result = .ok n) :
    let t' := ((job.run mode echo : StateM FileTree Report).run t).2
    let again := (job.run mode echo : StateM FileTree Report).run t'
    (∀ name dir, FilePath.EndsIn name sourceExtension → t'.entry? (name :: dir) = t.entry? (name :: dir)) ∧
    plan input none (t'.find input) = .ok job ∧ again.1.result = .ok n ∧ again.2 = t' := by
  intro t' again
  have hran : Prod.map Report.result id ((job.run mode echo : StateM FileTree Report).run t) = (.ok n, t') :=
    Prod.ext hrun rfl
  clear_value t'
  obtain ⟨units, lines, l, hunits, hlines, htarget, hn, rfl⟩ := run_ok_iff.1 hran
  obtain ⟨name, dir, rfl, ho⟩ := plan_output hplan htarget
  have hagain : Prod.map Report.result id again = (.ok n, t.put (name :: dir) (.file (render lines).toUTF8)) := by
    refine run_ok_iff.2 ⟨units, lines, name :: dir, ?_, hlines, FileTree.target_put htarget _, hn, t.put_put _ _⟩
    have hsources := (List.forall₂_and_left _ _).2 ⟨fun p hp => isSource_of_plan hplan hp, mapM_ok_iff.1 hunits⟩
    exact mapM_ok_iff.2 (hsources.imp fun p u hu => readUnit_put ho _ hu.1 hu.2)
  obtain ⟨hresult, hstate⟩ := Prod.ext_iff.1 hagain
  refine ⟨fun source dir' hsource => ?_, plan_put ho _ hplan, hresult, hstate⟩
  rw [FileTree.entry?_put, if_neg (List.cons_ne_nil _ _), if_neg (ho.ne_source hsource dir')]

/-- The directory holds an output already. -/
theorem plan_run_again_directory :
    let t := (((FileTree.empty []).putFile (["B.vm", "d"].map Text.utf8) "pop temp 0".toUTF8).putFile
      (["A.vm", "d"].map Text.utf8) "push constant 1".toUTF8).putFile (["d.asm", "d"].map Text.utf8) "".toUTF8
    let input : FilePath := .ofText "d"
    let job : Job :=
      { units := [.ofText "d/A.vm", .ofText "d/B.vm"], output := .ofText "d/d.asm", fromDirectory := true }
    let t' := ((job.run .auto true : StateM FileTree Report).run t).2
    plan input none (t.find input) = .ok job ∧ plan input none (t'.find input) = .ok job ∧
      ((job.run .auto true : StateM FileTree Report).run t').1.result = .ok 62 ∧
      ((job.run .auto true : StateM FileTree Report).run t').2 = t' := by
  intro t input job t'
  let entries := [(Text.utf8 "d.asm", true), (Text.utf8 "A.vm", true), (Text.utf8 "B.vm", true)]
  have hfind : t.find input = .directory (some (Text.utf8 "d")) entries := by decide +kernel
  have hunits : unitsIn input entries = job.units := by
    rw [unitsIn, List.mergeSort_of_pairwise (by decide +kernel)]
    decide +kernel
  have hplan : plan input none (t.find input) = .ok job := by
    rw [hfind, plan, hunits]
    decide +kernel
  have hrun : ((job.run .auto true : StateM FileTree Report).run t).1.result = .ok 62 := by decide +kernel
  have hagain := plan_run_again hplan hrun
  clear_value t input job
  exact ⟨hplan, hagain.2⟩

end Job
end HackStack
