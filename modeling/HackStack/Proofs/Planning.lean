import HackStack.Proofs.Extensions
import HackStack.Proofs.NameOrder
import HackStack.Proofs.Rebuild
/-!
# What is planned

A tree is well formed if it lists each location once, by names that can be names, with a directory above it.
Such a tree stays well formed when something is put into it.

`IsPlan` says what an input should come to in a tree, one case for each kind of input. `plan_finds`: planning
gives that, the order in which directories are listed does not matter, and a default output is no unit.
-/

namespace HackStack

/-! ## Lengths -/

/-- A path is short enough only if what it is joined from is. -/
theorem FilePath.size_of_fits_join {p : FilePath} {name : Bytes} (h : (p.join name).fits) :
    p.bytes.length + name.length < 4096 := by
  obtain ⟨base, hbytes, hprefix, -⟩ := p.exists_bytes_join name
  rw [fits, decide_eq_true_eq, hbytes, List.length_append] at h
  have hlength := hprefix.length_le
  omega

/-! ## Well-formed trees -/

namespace FileTree
variable {t : FileTree}

structure WellFormed (t : FileTree) : Prop where
  nodup : (t.entries.map Prod.fst).Nodup
  names : ∀ x ∈ t.entries, ∀ name ∈ x.1, FilePath.IsName name
  parents : ∀ x ∈ t.entries, t.entry? x.1.tail = some .directory

theorem lookup_iff_mem {es : List (Location × Entry)} (h : (es.map Prod.fst).Nodup) {l : Location} {e : Entry} :
    es.lookup l = some e ↔ (l, e) ∈ es := by
  rw [List.lookup_eq_some_iff]
  constructor
  · rintro ⟨front, back, rfl, -⟩
    simp
  · intro hmem
    obtain ⟨front, back, rfl⟩ := List.append_of_mem hmem
    refine ⟨front, back, rfl, fun x hx => ?_⟩
    rw [List.map_append, List.map_cons, List.nodup_append] at h
    rw [bne_iff_ne]
    exact (h.2.2 x.1 (List.mem_map_of_mem hx) l List.mem_cons_self).symm

namespace WellFormed

/-- What is at a location is what is listed for it. -/
theorem mem_iff (h : t.WellFormed) {l : Location} (hl : l ≠ []) {e : Entry} :
    t.entry? l = some e ↔ (l, e) ∈ t.entries := by
  unfold entry?
  rw [if_neg hl]
  exact lookup_iff_mem h.nodup

theorem isName (h : t.WellFormed) {l : Location} {e : Entry} (he : t.entry? l = some e) :
    ∀ name ∈ l, FilePath.IsName name := by
  by_cases hl : l = []
  · rw [hl]
    exact fun _ hname => absurd hname List.not_mem_nil
  · exact h.names _ ((h.mem_iff hl).1 he)

theorem parent (h : t.WellFormed) {l : Location} {e : Entry} (he : t.entry? l = some e) :
    t.entry? l.tail = some .directory := by
  by_cases hl : l = []
  · rw [hl]
    exact t.entry?_root
  · exact h.parents _ ((h.mem_iff hl).1 he)

theorem nil {cwd : Location} {rooted : FilePath → Bool} : (FileTree.mk [] cwd rooted).WellFormed where
  nodup := List.nodup_nil
  names := fun _ hx => absurd hx List.not_mem_nil
  parents := fun _ hx => absurd hx List.not_mem_nil

/-- Something is put into a directory, where nothing is or a file. -/
theorem put (h : t.WellFormed) {name : Bytes} {dir : Location} (hname : FilePath.IsName name)
    (hdir : t.entry? dir = some .directory) (hfree : (t.entry? (name :: dir)).all Entry.isFile) (e : Entry) :
    (t.put (name :: dir) e).WellFormed := by
  have hfree : t.entry? (name :: dir) ≠ some .directory := by
    intro hd
    rw [hd] at hfree
    cases hfree
  refine ⟨?_, ?_, ?_⟩
  · have hrest : ((t.entries.filter (·.1 != name :: dir)).map Prod.fst).Nodup :=
      h.nodup.sublist (List.filter_sublist.map _)
    refine List.nodup_cons.2 ⟨fun hmem => ?_, hrest⟩
    obtain ⟨x, hx, hl⟩ := List.mem_map.1 hmem
    exact bne_iff_ne.1 (List.mem_filter.1 hx).2 hl
  · refine List.forall_mem_cons.2 ⟨List.forall_mem_cons.2 ⟨hname, h.isName hdir⟩, fun x hx => ?_⟩
    exact h.names x (List.mem_filter.1 hx).1
  · refine List.forall_mem_cons.2 ⟨entry_put_directory hfree e hdir, fun x hx => ?_⟩
    exact entry_put_directory hfree e (h.parents x (List.mem_filter.1 hx).1)

/-- Directories are made down to a location, where nothing but directories is. -/
theorem putDirectory (h : t.WellFormed) (hdirs : ∀ l e, t.entry? l = some e → e = .directory) {l : Location}
    (hl : ∀ name ∈ l, FilePath.IsName name) :
    (t.putDirectory l).WellFormed ∧ entry? (t.putDirectory l) l = some .directory ∧
      ∀ l' e, entry? (t.putDirectory l) l' = some e → e = .directory := by
  induction l with
  | nil => exact ⟨h, rfl, hdirs⟩
  | cons name l ih =>
    obtain ⟨hname, hl⟩ := List.forall_mem_cons.1 hl
    obtain ⟨hwell, hdir, hall⟩ := ih hl
    cases he : entry? (t.putDirectory l) (name :: l) with
    | some e =>
      have hstep : t.putDirectory (name :: l) = t.putDirectory l := by
        simp only [FileTree.putDirectory, he, Option.isSome_some, if_true]
      rw [hstep]
      exact ⟨hwell, hall _ e he ▸ he, hall⟩
    | none =>
      have hstep : t.putDirectory (name :: l) = (t.putDirectory l).put (name :: l) .directory := by
        simp only [FileTree.putDirectory, he, Option.isSome_none, Bool.false_eq_true, if_false]
      rw [hstep]
      refine ⟨hwell.put hname hdir (by rw [he]; rfl) _, by simp [entry?_put], fun l' e h' => ?_⟩
      rw [entry?_put] at h'
      split at h'
      · exact (Option.some.inj h').symm
      · split at h'
        · exact (Option.some.inj h').symm
        · exact hall l' e h'

/-- A path that leads to a file ends in the file's name. -/
theorem file_named (h : t.WellFormed) {p : FilePath} {l : Location} {bytes : ByteArray}
    (hres : t.resolve p = .ok (l, .file bytes)) :
    ∃ front name dir, l = name :: dir ∧ p.pieces = front ++ [name] ∧ p.fileName? = some name := by
  obtain ⟨a, -, hwalk, hentry⟩ := resolve_ok_iff.1 hres
  rcases p.pieces.eq_nil_or_concat with hp | ⟨front, name, hp⟩
  · have hne : p.pieces ≠ [] := by simp [FilePath.pieces, List.splitOn_ne_nil]
    exact absurd hp hne
  · rw [List.concat_eq_append] at hp
    rw [hp] at hwalk
    obtain ⟨m, -, hlast⟩ := walk_append.1 hwalk
    obtain ⟨hdir, -, -⟩ := walk_cons_ok_iff.1 hlast
    have hl := walk_singleton hlast
    unfold step at hl
    -- a piece that is no name leads to a directory
    split at hl
    · rw [hl, hdir] at hentry
      cases hentry
    · next hleads =>
      split at hl
      · rw [hl, h.parent hdir] at hentry
        cases hentry
      · next hparent =>
        refine ⟨front, name, m, hl, hp, FilePath.fileName?_of_pieces hp ?_ hparent⟩
        simpa using hleads

end WellFormed

/-! ## Listing in another order -/

theorem walk_congr {t' : FileTree} (h : ∀ l, t'.entry? l = t.entry? l) (a : Location) (ps : List Bytes) :
    t'.walk a ps = t.walk a ps := by
  induction ps generalizing a with
  | nil => rfl
  | cons p ps ih => rw [walk, walk, h, ih]

/-- The order of the entries does not matter to where paths lead. -/
theorem resolve_perm (h : t.WellFormed) {entries : List (Location × Entry)} (hperm : entries.Perm t.entries)
    (p : FilePath) : ({ t with entries } : FileTree).resolve p = t.resolve p := by
  have hnodup : (entries.map Prod.fst).Nodup := (hperm.map Prod.fst).nodup_iff.2 h.nodup
  have hentry (l : Location) : entry? { t with entries } l = t.entry? l := by
    unfold entry?
    split
    · rfl
    · apply Option.ext
      intro e
      rw [lookup_iff_mem hnodup, lookup_iff_mem h.nodup]
      exact hperm.mem_iff
  have horigin : ({ t with entries } : FileTree).origin p = t.origin p := rfl
  unfold resolve
  rw [horigin]
  simp only [walk_congr hentry, hentry]

/-! ## Long paths -/

/-- The way to `name`, which first leads nowhere for a while. -/
def detour (name : Bytes) : Nat → Bytes
  | 0 => name
  | n + 1 => FilePath.dot :: FilePath.slash :: detour name n

theorem length_detour (name : Bytes) (n : Nat) : (detour name n).length = 2 * n + name.length := by
  induction n with
  | zero => simp [detour]
  | succ n ih =>
    rw [detour, List.length_cons, List.length_cons, ih]
    omega

theorem resolve_idle (hcwd : t.entry? t.cwd = some .directory) {s : Bytes} (hs : s ≠ [])
    (hrelative : (FilePath.mk s).isAbsolute = false)
    (hfits : (FilePath.mk (FilePath.dot :: FilePath.slash :: s)).fits) :
    t.resolve ⟨FilePath.dot :: FilePath.slash :: s⟩ = t.resolve ⟨s⟩ := by
  have hpieces : (FilePath.mk (FilePath.dot :: FilePath.slash :: s)).pieces =
      [FilePath.dot] :: (FilePath.mk s).pieces := List.splitOn_append_cons_self [FilePath.dot] s
  have hshort : (FilePath.mk s).fits := by
    simp only [FilePath.fits, List.length_cons, decide_eq_true_eq] at hfits ⊢
    omega
  have horigin : t.origin ⟨FilePath.dot :: FilePath.slash :: s⟩ = t.origin ⟨s⟩ := by
    have habsolute : (FilePath.mk (FilePath.dot :: FilePath.slash :: s)).isAbsolute = false := rfl
    have hnul : (FilePath.dot :: FilePath.slash :: s).contains 0 = s.contains 0 := rfl
    have hempty : s.isEmpty = false := by simpa using hs
    unfold origin
    rw [hfits, hshort, habsolute, hrelative, hnul, hempty]
    rfl
  have hwalk : t.walk t.cwd ([FilePath.dot] :: (FilePath.mk s).pieces) = t.walk t.cwd (FilePath.mk s).pieces := by
    rw [walk, hcwd]
    rfl
  have horigin_cwd (a : Location) (ha : t.origin ⟨s⟩ = .ok a) : a = t.cwd := by
    unfold origin at ha
    rw [hrelative] at ha
    grind
  unfold resolve
  rw [horigin, hpieces]
  cases ho : t.origin ⟨s⟩ with
  | error e => rfl
  | ok a =>
    rw [horigin_cwd a ho]
    dsimp only [bind, Except.bind]
    rw [hwalk]

theorem isAbsolute_detour {name : Bytes} (h : (FilePath.mk name).isAbsolute = false) (n : Nat) :
    (FilePath.mk (detour name n)).isAbsolute = false := by
  cases n with
  | zero => exact h
  | succ n => rfl

theorem resolve_detour (hcwd : t.entry? t.cwd = some .directory) {name : Bytes} (hname : name ≠ [])
    (hrelative : (FilePath.mk name).isAbsolute = false) {n : Nat} (hfits : (FilePath.mk (detour name n)).fits) :
    t.resolve ⟨detour name n⟩ = t.resolve ⟨name⟩ := by
  induction n with
  | zero => rfl
  | succ n ih =>
    have hshort : (FilePath.mk (detour name n)).fits := by
      simp only [FilePath.fits, length_detour, decide_eq_true_eq] at hfits ⊢
      omega
    have hne : detour name n ≠ [] := by
      rw [← List.length_pos_iff] at hname ⊢
      rw [length_detour]
      omega
    exact (resolve_idle hcwd hne (isAbsolute_detour hrelative n) hfits).trans (ih hshort)

/-! ## Source files -/

/-- A regular file right in the directory `dir`, with the extension of sources. The path to it from `input`, which
leads to the directory, is short enough to be followed. -/
structure HasSource (t : FileTree) (input : FilePath) (dir : Location) (name : Bytes) : Prop where
  named : FilePath.IsSourceName name
  regular : ∃ bytes, t.entry? (name :: dir) = some (.file bytes)
  reached : (input.join name).fits

end FileTree

namespace Job
variable {t : FileTree} {input : FilePath} {output? : Option FilePath}

theorem sourceName?_eq_some_iff {dir l : Location} {e : Entry} {name : Bytes} :
    sourceName? input dir (l, e) = some name ↔
      l = name :: dir ∧ e.isFile ∧ (input.join name).fits ∧ (input.join name).isSource := by
  cases l with
  | nil => simp [sourceName?]
  | cons x l =>
    simp only [sourceName?, Option.ite_none_right_eq_some, Option.some.injEq, List.cons.injEq]
    constructor
    · rintro ⟨⟨rfl, h⟩, rfl⟩
      exact ⟨⟨rfl, rfl⟩, h⟩
    · rintro ⟨⟨rfl, rfl⟩, h⟩
      exact ⟨⟨rfl, h⟩, rfl⟩

/-- The names of the source files in the directory that `input` leads to, in order. -/
def sourceNames (t : FileTree) (input : FilePath) (dir : Location) : List Bytes :=
  (t.entries.filterMap (sourceName? input dir)).mergeSort inOrder

theorem mem_sourceNames (h : t.WellFormed) {dir : Location} {name : Bytes} :
    name ∈ sourceNames t input dir ↔ t.HasSource input dir name := by
  rw [sourceNames, List.mem_mergeSort, List.mem_filterMap]
  constructor
  · rintro ⟨⟨l, e⟩, hmem, hname⟩
    obtain ⟨rfl, hfile, hfits, hsource⟩ := sourceName?_eq_some_iff.1 hname
    have hentry := (h.mem_iff (List.cons_ne_nil name dir)).2 hmem
    have hisname := h.isName hentry name List.mem_cons_self
    refine ⟨(FilePath.isSource_iff (input.fileName?_join hisname)).1 hsource, ?_, hfits⟩
    cases e with
    | directory => cases hfile
    | file bytes => exact ⟨bytes, hentry⟩
  · rintro ⟨hnamed, ⟨bytes, hentry⟩, hfits⟩
    have hisname := h.isName hentry name List.mem_cons_self
    refine ⟨_, (h.mem_iff (List.cons_ne_nil name dir)).1 hentry, sourceName?_eq_some_iff.2 ⟨rfl, rfl, hfits, ?_⟩⟩
    exact (FilePath.isSource_iff (input.fileName?_join hisname)).2 hnamed

theorem sourceNames_strict (h : t.WellFormed) (input : FilePath) (dir : Location) :
    (sourceNames t input dir).Pairwise (· < ·) := by
  refine sort_strict (List.Pairwise.filterMap _ ?_ (List.pairwise_map.1 h.nodup))
  -- two entries of one name are at one location
  rintro ⟨l, e⟩ ⟨l', e'⟩ hne name hname name' hname' rfl
  obtain ⟨rfl, -⟩ := sourceName?_eq_some_iff.1 hname
  obtain ⟨rfl, -⟩ := sourceName?_eq_some_iff.1 hname'
  exact hne rfl

/-! ## Plans -/

theorem plan_directory {dir : Location} (h : t.resolve input = .ok (dir, .directory)) :
    plan input output? (t.find input) =
      if sourceNames t input dir = [] then .error (.noSourceFiles input)
      else .ok {
        units := (sourceNames t input dir).map input.join
        output := output?.getD (input.join (Text.utf8 (outputName (if t.rooted input then dir.head? else none))))
        fromDirectory := true } := by
  rw [FileTree.find, h]
  dsimp only
  rw [plan, unitsIn_names, ← sourceNames]
  cases sourceNames t input dir with
  | nil => rfl
  | cons name names =>
    rw [if_neg (List.cons_ne_nil name names)]
    rfl

theorem plan_file {l : Location} {bytes : ByteArray} (h : t.resolve input = .ok (l, .file bytes)) :
    plan input output? (t.find input) =
      if input.isSource then
        .ok {
          units := [input]
          output := output?.getD (input.withExtension (Text.utf8 outputExtension))
          fromDirectory := false }
      else .error (.unsupportedInput input) := by
  rw [FileTree.find, h]
  rfl

theorem plan_nothing {cause : FileError} (h : t.resolve input = .error cause) :
    plan input output? (t.find input) = .error (.unsupportedInput input) := by
  rw [FileTree.find, h]
  rfl

/-- What an input comes to. -/
inductive IsPlan (t : FileTree) (input : FilePath) (output? : Option FilePath) : Except JobError Job → Prop
  /-- A directory without source files. -/
  | noSources {dir : Location} (hdir : t.resolve input = .ok (dir, .directory))
    (hnone : ∀ name, ¬t.HasSource input dir name) : IsPlan t input output? (.error (.noSourceFiles input))
  /-- A directory. Its source files are the units, in the strict order of the bytes of their names. The default
  output is called like the directory, as its name is shown, where that is known. -/
  | directory {dir : Location} {names : List Bytes} {shown : String} (hdir : t.resolve input = .ok (dir, .directory))
    (hne : names ≠ []) (hmem : ∀ name, name ∈ names ↔ t.HasSource input dir name)
    (hsorted : names.Pairwise (· < ·))
    (hshown : shown = ((if t.rooted input then dir.head? else none).map Text.lossy).getD "out") :
    IsPlan t input output? (.ok {
      units := names.map input.join
      output := output?.getD (input.join (Text.utf8 (shown ++ "." ++ outputExtension)))
      fromDirectory := true })
  /-- A source file. The default output has the other extension, unless the file is called by two dots and it. -/
  | file {name base : Bytes} {dir : Location} {bytes : ByteArray} {output : FilePath}
    (hfile : t.resolve input = .ok (name :: dir, .file bytes)) (hname : FilePath.IsSourceName name)
    (hbytes : input.bytes = base ++ FilePath.dot :: Text.utf8 sourceExtension) (hgiven : ∀ o ∈ output?, output = o)
    (hdefault : output? = none → name ≠ Text.utf8 "..vm" →
      output = ⟨base ++ FilePath.dot :: Text.utf8 outputExtension⟩) :
    IsPlan t input output? (.ok { units := [input], output, fromDirectory := false })
  /-- Anything else. -/
  | unsupported (hdir : ∀ dir, t.resolve input ≠ .ok (dir, .directory))
    (hfile : ∀ name dir bytes, t.resolve input = .ok (name :: dir, .file bytes) → ¬FilePath.IsSourceName name) :
    IsPlan t input output? (.error (.unsupportedInput input))

theorem plan_isPlan (ht : t.WellFormed) (input : FilePath) (output? : Option FilePath) :
    IsPlan t input output? (plan input output? (t.find input)) := by
  cases h : t.resolve input with
  | error cause =>
    rw [plan_nothing h]
    exact .unsupported (by simp [h]) (by simp [h])
  | ok x =>
    obtain ⟨l, e⟩ := x
    cases e with
    | directory =>
      rw [plan_directory h]
      split
      · next hnil =>
        refine .noSources h fun name hsource => ?_
        rw [← mem_sourceNames ht, hnil] at hsource
        cases hsource
      · next hne =>
        exact .directory h hne (fun name => mem_sourceNames ht) (sourceNames_strict ht input l) rfl
    | file bytes =>
      rw [plan_file h]
      obtain ⟨front, name, dir, rfl, hp, hname⟩ := ht.file_named h
      split
      · next hsource =>
        obtain ⟨stem, hstem, rfl⟩ := (FilePath.isSource_iff hname).1 hsource
        let default := input.withExtension (Text.utf8 outputExtension)
        have hgiven : ∀ o ∈ output?, output?.getD default = o := by
          rintro o rfl
          rfl
        by_cases hdot : stem = [FilePath.dot]
        · subst hdot
          obtain ⟨base, hbytes, -⟩ := FilePath.exists_base hp
          have hbytes : input.bytes = base ++ [FilePath.dot] ++ FilePath.dot :: Text.utf8 sourceExtension := by
            rw [hbytes, List.append_assoc]
          exact .file h ⟨_, hstem, rfl⟩ hbytes hgiven fun _ hne => absurd (by decide) hne
        · have hdots : FilePath.dot ∉ Text.utf8 sourceExtension := by decide
          have hslash : FilePath.slash ∉ Text.utf8 outputExtension := by decide
          obtain ⟨base, hbytes, hdefault⟩ := FilePath.withExtension_eq hp hstem hdot hdots hslash
          refine .file h ⟨_, hstem, rfl⟩ hbytes hgiven fun hnone _ => ?_
          rw [hnone]
          exact hdefault
      · next hsource =>
        refine .unsupported (by simp [h]) fun name' dir' bytes' h' hsource' => hsource ?_
        rw [h] at h'
        obtain ⟨rfl, -⟩ : name = name' ∧ dir = dir' := by simpa using (Prod.mk.inj (Except.ok.inj h')).1
        exact (FilePath.isSource_iff hname).2 hsource'

/-! ## Plans in another order -/

theorem sourceNames_perm {t' : FileTree} (h : t'.entries.Perm t.entries) (input : FilePath) (dir : Location) :
    sourceNames t' input dir = sourceNames t input dir :=
  sort_perm (h.filterMap _)

theorem plan_perm (ht : t.WellFormed) {entries : List (Location × Entry)} (h : entries.Perm t.entries)
    (input : FilePath) (output? : Option FilePath) :
    plan input output? (({ t with entries } : FileTree).find input) = plan input output? (t.find input) := by
  have hres' := FileTree.resolve_perm ht h input
  cases hres : t.resolve input with
  | error cause =>
    rw [hres] at hres'
    rw [plan_nothing hres, plan_nothing hres']
  | ok x =>
    obtain ⟨l, e⟩ := x
    rw [hres] at hres'
    cases e with
    | directory => rw [plan_directory hres, plan_directory hres', sourceNames_perm h]
    | file bytes => rw [plan_file hres, plan_file hres']

/-! ## The default output -/

/-- Whether a path is that of a source depends on the name it ends in. -/
theorem isSource_congr {p q : FilePath} (h : p.fileName? = q.fileName?) : p.isSource = q.isSource := by
  rw [FilePath.isSource, FilePath.isSource, FilePath.extension?, FilePath.extension?, h]

theorem default_not_isSource {found : Found} {job : Job} (h : plan input none found = .ok job) :
    ¬job.output.isSource := by
  intro hsource
  obtain ⟨name, hname, -⟩ := FilePath.exists_fileName_of_isSource hsource
  exact FilePath.not_isSource_of_endsIn (default_endsIn h hname) hsource

/-- Planning gives what the input comes to, whatever the order of the listings. Without a given output, the
result goes under a name that no unit has. -/
theorem plan_finds (ht : t.WellFormed) (input : FilePath) (output? : Option FilePath) :
    IsPlan t input output? (plan input output? (t.find input)) ∧
    (∀ entries, entries.Perm t.entries →
      plan input output? (({ t with entries } : FileTree).find input) = plan input output? (t.find input)) ∧
    ∀ job, plan input none (t.find input) = .ok job →
      ∀ p ∈ job.units, p ≠ job.output ∧ p.fileName? ≠ job.output.fileName? := by
  refine ⟨plan_isPlan ht input output?, fun entries h => plan_perm ht h input output?, fun job h p hp => ?_⟩
  have hname : p.fileName? ≠ job.output.fileName? := by
    intro hsame
    apply default_not_isSource h
    rw [← isSource_congr hsame]
    exact isSource_of_plan h hp
  exact ⟨fun heq => hname (heq ▸ rfl), hname⟩

/-- A directory that is called like a source file, and a file that is all extension, are no units. -/
theorem plan_finds_directory :
    let file := Entry.file "add".toUTF8
    let t := (((((FileTree.empty []).put (["d"].map Text.utf8) .directory).put (["x.vm", "d"].map Text.utf8)
      .directory).put ([".vm", "d"].map Text.utf8) file).put (["B.vm", "d"].map Text.utf8) file).put
      (["A.vm", "d"].map Text.utf8) file
    let input : FilePath := .ofText "d"
    t.WellFormed ∧ plan input none (({ t with entries := t.entries.reverse } : FileTree).find input) =
      .ok { units := [.ofText "d/A.vm", .ofText "d/B.vm"], output := .ofText "d/d.asm", fromDirectory := true } := by
  intro file t input
  have ht : t.WellFormed := by
    refine .put (.put (.put (.put (.put .nil ?_ ?_ ?_ _) ?_ ?_ ?_ _) ?_ ?_ ?_ _) ?_ ?_ ?_ _) ?_ ?_ ?_ _
    all_goals first | decide | rfl
  have hperm := (plan_finds ht input none).2.1 _ t.entries.reverse_perm
  refine ⟨ht, hperm.trans ?_⟩
  have hres : t.resolve input = .ok ([Text.utf8 "d"], .directory) := by rfl
  have hnames : sourceNames t input [Text.utf8 "d"] = ["A.vm", "B.vm"].map Text.utf8 := by
    have hmap : t.entries.filterMap (sourceName? input [Text.utf8 "d"]) = ["A.vm", "B.vm"].map Text.utf8 := by
      decide +kernel
    rw [sourceNames, hmap, List.mergeSort_of_pairwise (by decide +kernel)]
  rw [plan_directory hres, hnames]
  decide +kernel

/-- A directory with one source file. -/
theorem plan_single {name : Bytes} (h : (input.join name).isSource) (name? : Option Bytes) :
    plan input none (.directory name? [(name, true)]) =
      .ok {
        units := [input.join name]
        output := input.join (Text.utf8 (outputName name?))
        fromDirectory := true } := by
  have hunits : unitsIn input [(name, true)] = [input.join name] := by
    simp [unitsIn, h]
  rw [plan, hunits]
  rfl

/-- A source file too far down the path is not found. A file may be called such that nothing is left of its name
without the extension. And the output in a directory is not called by the directory's name if that is no text, or if
the path to it from the root is too long to be found. -/
theorem plan_misses :
    let file := Entry.file "add".toUTF8
    let t := (((((FileTree.empty []).put (["..vm"].map Text.utf8) file).put (["d"].map Text.utf8) .directory).put
      (["A.vm", "d"].map Text.utf8) file).put [[0xFF]] .directory).put [Text.utf8 "A.vm", [0xFF]] file
    let far : FilePath := ⟨FileTree.detour (Text.utf8 "d") 2046⟩
    let dots : FilePath := .ofText "..vm"
    let deep : Location := List.replicate 20 (List.replicate 250 0x78)
    let t' := (((FileTree.mk [] deep fun _ => false).putDirectory deep).put (Text.utf8 "d" :: deep) .directory).put
      (Text.utf8 "A.vm" :: Text.utf8 "d" :: deep) file
    t.WellFormed ∧
    (t.resolve far = .ok ([Text.utf8 "d"], .directory) ∧ t.entry? (["A.vm", "d"].map Text.utf8) = some file ∧
      FilePath.IsSourceName (Text.utf8 "A.vm") ∧ plan far none (t.find far) = .error (.noSourceFiles far)) ∧
    plan dots none (t.find dots) = .ok { units := [dots], output := .ofText "..", fromDirectory := false } ∧
    plan ⟨[0xFF]⟩ none (t.find ⟨[0xFF]⟩) = .ok {
      units := [⟨0xFF :: Text.utf8 "/A.vm"⟩], output := ⟨0xFF :: Text.utf8 "/\uFFFD.asm"⟩, fromDirectory := true } ∧
    t'.WellFormed ∧ (t'.resolve (.ofText "d")).map Prod.fst = .ok (Text.utf8 "d" :: deep) ∧
    plan (.ofText "d") none (t'.find (.ofText "d")) = .ok {
      units := [.ofText "d/A.vm"], output := .ofText "d/out.asm", fromDirectory := true } := by
  intro file t far dots deep t'
  have ht : t.WellFormed := by
    refine .put (.put (.put (.put (.put .nil ?_ ?_ ?_ _) ?_ ?_ ?_ _) ?_ ?_ ?_ _) ?_ ?_ ?_ _) ?_ ?_ ?_ _
    all_goals first | decide | rfl
  have hlength : far.bytes.length = 4093 := FileTree.length_detour (Text.utf8 "d") 2046
  have hres : t.resolve far = .ok ([Text.utf8 "d"], .directory) := by
    have hfits : far.fits := by
      rw [FilePath.fits, hlength]
      rfl
    rw [FileTree.resolve_detour rfl (by decide) (by decide) hfits]
    rfl
  have hnames : sourceNames t far [Text.utf8 "d"] = [] := by
    rw [List.eq_nil_iff_forall_not_mem]
    intro name hmem
    obtain ⟨⟨stem, hstem, rfl⟩, -, hreached⟩ := (mem_sourceNames ht).1 hmem
    have hshort := FilePath.size_of_fits_join hreached
    have hpositive : stem.length ≠ 0 := mt List.eq_nil_of_length_eq_zero hstem
    have hextension : (Text.utf8 sourceExtension).length = 2 := by decide
    rw [hlength, List.length_append, List.length_cons] at hshort
    omega
  have hbroken : t.find ⟨[0xFF]⟩ = .directory (some [0xFF]) [(Text.utf8 "A.vm", true)] := by decide +kernel
  have ht' : t'.WellFormed := by
    have hnames : ∀ name ∈ deep, FilePath.IsName name := by
      intro name hname
      rw [List.eq_of_mem_replicate hname]
      decide
    have hdirs (l : Location) (e : Entry) (he : FileTree.entry? (.mk [] deep fun _ => false) l = some e) :
        e = .directory := by
      by_cases hl : l = []
      · simpa [ FileTree.entry?, hl, eq_comm] using he
      · simp [ FileTree.entry?, hl] at he
    obtain ⟨hdeep, hdir, -⟩ := FileTree.WellFormed.nil.putDirectory hdirs hnames
    refine .put (.put hdeep (by decide) hdir ?_ _) (by decide) (by simp [FileTree.entry?_put]) ?_ _
    · decide +kernel
    · decide +kernel
  have hlost : t'.find (.ofText "d") = .directory none [(Text.utf8 "A.vm", true)] := by decide +kernel
  refine ⟨ht, ⟨hres, rfl, ⟨Text.utf8 "A", by decide, by decide⟩, ?_⟩, by decide +kernel, ?_, ht', by decide +kernel, ?_⟩
  · rw [plan_directory hres, if_pos hnames]
  · rw [hbroken, plan_single (by decide +kernel)]
    decide +kernel
  · rw [hlost, plan_single (by decide +kernel)]
    decide +kernel

end Job

end HackStack
