import HackStack.Job.Plan
import HackStack.Proofs.Utf8
import Mathlib.Data.List.Basic
import Mathlib.Data.List.Induction
/-!
# Names of files

`fileName?_join`: the path of a directory's entry ends in the entry's name. A name with an extension
is put together again from its parts (`splitName_eq`), so two names with the same extension differ
before it. Hence source files of one directory whose names are texts have different stems
(`stem_join_inj`), also where a stem has dots of its own.
-/

namespace HackStack

/-- The parts in front of the last one and that one. -/
theorem intercalate_concat {α : Type} {sep last : List α} {front : List (List α)} (h : front ≠ []) :
    sep.intercalate (front ++ [last]) = sep.intercalate front ++ sep ++ last := by
  induction front with
  | nil => exact absurd rfl h
  | cons x front ih =>
    by_cases hf : front = []
    · subst hf
      simp [List.intercalate_cons_cons]
    · rw [List.cons_append, List.intercalate_cons_of_ne_nil (by simp), ih hf, List.intercalate_cons_of_ne_nil hf]
      simp only [List.append_assoc]

/-- What is behind the last separator, and what can take its place: anything without separators. -/
theorem splitOn_last {α : Type} [DecidableEq α] (sep : α) (s : List α) :
    ∃ base last front, s = base ++ last ∧ sep ∉ last ∧ ∀ t, sep ∉ t → (base ++ t).splitOn sep = front ++ [t] := by
  induction s using List.reverseRecOn with
  | nil => exact ⟨[], [], [], rfl, List.not_mem_nil, fun t ht => List.splitOn_eq_singleton ht⟩
  | append_singleton s c ih =>
    by_cases hc : c = sep
    · subst hc
      refine ⟨s ++ [c], [], s.splitOn c, (List.append_nil _).symm, List.not_mem_nil, fun t ht => ?_⟩
      rw [List.append_assoc, List.singleton_append, List.splitOn_append_cons_self, List.splitOn_eq_singleton ht]
    · obtain ⟨base, last, front, rfl, hlast, hsplit⟩ := ih
      refine ⟨base, last ++ [c], front, List.append_assoc _ _ _, ?_, hsplit⟩
      simp [hlast, Ne.symm hc]

namespace FilePath

/-- What a directory can call an entry. -/
structure IsName (name : Bytes) : Prop where
  no_slash : slash ∉ name
  leads : isIdle name = false
  not_parent : name ≠ parent

instance (name : Bytes) : Decidable (IsName name) :=
  decidable_of_iff (slash ∉ name ∧ isIdle name = false ∧ name ≠ parent)
    ⟨fun ⟨h, h', h''⟩ => ⟨h, h', h''⟩, fun ⟨h, h', h''⟩ => ⟨h, h', h''⟩⟩

/-- A name that is a text. -/
structure IsTextName (name : Bytes) : Prop extends IsName name where
  exists_text : ∃ s, name = Text.utf8 s

/-! ## Entries of a directory -/

/-- A joined path is what it is joined from, perhaps with a slash in between. -/
theorem exists_bytes_join (p : FilePath) (name : Bytes) :
    ∃ base, (p.join name).bytes = base ++ name ∧ p.bytes <+: base ∧ (base = [] ∨ ∃ dir, base = dir ++ [slash]) := by
  unfold join
  split
  · next h =>
    refine ⟨p.bytes, rfl, List.prefix_refl _, h.imp_right fun hlast => ?_⟩
    exact List.getLast?_eq_some_iff.1 hlast
  · exact ⟨p.bytes ++ [slash], by simp, List.prefix_append _ _, .inr ⟨p.bytes, rfl⟩⟩

/-- The path of an entry ends in a piece for the entry's name. -/
theorem exists_pieces_join (p : FilePath) {name : Bytes} (h : slash ∉ name) :
    ∃ front, (p.join name).pieces = front ++ [name] := by
  obtain ⟨base, hbytes, -, rfl | ⟨dir, rfl⟩⟩ := p.exists_bytes_join name
  · exact ⟨[], by rw [pieces, hbytes, List.nil_append, List.splitOn_eq_singleton h, List.nil_append]⟩
  · refine ⟨dir.splitOn slash, ?_⟩
    rw [pieces, hbytes, List.append_assoc, List.singleton_append, List.splitOn_append_cons_self,
      List.splitOn_eq_singleton h]

theorem fileName?_of_pieces {p : FilePath} {front : List Bytes} {name : Bytes} (hp : p.pieces = front ++ [name])
    (hleads : isIdle name = false) (hparent : name ≠ parent) : p.fileName? = some name := by
  simp [fileName?, hp, hleads, hparent]

theorem fileName?_join (p : FilePath) {name : Bytes} (h : IsName name) : (p.join name).fileName? = some name := by
  obtain ⟨front, hpieces⟩ := p.exists_pieces_join h.no_slash
  exact fileName?_of_pieces hpieces h.leads h.not_parent

theorem join_inj {p : FilePath} {a b : Bytes} (ha : IsName a) (hb : IsName b) : p.join a = p.join b ↔ a = b := by
  refine ⟨fun h => ?_, congrArg p.join⟩
  have hname := p.fileName?_join ha
  rw [h, p.fileName?_join hb] at hname
  exact (Option.some.inj hname).symm

/-! ## Stems and extensions -/

/-- A name with an extension is what is in front of its last dot, the dot and the extension. -/
theorem splitName_eq {name extension : Bytes} (h : (splitName name).2 = some extension) :
    name = (splitName name).1 ++ dot :: extension := by
  have hparts : [dot].intercalate (name.splitOn dot) = name := List.intercalate_splitOn dot
  unfold splitName at h ⊢
  generalize name.splitOn dot = parts at hparts h ⊢
  dsimp only at h ⊢
  split at h
  · cases h
  · cases h
  · next hnil _ =>
    obtain ⟨front, rfl⟩ := List.getLast?_eq_some_iff.1 h
    rw [List.dropLast_concat] at hnil ⊢
    rw [intercalate_concat hnil] at hparts
    simpa using hparts.symm

theorem stem_join (p : FilePath) {name : Bytes} (h : IsName name) :
    (p.join name).stem = Text.lossy (splitName name).1 := by
  rw [stem, p.fileName?_join h]
  rfl

/-- The name of a source file is something, a dot and the extension of sources. -/
theorem eq_of_isSource {p : FilePath} {name : Bytes} (h : IsName name) (hs : (p.join name).isSource) :
    name = (splitName name).1 ++ dot :: Text.utf8 sourceExtension := by
  rw [isSource, extension?, p.fileName?_join h, beq_iff_eq] at hs
  exact splitName_eq hs

/-- The name of a source file, if it is a text, is the file's stem with the extension of sources. -/
theorem eq_stem_of_isSource {p : FilePath} {name : Bytes} (h : IsTextName name) (hs : (p.join name).isSource) :
    name = Text.utf8 (p.join name).stem ++ dot :: Text.utf8 sourceExtension := by
  have hname := eq_of_isSource h.toIsName hs
  obtain ⟨s, rfl⟩ := h.exists_text
  obtain ⟨stem, hstem⟩ := Text.exists_of_append (by decide) hname
  rw [p.stem_join h.toIsName, hstem, Text.lossy_utf8, ← hstem]
  exact hname

/-- Source files of one directory whose names are texts have different stems. -/
theorem stem_join_inj {p : FilePath} {a b : Bytes} (ha : IsTextName a) (hb : IsTextName b)
    (hsa : (p.join a).isSource) (hsb : (p.join b).isSource) :
    (p.join a).stem = (p.join b).stem ↔ p.join a = p.join b := by
  refine ⟨fun h => ?_, congrArg stem⟩
  rw [join_inj ha.toIsName hb.toIsName, eq_stem_of_isSource ha hsa, eq_stem_of_isSource hb hsb, h]

/-! ## What paths end in -/

/-- The name or path ends in a dot and the extension. -/
def EndsIn (bytes : Bytes) (extension : String) : Prop := dot :: Text.utf8 extension <:+ bytes

theorem endsIn_append (s : Bytes) (extension : String) : EndsIn (s ++ dot :: Text.utf8 extension) extension :=
  List.suffix_append _ _

theorem EndsIn.prepend {name : Bytes} {extension : String} (h : EndsIn name extension) (s : Bytes) :
    EndsIn (s ++ name) extension :=
  List.IsSuffix.trans h (List.suffix_append s name)

theorem EndsIn.intercalate {last : Bytes} {extension : String} (h : EndsIn last extension) (front : List Bytes) :
    EndsIn ([slash].intercalate (front ++ [last])) extension := by
  by_cases hf : front = []
  · simpa [hf] using h
  · rw [intercalate_concat hf]
    exact h.prepend _

/-- Nothing ends in both extensions. -/
theorem EndsIn.not_output {bytes : Bytes} (h : EndsIn bytes sourceExtension) : ¬EndsIn bytes outputExtension := by
  intro houtput
  have hboth := List.suffix_of_suffix_length_le h houtput (by decide)
  exact absurd hboth (by decide)

/-- What is behind the last separator keeps its end. -/
theorem splitOn_append {sep : UInt8} (s : Bytes) {e : Bytes} (h : sep ∉ e) :
    ∃ front last, (s ++ e).splitOn sep = front ++ [last ++ e] := by
  obtain ⟨base, last, front, rfl, hlast, hsplit⟩ := splitOn_last sep s
  have hfree : sep ∉ last ++ e := by simp [hlast, h]
  exact ⟨front, last, by rw [List.append_assoc, hsplit _ hfree]⟩

theorem exists_pieces_of_endsIn {p : FilePath} {extension : String} (hslash : slash ∉ dot :: Text.utf8 extension)
    (h : EndsIn p.bytes extension) : ∃ front name, p.pieces = front ++ [name] ∧ EndsIn name extension := by
  obtain ⟨s, hs⟩ := h
  obtain ⟨front, last, hsplit⟩ := splitOn_append s hslash
  exact ⟨front, _, by rw [pieces, ← hs, hsplit], endsIn_append last extension⟩

theorem EndsIn.join {name : Bytes} {extension : String} (h : EndsIn name extension) (p : FilePath) :
    EndsIn (p.join name).bytes extension := by
  obtain ⟨base, hbytes, -⟩ := p.exists_bytes_join name
  rw [hbytes]
  exact h.prepend base

/-- With another extension a path ends in it, unless no name is left in front of it. -/
theorem endsIn_withExtension {p : FilePath} {extension : String}
    (h : (p.withExtension (Text.utf8 extension)).fileName?.isSome) :
    EndsIn (p.withExtension (Text.utf8 extension)).bytes extension := by
  unfold withExtension at *
  dsimp only at *
  cases hname : p.dropExtension.fileName? with
  | none => simp [hname] at h
  | some name =>
    dsimp only
    exact (endsIn_append _ _).intercalate _

/-- The name of a source file ends in the extension of sources. -/
theorem exists_fileName_of_isSource {p : FilePath} (h : p.isSource) :
    ∃ name, p.fileName? = some name ∧ EndsIn name sourceExtension := by
  rw [isSource, extension?, beq_iff_eq, Option.bind_eq_some_iff] at h
  obtain ⟨name, hname, hsplit⟩ := h
  refine ⟨name, hname, ?_⟩
  rw [splitName_eq hsplit]
  exact endsIn_append _ _

/-- What ends in the extension of outputs is no source. -/
theorem not_isSource_of_endsIn {p : FilePath} (h : EndsIn p.bytes outputExtension) : ¬p.isSource := by
  intro hsource
  obtain ⟨front, name, hpieces, hname⟩ := exists_pieces_of_endsIn (by decide) h
  have hlong : 4 ≤ name.length := List.IsSuffix.length_le hname
  have hleads : isIdle name = false := by
    by_contra hidle
    simp only [isIdle, Bool.not_eq_false, Bool.or_eq_true, beq_iff_eq] at hidle
    rcases hidle with rfl | rfl
    · exact absurd hlong (by decide)
    · exact absurd hlong (by decide)
  have hparent : name ≠ parent := by
    rintro rfl
    exact absurd hlong (by decide)
  obtain ⟨name', hfile, hname'⟩ := exists_fileName_of_isSource hsource
  rw [fileName?_of_pieces hpieces hleads hparent] at hfile
  cases hfile
  exact hname'.not_output hname

end FilePath

end HackStack
