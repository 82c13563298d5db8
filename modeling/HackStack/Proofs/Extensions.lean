import HackStack.Proofs.FileNames
/-!
# Extensions

A path is what stands in front of its last piece, and that piece (`exists_base`); another piece can take its
place. So a path that ends in something, a dot and an extension ends in the new one once that has taken the place
of the old (`withExtension_eq`).

`isSource_iff`: a path is that of a source file if its name has something in front of the extension of sources.
-/

namespace HackStack

namespace FilePath

/-! ## Names -/

/-- A name with something in front of the extension of sources. -/
def IsSourceName (name : Bytes) : Prop := ∃ stem, stem ≠ [] ∧ name = stem ++ dot :: Text.utf8 sourceExtension

theorem splitName_append {stem extension : Bytes} (hstem : stem ≠ []) (hdot : dot ∉ extension) :
    splitName (stem ++ dot :: extension) = (stem, some extension) := by
  have hparts : (stem ++ dot :: extension).splitOn dot = stem.splitOn dot ++ [extension] := by
    rw [List.splitOn_append_cons_self, List.splitOn_eq_singleton hdot]
  have hfront : [dot].intercalate (stem.splitOn dot) = stem := List.intercalate_splitOn dot
  unfold splitName
  rw [hparts]
  dsimp only
  rw [List.dropLast_concat]
  split
  · next hnil => exact absurd hnil (List.splitOn_ne_nil _ _)
  · next hnil =>
    rw [hnil] at hfront
    exact absurd hfront.symm hstem
  · rw [hfront, List.getLast?_concat]

theorem isSource_iff {p : FilePath} {name : Bytes} (h : p.fileName? = some name) : p.isSource ↔ IsSourceName name := by
  have hext : p.isSource ↔ (splitName name).2 = some (Text.utf8 sourceExtension) := by
    rw [isSource, extension?, h, beq_iff_eq]
    rfl
  rw [hext]
  constructor
  · intro hsplit
    have hname := splitName_eq hsplit
    refine ⟨_, ?_, hname⟩
    intro hstem
    -- the dot of a name that is all extension comes first, so there is none
    rw [hstem] at hname
    rw [hname] at hsplit
    exact absurd hsplit (by decide)
  · rintro ⟨stem, hstem, rfl⟩
    rw [splitName_append hstem (by decide)]

/-! ## Paths -/

theorem intercalate_pieces (p : FilePath) : [slash].intercalate p.pieces = p.bytes :=
  List.intercalate_splitOn slash

/-- Another name can take the place of the last piece of a path. -/
theorem exists_base {p : FilePath} {front : List Bytes} {name : Bytes} (hp : p.pieces = front ++ [name]) :
    ∃ base, p.bytes = base ++ name ∧ slash ∉ name ∧
      ∀ name', slash ∉ name' → (FilePath.mk (base ++ name')).pieces = front ++ [name'] := by
  obtain ⟨base, last, front', hbytes, hlast, hsplit⟩ := splitOn_last slash p.bytes
  rw [pieces, hbytes, hsplit last hlast] at hp
  obtain ⟨rfl, hname⟩ := List.append_inj' hp rfl
  obtain rfl := List.singleton_inj.1 hname
  exact ⟨base, hbytes, hlast, hsplit⟩

/-- A name with something in front of its dot leads somewhere, unless that is another dot. -/
theorem stem_leads {stem : Bytes} (hstem : stem ≠ []) (hdot : stem ≠ [dot]) (extension : Bytes) :
    isIdle (stem ++ dot :: extension) = false ∧ stem ++ dot :: extension ≠ parent := by
  rw [isIdle, Bool.or_eq_false_iff, beq_eq_false_iff_ne, beq_eq_false_iff_ne]
  cases stem with
  | nil => exact absurd rfl hstem
  | cons b bs =>
    refine ⟨⟨by simp, by simp⟩, ?_⟩
    cases bs with
    | nil =>
      intro h
      obtain ⟨rfl, -⟩ := List.cons.inj h
      exact hdot rfl
    | cons b' bs => simp [parent]

/-- With another extension, the path of a file that has one ends in the new one in place of the old. -/
theorem withExtension_eq {p : FilePath} {front : List Bytes} {stem old new : Bytes}
    (hp : p.pieces = front ++ [stem ++ dot :: old]) (hstem : stem ≠ []) (hdot : stem ≠ [dot])
    (hold : dot ∉ old) (hnew : slash ∉ new) :
    ∃ base, p.bytes = base ++ dot :: old ∧ p.withExtension new = ⟨base ++ dot :: new⟩ := by
  obtain ⟨base, hbytes, hslash, hpieces⟩ := exists_base hp
  obtain ⟨bytes⟩ := p
  obtain rfl : bytes = base ++ (stem ++ dot :: old) := hbytes
  have hfree : slash ∉ stem ∧ slash ∉ old := by
    rw [List.mem_append, List.mem_cons] at hslash
    exact ⟨fun h => hslash (.inl h), fun h => hslash (.inr (.inr h))⟩
  have hpiece (e : Bytes) (he : slash ∉ e) :
      (FilePath.mk (base ++ (stem ++ dot :: e))).pieces = front ++ [stem ++ dot :: e] := by
    refine hpieces _ ?_
    rw [List.mem_append, List.mem_cons]
    rintro (h | h | h)
    · exact hfree.1 h
    · exact absurd h (by decide)
    · exact he h
  have hname (e : Bytes) (he : slash ∉ e) :
      (FilePath.mk (base ++ (stem ++ dot :: e))).fileName? = some (stem ++ dot :: e) := by
    obtain ⟨hleads, hparent⟩ := stem_leads hstem hdot e
    exact fileName?_of_pieces (hpiece e he) hleads hparent
  -- first the old extension comes off, and its dot stays
  have hdrop : (FilePath.mk (base ++ (stem ++ dot :: old))).dropExtension = ⟨base ++ (stem ++ [dot])⟩ := by
    have hext : (FilePath.mk (base ++ (stem ++ dot :: old))).extension? = some old := by
      rw [extension?, hname old hfree.2, Option.bind_some, splitName_append hstem hold]
    have hsplit : base ++ (stem ++ dot :: old) = base ++ (stem ++ [dot]) ++ old := by simp
    rw [dropExtension, hext]
    dsimp only
    rw [hsplit, List.length_append, Nat.add_sub_cancel, List.take_left]
  have hfront : ((FilePath.mk (base ++ (stem ++ [dot]))).pieces.reverse.dropWhile isIdle).tail.reverse = front := by
    obtain ⟨hleads, -⟩ := stem_leads hstem hdot []
    rw [hpiece [] List.not_mem_nil, List.reverse_append, List.reverse_singleton, List.singleton_append,
      List.dropWhile_cons_of_neg (by rw [hleads]; exact Bool.false_ne_true), List.tail_cons, List.reverse_reverse]
  refine ⟨base ++ stem, (List.append_assoc _ _ _).symm, ?_⟩
  unfold withExtension
  dsimp only
  rw [hdrop, hname [] List.not_mem_nil]
  dsimp only
  rw [hfront, splitName_append hstem List.not_mem_nil, ← hpiece new hnew, intercalate_pieces, List.append_assoc]

end FilePath

end HackStack
