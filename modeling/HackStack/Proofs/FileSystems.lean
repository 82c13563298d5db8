import HackStack.File.Tree
/-!
# File systems

A job works on whatever holds its files. `FileSystem` says what access to files does in a state, so that what
is proved of a job holds with links and permissions and without: looking and reading change nothing, and
writing either fails and changes nothing or gives one file its bytes.

File trees are such states. `resolve_ok_iff` and `target_ok_iff` say what a path leads to in a tree, and which
location it writes to.
-/

namespace HackStack

/-- A run of an action and then of what follows it. -/
theorem run_then {σ α β : Type} {x : StateM σ α} {s s' : σ} {a : α} (h : x.run s = (a, s')) (f : α → StateM σ β) :
    (x >>= f).run s = (f a).run s' := by
  rw [StateT.run_bind, h]
  rfl

/-- Files that are part of a state. -/
class FileSystem (σ : Type) [MonadFiles (StateM σ)] where
  /-- What tells files apart. Paths that lead to one place are paths of one file. -/
  File : Type
  /-- What a file holds, if it is there. -/
  bytes? : σ → File → Option ByteArray
  found : σ → FilePath → Found
  text : σ → FilePath → Except FileError String
  /-- The file a path opens for writing, which need not be there yet. -/
  target : σ → FilePath → Except FileError File
  run_find : ∀ (s : σ) (p : FilePath), (MonadFiles.find p : StateM σ Found).run s = (found s p, s)
  run_readText : ∀ (s : σ) (p : FilePath),
    (MonadFiles.readText p : StateM σ (Except FileError String)).run s = (text s p, s)
  run_writeText_error : ∀ (s : σ) (p : FilePath) (t : String) (cause : FileError), target s p = .error cause →
    (MonadFiles.writeText p t : StateM σ (Except FileError Unit)).run s = (.error cause, s)
  run_writeText_ok : ∀ (s : σ) (p : FilePath) (t : String) (f : File), target s p = .ok f →
    ∃ s', (MonadFiles.writeText p t : StateM σ (Except FileError Unit)).run s = (.ok (), s') ∧
      bytes? s' f = some t.toUTF8 ∧ ∀ g, g ≠ f → bytes? s' g = bytes? s g

namespace FileTree
variable {t : FileTree}

/-! ## Entries -/

theorem entry?_root (t : FileTree) : t.entry? [] = some .directory := rfl

theorem lookup_filter_ne {l l' : Location} (h : l' ≠ l) (es : List (Location × Entry)) :
    (es.filter (·.1 != l)).lookup l' = es.lookup l' := by
  induction es with
  | nil => rfl
  | cons x es ih =>
    obtain ⟨k, e⟩ := x
    by_cases hk : k = l
    · have hne : (l' == k) = false := by simpa [hk] using h
      simp [hk, List.lookup_cons, ih, hk ▸ hne]
    · simp [hk, List.lookup_cons, ih]

theorem entry?_put (t : FileTree) (l : Location) (e : Entry) (l' : Location) :
    entry? (t.put l e) l' = if l' = [] then some .directory else if l' = l then some e else t.entry? l' := by
  by_cases hroot : l' = []
  · rw [hroot]
    rfl
  · by_cases hl : l' = l
    · simp [put, entry?, hl]
    · have hne : (l' == l) = false := by simpa using hl
      simp [put, entry?, hroot, hl, List.lookup_cons, hne, lookup_filter_ne hl]

theorem put_put (t : FileTree) (l : Location) (e : Entry) : (t.put l e).put l e = t.put l e := by
  simp [put, List.filter_filter]

/-! ## Where paths lead -/

theorem walk_cons_ok_iff {l l' : Location} {piece : Bytes} {ps : List Bytes} :
    t.walk l (piece :: ps) = .ok l' ↔
      t.entry? l = some .directory ∧ FilePath.fitsName piece ∧ t.walk (step l piece) ps = .ok l' := by
  rw [walk]
  cases t.entry? l with
  | none => simp
  | some e =>
    cases e with
    | file bytes => simp
    | directory => by_cases hf : FilePath.fitsName piece <;> simp [hf]

theorem resolve_ok_iff {p : FilePath} {l : Location} {e : Entry} :
    t.resolve p = .ok (l, e) ↔ ∃ a, t.origin p = .ok a ∧ t.walk a p.pieces = .ok l ∧ t.entry? l = some e := by
  rw [resolve]
  cases ho : t.origin p with
  | error err => simp [bind, Except.bind]
  | ok a =>
    cases hw : t.walk a p.pieces with
    | error err => simp [bind, Except.bind, hw]
    | ok l' =>
      cases he : t.entry? l' with
      | none => simp [bind, Except.bind, hw, he]; grind
      | some e' => simp [bind, Except.bind, hw, he]; grind

/-- A slash at the end of a path leaves nothing to write to. -/
theorem target_ne_ok_of_slash {p : FilePath} (h : p.pieces.getLast? = some []) (l : Location) :
    t.target p ≠ .ok l := by
  rw [target]
  cases t.origin p with
  | error cause => simp [bind, Except.bind]
  | ok a =>
    cases p.pieces.reverse.dropWhile (· == []) with
    | nil => simp [bind, Except.bind]
    | cons last front =>
      cases hw : t.walk a (front.reverse ++ [[FilePath.dot]]) <;> simp [bind, Except.bind, h, hw]

theorem target_ok_iff {p : FilePath} {l : Location} :
    t.target p = .ok l ↔ ∃ a front name dir, t.origin p = .ok a ∧ p.pieces = front ++ [name] ∧
      FilePath.isIdle name = false ∧ name ≠ FilePath.parent ∧ FilePath.fitsName name ∧
      t.walk a (front ++ [[FilePath.dot]]) = .ok dir ∧ l = name :: dir ∧ t.entry? l ≠ some .directory := by
  rcases p.pieces.eq_nil_or_concat with hp | ⟨front, name, hp⟩
  · rw [target, hp]
    cases t.origin p <;> simp [bind, Except.bind]
  by_cases hn : name = []
  · have hne := target_ne_ok_of_slash (t := t) (p := p) (by simp [hp, hn]) l
    simp [hne, hp, hn, FilePath.isIdle]
  · rw [target]
    cases t.origin p with
    | error cause => simp [bind, Except.bind]
    | ok a =>
      cases hw : t.walk a (front ++ [[FilePath.dot]]) with
      | error cause => simp [bind, Except.bind, hp, hn, hw]
      | ok dir =>
        simp [bind, Except.bind, hp, hn, hw, FilePath.isIdle]
        cases he : t.entry? (name :: dir) with
        | none => grind
        | some e => cases e <;> grind

/-! ## File trees as file systems -/

/-- What the file at a location holds. -/
def bytes? (t : FileTree) (l : Location) : Option ByteArray :=
  match t.entry? l with
  | some (.file bytes) => some bytes
  | _ => none

theorem bytes?_put_self {l : Location} (h : l ≠ []) (bytes : ByteArray) :
    (t.put l (.file bytes)).bytes? l = some bytes := by
  simp [bytes?, entry?_put, h]

theorem bytes?_put_ne {l l' : Location} (h : l' ≠ l) (e : Entry) : (t.put l e).bytes? l' = t.bytes? l' := by
  unfold bytes?
  rw [entry?_put]
  by_cases hroot : l' = []
  · rw [if_pos hroot, hroot, entry?_root]
  · rw [if_neg hroot, if_neg h]

theorem run_get (t : FileTree) : (get : StateM FileTree FileTree).run t = (t, t) := rfl

theorem run_writeText_ok {p : FilePath} {l : Location} (h : t.target p = .ok l) (text : String) :
    (MonadFiles.writeText p text : StateM FileTree (Except FileError Unit)).run t =
      (.ok (), t.put l (.file text.toUTF8)) := by
  have hwrite : t.writeText p text = .ok (t.put l (.file text.toUTF8)) := by rw [writeText, h]; rfl
  simp only [MonadFiles.writeText]
  rw [run_then (run_get t), hwrite]
  rfl

theorem run_writeText_error {p : FilePath} {cause : FileError} (h : t.target p = .error cause) (text : String) :
    (MonadFiles.writeText p text : StateM FileTree (Except FileError Unit)).run t = (.error cause, t) := by
  have hwrite : t.writeText p text = .error cause := by rw [writeText, h]; rfl
  simp only [MonadFiles.writeText]
  rw [run_then (run_get t), hwrite]
  rfl

instance : FileSystem FileTree where
  File := Location
  bytes? := bytes?
  found := find
  text := readText
  target := target
  run_find _ _ := rfl
  run_readText _ _ := rfl
  run_writeText_error _ _ text _ h := run_writeText_error h text
  run_writeText_ok t p text l h := by
    refine ⟨t.put l (.file text.toUTF8), run_writeText_ok h text, ?_, fun g hg => bytes?_put_ne hg _⟩
    obtain ⟨_, _, _, _, _, _, _, _, _, _, rfl, _⟩ := target_ok_iff.1 h
    exact bytes?_put_self (by simp) _

end FileTree
end HackStack
