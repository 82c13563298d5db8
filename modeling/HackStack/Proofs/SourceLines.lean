import HackStack.Proofs.Readable
import Mathlib.Data.List.Forall2
import Mathlib.Data.List.ReduceOption
/-!
# Reading line by line

`Source.readFrom` reads the lines of a source from a line number on; its equations say
what one more line in front does. `readFrom_eq_mapM`: it reads each line by itself and
keeps the commands.

Hence `read_ok_iff` and `read_error_iff`: a source can be read if all its lines are
accepted, and otherwise the first line that is not accepted is reported.
-/

namespace HackStack

/-! ## Lines of a text -/

namespace Text

theorem lines_append_break {s : List Char} (hs : '\n' ∉ s) (t : List Char) :
    lines (s ++ '\n' :: t) = dropReturn s :: lines t := by
  have hne : t.splitOn '\n' ≠ [] := List.splitOn_ne_nil _ t
  unfold lines
  rw [List.splitOn_append_cons_self_of_not_mem hs]
  simp only [List.dropLast_cons_of_ne_nil hne, List.getLast?_cons_of_ne_nil hne, List.map_cons, List.cons_append]

theorem lines_of_notMem {s : List Char} (hs : '\n' ∉ s) (hne : s ≠ []) : lines s = [s] := by
  unfold lines
  rw [List.splitOn_eq_singleton hs]
  simp [hne]

theorem dropReturn_append (s : List Char) : dropReturn (s ++ ['\r']) = s := by
  simp [dropReturn]

theorem eq_dropReturn_or (s : List Char) : s = dropReturn s ∨ s = dropReturn s ++ ['\r'] := by
  unfold dropReturn
  split
  · next h =>
    obtain ⟨t, rfl⟩ := List.getLast?_eq_some_iff.1 h
    rw [List.dropLast_concat]
    exact .inr rfl
  · exact .inl rfl

end Text

/-! ## Going through a list -/

section MapM
variable {ε α β : Type} {f : α → Except ε β} {l : List α}

theorem mapM_ok_iff {bs : List β} : l.mapM f = .ok bs ↔ List.Forall₂ (fun a b => f a = .ok b) l bs := by
  induction l generalizing bs with
  | nil => cases bs <;> simp [pure, Except.pure]
  | cons a l ih =>
    simp only [List.mapM_cons, bind_eq_ok, List.forall₂_cons_left_iff, ← ih]
    constructor
    · rintro ⟨b, ha, bs', hl, h⟩
      cases h
      exact ⟨b, bs', ha, hl, rfl⟩
    · rintro ⟨b, bs', ha, hl, rfl⟩
      exact ⟨b, ha, bs', hl, rfl⟩

theorem exists_mapM_ok_iff : (∃ bs, l.mapM f = .ok bs) ↔ ∀ a ∈ l, ∃ b, f a = .ok b := by
  induction l with
  | nil => exact ⟨fun _ => by simp, fun _ => ⟨[], rfl⟩⟩
  | cons a l ih =>
    simp only [mapM_ok_iff] at ih
    simp only [mapM_ok_iff, List.forall₂_cons_left_iff, List.forall_mem_cons, ← ih]
    constructor
    · rintro ⟨_, b, bs, ha, hl, -⟩
      exact ⟨⟨b, ha⟩, bs, hl⟩
    · rintro ⟨⟨b, ha⟩, bs, hl⟩
      exact ⟨_, b, bs, ha, hl, rfl⟩

/-- The first element that fails decides. -/
theorem mapM_error_iff {err : ε} :
    l.mapM f = .error err ↔ ∃ pre a post, l = pre ++ a :: post ∧ (∀ x ∈ pre, ∃ b, f x = .ok b) ∧ f a = .error err := by
  constructor
  · intro h
    induction l with
    | nil => cases h
    | cons a l ih =>
      rw [List.mapM_cons] at h
      cases ha : f a with
      | error e =>
        rw [ha] at h
        cases h
        exact ⟨[], a, l, rfl, by simp, ha⟩
      | ok b =>
        cases hl : l.mapM f with
        | ok bs => rw [ha, hl] at h; cases h
        | error e =>
          rw [ha, hl] at h
          cases h
          obtain ⟨pre, a', post, rfl, hpre, ha'⟩ := ih hl
          exact ⟨a :: pre, a', post, rfl, List.forall_mem_cons.2 ⟨⟨b, ha⟩, hpre⟩, ha'⟩
  · rintro ⟨pre, a, post, rfl, hpre, ha⟩
    induction pre with
    | nil =>
      rw [List.nil_append, List.mapM_cons, ha]
      rfl
    | cons x pre ih =>
      obtain ⟨⟨b, hb⟩, hpre⟩ := List.forall_mem_cons.1 hpre
      rw [List.cons_append, List.mapM_cons, hb, ih hpre]
      rfl

end MapM

namespace Source

/-- Whether nothing is left of the line, or a command is. -/
def Accepts (line : List Char) : Prop := ∀ text ∈ clean? line, ∃ c, Command.read (.ofList text) = .ok c

/-! ## One more line -/

/-- The commands of the lines, where the first one has the number `n`. -/
def readFrom (n : Nat) (ls : List (List Char)) : Except LineError (List SourceCommand) :=
  ((ls.zipIdx n).filterMap fun (line, number) =>
    (clean? line).map fun text => (number, String.ofList text)).mapM readEntry

theorem read_eq (source : String) : read source = readFrom 1 (Text.lines source.toList) := rfl

theorem readFrom_blank {l : List Char} (n : Nat) (ls : List (List Char)) (hl : clean? l = none) :
    readFrom n (l :: ls) = readFrom (n + 1) ls := by
  unfold readFrom
  rw [List.zipIdx_cons, List.filterMap_cons_none (by simp [hl])]

theorem readFrom_entry {l text : List Char} (n : Nat) (ls : List (List Char)) (hl : clean? l = some text) :
    readFrom n (l :: ls) = do return (← readEntry (n, .ofList text)) :: (← readFrom (n + 1) ls) := by
  unfold readFrom
  rw [List.zipIdx_cons, List.filterMap_cons_some (b := (n, String.ofList text)) (by simp [hl]), List.mapM_cons]

/-- The command of a numbered line, if something is left of the line. -/
def readLine (l : List Char × Nat) : Except LineError (Option SourceCommand) :=
  match clean? l.1 with
  | none => .ok none
  | some text => some <$> readEntry (l.2, .ofList text)

theorem readFrom_eq_mapM (n : Nat) (ls : List (List Char)) :
    readFrom n ls = List.reduceOption <$> (ls.zipIdx n).mapM readLine := by
  induction ls generalizing n with
  | nil => rfl
  | cons l ls ih =>
    rw [List.zipIdx_cons, List.mapM_cons, readLine]
    cases hl : clean? l with
    | none =>
      rw [readFrom_blank n ls hl, ih]
      cases (ls.zipIdx (n + 1)).mapM readLine <;> rfl
    | some text =>
      rw [readFrom_entry n ls hl, ih]
      dsimp only
      cases readEntry (n, .ofList text) <;> cases (ls.zipIdx (n + 1)).mapM readLine <;> rfl

/-! ## All lines -/

theorem readLine_ok_iff (l : List Char × Nat) : (∃ c, readLine l = .ok c) ↔ Accepts l.1 := by
  unfold readLine Accepts
  cases clean? l.1 with
  | none => simp
  | some text => cases hc : Command.read (.ofList text) <;> simp [readEntry, hc]

theorem readLine_error_iff (l : List Char × Nat) (err : LineError) :
    readLine l = .error err ↔ ∃ text cause, clean? l.1 = some text ∧ Command.read (.ofList text) = .error cause ∧
      err = ⟨l.2, .ofList text, cause⟩ := by
  unfold readLine
  cases clean? l.1 with
  | none => simp
  | some text => cases hc : Command.read (.ofList text) <;> simp [readEntry, hc, eq_comm]

/-- Numbering lines does not change whether all of them are accepted. -/
theorem forall_zipIdx_iff (n : Nat) (ls : List (List Char)) :
    (∀ l ∈ ls.zipIdx n, ∃ c, readLine l = .ok c) ↔ ∀ l ∈ ls, Accepts l := by
  conv_rhs => rw [← List.zipIdx_map_fst n ls]
  rw [List.forall_mem_map]
  simp only [readLine_ok_iff]

/-- A source can be read if all its lines are accepted. -/
theorem read_ok_iff (source : String) : (∃ cs, read source = .ok cs) ↔ ∀ l ∈ Text.lines source.toList, Accepts l := by
  rw [read_eq, readFrom_eq_mapM, ← forall_zipIdx_iff 1, ← exists_mapM_ok_iff]
  simp only [map_eq_ok]
  exact ⟨fun ⟨_, os, h, _⟩ => ⟨os, h⟩, fun ⟨os, h⟩ => ⟨_, os, h, rfl⟩⟩

/-- The first line of a source that is not accepted is reported, by its number and what is left of it. -/
theorem read_error_iff (source : String) (err : LineError) :
    read source = .error err ↔
      ∃ pre l post text cause, Text.lines source.toList = pre ++ l :: post ∧ (∀ l ∈ pre, Accepts l) ∧
        clean? l = some text ∧ Command.read (.ofList text) = .error cause ∧
        err = ⟨pre.length + 1, .ofList text, cause⟩ := by
  have hmap (x : Except LineError (List (Option SourceCommand))) :
      List.reduceOption <$> x = .error err ↔ x = .error err := by
    cases x <;> simp
  rw [read_eq, readFrom_eq_mapM, hmap, mapM_error_iff]
  constructor
  · rintro ⟨_, a, _, hnumbered, hpre, ha⟩
    obtain ⟨pre, rest, hl, rfl, hrest⟩ := List.zipIdx_eq_append_iff.1 hnumbered
    obtain ⟨l, post, rfl, rfl, -⟩ := List.zipIdx_eq_cons_iff.1 hrest.symm
    obtain ⟨text, cause, ht, hc, rfl⟩ := (readLine_error_iff _ _).1 ha
    exact ⟨pre, l, post, text, cause, hl, (forall_zipIdx_iff 1 pre).1 hpre, ht, hc, by rw [Nat.add_comm 1]⟩
  · rintro ⟨pre, l, post, text, cause, hl, hpre, ht, hc, rfl⟩
    refine ⟨pre.zipIdx 1, (l, 1 + pre.length), post.zipIdx (1 + pre.length + 1), ?_, (forall_zipIdx_iff 1 pre).2 hpre,
      (readLine_error_iff _ _).2 ⟨text, cause, ht, hc, by rw [Nat.add_comm 1]⟩⟩
    rw [hl, List.zipIdx_append, List.zipIdx_cons]

/-- What a source is read as: a command for each line that something is left of. -/
theorem read_commands {source : String} {cs : List SourceCommand} (h : read source = .ok cs) :
    List.Forall₂ (fun text c => Command.read (.ofList text) = .ok c.command)
      ((Text.lines source.toList).filterMap clean?) cs := by
  rw [read_eq] at h
  generalize Text.lines source.toList = ls, 1 = n at h
  induction ls generalizing n cs with
  | nil => cases h; exact .nil
  | cons l ls ih =>
    cases hl : clean? l with
    | none =>
      rw [readFrom_blank n ls hl] at h
      rw [List.filterMap_cons_none hl]
      exact ih _ h
    | some text =>
      rw [readFrom_entry n ls hl, bind_eq_ok] at h
      obtain ⟨c, hc, h⟩ := h
      obtain ⟨rest, hrest, h⟩ := bind_eq_ok.1 h
      cases h
      rw [List.filterMap_cons_some hl]
      rw [readEntry] at hc
      split at hc
      · next hread => cases hc; exact .cons hread (ih _ hrest)
      · cases hc

end Source

end HackStack
