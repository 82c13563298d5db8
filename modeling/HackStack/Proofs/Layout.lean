import HackStack.Proofs.SourceLines
import HackStack.Proofs.Spelling
/-!
# Layouts of a program

A layout is a way to write commands as a source text. Each row holds a command or none,
with any gaps between its words, blank characters around it, and a comment behind it, and
ends in a line feed or a carriage return and a line feed.

`read_text`: reading a layout gives its commands back, each with the number of its row
and the text of its words.
-/

namespace HackStack

/-! ## Rows -/

/-- Blank characters in front of the words of a line or behind them. -/
structure Margin where
  text : List Char
  all_blank : ∀ c ∈ text, Text.isBlank c
  no_break : '\n' ∉ text

def Margin.none : Margin := ⟨[], by simp, by simp⟩

/-- A comment, without its slashes. -/
structure Remark where
  text : List Char
  no_break : '\n' ∉ text

/-- A command with zeros in front of its number and gaps between its words. -/
structure Spelling where
  command : Command
  zeros : Nat
  gap : Nat → Text.Gap

def Spelling.text (s : Spelling) : List Char := Text.spaced s.gap (s.command.spell s.zeros)

structure Row where
  before : Margin
  spelling? : Option Spelling
  after : Margin
  remark? : Option Remark

inductive LineEnd
  | lf | crlf

/-- Rows with their ends, and a row without an end if there is one. -/
structure Layout where
  rows : List (Row × LineEnd)
  last? : Option Row

namespace Row

/-- What stands between the margins. -/
def core (r : Row) : List Char := (r.spelling?.map Spelling.text).getD []

/-- What stands in front of the comment. -/
def front (r : Row) : List Char := r.before.text ++ r.core ++ r.after.text

def text (r : Row) : List Char := r.front ++ (r.remark?.map fun c => '/' :: '/' :: c.text).getD []

def command? (r : Row) : Option Command := r.spelling?.map (·.command)

/-- What the row is read as, if it is the row with this number. -/
def sourceCommand? (r : Row) (number : Nat) : Option SourceCommand :=
  r.spelling?.map fun s => { line := number, text := .ofList s.text, command := s.command }

end Row

def LineEnd.text : LineEnd → List Char
  | lf => ['\n']
  | crlf => ['\r', '\n']

namespace Layout

def text (l : Layout) : List Char :=
  l.rows.flatMap (fun r => r.1.text ++ r.2.text) ++ (l.last?.map Row.text).getD []

def allRows (l : Layout) : List Row := l.rows.map Prod.fst ++ l.last?.toList

def commands (l : Layout) : List Command := l.allRows.filterMap Row.command?

/-- What rows are read as, where the first one has the number `n`. -/
def entriesFrom (n : Nat) (rows : List Row) : List SourceCommand :=
  (rows.zipIdx n).filterMap fun r => r.1.sourceCommand? r.2

/-- What the layout is read as. -/
def entries (l : Layout) : List SourceCommand := entriesFrom 1 l.allRows

end Layout

/-! ## What is left of a line -/

namespace Source

theorem beforeComment_plain {s : List Char} (hs : '/' ∉ s) : beforeComment s = s := by
  fun_induction beforeComment s with
  | case1 => rfl
  | case2 => simp at hs
  | case3 c cs h ih => rw [ih fun hm => hs (List.mem_cons_of_mem c hm)]

theorem beforeComment_remark {s : List Char} (hs : '/' ∉ s) (t : List Char) :
    beforeComment (s ++ '/' :: '/' :: t) = s := by
  induction s with
  | nil => rfl
  | cons c s ih =>
    rw [List.mem_cons, not_or] at hs
    have hc : c ≠ '/' := Ne.symm hs.1
    rw [List.cons_append, beforeComment, ih hs.2]
    rintro _ h
    exact absurd h hc

theorem beforeComment_append {c : Char} (hc : c ≠ '/') (s : List Char) :
    beforeComment (s ++ [c]) = beforeComment s ∨ beforeComment (s ++ [c]) = beforeComment s ++ [c] := by
  fun_induction beforeComment s with
  | case1 => exact .inr (by simp [beforeComment])
  | case2 t => exact .inl rfl
  | case3 x s h ih =>
    -- the character behind cannot be the second slash of a comment
    have hstep : beforeComment (x :: (s ++ [c])) = x :: beforeComment (s ++ [c]) := by
      rw [beforeComment]
      rintro t rfl ht
      cases s with
      | nil => exact hc (List.cons.inj ht).1
      | cons y s => exact h s rfl (by rw [(List.cons.inj ht).1])
    rw [List.cons_append, hstep]
    rcases ih with ih | ih
    · exact .inl (by rw [ih])
    · exact .inr (by rw [ih, List.cons_append])

theorem clean?_append_return (s : List Char) : clean? (s ++ ['\r']) = clean? s := by
  have ht : Text.trim (beforeComment (s ++ ['\r'])) = Text.trim (beforeComment s) := by
    rcases beforeComment_append (c := '\r') (by decide) s with h | h
    · rw [h]
    · rw [h, Text.trim_append_blank (by decide)]
  rw [clean?, clean?, ht]

/-- A carriage return at the end of a line is not left of it. -/
theorem clean?_dropReturn (s : List Char) : clean? (Text.dropReturn s) = clean? s := by
  rcases Text.eq_dropReturn_or s with h | h
  · rw [← h]
  · conv_rhs => rw [h]
    exact (clean?_append_return _).symm

end Source

/-! ## One row -/

namespace Row
variable {r : Row} (hr : ∀ c ∈ r.command?, c.Sound)
include hr

theorem sound_of_spelling? {s : Spelling} (hs : r.spelling? = some s) : s.command.Sound :=
  hr s.command (by simp [command?, hs])

theorem ink_of_mem_core {c : Char} (hc : c ∈ r.core) : Text.isInk c ∨ Text.isGap c := by
  unfold core at hc
  cases hs : r.spelling? with
  | none => rw [hs] at hc; cases hc
  | some s =>
    rw [hs] at hc
    exact Command.ink_of_mem_spaced (sound_of_spelling? hr hs).name hc

theorem slash_notMem_front : '/' ∉ r.front := by
  intro h
  rcases List.mem_append.1 h with h | h
  · rcases List.mem_append.1 h with h | h
    · exact absurd (r.before.all_blank _ h) (by decide)
    · exact absurd (ink_of_mem_core hr h) (by decide)
  · exact absurd (r.after.all_blank _ h) (by decide)

theorem break_notMem_text : '\n' ∉ r.text := by
  intro h
  rcases List.mem_append.1 h with h | h
  · rcases List.mem_append.1 h with h | h
    · rcases List.mem_append.1 h with h | h
      · exact r.before.no_break h
      · exact absurd (ink_of_mem_core hr h) (by decide)
    · exact r.after.no_break h
  · cases hc : r.remark? with
    | none => rw [hc] at h; cases h
    | some c =>
      rw [hc] at h
      simp [c.no_break] at h

theorem beforeComment_text : Source.beforeComment r.text = r.front := by
  have hslash : '/' ∉ r.front := slash_notMem_front hr
  unfold text
  cases r.remark? with
  | none => simpa using Source.beforeComment_plain hslash
  | some c => simpa using Source.beforeComment_remark hslash c.text

/-- What is left of a row is its command. -/
theorem clean?_text : Source.clean? r.text = r.spelling?.map Spelling.text := by
  rw [Source.clean?, beforeComment_text hr, front, core]
  cases hs : r.spelling? with
  | none =>
    have hblank : ∀ c ∈ r.before.text ++ r.after.text, Text.isBlank c :=
      List.forall_mem_append.2 ⟨r.before.all_blank, r.after.all_blank⟩
    simp [Text.trim_blank hblank]
  | some s =>
    have hword : ∀ w ∈ s.command.spell s.zeros, Text.IsWord w :=
      Command.isWord_of_mem_spell (sound_of_spelling? hr hs).name
    have hne := s.command.spell_ne_nil s.zeros
    have htrim := Text.trim_spaced s.gap hword hne r.before.all_blank r.after.all_blank
    simp only [Option.map_some, Option.getD_some, Spelling.text, htrim]
    rw [if_neg (by simp [Text.spaced_ne_nil hword hne])]

/-- Reading a line that a row is left of takes up the row. -/
theorem readFrom_row {l : List Char} (hl : Source.clean? l = r.spelling?.map Spelling.text) (n : Nat)
    (ls : List (List Char)) :
    Source.readFrom n (l :: ls) = ((r.sourceCommand? n).toList ++ ·) <$> Source.readFrom (n + 1) ls := by
  unfold sourceCommand?
  cases hs : r.spelling? with
  | none =>
    rw [hs] at hl
    rw [Source.readFrom_blank n ls hl]
    simp
  | some s =>
    rw [hs] at hl
    have hread := Command.read_spaced (sound_of_spelling? hr hs) s.gap s.zeros
    rw [Source.readFrom_entry n ls hl, Source.readEntry, Spelling.text, hread]
    cases Source.readFrom (n + 1) ls <;> rfl

end Row

/-! ## All rows -/

namespace Layout

/-- A line is left of each row that has an end. -/
theorem lines_row {r : Row} (hr : ∀ c ∈ r.command?, c.Sound) (e : LineEnd) (t : List Char) :
    ∃ l, Text.lines (r.text ++ e.text ++ t) = l :: Text.lines t ∧ Source.clean? l = r.spelling?.map Spelling.text := by
  have hbreak : '\n' ∉ r.text := r.break_notMem_text hr
  rw [← r.clean?_text hr]
  cases e with
  | lf =>
    refine ⟨_, ?_, Source.clean?_dropReturn r.text⟩
    rw [LineEnd.text, List.append_assoc, List.singleton_append, Text.lines_append_break hbreak]
  | crlf =>
    have hreturn : '\n' ∉ r.text ++ ['\r'] := by simp [hbreak]
    refine ⟨r.text, ?_, rfl⟩
    have hsplit : r.text ++ LineEnd.crlf.text ++ t = (r.text ++ ['\r']) ++ '\n' :: t := by simp [LineEnd.text]
    rw [hsplit, Text.lines_append_break hreturn, Text.dropReturn_append]

theorem entriesFrom_cons (n : Nat) (r : Row) (rows : List Row) :
    entriesFrom n (r :: rows) = (r.sourceCommand? n).toList ++ entriesFrom (n + 1) rows := by
  unfold entriesFrom
  rw [List.zipIdx_cons, List.filterMap_cons]
  cases r.sourceCommand? n <;> rfl

theorem readFrom_last {last? : Option Row} (h : ∀ r ∈ last?, ∀ c ∈ r.command?, c.Sound) (n : Nat) :
    Source.readFrom n (Text.lines ((last?.map Row.text).getD [])) = .ok (entriesFrom n last?.toList) := by
  cases last? with
  | none => rfl
  | some r =>
    have hr := h r rfl
    have hclean := r.clean?_text hr
    simp only [Option.map_some, Option.getD_some, Option.toList_some, entriesFrom_cons]
    by_cases hnil : r.text = []
    · -- there is no line, and no command either
      rw [hnil] at hclean
      have hs : r.spelling? = none := Option.map_eq_none_iff.1 hclean.symm
      rw [hnil, Row.sourceCommand?, hs]
      rfl
    · rw [Text.lines_of_notMem (r.break_notMem_text hr) hnil, r.readFrom_row hr hclean]
      rfl

theorem readFrom_rows {rows : List (Row × LineEnd)} {last? : Option Row} (n : Nat)
    (hrows : ∀ r ∈ rows, ∀ c ∈ r.1.command?, c.Sound) (hlast : ∀ r ∈ last?, ∀ c ∈ r.command?, c.Sound) :
    Source.readFrom n (Text.lines (rows.flatMap (fun r => r.1.text ++ r.2.text) ++ (last?.map Row.text).getD [])) =
      .ok (entriesFrom n (rows.map Prod.fst ++ last?.toList)) := by
  induction rows generalizing n with
  | nil => exact readFrom_last hlast n
  | cons r rows ih =>
    obtain ⟨hr, hrows⟩ := List.forall_mem_cons.1 hrows
    obtain ⟨l, hlines, hl⟩ := lines_row hr r.2
      (rows.flatMap (fun r => r.1.text ++ r.2.text) ++ (last?.map Row.text).getD [])
    rw [List.flatMap_cons, List.append_assoc, hlines, r.1.readFrom_row hr hl, ih (n + 1) hrows, List.map_cons,
      List.cons_append, entriesFrom_cons]
    rfl

theorem entriesFrom_command (n : Nat) (rows : List Row) :
    (entriesFrom n rows).map (·.command) = rows.filterMap Row.command? := by
  induction rows generalizing n with
  | nil => rfl
  | cons r rows ih =>
    rw [entriesFrom_cons, List.map_append, ih, List.filterMap_cons, Row.sourceCommand?, Row.command?]
    cases r.spelling? <;> rfl

/-- Reading a layout gives its commands back, each with the number of its row and the text of its words. -/
theorem read_text (l : Layout) (h : ∀ c ∈ l.commands, c.Sound) :
    Source.read (String.ofList l.text) = .ok l.entries ∧ l.entries.map (·.command) = l.commands := by
  have hall : ∀ r ∈ l.allRows, ∀ c ∈ r.command?, c.Sound := fun r hr c hc => h c (List.mem_filterMap.2 ⟨r, hr, hc⟩)
  obtain ⟨hrows, hlast⟩ := List.forall_mem_append.1 hall
  refine ⟨?_, entriesFrom_command 1 l.allRows⟩
  rw [Source.read_eq, String.toList_ofList]
  exact readFrom_rows 1 (List.forall_mem_map.1 hrows) (by simpa using hlast)

/-- A comment, a command with odd gaps and zeros, a blank line, and a command without a line end. -/
def sample : Layout where
  rows :=
    [(⟨.none, none, .none, some ⟨[' ', 'x'], by decide⟩⟩, .lf),
      (⟨⟨['\t'], by simp [Text.isBlank, Text.blankRanges], by decide⟩,
        some ⟨.push .constant 7, 2, fun _ => ⟨[' ', '\t'], by decide, by simp [Text.isGap]⟩⟩,
        ⟨['\u00a0'], by simp [Text.isBlank, Text.blankRanges], by decide⟩, some ⟨['/'], by decide⟩⟩, .crlf),
      (⟨.none, none, .none, none⟩, .crlf)]
  last? := some ⟨.none, some ⟨.call "f" 0, 0, fun _ => .space⟩, .none, none⟩

theorem read_text_sample :
    (∀ c ∈ sample.commands, c.Sound) ∧
      Source.read "// x\n\tpush \tconstant \t007\u00a0///\r\n\r\ncall f 0" =
        .ok [⟨2, "push \tconstant \t007", .push .constant 7⟩, ⟨4, "call f 0", .call "f" 0⟩] := by
  have h : ∀ c ∈ sample.commands, c.Sound := by
    have hcommands : sample.commands = [.push .constant 7, .call "f" 0] := rfl
    rw [hcommands, List.forall_mem_cons, List.forall_mem_singleton]
    exact ⟨⟨rfl, nofun⟩, rfl, fun name hname => by cases hname; decide⟩
  have htext : String.ofList sample.text = "// x\n\tpush \tconstant \t007\u00a0///\r\n\r\ncall f 0" := by decide
  have hentries : sample.entries =
      [⟨2, "push \tconstant \t007", .push .constant 7⟩, ⟨4, "call f 0", .call "f" 0⟩] := by decide
  refine ⟨h, ?_⟩
  rw [← htext, ← hentries]
  exact (read_text sample h).1

end Layout

end HackStack
