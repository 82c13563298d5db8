import HackStack.Command.Reader
import Mathlib.Data.List.Basic
/-!
# Words with gaps between them

A word is a text of ink, that is, of characters that are neither blank nor a slash.
`spaced` writes words with gaps between them, and reading takes them apart again.

- `words_spaced`: the words of spaced words are these words
- `trim_spaced`: blank characters around spaced words are trimmed, and nothing else is
-/

namespace HackStack.Text

/-! ## Words and gaps -/

/-- Whether the character is neither blank nor a slash. -/
def isInk (c : Char) : Bool := !isBlank c && c != '/'

theorem isInk_of_visible {c : Char} (h : 0x21 ≤ c.toNat ∧ c.toNat ≤ 0x7E) (hc : c ≠ '/') : isInk c := by
  have hb : isBlank c = false := by
    simp [isBlank, blankRanges]
    omega
  simp [isInk, hb, hc]

theorem visible_of_isSymbolChar {c : Char} (h : isSymbolChar c) : 0x21 ≤ c.toNat ∧ c.toNat ≤ 0x7E := by
  delta isSymbolChar Char.isAlphanum Char.isAlpha Char.isUpper Char.isLower Char.isDigit at h
  simp [UInt32.le_iff_toNat_le] at h
  rcases h with (((((h | h) | h) | rfl) | rfl) | rfl) | rfl
  · omega
  · omega
  · omega
  all_goals decide

theorem isInk_of_isSymbolChar {c : Char} (h : isSymbolChar c) : isInk c := by
  have hslash : c ≠ '/' := by
    rintro rfl
    exact absurd h (by decide)
  exact isInk_of_visible (visible_of_isSymbolChar h) hslash

theorem isBlank_of_isGap {c : Char} (h : isGap c) : isBlank c := by
  rcases Bool.or_eq_true_iff.1 h with h | h
  all_goals
    obtain rfl := beq_iff_eq.1 h
    decide

/-- A text of ink, which blank characters can set apart. -/
structure IsWord (w : List Char) : Prop where
  ne_nil : w ≠ []
  ink : ∀ c ∈ w, isInk c

theorem IsWord.not_blank {w : List Char} (h : IsWord w) {c : Char} (hc : c ∈ w) : isBlank c = false := by
  have hi := h.ink c hc
  simp [isInk] at hi
  exact hi.1

theorem IsWord.not_gap {w : List Char} (h : IsWord w) {c : Char} (hc : c ∈ w) : isGap c = false := by
  have hb := h.not_blank hc
  cases hg : isGap c with
  | false => rfl
  | true => rw [isBlank_of_isGap hg] at hb; cases hb

theorem isWord_of_isSymbol {s : List Char} (h : isSymbol s) : IsWord s := by
  cases s with
  | nil => cases h
  | cons c cs =>
    have hall : (c :: cs).all isSymbolChar = true := (Bool.and_eq_true_iff.1 h).2
    exact ⟨by simp, fun x hx => isInk_of_isSymbolChar (List.all_eq_true.1 hall x hx)⟩

theorem isWord_of_all {w : List Char} (h : (!w.isEmpty && w.all isInk) = true) : IsWord w := by
  rw [Bool.and_eq_true, Bool.not_eq_true', List.isEmpty_eq_false_iff, List.all_eq_true] at h
  exact ⟨h.1, h.2⟩

/-- A run of spaces and tabs. -/
structure Gap where
  text : List Char
  ne_nil : text ≠ []
  all_gap : ∀ c ∈ text, isGap c

def Gap.space : Gap := ⟨[' '], by simp, by simp [isGap]⟩

/-- The words with gaps between them. -/
def spaced (gap : Nat → Gap) : List (List Char) → List Char
  | [] => []
  | [w] => w
  | w :: v :: ws => w ++ (gap 0).text ++ spaced (fun i => gap (i + 1)) (v :: ws)

theorem mem_spaced {gap : Nat → Gap} {ws : List (List Char)} {c : Char} (h : c ∈ spaced gap ws) :
    isGap c ∨ ∃ w ∈ ws, c ∈ w := by
  fun_induction spaced gap ws with
  | case1 => cases h
  | case2 gap w => exact .inr ⟨w, List.mem_cons_self, h⟩
  | case3 gap w v ws ih =>
    rcases List.mem_append.1 h with h | h
    · rcases List.mem_append.1 h with hw | hg
      · exact .inr ⟨w, List.mem_cons_self, hw⟩
      · exact .inl ((gap 0).all_gap c hg)
    · exact (ih h).imp_right fun ⟨u, hu, hc⟩ => ⟨u, List.mem_cons_of_mem w hu, hc⟩

/-! ## Words of a text -/

theorem words_gap {c : Char} (hc : isGap c) (s : List Char) : words (c :: s) = words s := by
  have hs := List.splitOnP_append_cons [] s hc
  rw [List.nil_append] at hs
  rw [words, hs]
  rfl

theorem words_gaps {g : List Char} (hg : ∀ c ∈ g, isGap c) (s : List Char) : words (g ++ s) = words s := by
  induction g with
  | nil => rfl
  | cons c g ih =>
    obtain ⟨hc, hg⟩ := List.forall_mem_cons.1 hg
    rw [List.cons_append, words_gap hc, ih hg]

/-- Characters up to the next gap, or the end, are a word. -/
theorem words_run {w s : List Char} (hw : w ≠ []) (hin : ∀ c ∈ w, isGap c = false) (hend : ∀ c ∈ s.head?, isGap c) :
    words (w ++ s) = w :: words s := by
  have hword : words w = [w] := by
    rw [words, List.splitOnP_eq_singleton hin]
    simp [hw]
  cases s with
  | nil =>
    rw [List.append_nil, hword]
    rfl
  | cons c s =>
    have hc : isGap c := hend c rfl
    have hsplit : words (w ++ c :: s) = words w ++ words s := by
      rw [words, List.splitOnP_append_cons w s hc, List.filter_append, ← words, ← words]
    rw [hsplit, hword, words_gap hc, List.singleton_append]

theorem words_word {w : List Char} (h : IsWord w) : words w = [w] := by
  have hend : ∀ c ∈ ([] : List Char).head?, isGap c := fun _ hc => by cases hc
  have hrun := words_run h.ne_nil (fun _ hc => h.not_gap hc) hend
  rwa [List.append_nil] at hrun

theorem words_append_gap {w : List Char} (h : IsWord w) (g : Gap) (s : List Char) :
    words (w ++ g.text ++ s) = w :: words s := by
  have hend : ∀ c ∈ (g.text ++ s).head?, isGap c := by
    rw [List.head?_append_of_ne_nil _ g.ne_nil]
    exact fun c hc => g.all_gap c (List.mem_of_mem_head? hc)
  rw [List.append_assoc, words_run h.ne_nil (fun _ hc => h.not_gap hc) hend, words_gaps g.all_gap]

theorem words_spaced (gap : Nat → Gap) {ws : List (List Char)} (h : ∀ w ∈ ws, IsWord w) :
    words (spaced gap ws) = ws := by
  fun_induction spaced gap ws with
  | case1 => rfl
  | case2 gap w => exact words_word (h w List.mem_cons_self)
  | case3 gap w v ws ih =>
    obtain ⟨hw, hws⟩ := List.forall_mem_cons.1 h
    rw [words_append_gap hw, ih hws]

/-! ## Blank ends -/

theorem dropWhile_blanks {a s : List Char} (ha : ∀ c ∈ a, isBlank c) (hs : ∀ c ∈ s.head?, isBlank c = false) :
    (a ++ s).dropWhile isBlank = s := by
  rw [List.dropWhile_append_of_pos ha]
  cases s with
  | nil => rfl
  | cons c s => rw [List.dropWhile_cons_of_neg (by simp [hs c rfl])]

/-- Blank characters around a text that has none at its ends are trimmed. -/
theorem trim_between {a s b : List Char} (ha : ∀ c ∈ a, isBlank c) (hb : ∀ c ∈ b, isBlank c) (hs : s ≠ [])
    (hhead : ∀ c ∈ s.head?, isBlank c = false) (hlast : ∀ c ∈ s.getLast?, isBlank c = false) :
    trim (a ++ s ++ b) = s := by
  have hfront : (a ++ (s ++ b)).dropWhile isBlank = s ++ b :=
    dropWhile_blanks ha (by rwa [List.head?_append_of_ne_nil s hs])
  have hback : (b.reverse ++ s.reverse).dropWhile isBlank = s.reverse :=
    dropWhile_blanks (by simpa using hb) (by rwa [List.head?_reverse])
  rw [trim, List.append_assoc, hfront, List.reverse_append, hback, List.reverse_reverse]

theorem trim_blank {s : List Char} (hs : ∀ c ∈ s, isBlank c) : trim s = [] := by
  have h := dropWhile_blanks (s := []) hs (by simp)
  rw [List.append_nil] at h
  rw [trim, h]
  rfl

theorem trim_append_blank {c : Char} (hc : isBlank c) (s : List Char) : trim (s ++ [c]) = trim s := by
  unfold trim
  rw [List.dropWhile_append]
  split
  · next h =>
    rw [List.isEmpty_iff] at h
    rw [h, List.dropWhile_cons_of_pos hc]
    rfl
  · rw [List.reverse_append, List.reverse_singleton, List.singleton_append, List.dropWhile_cons_of_pos hc]

theorem spaced_ne_nil {gap : Nat → Gap} {ws : List (List Char)} (h : ∀ w ∈ ws, IsWord w) (hws : ws ≠ []) :
    spaced gap ws ≠ [] := by
  intro hnil
  have hwords := words_spaced gap h
  rw [hnil] at hwords
  exact hws hwords.symm

theorem head?_spaced {gap : Nat → Gap} {ws : List (List Char)} (h : ∀ w ∈ ws, IsWord w) :
    ∀ c ∈ (spaced gap ws).head?, isBlank c = false := by
  fun_induction spaced gap ws with
  | case1 => simp
  | case2 gap w =>
    intro c hc
    exact (h w List.mem_cons_self).not_blank (List.mem_of_mem_head? hc)
  | case3 gap w v ws ih =>
    intro c hc
    have hw := h w List.mem_cons_self
    rw [List.append_assoc, List.head?_append_of_ne_nil w hw.ne_nil] at hc
    exact hw.not_blank (List.mem_of_mem_head? hc)

theorem getLast?_spaced {gap : Nat → Gap} {ws : List (List Char)} (h : ∀ w ∈ ws, IsWord w) :
    ∀ c ∈ (spaced gap ws).getLast?, isBlank c = false := by
  fun_induction spaced gap ws with
  | case1 => simp
  | case2 gap w =>
    intro c hc
    exact (h w List.mem_cons_self).not_blank (List.mem_of_getLast? hc)
  | case3 gap w v ws ih =>
    obtain ⟨hw, hws⟩ := List.forall_mem_cons.1 h
    rw [List.getLast?_append_of_ne_nil _ (spaced_ne_nil hws (by simp))]
    exact ih hws

/-- Blank characters around spaced words are trimmed. -/
theorem trim_spaced (gap : Nat → Gap) {ws : List (List Char)} (h : ∀ w ∈ ws, IsWord w) (hws : ws ≠ [])
    {a b : List Char} (ha : ∀ c ∈ a, isBlank c) (hb : ∀ c ∈ b, isBlank c) :
    trim (a ++ spaced gap ws ++ b) = spaced gap ws :=
  trim_between ha hb (spaced_ne_nil h hws) (head?_spaced h) (getLast?_spaced h)

end HackStack.Text
