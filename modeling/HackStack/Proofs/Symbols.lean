import HackStack.Proofs.AssemblyText
/-!
# Texts of symbols

Static cells and the labels that code brings along are written with a dot behind
which no other dot follows. The parts in front of that dot and behind it say
which symbol it is (`text_eq_iff`).

- `generated_text_inj`: different generated labels have different texts, whatever the callees
- `static_text_inj`: different static cells have different texts
- `static_text_eq_generated`: a static cell is written like a generated label only if that is a return label
-/

namespace HackStack

/-! ## Decimal numbers -/

namespace Text.Decimal

theorem repr_inj {m n : Nat} : m.repr = n.repr ↔ m = n := by
  refine ⟨fun h => ?_, congrArg Nat.repr⟩
  have hv := value?_toString m
  rw [Nat.toString_eq_repr, h, ← Nat.toString_eq_repr, value?_toString] at hv
  exact (Option.some.inj hv).symm

theorem notMem_toDigits {n : Nat} {c : Char} (hc : c.isDigit = false) : c ∉ Nat.toDigits 10 n := by
  intro h
  simp [Nat.isDigit_of_mem_toDigits (by decide) (by decide) h] at hc

/-- A text with a character that is no digit is no number. -/
theorem value?_eq_none {s : List Char} {c : Char} (h : c ∈ s) (hc : c.isDigit = false) : value? s = none := by
  rw [value?, if_neg]
  rintro ⟨-, hall⟩
  simp [List.all_eq_true.1 hall c h] at hc

end Text.Decimal

/-! ## Separators -/

/-- The parts in front of the first separator and behind it are determined. -/
theorem append_cons_inj_left {c : Char} {s t s' t' : List Char} (hs : c ∉ s) (hs' : c ∉ s')
    (h : s ++ c :: t = s' ++ c :: t') : s = s' ∧ t = t' := by
  have htake := congrArg (List.takeWhile (· != c)) h
  have hdrop := congrArg (List.dropWhile (· != c)) h
  rw [takeWhile_ne hs, takeWhile_ne hs'] at htake
  rw [dropWhile_ne hs, dropWhile_ne hs'] at hdrop
  exact ⟨htake, (List.cons.inj hdrop).2⟩

/-- The parts in front of the last separator and behind it are determined. -/
theorem append_cons_inj_right {c : Char} {s t s' t' : List Char} (ht : c ∉ t) (ht' : c ∉ t')
    (h : s ++ c :: t = s' ++ c :: t') : s = s' ∧ t = t' := by
  have hr : t.reverse ++ c :: s.reverse = t'.reverse ++ c :: s'.reverse := by
    simpa using congrArg List.reverse h
  obtain ⟨htr, hsr⟩ := append_cons_inj_left (by simpa using ht) (by simpa using ht') hr
  exact ⟨List.reverse_injective hsr, List.reverse_injective htr⟩

/-! ## Symbols with a dot -/

namespace Symbol

/-- What is written in front of the last dot and behind it, for the symbols that always have one. -/
def parts? : Symbol → Option (String × String)
  | static unit i => some (unit, i.toNat.repr)
  | holds c n => some (c.stem, n.repr ++ "$TRUE")
  | done c n => some (c.stem, n.repr ++ "$END")
  | returnSite callee n => some (callee ++ "$Ret", n.repr)
  | _ => none

/-- Whether it is a label that code brings along. -/
def generated : Symbol → Bool
  | holds .. | done .. | returnSite .. => true
  | _ => false

theorem parts?_isSome {s : Symbol} (h : s.generated) : s.parts?.isSome := by
  cases s <;> first | rfl | cases h

theorem text_of_parts {s : Symbol} {p : String × String} (h : s.parts? = some p) :
    s.text.toList = p.1.toList ++ '.' :: p.2.toList ∧ '.' ∉ p.2.toList := by
  have hd {n : Nat} : '.' ∉ Nat.toDigits 10 n := Text.Decimal.notMem_toDigits (by decide)
  cases s with
  | static | holds | done | returnSite => cases h; simp [text, hd]
  | _ => cases h

theorem dot_mem_text {s : Symbol} (h : s.parts?.isSome) : '.' ∈ s.text.toList := by
  obtain ⟨p, hp⟩ := Option.isSome_iff_exists.1 h
  simp [(text_of_parts hp).1]

theorem text_eq_iff {s t : Symbol} (hs : s.parts?.isSome) (ht : t.parts?.isSome) :
    s.text = t.text ↔ s.parts? = t.parts? := by
  obtain ⟨p, hp⟩ := Option.isSome_iff_exists.1 hs
  obtain ⟨q, hq⟩ := Option.isSome_iff_exists.1 ht
  obtain ⟨hpt, hpd⟩ := text_of_parts hp
  obtain ⟨hqt, hqd⟩ := text_of_parts hq
  rw [hp, hq, ← String.toList_inj, hpt, hqt, Option.some.injEq, Prod.ext_iff, ← String.toList_inj, ← String.toList_inj]
  exact ⟨append_cons_inj_right hpd hqd, fun h => by rw [h.1, h.2]⟩

/-! ### Which symbols are written alike -/

theorem static_text_inj {unit unit' : String} {i i' : UInt16} :
    (static unit i).text = (static unit' i').text ↔ unit = unit' ∧ i = i' := by
  rw [text_eq_iff rfl rfl]
  simp only [parts?, Option.some.injEq, Prod.mk.injEq, Text.Decimal.repr_inj, UInt16.toNat_inj]

theorem repr_append_ne {m n : Nat} {s : String} (hs : '$' ∈ s.toList) : m.repr ++ s ≠ n.repr := by
  intro h
  have hm : '$' ∈ (n.repr).toList := by rw [← h]; simp [hs]
  rw [Nat.toList_repr] at hm
  exact Text.Decimal.notMem_toDigits (by decide) hm

theorem true_ne_end {m n : Nat} : m.repr ++ "$TRUE" ≠ n.repr ++ "$END" := by
  intro h
  have hl : Nat.toDigits 10 m ++ '$' :: ['T', 'R', 'U', 'E'] = Nat.toDigits 10 n ++ '$' :: ['E', 'N', 'D'] := by
    simpa using congrArg String.toList h
  have hd {k : Nat} : '$' ∉ Nat.toDigits 10 k := Text.Decimal.notMem_toDigits (by decide)
  exact absurd (append_cons_inj_left hd hd hl).2 (by decide)

theorem stem_inj {c c' : Comparison} : c.stem = c'.stem ↔ c = c' := by
  cases c <;> cases c' <;> decide

theorem generated_text_inj {s t : Symbol} (hs : s.generated) (ht : t.generated) (h : s.text = t.text) : s = t := by
  rw [text_eq_iff (parts?_isSome hs) (parts?_isSome ht)] at h
  -- a return label has no `$` behind its last dot, and the labels of a comparison have different words there
  cases s <;> cases hs <;> cases t <;> cases ht <;>
    simp only [parts?, Option.some.injEq, Prod.mk.injEq, stem_inj, String.append_left_inj, Text.Decimal.repr_inj,
      true_ne_end, true_ne_end.symm, and_false] at h
  all_goals first
    | rw [h.1, h.2]
    | exact absurd h.2 (repr_append_ne (by decide))
    | exact absurd h.2.symm (repr_append_ne (by decide))

theorem static_text_eq_generated {unit : String} {i : UInt16} {t : Symbol} (ht : t.generated)
    (h : (static unit i).text = t.text) : ∃ callee, t = returnSite callee i.toNat ∧ unit = callee ++ "$Ret" := by
  rw [text_eq_iff rfl (parts?_isSome ht)] at h
  cases t <;> cases ht <;> simp only [parts?, Option.some.injEq, Prod.mk.injEq] at h
  case holds | done => exact absurd h.2.symm (repr_append_ne (by decide))
  case returnSite callee n =>
    obtain ⟨hu, hi⟩ := h
    rw [Text.Decimal.repr_inj] at hi
    exact ⟨callee, by rw [hi], hu⟩

/-- No symbol that always has a dot is a number or predefined. -/
theorem fixedValue?_of_parts {s : Symbol} (h : s.parts?.isSome) : fixedValue? s.text = none := by
  have hdot := dot_mem_text h
  have hp : s.text ∉ predefined.map Prod.fst := by
    intro hm
    have hnone : ∀ name ∈ predefined.map Prod.fst, '.' ∉ name.toList := by decide
    exact hnone _ hm hdot
  rw [fixedValue?, Text.Decimal.value?_eq_none hdot (by decide), lookup_eq_none_of_notMem hp]
  rfl

/-! ## The symbol rule -/

/-- The name a symbol is made from. -/
def given? : Symbol → Option String
  | static unit _ => some unit
  | named name => some name
  | returnSite callee _ => some callee
  | _ => none

end Symbol

theorem isSymbol_append {s t : List Char} (hs : isSymbol s) (ht : t.all isSymbolChar) : isSymbol (s ++ t) := by
  cases s with
  | nil => cases hs
  | cons c cs => simp_all [isSymbol]

theorem all_isSymbolChar_toDigits (n : Nat) : (Nat.toDigits 10 n).all isSymbolChar := by
  rw [List.all_eq_true]
  intro c hc
  simp [isSymbolChar, Char.isAlphanum, Nat.isDigit_of_mem_toDigits (by decide) (by decide) hc]

/-- A symbol made from a name that satisfies the symbol rule satisfies it as well. -/
theorem Symbol.isSymbol_text {s : Symbol} (h : ∀ name ∈ s.given?, isSymbol name.toList) : isSymbol s.text.toList := by
  have hn := all_isSymbolChar_toDigits
  cases s with
  | sp | lcl | arg | this | that => decide
  | named name => exact h name rfl
  | ram n => simpa [text] using isSymbol_append (s := ['R']) (by decide) (hn n)
  | static unit i =>
    have ht : ('.' :: Nat.toDigits 10 i.toNat).all isSymbolChar := by simp [hn, isSymbolChar]
    simpa [text] using isSymbol_append (h unit rfl) ht
  | holds c n =>
    have ht : ('.' :: (Nat.toDigits 10 n ++ "$TRUE".toList)).all isSymbolChar := by simp [hn, isSymbolChar]
    simpa [text] using isSymbol_append (s := c.stem.toList) (by cases c <;> decide) ht
  | done c n =>
    have ht : ('.' :: (Nat.toDigits 10 n ++ "$END".toList)).all isSymbolChar := by simp [hn, isSymbolChar]
    simpa [text] using isSymbol_append (s := c.stem.toList) (by cases c <;> decide) ht
  | returnSite callee n =>
    have ht : ("$Ret.".toList ++ Nat.toDigits 10 n).all isSymbolChar := by simp [hn, isSymbolChar]
    simpa [text] using isSymbol_append (h callee rfl) ht

/-- A symbol is no number. -/
theorem value?_of_isSymbol {s : List Char} (h : isSymbol s) : Text.Decimal.value? s = none := by
  cases s with
  | nil => rfl
  | cons c cs =>
    have hc : c.isDigit = false := by simp_all [isSymbol]
    exact Text.Decimal.value?_eq_none List.mem_cons_self hc

end HackStack
