import HackStack.Proofs.Readable
import HackStack.Proofs.SpacedWords
/-!
# Spelling a command

`Command.spell` gives the words of a command, with any number of zeros in front of its
number. The canonical form of a command is its words without such zeros and with single
spaces (`display_eq`).

- `ofWords_spell`: reading the words of a command gives the command if it passes its check, and fails like the check if not
- `read_spaced_eq`: so does reading them with any gaps between them
-/

namespace HackStack

/-! ## Numbers -/

namespace Text.Decimal

/-- The digits of a number behind zeros. -/
def padded (zeros n : Nat) : List Char := List.replicate zeros '0' ++ Nat.toDigits 10 n

theorem padded_ne_nil (zeros n : Nat) : padded zeros n ≠ [] := by simp [padded, Nat.toDigits_ne_nil]

theorem isDigit_of_mem_padded {zeros n : Nat} {c : Char} (h : c ∈ padded zeros n) : c.isDigit := by
  rcases List.mem_append.1 h with hz | hd
  · obtain rfl := List.eq_of_mem_replicate hz
    rfl
  · exact Nat.isDigit_of_mem_toDigits (by decide) (by decide) hd

theorem value?_padded (zeros n : Nat) : value? (padded zeros n) = some n := by
  have hd : (padded zeros n).all Char.isDigit = true := List.all_eq_true.2 fun _ hc => isDigit_of_mem_padded hc
  rw [value?, if_pos ⟨padded_ne_nil zeros n, hd⟩, padded, Nat.ofDigitChars_append, Nat.ofDigitChars_replicate_zero,
    Nat.mul_zero, Nat.ofDigitChars_ten_toDigits]

theorem word?_padded (zeros : Nat) (n : UInt16) : word? (padded zeros n.toNat) = some n := by
  rw [word?, value?_padded]
  show dite _ _ _ = _
  rw [dif_pos n.toNat_lt, UInt16.ofNatLT_toNat]

end Text.Decimal

/-! ## Commands -/

namespace Command

/-- The words of a command, with zeros in front of its number. -/
def spell (zeros : Nat) : Command → List (List Char)
  | operate op => [op.name.toList]
  | push s i => ["push".toList, s.name.toList, Text.Decimal.padded zeros i.toNat]
  | pop s i => ["pop".toList, s.name.toList, Text.Decimal.padded zeros i.toNat]
  | label n => ["label".toList, n.toList]
  | goto n => ["goto".toList, n.toList]
  | ifGoto n => ["if-goto".toList, n.toList]
  | function n k => ["function".toList, n.toList, Text.Decimal.padded zeros k.toNat]
  | call n k => ["call".toList, n.toList, Text.Decimal.padded zeros k.toNat]
  | ret => ["return".toList]

theorem spell_ne_nil (c : Command) (zeros : Nat) : c.spell zeros ≠ [] := by
  cases c <;> simp [spell]

/-- The canonical form of a command is its words with single spaces. -/
theorem display_eq (c : Command) : c.display.toList = Text.spaced (fun _ => .space) (c.spell 0) := by
  cases c <;> simp [display, spell, Text.spaced, Text.Gap.space, Text.Decimal.padded]

theorem readSymbol_of_isSymbol {name : String} (h : isSymbol name.toList) : readSymbol name = .ok name := by
  rw [readSymbol, if_pos h]

theorem readNumber_padded (zeros : Nat) (n : UInt16) :
    readNumber (String.ofList (Text.Decimal.padded zeros n.toNat)) = .ok n := by
  rw [readNumber, String.toList_ofList, Text.Decimal.word?_padded]

theorem readTransfer_words (d : Direction) (s : Segment) (i : UInt16) (zeros : Nat) :
    readTransfer d s.name (String.ofList (Text.Decimal.padded zeros i.toNat)) = do
      s.checkIndex d i
      return match d with
        | .push => push s i
        | .pop => pop s i := by
  rw [readTransfer, readSegment, Segment.ofName?_name, readNumber_padded]
  rfl

/-- Reading the words of a command gives it back if it passes its check, and fails like the check if not. -/
theorem ofWords_spell {c : Command} (hn : ∀ name ∈ c.name?, isSymbol name.toList) (zeros : Nat) :
    ofWords ((c.spell zeros).map String.ofList) = (fun _ => c) <$> c.check := by
  cases c with
  | operate op => rcases op with _ | _ | _ | _ | _ | _ | (_ | _ | _) <;> rfl
  | push s i | pop s i =>
    simp only [spell, List.map_cons, List.map_nil, String.ofList_toList]
    exact (readTransfer_words _ s i zeros).trans (map_eq_pure_bind _ _).symm
  | label name | goto name | ifGoto name =>
    simp [spell, ofWords, Keyword.ofName?, readSymbol_of_isSymbol (hn name rfl), check]
  | function name k =>
    have hname := readSymbol_of_isSymbol (hn name rfl)
    simp only [spell, List.map_cons, List.map_nil, String.ofList_toList]
    exact bind_eq_ok.2 ⟨name, hname, bind_eq_ok.2 ⟨k, readNumber_padded zeros k, rfl⟩⟩
  | call name k =>
    have hname := readSymbol_of_isSymbol (hn name rfl)
    have hwords : ofWords ["call", name, String.ofList (Text.Decimal.padded zeros k.toNat)] = do
        let name ← readSymbol name
        let args ← readNumber (String.ofList (Text.Decimal.padded zeros k.toNat))
        checkArgs args
        return call name args := rfl
    simp only [spell, List.map_cons, List.map_nil, String.ofList_toList]
    rw [hwords, hname, readNumber_padded]
    exact (map_eq_pure_bind (fun _ => call name k) (checkArgs k)).symm
  | ret => rfl

end Command

/-! ## The words of a command -/

open Text

theorem isWord_padded (zeros n : Nat) : IsWord (Decimal.padded zeros n) := by
  refine ⟨Decimal.padded_ne_nil zeros n, fun c hc => isInk_of_isSymbolChar ?_⟩
  have hd := Decimal.isDigit_of_mem_padded hc
  simp [isSymbolChar, Char.isAlphanum, hd]

theorem Segment.isWord_name (s : Segment) : IsWord s.name.toList := by
  cases s <;> exact isWord_of_all (by decide)

theorem Operator.isWord_name (op : Operator) : IsWord op.name.toList := by
  rcases op with _ | _ | _ | _ | _ | _ | (_ | _ | _) <;> exact isWord_of_all (by decide)

namespace Command
variable {c : Command} (hn : ∀ name ∈ c.name?, isSymbol name.toList)
include hn

theorem isWord_of_mem_spell {zeros : Nat} : ∀ w ∈ c.spell zeros, IsWord w := by
  intro w hw
  cases c <;> simp only [spell, List.mem_cons, List.not_mem_nil, or_false] at hw
  case operate op =>
    obtain rfl := hw
    exact op.isWord_name
  case push s i | pop s i =>
    rcases hw with rfl | rfl | rfl
    · exact isWord_of_all (by decide)
    · exact s.isWord_name
    · exact isWord_padded zeros _
  case label name | goto name | ifGoto name =>
    rcases hw with rfl | rfl
    · exact isWord_of_all (by decide)
    · exact isWord_of_isSymbol (hn name rfl)
  case function name k | call name k =>
    rcases hw with rfl | rfl | rfl
    · exact isWord_of_all (by decide)
    · exact isWord_of_isSymbol (hn name rfl)
    · exact isWord_padded zeros _
  case ret =>
    obtain rfl := hw
    exact isWord_of_all (by decide)

/-- However its words are spaced, a command has ink and gaps only. -/
theorem ink_of_mem_spaced {gap : Nat → Gap} {zeros : Nat} {x : Char} (hx : x ∈ spaced gap (c.spell zeros)) :
    isInk x ∨ isGap x := by
  rcases mem_spaced hx with hg | ⟨w, hw, hx⟩
  · exact .inr hg
  · exact .inl ((isWord_of_mem_spell hn w hw).ink x hx)

/-- Reading a command does not depend on how its words are spaced. -/
theorem read_spaced_eq (gap : Nat → Gap) (zeros : Nat) :
    read (String.ofList (spaced gap (c.spell zeros))) = (fun _ => c) <$> c.check := by
  have hword : ∀ w ∈ c.spell zeros, IsWord w := isWord_of_mem_spell hn
  have htrim := trim_spaced gap (a := []) (b := []) hword (c.spell_ne_nil zeros) (by simp) (by simp)
  rw [List.nil_append, List.append_nil] at htrim
  rw [read, String.toList_ofList, htrim, words_spaced gap hword, ofWords_spell hn]

/-- Reading the canonical form of a command gives it back if it passes its check, and fails like the check if not. -/
theorem read_display_eq : read c.display = (fun _ => c) <$> c.check := by
  have hread := read_spaced_eq hn (fun _ => .space) 0
  rwa [← display_eq, String.ofList_toList] at hread

omit hn in
/-- A command is read from its words, however they are spaced. -/
theorem read_spaced (h : c.Sound) (gap : Nat → Gap) (zeros : Nat) :
    read (String.ofList (spaced gap (c.spell zeros))) = .ok c := by
  rw [read_spaced_eq h.name, h.check]
  rfl

omit hn in
/-- A command is read from its canonical form. -/
theorem read_display (h : c.Sound) : read c.display = .ok c := by
  rw [read_display_eq h.name, h.check]
  rfl

end Command

end HackStack
