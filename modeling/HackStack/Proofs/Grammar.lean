import HackStack.Proofs.Spelling
import Mathlib.Data.List.Induction
import Mathlib.Data.List.TakeWhile
/-!
# The grammar of a command

`Spells` says which words are a command, one production for each kind, and `Misranged` which words are
one but for an operand out of its range. Neither looks at the order in which a line is checked.

`read_outcome`: a line is read as the command that its words spell. If they spell none, the fault is an
invalid operand if the words are misranged, and a malformed command if they are not.
-/

namespace HackStack

/-! ## The words of a line -/

namespace Text

/-- Blank characters around `t` make it `s`, and `t` has none at its ends. -/
structure Trims (s t : List Char) : Prop where
  between : ∃ a b, s = a ++ t ++ b ∧ (∀ c ∈ a, isBlank c) ∧ ∀ c ∈ b, isBlank c
  head : ∀ c ∈ t.head?, isBlank c = false
  last : ∀ c ∈ t.getLast?, isBlank c = false

/-- The longest runs of characters other than space and tab, in order. -/
inductive Runs : List Char → List (List Char) → Prop
  | nil : Runs [] []
  | gap {c : Char} {s : List Char} {ws : List (List Char)} (hc : isGap c) (h : Runs s ws) : Runs (c :: s) ws
  | run {w s : List Char} {ws : List (List Char)} (hw : w ≠ []) (hin : ∀ c ∈ w, isGap c = false)
    (hend : ∀ c ∈ s.head?, isGap c) (h : Runs s ws) : Runs (w ++ s) (w :: ws)

theorem head?_dropWhile {p : Char → Bool} (s : List Char) : ∀ c ∈ (s.dropWhile p).head?, p c = false := by
  intro c hc
  have hnot := s.head?_dropWhile_not p
  rw [Option.mem_def.1 hc] at hnot
  exact hnot

theorem trims_trim (s : List Char) : Trims s (trim s) := by
  have hfront : s = s.takeWhile isBlank ++ s.dropWhile isBlank := List.takeWhile_append_dropWhile.symm
  generalize hu : s.dropWhile isBlank = u at hfront
  have hback : u = trim s ++ (u.reverse.takeWhile isBlank).reverse := by
    rw [trim, hu, ← List.reverse_append, List.takeWhile_append_dropWhile, List.reverse_reverse]
  refine ⟨⟨s.takeWhile isBlank, (u.reverse.takeWhile isBlank).reverse, ?_, ?_, ?_⟩, ?_, ?_⟩
  · rw [List.append_assoc, ← hback]
    exact hfront
  · exact fun c hc => List.mem_takeWhile_imp hc
  · exact fun c hc => List.mem_takeWhile_imp (List.mem_reverse.1 hc)
  · intro c hc
    by_cases hne : trim s = []
    · rw [hne] at hc
      cases hc
    · have hhead : u.head? = (trim s).head? := by
        conv_lhs => rw [hback]
        exact List.head?_append_of_ne_nil _ hne
      rw [← hhead, ← hu] at hc
      exact head?_dropWhile s c hc
  · intro c hc
    rw [trim, List.getLast?_reverse] at hc
    exact head?_dropWhile _ c hc

theorem trims_iff {s t : List Char} : Trims s t ↔ t = trim s := by
  constructor
  · rintro ⟨⟨a, b, rfl, ha, hb⟩, hhead, hlast⟩
    by_cases ht : t = []
    · subst ht
      rw [List.append_nil]
      exact (trim_blank (List.forall_mem_append.2 ⟨ha, hb⟩)).symm
    · exact (trim_between ha hb ht hhead hlast).symm
  · rintro rfl
    exact trims_trim s

theorem Runs.words_eq {s : List Char} {ws : List (List Char)} (h : Runs s ws) : ws = words s := by
  induction h with
  | nil => rfl
  | gap hc _ ih => rw [words_gap hc, ih]
  | run hw hin hend _ ih => rw [words_run hw hin hend, ih]

theorem exists_runs (s : List Char) : ∃ ws, Runs s ws := by
  induction hn : s.length using Nat.strong_induction_on generalizing s with
  | _ n ih =>
    cases s with
    | nil => exact ⟨[], .nil⟩
    | cons c s =>
      cases hc : isGap c with
      | true =>
        obtain ⟨ws, h⟩ := ih s.length (by rw [← hn]; simp) s rfl
        exact ⟨ws, .gap hc h⟩
      | false =>
        -- the first run goes on to the next gap
        have hsplit : c :: s = (c :: s.takeWhile (!isGap ·)) ++ s.dropWhile (!isGap ·) := by
          rw [List.cons_append, List.takeWhile_append_dropWhile]
        have hshort : (s.dropWhile (!isGap ·)).length < n := by
          have hle := List.length_dropWhile_le (!isGap ·) s
          rw [← hn, List.length_cons]
          omega
        obtain ⟨ws, h⟩ := ih _ hshort _ rfl
        rw [hsplit]
        refine ⟨_ :: ws, .run (List.cons_ne_nil c _) (List.forall_mem_cons.2 ⟨hc, ?_⟩) ?_ h⟩
        · intro x hx
          simpa using List.mem_takeWhile_imp hx
        · intro x hx
          simpa using head?_dropWhile s x hx

theorem runs_iff {s : List Char} {ws : List (List Char)} : Runs s ws ↔ ws = words s := by
  constructor
  · exact Runs.words_eq
  · rintro rfl
    obtain ⟨ws, h⟩ := exists_runs s
    exact h.words_eq ▸ h

/-- The words of a line: it is trimmed, and then its runs are taken. -/
def IsWords (line : String) (ws : List String) : Prop :=
  ∃ text, Trims line.toList text ∧ Runs text (ws.map String.toList)

theorem isWords_iff {line : String} {ws : List String} :
    IsWords line ws ↔ ws = (words (trim line.toList)).map String.ofList := by
  have hmap : ws.map String.toList = words (trim line.toList) ↔ ws = (words (trim line.toList)).map String.ofList := by
    constructor
    · intro h
      rw [← h, List.map_map]
      simp [Function.comp_def]
    · rintro rfl
      rw [List.map_map]
      simp [Function.comp_def]
  rw [← hmap]
  simp only [IsWords, trims_iff, runs_iff, exists_eq_left]

/-! ## Numbers -/

namespace Decimal

theorem digit_eq {c : Char} (h : c.isDigit) :
    Nat.toDigits 10 (c.toNat - '0'.toNat) = [c] ∧ c.toNat - '0'.toNat < 10 := by
  have hc : 48 ≤ c.toNat ∧ c.toNat ≤ 57 := by
    delta Char.isDigit at h
    simpa [UInt32.le_iff_toNat_le] using h
  have hlt : c.toNat - '0'.toNat < 10 := by
    show c.toNat - 48 < 10
    omega
  refine ⟨?_, hlt⟩
  rw [Nat.toDigits_of_lt_base hlt]
  congr 1
  apply Char.toNat_inj.1
  rw [Nat.toNat_digitChar_of_lt_ten hlt]
  show 48 + (c.toNat - 48) = c.toNat
  omega

/-- Digits are those of their value behind zeros. -/
theorem eq_padded {w : List Char} (hw : w ≠ []) (hd : ∀ c ∈ w, c.isDigit) :
    ∃ zeros, w = padded zeros (Nat.ofDigitChars 10 w 0) := by
  induction w using List.reverseRecOn with
  | nil => exact absurd rfl hw
  | append_singleton v c ih =>
    obtain ⟨hv, hc⟩ := List.forall_mem_append.1 hd
    obtain ⟨hdigit, hlt⟩ := digit_eq (hc c List.mem_cons_self)
    rw [Nat.ofDigitChars_append, Nat.ofDigitChars_cons, Nat.ofDigitChars_nil]
    by_cases hnil : v = []
    · subst hnil
      refine ⟨0, ?_⟩
      rw [Nat.ofDigitChars_nil, Nat.mul_zero, Nat.zero_add, padded, hdigit]
      rfl
    · obtain ⟨zeros, hzeros⟩ := ih hnil hv
      by_cases hm : Nat.ofDigitChars 10 v 0 = 0
      · -- all digits so far are zeros
        refine ⟨zeros + 1, ?_⟩
        rw [hm] at hzeros ⊢
        rw [Nat.mul_zero, Nat.zero_add, padded, hdigit, List.replicate_succ']
        conv_lhs => rw [hzeros]
        rfl
      · refine ⟨zeros, ?_⟩
        rw [padded, ← Nat.toDigits_append_toDigits (by decide) (Nat.pos_of_ne_zero hm) hlt, hdigit, ← List.append_assoc,
          ← padded, ← hzeros]

theorem word?_eq_some_iff {w : List Char} {n : UInt16} : word? w = some n ↔ ∃ zeros, w = padded zeros n.toNat := by
  constructor
  · intro h
    simp only [word?, value?, Option.bind_eq_bind, Option.bind_eq_some_iff] at h
    obtain ⟨m, hm, h⟩ := h
    split at hm
    · next hdigits =>
      obtain ⟨hw, hd⟩ := hdigits
      cases hm
      split at h
      · cases h
        obtain ⟨zeros, hzeros⟩ := eq_padded hw (List.all_eq_true.1 hd)
        exact ⟨zeros, by rwa [UInt16.toNat_ofNatLT]⟩
      · cases h
    · cases hm
  · rintro ⟨zeros, rfl⟩
    exact word?_padded zeros n

end Decimal

end Text

/-! ## Names -/

theorem Segment.ofName?_eq_some_iff {w : String} {s : Segment} : ofName? w = some s ↔ w = s.name := by
  constructor
  · intro h
    unfold ofName? at h
    split at h <;> cases h <;> rfl
  · rintro rfl
    exact ofName?_name s

theorem Segment.ofName?_eq_none_iff {w : String} : ofName? w = none ↔ ∀ s : Segment, w ≠ s.name := by
  rw [Option.eq_none_iff_forall_ne_some]
  exact forall_congr' fun s => not_congr ofName?_eq_some_iff

theorem Operator.ofName?_eq_some_iff {w : String} {op : Operator} : ofName? w = some op ↔ w = op.name := by
  constructor
  · intro h
    unfold ofName? at h
    split at h <;> cases h <;> rfl
  · rintro rfl
    exact ofName?_name op

/-- The word of a transfer. -/
def Direction.word : Direction → String
  | push => "push"
  | pop => "pop"

namespace Keyword

def name : Keyword → String
  | push => "push"
  | pop => "pop"
  | label => "label"
  | goto => "goto"
  | ifGoto => "if-goto"
  | function => "function"
  | call => "call"
  | ret => "return"
  | operate op => op.name

theorem ofName?_name (k : Keyword) : ofName? k.name = some k := by
  cases k with
  | operate op => rcases op with _ | _ | _ | _ | _ | _ | (_ | _ | _) <;> rfl
  | _ => rfl

theorem eq_name {w : String} {k : Keyword} (h : ofName? w = some k) : w = k.name := by
  unfold ofName? at h
  split at h
  case h_9 =>
    obtain ⟨op, hop, rfl⟩ := Option.map_eq_some_iff.1 h
    exact Operator.ofName?_eq_some_iff.1 hop
  all_goals
    cases h
    rfl

end Keyword

/-! ## The grammar -/

namespace Command

/-- A number as it can be written: its digits behind any number of zeros. -/
def IsNumber (w : String) (n : UInt16) : Prop := ∃ zeros, w.toList = Text.Decimal.padded zeros n.toNat

/-- The words that are a command. -/
inductive Spells : List String → Command → Prop
  | operate (op : Operator) : Spells [op.name] (.operate op)
  | ret : Spells ["return"] .ret
  | label {n : String} (hn : isSymbol n.toList) : Spells ["label", n] (.label n)
  | goto {n : String} (hn : isSymbol n.toList) : Spells ["goto", n] (.goto n)
  | ifGoto {n : String} (hn : isSymbol n.toList) : Spells ["if-goto", n] (.ifGoto n)
  | function {n k : String} {locals : UInt16} (hn : isSymbol n.toList) (hk : IsNumber k locals) :
    Spells ["function", n, k] (.function n locals)
  | call {n k : String} {args : UInt16} (hn : isSymbol n.toList) (hk : IsNumber k args) (ha : args.toNat ≤ maxArgs) :
    Spells ["call", n, k] (.call n args)
  | push {s : Segment} {w : String} {i : UInt16} (hw : IsNumber w i) (hi : i.toNat < s.span .push) :
    Spells ["push", s.name, w] (.push s i)
  | pop {s : Segment} {w : String} {i : UInt16} (hw : IsNumber w i) (hi : i.toNat < s.span .pop) :
    Spells ["pop", s.name, w] (.pop s i)

/-- The words that are a command but for an operand out of its range. A segment is looked up before the number
behind it is read, so that need not be one. -/
inductive Misranged : List String → Prop
  | segment {d : Direction} {s w : String} (hs : ∀ segment : Segment, s ≠ segment.name) : Misranged [d.word, s, w]
  | index {d : Direction} {s : Segment} {w : String} {i : UInt16} (hw : IsNumber w i) (hi : s.span d ≤ i.toNat) :
    Misranged [d.word, s.name, w]
  | args {n k : String} {args : UInt16} (hn : isSymbol n.toList) (hk : IsNumber k args) (ha : maxArgs < args.toNat) :
    Misranged ["call", n, k]

/-! ## Words that are read -/

theorem IsNumber.eq_padded {w : String} {n : UInt16} (h : IsNumber w n) :
    ∃ zeros, w = String.ofList (Text.Decimal.padded zeros n.toNat) := by
  obtain ⟨zeros, hw⟩ := h
  exact ⟨zeros, by rw [← hw, String.ofList_toList]⟩

/-- A command's own words, with zeros in front of its number. -/
theorem Spells.exists_spell {ws : List String} {c : Command} (h : Spells ws c) :
    c.Sound ∧ ∃ zeros, ws = (c.spell zeros).map String.ofList := by
  cases h with
  | operate op => exact ⟨⟨rfl, fun _ he => by cases he⟩, 0, by simp [spell]⟩
  | ret => exact ⟨⟨rfl, fun _ he => by cases he⟩, 0, rfl⟩
  | label hn | goto hn | ifGoto hn => exact ⟨⟨rfl, fun _ he => by cases he; exact hn⟩, 0, by simp [spell]⟩
  | function hn hk =>
    obtain ⟨zeros, rfl⟩ := hk.eq_padded
    exact ⟨⟨rfl, fun _ he => by cases he; exact hn⟩, zeros, by simp [spell]⟩
  | call hn hk ha =>
    obtain ⟨zeros, rfl⟩ := hk.eq_padded
    exact ⟨⟨(checkArgs_ok_iff _).2 ha, fun _ he => by cases he; exact hn⟩, zeros, by simp [spell]⟩
  | push hw hi | pop hw hi =>
    obtain ⟨zeros, rfl⟩ := hw.eq_padded
    exact ⟨⟨(Segment.checkIndex_ok_iff _ _ _).2 hi, fun _ he => by cases he⟩, zeros, by simp [spell]⟩

theorem Spells.ofWords_eq {ws : List String} {c : Command} (h : Spells ws c) : ofWords ws = .ok c := by
  obtain ⟨hc, zeros, rfl⟩ := h.exists_spell
  rw [ofWords_spell hc.name, hc.check]
  rfl

/-! ## Words that are not -/

/-- Whether the words are refused with a fault of this class. -/
def Fails (ws : List String) (fault : CommandError.Fault) : Prop := ∃ e, ofWords ws = .error e ∧ e.fault = fault

/-- A check fails for an operand out of its range only. -/
theorem check_error_fault {c : Command} {e : CommandError} (h : c.check = .error e) : e.fault = .invalidOperand := by
  have hindex (s : Segment) (d : Direction) (i : UInt16) (h : s.checkIndex d i = .error e) :
      e.fault = .invalidOperand := by
    unfold Segment.checkIndex at h
    split at h
    case h_1 => cases h; rfl
    case h_5 => cases h
    all_goals
      split at h
      · cases h
      · cases h; rfl
  cases c with
  | push s i => exact hindex s .push i h
  | pop s i => exact hindex s .pop i h
  | call n args =>
    have hargs : checkArgs args = .error e := h
    unfold checkArgs at hargs
    split at hargs
    · cases hargs
    · cases hargs; rfl
  | _ => cases h

/-- The words of a command that does not pass its check. -/
theorem fails_spell {c : Command} (hn : ∀ name ∈ c.name?, isSymbol name.toList) (hc : c.check ≠ .ok ()) (zeros : Nat) :
    Fails ((c.spell zeros).map String.ofList) .invalidOperand := by
  cases hcheck : c.check with
  | ok => exact absurd hcheck hc
  | error e =>
    refine ⟨e, ?_, check_error_fault hcheck⟩
    rw [ofWords_spell hn, hcheck]
    rfl

theorem ofWords_transfer (d : Direction) (s w : String) : ofWords [d.word, s, w] = readTransfer d s w := by
  cases d <;> rfl

theorem Misranged.fails {ws : List String} (h : Misranged ws) : Fails ws .invalidOperand := by
  cases h with
  | @segment d s w hs =>
    refine ⟨.unknownSegment s, ?_, rfl⟩
    rw [ofWords_transfer, readTransfer, readSegment, Segment.ofName?_eq_none_iff.2 hs]
    rfl
  | @index d s w i hw hi =>
    obtain ⟨zeros, rfl⟩ := hw.eq_padded
    have hcheck : s.checkIndex d i ≠ .ok () := by
      intro hok
      exact absurd ((s.checkIndex_ok_iff d i).1 hok) (Nat.not_lt.2 hi)
    cases d with
    | push => simpa [spell, Direction.word] using fails_spell (c := push s i) (by simp [name?]) hcheck zeros
    | pop => simpa [spell, Direction.word] using fails_spell (c := pop s i) (by simp [name?]) hcheck zeros
  | @args n k args hn hk ha =>
    obtain ⟨zeros, rfl⟩ := hk.eq_padded
    have hcheck : checkArgs args ≠ .ok () := by
      intro hok
      exact absurd ((checkArgs_ok_iff args).1 hok) (Nat.not_le.2 ha)
    have hname : ∀ name ∈ (call n args).name?, isSymbol name.toList := by
      intro name he
      cases he
      exact hn
    simpa [spell] using fails_spell hname hcheck zeros

theorem ofWords_arity {k : Keyword} {operands : List String} (h : operands.length ≠ k.arity) :
    ofWords (k.name :: operands) = .error (.operandCount k.name k.arity operands.length) := by
  rw [ofWords.eq_def]
  dsimp only
  rw [Keyword.ofName?_name]
  split <;> simp_all [Keyword.arity]

theorem fails_arity {k : Keyword} {operands : List String} (h : operands.length ≠ k.arity) :
    Fails (k.name :: operands) .malformed :=
  ⟨_, ofWords_arity h, rfl⟩

/-! ## All words -/

theorem symbol_cases (n : String) : isSymbol n.toList ∨ readSymbol n = .error (.badSymbol n) := by
  unfold readSymbol
  split
  · next h => exact .inl h
  · exact .inr rfl

theorem number_cases (k : String) : (∃ m, IsNumber k m) ∨ readNumber k = .error (.badNumber k) := by
  unfold readNumber
  split
  · next m h => exact .inl ⟨m, Text.Decimal.word?_eq_some_iff.1 h⟩
  · exact .inr rfl

/-- A name and a number, where the name is read first. -/
theorem operands_cases {w : String} {f : String → UInt16 → Except CommandError Command}
    (hread : ∀ n k, ofWords [w, n, k] = do f (← readSymbol n) (← readNumber k)) (n k : String) :
    Fails [w, n, k] .malformed ∨ isSymbol n.toList ∧ ∃ m, IsNumber k m := by
  rcases symbol_cases n with hn | hn
  · rcases number_cases k with hk | hk
    · exact .inr ⟨hn, hk⟩
    · refine .inl ⟨.badNumber k, ?_, rfl⟩
      rw [hread, hk, readSymbol_of_isSymbol hn]
      rfl
  · refine .inl ⟨.badSymbol n, ?_, rfl⟩
    rw [hread, hn]
    rfl

theorem transfer_cases (d : Direction) (s w : String) :
    (∃ c, Spells [d.word, s, w] c) ∨ Misranged [d.word, s, w] ∨ Fails [d.word, s, w] .malformed := by
  cases hs : Segment.ofName? s with
  | none => exact .inr (.inl (.segment (Segment.ofName?_eq_none_iff.1 hs)))
  | some segment =>
    obtain rfl := Segment.ofName?_eq_some_iff.1 hs
    rcases number_cases w with ⟨i, hw⟩ | hw
    · by_cases hi : i.toNat < segment.span d
      · cases d with
        | push => exact .inl ⟨_, .push hw hi⟩
        | pop => exact .inl ⟨_, .pop hw hi⟩
      · exact .inr (.inl (.index hw (Nat.not_lt.1 hi)))
    · refine .inr (.inr ⟨.badNumber w, ?_, rfl⟩)
      rw [ofWords_transfer, readTransfer, readSegment, hs, hw]
      rfl

/-- Words spell a command, or are misranged, or are malformed. -/
theorem ofWords_cases (ws : List String) : (∃ c, Spells ws c) ∨ Misranged ws ∨ Fails ws .malformed := by
  cases ws with
  | nil => exact .inr (.inr ⟨.empty, rfl, rfl⟩)
  | cons w operands =>
    cases hk : Keyword.ofName? w with
    | none =>
      refine .inr (.inr ⟨.unknownCommand w, ?_, rfl⟩)
      rw [ofWords.eq_def]
      dsimp only
      rw [hk]
    | some k =>
      obtain rfl := Keyword.eq_name hk
      by_cases harity : operands.length = k.arity
      · cases k with
        | push =>
          obtain ⟨s, w, rfl⟩ := List.length_eq_two.1 harity
          exact transfer_cases .push s w
        | pop =>
          obtain ⟨s, w, rfl⟩ := List.length_eq_two.1 harity
          exact transfer_cases .pop s w
        | label | goto | ifGoto =>
          obtain ⟨n, rfl⟩ := List.length_eq_one_iff.1 harity
          rcases symbol_cases n with hn | hn
          · exact .inl ⟨_, by constructor; exact hn⟩
          · refine .inr (.inr ⟨.badSymbol n, ?_, rfl⟩)
            exact congrArg (Functor.map _) hn
        | function =>
          obtain ⟨n, k, rfl⟩ := List.length_eq_two.1 harity
          have hread (n k : String) : ofWords ["function", n, k] = do
              return function (← readSymbol n) (← readNumber k) := rfl
          rcases operands_cases hread n k with hfail | ⟨hn, locals, hk⟩
          · exact .inr (.inr hfail)
          · exact .inl ⟨_, .function hn hk⟩
        | call =>
          obtain ⟨n, k, rfl⟩ := List.length_eq_two.1 harity
          have hread (n k : String) : ofWords ["call", n, k] = do
              let name ← readSymbol n
              let args ← readNumber k
              checkArgs args
              return call name args := rfl
          rcases operands_cases (f := fun name args => do checkArgs args; return call name args) hread n k with
            hfail | ⟨hn, args, hk⟩
          · exact .inr (.inr hfail)
          · by_cases ha : args.toNat ≤ maxArgs
            · exact .inl ⟨_, .call hn hk ha⟩
            · exact .inr (.inl (.args hn hk (Nat.not_le.1 ha)))
        | ret =>
          obtain rfl := List.length_eq_zero_iff.1 harity
          exact .inl ⟨_, .ret⟩
        | operate op =>
          obtain rfl := List.length_eq_zero_iff.1 harity
          exact .inl ⟨_, .operate op⟩
      · exact .inr (.inr (fails_arity harity))

/-! ## What a line is read as -/

theorem ofWords_ok_iff {ws : List String} {c : Command} : ofWords ws = .ok c ↔ Spells ws c := by
  constructor
  · intro h
    rcases ofWords_cases ws with ⟨c', hc'⟩ | hm | ⟨e, he, -⟩
    · rw [hc'.ofWords_eq] at h
      cases h
      exact hc'
    · obtain ⟨e, he, -⟩ := hm.fails
      rw [he] at h
      cases h
    · rw [he] at h
      cases h
  · exact Spells.ofWords_eq

/-- A fault is of one class. -/
theorem Fails.unique {ws : List String} {fault fault' : CommandError.Fault} (h : Fails ws fault)
    (h' : Fails ws fault') : fault = fault' := by
  obtain ⟨e, he, rfl⟩ := h
  obtain ⟨e', he', rfl⟩ := h'
  rw [he] at he'
  cases he'
  rfl

theorem Fails.not_spells {ws : List String} {fault : CommandError.Fault} (h : Fails ws fault) : ¬∃ c, Spells ws c := by
  rintro ⟨c, hc⟩
  obtain ⟨e, he, -⟩ := h
  rw [hc.ofWords_eq] at he
  cases he

theorem fails_invalidOperand_iff {ws : List String} : Fails ws .invalidOperand ↔ Misranged ws := by
  constructor
  · intro h
    rcases ofWords_cases ws with hc | hm | hfail
    · exact absurd hc h.not_spells
    · exact hm
    · exact absurd (h.unique hfail) (by decide)
  · exact Misranged.fails

theorem fails_malformed_iff {ws : List String} : Fails ws .malformed ↔ (¬∃ c, Spells ws c) ∧ ¬Misranged ws := by
  constructor
  · intro h
    refine ⟨h.not_spells, fun hm => ?_⟩
    exact absurd (h.unique hm.fails) (by decide)
  · rintro ⟨hspells, hmisranged⟩
    exact ((ofWords_cases ws).resolve_left hspells).resolve_left hmisranged

/-- The words of a line are the longest runs of characters other than space and tab in the trimmed line. The line is
read as the command that these words spell. It fails with an invalid operand if they are a command but for an
operand out of its range, and it is malformed if they are neither. -/
theorem read_outcome (line : String) :
    ∃ ws, (∀ ws', Text.IsWords line ws' ↔ ws' = ws) ∧
      (∀ c, read line = .ok c ↔ Spells ws c) ∧
      ((∃ e, read line = .error e ∧ e.fault = .invalidOperand) ↔ Misranged ws) ∧
      ((∃ e, read line = .error e ∧ e.fault = .malformed) ↔ (¬∃ c, Spells ws c) ∧ ¬Misranged ws) := by
  exact ⟨(Text.words (Text.trim line.toList)).map String.ofList, fun _ => Text.isWords_iff, fun _ => ofWords_ok_iff,
    fails_invalidOperand_iff, fails_malformed_iff⟩

/-- Blank characters other than space and tab do not set words apart. -/
example : read "\u00a0pop\ttemp  007" = .ok (.pop .temp 7) ∧
    read "pop\u00a0temp 7" = .error (.unknownCommand "pop\u00a0temp") := by
  decide +kernel

end Command

end HackStack
