import HackStack.Proofs.Blocks
import HackStack.Proofs.Symbols
/-!
# Programs the assembler can read

A command that was read has a name that satisfies the symbol rule, and numbers in
the code of a checked command fit an address instruction. Hence the assembler takes
every line of a program whose units are named by symbols (`compile_readable`).
-/

namespace HackStack

/-! ## Lines -/

namespace Line

/-- Numbers fit an address instruction, and symbols are made from names that satisfy the symbol rule. -/
def Regular : Line → Prop
  | number n => n ≤ maxImmediate
  | symbol s | label s => ∀ name ∈ s.given?, isSymbol name.toList
  | _ => True

theorem Regular.readable {l : Line} (h : l.Regular) : l.Readable := by
  cases l with
  | number n => simp [Readable, read?_text, show n ≤ maxImmediate from h]
  | symbol s =>
    have hs := Symbol.isSymbol_text h
    simp [Readable, read?_text, readOperand?, value?_of_isSymbol hs, hs]
  | label s => simp [Readable, read?_text, Symbol.isSymbol_text h]
  | comment | set | jump => simp [Readable, read?_text]

end Line

/-! ## Code -/

/-- The label or function a command is about. -/
def Command.name? : Command → Option String
  | label name | goto name | ifGoto name | function name _ | call name _ => some name
  | _ => none

/-- Whether the command passes its check and its name satisfies the symbol rule. -/
structure Command.Sound (c : Command) : Prop where
  check : c.check = .ok ()
  name : ∀ name ∈ c.name?, isSymbol name.toList

theorem pushD_regular : ∀ l ∈ pushD, l.Regular := by simp [pushD, Line.Regular, Symbol.given?]

theorem popD_regular : ∀ l ∈ popD, l.Regular := by simp [popD, Line.Regular, Symbol.given?]

/-- What a place is made from is in the rule, if its index is in the span and its unit is named by a symbol. -/
def Place.Regular : Place → Prop
  | immediate n => n.toNat ≤ maxImmediate
  | based base offset => (Line.symbol base).Regular ∧ offset.toNat ≤ maxImmediate
  | direct s => (Line.symbol s).Regular

theorem Segment.place_regular {unit : String} {i : UInt16} {s : Segment} {d : Direction} (hi : i.toNat < s.span d)
    (hu : isSymbol unit.toList) : (s.place unit i).Regular := by
  cases s with
  | constant =>
    have hn : i.toNat ≤ maxImmediate := by
      rw [span] at hi
      split at hi <;> omega
    exact hn
  | locals | arguments | this | that =>
    exact ⟨by simp [Line.Regular, Symbol.given?], Nat.le_of_lt_succ hi⟩
  | statics => simpa [place, Place.Regular, Line.Regular, Symbol.given?] using hu
  | pointer => simp [place, Place.Regular, Line.Regular]; split <;> simp [Symbol.given?]
  | temp => simp [place, Place.Regular, Line.Regular, Symbol.given?]

namespace Place
variable {p : Place} (h : p.Regular)
include h

theorem pushCode_regular : ∀ l ∈ p.pushCode, l.Regular := by
  cases p with
  | immediate n =>
    have hn : n.toNat ≤ maxImmediate := h
    exact List.forall_mem_append.2 ⟨by simp [Line.Regular, hn], pushD_regular⟩
  | based base offset =>
    obtain ⟨hb, ho⟩ := h
    exact List.forall_mem_append.2 ⟨by simp [hb]; simp [Line.Regular, ho], pushD_regular⟩
  | direct s =>
    have hs : (Line.symbol s).Regular := h
    exact List.forall_mem_append.2 ⟨by simp [hs]; simp [Line.Regular], pushD_regular⟩

theorem popCode_regular : ∀ l ∈ p.popCode, l.Regular := by
  cases p with
  | immediate n => simp [popCode]
  | based base offset =>
    obtain ⟨hb, ho⟩ := h
    refine List.forall_mem_append.2 ⟨List.forall_mem_append.2 ⟨?_, popD_regular⟩, ?_⟩
    · simp [hb]; simp [Line.Regular, Symbol.given?, ho]
    · simp [Line.Regular, Symbol.given?]
  | direct s =>
    have hs : (Line.symbol s).Regular := h
    exact List.forall_mem_append.2 ⟨popD_regular, by simp [hs]; simp [Line.Regular]⟩

end Place

theorem Operator.code_regular (n : Counters) (op : Operator) : ∀ l ∈ op.code n, l.Regular := by
  cases op <;>
    simp [code, binaryCode, unaryCode, compareCode, popUnder, popD, Line.Regular, Symbol.given?]

theorem callCode_regular {callee : String} {args : UInt16} {n : Nat} (hc : isSymbol callee.toList)
    (ha : args.toNat ≤ maxArgs) : ∀ l ∈ callCode callee args n, l.Regular := by
  have hn : frameSize + args.toNat ≤ maxImmediate := by rw [maxArgs] at ha; simp [frameSize, maxImmediate] at *; omega
  simp [callCode, pushD, Line.Regular, Symbol.given?, hc, hn]

/-- The code of a sound command is regular. A call takes nothing from the name of its unit. -/
theorem Command.code_regular {unit : String} {n : Counters} {c : Command} (h : c.Sound)
    (hu : isSymbol unit.toList ∨ c.kind = .call) : ∀ l ∈ c.code unit n, l.Regular := by
  obtain ⟨hok, hc⟩ := h
  cases c with
  | operate op => exact op.code_regular n
  | push s i =>
    have hp := s.place_regular ((s.checkIndex_ok_iff .push i).1 hok) (hu.resolve_right (by simp [kind]))
    exact Place.pushCode_regular hp
  | pop s i =>
    have hp := s.place_regular ((s.checkIndex_ok_iff .pop i).1 hok) (hu.resolve_right (by simp [kind]))
    exact Place.popCode_regular hp
  | label name => simp [code, Line.Regular, Symbol.given?, hc name rfl]
  | goto name => simp [code, Line.Regular, Symbol.given?, hc name rfl]
  | ifGoto name => simp [code, popD, Line.Regular, Symbol.given?, hc name rfl]
  | function name locals =>
    have hlabel : (Line.label (.named name)).Regular := by simp [Line.Regular, Symbol.given?, hc name rfl]
    have hzero : ∀ l ∈ pushZero, l.Regular := by simp [pushZero, Line.Regular, Symbol.given?]
    exact forall_mem_functionCode locals hlabel hzero
  | call name args => exact callCode_regular (hc name rfl) ((checkArgs_ok_iff args).1 hok)
  | ret => simp [code, returnCode, popD, Line.Regular, Symbol.given?, frameSize, maxImmediate]

/-! ## Commands that were read -/

section Except
variable {ε α β : Type} {x : Except ε α}

theorem bind_eq_ok {f : α → Except ε β} {b : β} : x >>= f = .ok b ↔ ∃ a, x = .ok a ∧ f a = .ok b := by
  cases x with
  | ok a => exact ⟨fun h => ⟨a, rfl, h⟩, fun ⟨_, ha, h⟩ => by cases ha; exact h⟩
  | error e => exact ⟨nofun, fun ⟨_, ha, _⟩ => nomatch ha⟩

theorem map_eq_ok {f : α → β} {b : β} : f <$> x = .ok b ↔ ∃ a, x = .ok a ∧ f a = b := by
  rw [map_eq_pure_bind, bind_eq_ok]
  exact exists_congr fun a => and_congr_right fun _ => Except.ok.injEq (f a) b ▸ Iff.rfl

end Except

namespace Command

theorem readSymbol_ok {w name : String} (h : readSymbol w = .ok name) : isSymbol name.toList := by
  unfold readSymbol at h
  split at h
  · cases h; assumption
  · cases h

theorem readTransfer_ok {d : Direction} {segment index : String} {c : Command}
    (h : readTransfer d segment index = .ok c) : c.check = .ok () ∧ c.name? = none := by
  simp only [readTransfer, bind_eq_ok] at h
  obtain ⟨s, -, i, -, _, hi, h⟩ := h
  cases d <;> cases h <;> exact ⟨hi, rfl⟩

/-- A command that was read is sound. -/
theorem ofWords_ok {ws : List String} {c : Command} (h : ofWords ws = .ok c) : c.Sound := by
  rw [ofWords.eq_def] at h
  split at h
  · cases h
  · split at h
    case h_2 | h_3 =>
      obtain ⟨hc, hn⟩ := readTransfer_ok h
      exact ⟨hc, by simp [hn]⟩
    case h_4 | h_5 | h_6 =>
      obtain ⟨name, hn, rfl⟩ := map_eq_ok.1 h
      exact ⟨rfl, fun _ he => by cases he; exact readSymbol_ok hn⟩
    case h_7 =>
      simp only [bind_eq_ok] at h
      obtain ⟨name, hn, k, -, h⟩ := h
      cases h
      exact ⟨rfl, fun _ he => by cases he; exact readSymbol_ok hn⟩
    case h_8 =>
      simp only [bind_eq_ok] at h
      obtain ⟨name, hn, args, -, _, ha, h⟩ := h
      cases h
      exact ⟨ha, fun _ he => by cases he; exact readSymbol_ok hn⟩
    case h_9 | h_10 => cases h; exact ⟨rfl, nofun⟩
    all_goals cases h

end Command

theorem Source.read_sound {text : String} {cs : List SourceCommand} (h : Source.read text = .ok cs) :
    ∀ c ∈ cs, c.command.Sound := by
  unfold read at h
  generalize entries text = es at h
  induction es generalizing cs with
  | nil => cases h; simp
  | cons e es ih =>
    rw [List.mapM_cons, bind_eq_ok] at h
    obtain ⟨c, hc, h⟩ := h
    obtain ⟨rest, hrest, h⟩ := bind_eq_ok.1 h
    cases h
    rw [readEntry] at hc
    split at hc
    · next c' hc' => cases hc; exact List.forall_mem_cons.2 ⟨Command.ofWords_ok hc', ih hrest⟩
    · cases hc

/-! ## Programs -/

namespace Program

theorem sound_entry : (Command.call entryPoint 0).Sound := ⟨rfl, by simp [Command.name?]; decide⟩

theorem commands_sound (units : List SourceUnit) : ∀ x ∈ commands units, x.2.Sound := by
  intro x hx
  obtain ⟨u, -, cs, hcs, c, hc, rfl⟩ := mem_commands.1 hx
  exact Source.read_sound hcs c hc

theorem commands_unit {units : List SourceUnit} {x : String × Command} (h : x ∈ commands units) :
    ∃ u ∈ units, u.name = x.1 := by
  obtain ⟨u, hu, _, -, _, -, rfl⟩ := mem_commands.1 h
  exact ⟨u, hu, rfl⟩

/-- The assembler takes every line of a program whose units are named by symbols. -/
theorem compile_readable {units : List SourceUnit} {bootstrap echo : Bool} {lines : List Line}
    (h : compile units bootstrap echo = .ok lines) (hu : ∀ u ∈ units, isSymbol u.name.toList) :
    ∀ l ∈ lines, l.Readable := by
  have hcode : ∀ p ∈ pieces units bootstrap, ∀ l ∈ p.code, l.Regular := by
    intro p hp
    rcases mem_pieces hp with ⟨-, rfl | ⟨n, rfl⟩⟩ | ⟨unit, n, c, rfl, hc⟩
    · simp [Piece.code, Line.Regular, Symbol.given?, stackBase, maxImmediate]
    · exact @Command.code_regular "" n _ sound_entry (.inr rfl)
    · obtain ⟨u, hm, rfl⟩ := commands_unit hc
      exact Command.code_regular (commands_sound units _ hc) (.inl (hu u hm))
  intro l hl
  rw [(compile_lines h).1] at hl
  obtain ⟨p, hp, hl⟩ := List.mem_flatMap.1 hl
  rcases List.mem_append.1 hl with he | hc
  · split at he
    · obtain rfl := List.mem_singleton.1 he
      exact Line.Regular.readable trivial
    · cases he
  · exact (hcode p hp l hc).readable

end Program

end HackStack
