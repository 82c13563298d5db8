import HackStack.Proofs.Grammar
/-!
# Reading with combinators

A line can be read with parsers that are put together from a few given ones. `Combinators` are these parsers
and the ways to put them together, and `Combinators.Lawful` says what they do. The order of the checks is that of
`Combinators.ofWords`.

`read_eq`: whatever the combinators are, if they do this, such a reader is `Command.read`. The alternatives for
the operators may be tried in their order as none is the beginning of another, and a line that has been trimmed
neither begins nor ends with a gap.
-/

namespace HackStack

/-- A parser of what is in front of a text: what is left of the text, and what it has read. -/
abbrev Parser (α : Type) := List Char → Option (List Char × α)

/-- Parsers, and ways to put parsers together. -/
structure Combinators where
  digits : Parser (List Char)
  gap : Parser (List Char)
  oneOf (set : List Char) : Parser (List Char)
  noneOf (set : List Char) : Parser (List Char)
  tag (text : List Char) : Parser (List Char)
  map {α β : Type} (p : Parser α) (f : α → β) : Parser β
  tryMap {α β : Type} (p : Parser α) (f : α → Option β) : Parser β
  verify {α : Type} (p : Parser α) (f : α → Bool) : Parser α
  constant {α β : Type} (b : β) (p : Parser α) : Parser β
  firstOf {α : Type} (ps : List (Parser α)) : Parser α
  complete {α : Type} (p : Parser α) : Parser α
  separated {α β : Type} (sep : Parser β) (p : Parser α) : Parser (List α)

namespace Combinators

/-- The longest run of such characters, at least one. -/
def run (f : Char → Bool) : Parser (List Char) := fun s =>
  if s.takeWhile f = [] then none else some (s.dropWhile f, s.takeWhile f)

/-- What the parsers read, and what comes of putting parsers together. -/
structure Lawful (k : Combinators) : Prop where
  digits : k.digits = run Char.isDigit
  gap : k.gap = run Text.isGap
  oneOf (set : List Char) : k.oneOf set = run (set.contains ·)
  noneOf (set : List Char) : k.noneOf set = run (!set.contains ·)
  tag (text s : List Char) : k.tag text s = if text <+: s then some (s.drop text.length, text) else none
  map {α β : Type} (p : Parser α) (f : α → β) (s : List Char) : k.map p f s = (p s).map fun x => (x.1, f x.2)
  tryMap {α β : Type} (p : Parser α) (f : α → Option β) (s : List Char) :
    k.tryMap p f s = (p s).bind fun x => (f x.2).map (x.1, ·)
  verify {α : Type} (p : Parser α) (f : α → Bool) (s : List Char) : k.verify p f s = (p s).filter (f ·.2)
  constant {α β : Type} (b : β) (p : Parser α) (s : List Char) : k.constant b p s = (p s).map fun x => (x.1, b)
  firstOf {α : Type} (ps : List (Parser α)) (s : List Char) : k.firstOf ps s = ps.findSome? (· s)
  /-- All of the text has to be read. -/
  complete {α : Type} (p : Parser α) (s : List Char) : k.complete p s = (p s).filter (·.1.isEmpty)
  /-- The last one is that behind which no separator follows with another one behind it. -/
  separated_last {α β : Type} {sep : Parser β} {p : Parser α} {s rest : List Char} {a : α} (hp : p s = some (rest, a))
    (hend : (sep rest).bind (fun x => p x.1) = none) : k.separated sep p s = some (rest, [a])
  separated_more {α β : Type} {sep : Parser β} {p : Parser α} {s rest back : List Char} {a : α} {b : β}
    (hp : p s = some (rest, a)) (hsep : sep rest = some (back, b)) (hback : (p back).isSome)
    (hrest : rest.length ≤ s.length) (hshorter : back.length < rest.length) :
    k.separated sep p s = (k.separated sep p back).map fun x => (x.1, a :: x.2)
  separated_none {α β : Type} {sep : Parser β} {p : Parser α} {s : List Char} (hp : p s = none) :
    k.separated sep p s = none

/-! ## Plain combinators -/

/-- Reads one, and then others as long as each is shorter than what was read before. -/
def separatedBy {α β : Type} (sep : Parser β) (p : Parser α) (s : List Char) : Option (List Char × List α) :=
  match p s with
  | none => none
  | some (rest, a) =>
    match sep rest with
    | none => some (rest, [a])
    | some (back, _) =>
      if back.length < s.length then
        match separatedBy sep p back with
        | none => some (rest, [a])
        | some (rest', as) => some (rest', a :: as)
      else some (rest, [a])
termination_by s.length

theorem separatedBy_isSome {α β : Type} {sep : Parser β} {p : Parser α} {s : List Char} (h : (p s).isSome) :
    (separatedBy sep p s).isSome := by
  obtain ⟨⟨rest, a⟩, hp⟩ := Option.isSome_iff_exists.1 h
  rw [separatedBy, hp]
  dsimp only
  repeat' split
  all_goals rfl

/-- Combinators that do just what they have to. -/
def plain : Combinators where
  digits := run Char.isDigit
  gap := run Text.isGap
  oneOf set := run (set.contains ·)
  noneOf set := run (!set.contains ·)
  tag text s := if text <+: s then some (s.drop text.length, text) else none
  map p f s := (p s).map fun x => (x.1, f x.2)
  tryMap p f s := (p s).bind fun x => (f x.2).map (x.1, ·)
  verify p f s := (p s).filter (f ·.2)
  constant b p s := (p s).map fun x => (x.1, b)
  firstOf ps s := ps.findSome? (· s)
  complete p s := (p s).filter (·.1.isEmpty)
  separated := separatedBy

theorem plain_lawful : plain.Lawful where
  digits := rfl
  gap := rfl
  oneOf _ := rfl
  noneOf _ := rfl
  tag _ _ := rfl
  map _ _ _ := rfl
  tryMap _ _ _ := rfl
  verify _ _ _ := rfl
  constant _ _ _ := rfl
  firstOf _ _ := rfl
  complete _ _ := rfl
  separated_none hp := by
    change separatedBy _ _ _ = none
    rw [separatedBy, hp]
  separated_last {α β sep p s rest a} hp hend := by
    change separatedBy sep p s = some (rest, [a])
    rw [separatedBy, hp]
    dsimp only
    cases hsep : sep rest with
    | none => rfl
    | some x =>
      have hnone : separatedBy sep p x.1 = none := by
        rw [separatedBy, show p x.1 = none by simpa [hsep] using hend]
      dsimp only
      rw [hnone, ite_self]
  separated_more {α β sep p s rest back a b} hp hsep hback hrest hshorter := by
    change separatedBy sep p s = (separatedBy sep p back).map fun x => (x.1, a :: x.2)
    have hothers : (separatedBy sep p back).isSome := separatedBy_isSome hback
    obtain ⟨x, hx⟩ := Option.isSome_iff_exists.1 hothers
    rw [separatedBy, hp]
    dsimp only
    rw [hsep]
    dsimp only
    rw [if_pos (Nat.lt_of_lt_of_le hshorter hrest), hx]
    rfl

/-! ## The reader -/

/-- The characters of a symbol. -/
def symbolChars : List Char :=
  "abcdefghijklmnopqrstuvwxyzABCDEFGHIJKLMNOPQRSTUVWXYZ_.$:0123456789".toList

def operators : List Operator :=
  [.add, .sub, .neg, .compare .eq, .compare .gt, .compare .lt, .and, .or, .not]

variable (k : Combinators)

def number : Parser UInt16 := k.tryMap k.digits Text.Decimal.word?

def symbol : Parser String :=
  k.map (k.verify (k.oneOf symbolChars) fun cs => !cs.head?.any Char.isDigit) String.ofList

def operator : Parser Operator := k.firstOf (operators.map fun op => k.constant op (k.tag op.name.toList))

def words : Parser (List (List Char)) := k.separated k.gap (k.noneOf [' ', '\t'])

/-- What the parser reads from the whole text. -/
def whole {α : Type} (p : Parser α) (s : List Char) : Option α := (k.complete p s).map (·.2)

def readNumber (w : String) : Except CommandError UInt16 :=
  match k.whole k.number w.toList with
  | some n => .ok n
  | none => .error (.badNumber w)

def readSymbol (w : String) : Except CommandError String :=
  match k.whole k.symbol w.toList with
  | some n => .ok n
  | none => .error (.badSymbol w)

def expectWords (words : List String) (count : Nat) : Except CommandError Unit :=
  if words.length = count then .ok ()
  else .error (.operandCount (words.headD "") (count - 1) (words.length - 1))

def readTransfer (d : Direction) (words : List String) : Except CommandError Command := do
  expectWords words 3
  let s ← Command.readSegment (words.getD 1 "")
  let i ← k.readNumber (words.getD 2 "")
  s.checkIndex d i
  return match d with
    | .push => .push s i
    | .pop => .pop s i

def ofWords (words : List String) : Except CommandError Command :=
  match words.headD "" with
  | "push" => k.readTransfer .push words
  | "pop" => k.readTransfer .pop words
  | "label" => do
    expectWords words 2
    return .label (← k.readSymbol (words.getD 1 ""))
  | "goto" => do
    expectWords words 2
    return .goto (← k.readSymbol (words.getD 1 ""))
  | "if-goto" => do
    expectWords words 2
    return .ifGoto (← k.readSymbol (words.getD 1 ""))
  | "function" => do
    expectWords words 3
    return .function (← k.readSymbol (words.getD 1 "")) (← k.readNumber (words.getD 2 ""))
  | "call" => do
    expectWords words 3
    let name ← k.readSymbol (words.getD 1 "")
    let args ← k.readNumber (words.getD 2 "")
    checkArgs args
    return .call name args
  | "return" => do
    expectWords words 1
    return .ret
  | w =>
    match k.whole k.operator w.toList with
    | none => .error (.unknownCommand w)
    | some op => do
      expectWords words 1
      return .operate op

def read (line : String) : Except CommandError Command :=
  match k.whole k.words (Text.trim line.toList) with
  | none => .error .empty
  | some words => k.ofWords (words.map String.ofList)

/-! ## Runs and counts -/

theorem run_append {f : Char → Bool} {w s : List Char} (hw : w ≠ []) (hin : ∀ c ∈ w, f c)
    (hend : ∀ c ∈ s.head?, f c = false) : run f (w ++ s) = some (s, w) := by
  have hnone : s.takeWhile f = [] ∧ s.dropWhile f = s := by
    cases s with
    | nil => exact ⟨rfl, rfl⟩
    | cons c s => simp [hend c rfl]
  rw [run, List.takeWhile_append_of_pos hin, List.dropWhile_append_of_pos hin, hnone.1, hnone.2, List.append_nil,
    if_neg hw]

theorem dropWhile_gap {s : List Char} (h : ∀ c ∈ s.head?, Text.isGap c = false) : s.dropWhile Text.isGap = s := by
  cases s with
  | nil => rfl
  | cons c s => exact List.dropWhile_cons_of_neg (by simp [h c rfl])

theorem contains_symbolChars (c : Char) : symbolChars.contains c = isSymbolChar c := by
  by_cases hc : c.toNat < 128
  · have htable : ∀ n < 128, symbolChars.contains (Char.ofNat n) = isSymbolChar (Char.ofNat n) := by decide +kernel
    simpa using htable c.toNat hc
  · have hset : symbolChars.all (·.toNat < 128) := by decide
    have hno : symbolChars.contains c = false := by
      rw [Bool.eq_false_iff, ne_eq, List.contains_iff_mem]
      exact fun hmem => hc (of_decide_eq_true (List.all_eq_true.1 hset c hmem))
    have hnot : isSymbolChar c = false := by
      rw [Bool.eq_false_iff]
      intro hsymbol
      have hvisible := Text.visible_of_isSymbolChar hsymbol
      omega
    rw [hno, hnot]

theorem expectWords_bind {α : Type} (w : String) (operands : List String) (arity : Nat)
    (f : Unit → Except CommandError α) :
    expectWords (w :: operands) (arity + 1) >>= f =
      if operands.length = arity then f () else .error (.operandCount w arity operands.length) := by
  rw [expectWords, List.length_cons]
  by_cases h : operands.length = arity
  · rw [if_pos (congrArg (· + 1) h), if_pos h]
    rfl
  · rw [if_neg (by omega), if_neg h]
    rfl

section
variable {k} (hk : k.Lawful)
include hk

/-! ## Whole words -/

theorem whole_eq {α : Type} (p : Parser α) (s : List Char) :
    k.whole p s = (p s).bind fun x => if x.1 = [] then some x.2 else none := by
  rw [whole, hk.complete]
  rcases p s with _ | ⟨rest, a⟩
  · rfl
  · cases rest <;> rfl

theorem whole_map {α β : Type} (p : Parser α) (f : α → β) (s : List Char) :
    k.whole (k.map p f) s = (k.whole p s).map f := by
  rw [whole_eq hk, whole_eq hk, hk.map]
  rcases p s with _ | ⟨rest, a⟩
  · rfl
  · cases rest <;> rfl

theorem whole_tryMap {α β : Type} (p : Parser α) (f : α → Option β) (s : List Char) :
    k.whole (k.tryMap p f) s = (k.whole p s).bind f := by
  rw [whole_eq hk, whole_eq hk, hk.tryMap]
  rcases p s with _ | ⟨rest, a⟩
  · rfl
  · cases hf : f a <;> cases rest <;> simp [hf]

theorem whole_verify {α : Type} (p : Parser α) (f : α → Bool) (s : List Char) :
    k.whole (k.verify p f) s = (k.whole p s).filter f := by
  rw [whole_eq hk, whole_eq hk, hk.verify]
  rcases p s with _ | ⟨rest, a⟩
  · rfl
  · cases hf : f a <;> cases rest <;> simp [hf, Option.filter_some]

/-- A run is the whole text if all characters are such. -/
theorem whole_run {p : Parser (List Char)} {f : Char → Bool} (hp : p = run f) (s : List Char) :
    k.whole p s = if s ≠ [] ∧ s.all f then some s else none := by
  rw [whole_eq hk, hp, run]
  by_cases hall : ∀ c ∈ s, f c
  · have htake : s.takeWhile f = s := List.takeWhile_eq_self_iff.2 hall
    have hdrop : s.dropWhile f = [] := List.dropWhile_eq_nil_iff.2 hall
    by_cases hs : s = []
    · simp [hs]
    · simp [htake, hdrop, hs, List.all_eq_true.2 hall]
  · have hdrop : s.dropWhile f ≠ [] := mt List.dropWhile_eq_nil_iff.1 hall
    have hnot : s.all f = false := by simpa using hall
    by_cases hs : s.takeWhile f = []
    · simp [hs, hnot]
    · simp [hs, hnot, hdrop]

theorem whole_number (s : List Char) : k.whole k.number s = Text.Decimal.word? s := by
  rw [number, whole_tryMap hk, whole_run hk hk.digits]
  split
  · rfl
  · next h =>
    rw [Text.Decimal.word?, Text.Decimal.value?, if_neg h]
    rfl

theorem whole_symbol (s : List Char) : k.whole k.symbol s = if isSymbol s then some (String.ofList s) else none := by
  rw [symbol, whole_map hk, whole_verify hk, whole_run hk (hk.oneOf symbolChars)]
  have hchars : s.all (symbolChars.contains ·) = s.all isSymbolChar := by
    simp only [contains_symbolChars]
  rw [hchars]
  cases s with
  | nil => rfl
  | cons c cs =>
    cases hall : (c :: cs).all isSymbolChar <;> cases hdigit : c.isDigit <;>
      simp [isSymbol, hall, hdigit, Option.filter_some]

/-! ## Operators -/

theorem operator_eq (s : List Char) :
    k.operator s = operators.findSome? fun op =>
      if op.name.toList <+: s then some (s.drop op.name.toList.length, op) else none := by
  rw [operator, hk.firstOf, List.findSome?_map]
  congr 1
  funext op
  rw [Function.comp_apply, hk.constant, hk.tag]
  split <;> rfl

/-- What an alternative in front leaves is never all of another. -/
theorem whole_operator (w : String) : k.whole k.operator w.toList = Operator.ofName? w := by
  rw [whole_eq hk, operator_eq hk]
  cases hop : Operator.ofName? w with
  | some op =>
    obtain rfl := Operator.ofName?_eq_some_iff.1 hop
    rcases op with _ | _ | _ | _ | _ | _ | (_ | _ | _) <;> decide
  | none =>
    rw [Option.bind_eq_none_iff]
    rintro ⟨rest, op⟩ hfound
    obtain ⟨op', -, hop'⟩ := List.exists_of_findSome?_eq_some hfound
    split at hop'
    · next hprefix =>
      cases hop'
      refine if_neg fun hrest => ?_
      obtain ⟨back, hback⟩ := hprefix
      rw [← hback, List.drop_left] at hrest
      dsimp only at hrest
      rw [hrest, List.append_nil, String.toList_inj] at hback
      rw [← hback, Operator.ofName?_name] at hop
      cases hop
    · cases hop'

/-! ## Words -/

theorem noneOf_gap : k.noneOf [' ', '\t'] = run (!Text.isGap ·) := by
  have hgap (c : Char) : [' ', '\t'].contains c = Text.isGap c := by simp [Text.isGap, Bool.beq_eq_decide_eq]
  simp only [hk.noneOf, hgap]

/-- The runs of a text that ends in one are its words, as long as there is no gap in front of the first. -/
theorem words_of_runs {s : List Char} {ws : List (List Char)} (h : Text.Runs s ws) (hne : s ≠ [])
    (hlast : ∀ c ∈ s.getLast?, Text.isGap c = false) : k.words (s.dropWhile Text.isGap) = some ([], ws) := by
  induction h with
  | nil => exact absurd rfl hne
  | @gap c s ws hc _ ih =>
    cases s with
    | nil =>
      rw [hlast c rfl] at hc
      cases hc
    | cons d s =>
      rw [List.dropWhile_cons_of_pos hc]
      exact ih (List.cons_ne_nil d s) (by rwa [List.getLast?_cons_cons] at hlast)
  | @run w s ws hw hin hend h ih =>
    have hfront : (w ++ s).dropWhile Text.isGap = w ++ s := by
      refine dropWhile_gap fun c hc => hin c ?_
      rw [List.head?_append_of_ne_nil _ hw] at hc
      exact List.mem_of_mem_head? hc
    have hword : k.noneOf [' ', '\t'] (w ++ s) = some (s, w) := by
      rw [noneOf_gap hk]
      exact run_append hw (fun c hc => by simp [hin c hc]) fun c hc => by simp [hend c hc]
    rw [hfront, words]
    by_cases hs : s = []
    · obtain rfl : ws = [] := (Text.runs_iff.1 h).trans (by rw [hs]; rfl)
      refine (hk.separated_last hword ?_).trans (by rw [hs])
      rw [hs, hk.gap]
      rfl
    · have hrest := ih hs (by rwa [List.getLast?_append_of_ne_nil w hs] at hlast)
      have hgap : s.takeWhile Text.isGap ≠ [] ∧ (s.dropWhile Text.isGap).length < s.length := by
        obtain ⟨c, cs, rfl⟩ := List.exists_cons_of_ne_nil hs
        have hle := List.length_dropWhile_le Text.isGap cs
        simp only [List.takeWhile_cons_of_pos (hend c rfl), List.dropWhile_cons_of_pos (hend c rfl), List.length_cons]
        exact ⟨List.cons_ne_nil _ _, Nat.lt_succ_of_le hle⟩
      have hsep : k.gap s = some (s.dropWhile Text.isGap, s.takeWhile Text.isGap) := by
        rw [hk.gap, run, if_neg hgap.1]
      have hback : (k.noneOf [' ', '\t'] (s.dropWhile Text.isGap)).isSome := by
        rw [Option.isSome_iff_ne_none]
        intro hnone
        rw [words, hk.separated_none hnone] at hrest
        cases hrest
      have hlength : s.length ≤ (w ++ s).length := by simp
      rw [hk.separated_more hword hsep hback hlength hgap.2, ← words, hrest]
      rfl

theorem whole_words {s : List Char} (hhead : ∀ c ∈ s.head?, Text.isGap c = false)
    (hlast : ∀ c ∈ s.getLast?, Text.isGap c = false) :
    k.whole k.words s = if s = [] then none else some (Text.words s) := by
  rw [whole_eq hk]
  split
  · next hs =>
    have hnone : k.noneOf [' ', '\t'] [] = none := by
      rw [hk.noneOf]
      rfl
    rw [hs, words, hk.separated_none hnone]
    rfl
  · next hs =>
    have hwords := words_of_runs hk (Text.runs_iff.2 rfl) hs hlast
    rw [dropWhile_gap hhead] at hwords
    rw [hwords]
    rfl

/-! ## Lines -/

theorem readNumber_eq (w : String) : k.readNumber w = Command.readNumber w := by
  rw [readNumber, whole_number hk]
  rfl

theorem readSymbol_eq (w : String) : k.readSymbol w = Command.readSymbol w := by
  rw [readSymbol, whole_symbol hk, Command.readSymbol, String.ofList_toList]
  cases isSymbol w.toList <;> rfl

theorem ofWords_operator (op : Operator) (operands : List String) :
    k.ofWords (op.name :: operands) = do expectWords (op.name :: operands) 1; return .operate op := by
  have hop : k.ofWords (op.name :: operands) =
      match k.whole k.operator op.name.toList with
      | none => .error (.unknownCommand op.name)
      | some op' => do
        expectWords (op.name :: operands) 1
        return .operate op' := by
    rcases op with _ | _ | _ | _ | _ | _ | (_ | _ | _) <;> rfl
  rw [hop, whole_operator hk, Operator.ofName?_name]

/-- The words of a command with as many operands as it takes. -/
theorem ofWords_operands {key : Keyword} {operands : List String} (h : operands.length = key.arity) :
    k.ofWords (key.name :: operands) = Command.ofWords (key.name :: operands) := by
  cases key with
  | push | pop =>
    obtain ⟨s, i, rfl⟩ := List.length_eq_two.1 h
    refine (expectWords_bind _ _ _ _).trans ((if_pos rfl).trans ?_)
    rw [readNumber_eq hk]
    rfl
  | function | call =>
    obtain ⟨n, m, rfl⟩ := List.length_eq_two.1 h
    refine (expectWords_bind _ _ _ _).trans ((if_pos rfl).trans ?_)
    rw [readSymbol_eq hk, readNumber_eq hk]
    rfl
  | label | goto | ifGoto =>
    obtain ⟨n, rfl⟩ := List.length_eq_one_iff.1 h
    refine (expectWords_bind _ _ _ _).trans ((if_pos rfl).trans ?_)
    rw [readSymbol_eq hk]
    exact (map_eq_pure_bind _ _).symm
  | ret =>
    obtain rfl := List.length_eq_zero_iff.1 h
    rfl
  | operate op =>
    obtain rfl := List.length_eq_zero_iff.1 h
    rw [Keyword.name, ofWords_operator hk]
    rcases op with _ | _ | _ | _ | _ | _ | (_ | _ | _) <;> rfl

theorem ofWords_eq (w : String) (operands : List String) :
    k.ofWords (w :: operands) = Command.ofWords (w :: operands) := by
  cases hw : Keyword.ofName? w with
  | none =>
    have hop : Operator.ofName? w = none := by
      rw [Option.eq_none_iff_forall_ne_some]
      rintro op hop
      obtain rfl := Operator.ofName?_eq_some_iff.1 hop
      exact absurd ((Keyword.ofName?_name (.operate op)).symm.trans hw) (Option.some_ne_none _)
    rw [Command.ofWords.eq_def]
    dsimp only
    rw [hw, ofWords]
    dsimp only
    have hname (key : Keyword) : w ≠ key.name := by
      rintro rfl
      exact absurd ((Keyword.ofName?_name key).symm.trans hw) (Option.some_ne_none _)
    split
    · next h => exact absurd h (hname .push)
    · next h => exact absurd h (hname .pop)
    · next h => exact absurd h (hname .label)
    · next h => exact absurd h (hname .goto)
    · next h => exact absurd h (hname .ifGoto)
    · next h => exact absurd h (hname .function)
    · next h => exact absurd h (hname .call)
    · next h => exact absurd h (hname .ret)
    · rw [List.headD_cons, whole_operator hk, hop]
  | some key =>
    obtain rfl := Keyword.eq_name hw
    by_cases h : operands.length = key.arity
    · exact ofWords_operands hk h
    · rw [Command.ofWords_arity h]
      cases key with
      | operate op =>
        rw [Keyword.name, ofWords_operator hk]
        exact (expectWords_bind _ _ _ _).trans (if_neg h)
      | _ => exact (expectWords_bind _ _ _ _).trans (if_neg h)

/-- Such a reader reads every line as `Command.read` does, with the same failures. -/
theorem read_eq (line : String) : k.read line = Command.read line := by
  obtain ⟨-, hhead, hlast⟩ := Text.trims_trim line.toList
  have hgap {c : Char} (h : Text.isBlank c = false) : Text.isGap c = false := by
    rw [Bool.eq_false_iff] at h ⊢
    exact fun hgap => h (Text.isBlank_of_isGap hgap)
  rw [read, Command.read]
  generalize Text.trim line.toList = s at *
  rw [whole_words hk (fun c hc => hgap (hhead c hc)) fun c hc => hgap (hlast c hc)]
  by_cases hs : s = []
  · rw [if_pos hs, hs]
    rfl
  · rw [if_neg hs]
    dsimp only
    cases hws : Text.words s with
    | cons w ws => exact ofWords_eq hk _ _
    | nil =>
      -- a text without words is all gap, but this one does not begin with a gap
      cases Text.runs_iff.2 hws.symm with
      | nil => exact absurd rfl hs
      | gap hc _ =>
        rw [hgap (hhead _ rfl)] at hc
        cases hc

end

example (line : String) : plain.read line = Command.read line := read_eq plain_lawful line

end Combinators
end HackStack
