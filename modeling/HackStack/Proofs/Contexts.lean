import HackStack.Proofs.ProgramOutcome
/-!
# What code depends on

Beside its command, code depends on the unit and on the counters. `Line.Matches` compares two lines
that were emitted at the same place in two contexts: they are equal, but for the unit of a static
cell and for the number of a generated label.

- `number_matches`: the same commands give matching lines
- `emitAll_matches`: so do the same batches, and the sources behind other sources

The relation compares symbols and not their texts, as a name of the sources may be written like a
generated label, and such a name stays the same.
-/

namespace HackStack

/-! ## How contexts differ -/

/-- How far the counters of two contexts are apart. -/
structure Offset where
  compare : Comparison → Int
  call : Int

namespace Counters

def offset (n n' : Counters) : Offset where
  compare c := n.get c - n'.get c
  call := n.call - n'.call

theorem get_next (n : Counters) (c k : Comparison) : (n.next c).get k = n.get k + if c = k then 1 else 0 := by
  cases c <;> cases k <;> rfl

/-- Counters that count the same commands stay as far apart as they are. -/
theorem offset_after (n n' : Counters) (c : Command) : (n.after c).offset (n'.after c) = n.offset n' := by
  cases c with
  | operate op =>
    cases op with
    | compare k =>
      have hcompare : ∀ c, ((n.next k).get c : Int) - (n'.next k).get c = n.get c - n'.get c := by
        intro c
        rw [get_next, get_next]
        omega
      have hcall : (n.next k).call = n.call ∧ (n'.next k).call = n'.call := by cases k <;> exact ⟨rfl, rfl⟩
      simp only [after, offset, hcompare, hcall]
    | _ => rfl
  | call name args =>
    have hcompare : ∀ c, ({ n with call := n.call + 1 } : Counters).get c = n.get c := by intro c; cases c <;> rfl
    have hcompare' : ∀ c, ({ n' with call := n'.call + 1 } : Counters).get c = n'.get c := by intro c; cases c <;> rfl
    simp only [after, offset, hcompare, hcompare']
    congr 1
    omega
  | _ => rfl

end Counters

/-- The same symbol in two contexts. A static cell is in a unit of its context, and the numbers of a generated label
are as far apart as the counters of its kind. -/
def Symbol.Matches (names : String → String → Prop) (o : Offset) : Symbol → Symbol → Prop
  | static unit i, static unit' i' => names unit unit' ∧ i = i'
  | holds c k, holds c' k' | done c k, done c' k' => c = c' ∧ (k : Int) - k' = o.compare c
  | returnSite callee k, returnSite callee' k' => callee = callee' ∧ (k : Int) - k' = o.call
  | s, s' => s = s'

/-- The same line in two contexts. -/
def Line.Matches (names : String → String → Prop) (o : Offset) : Line → Line → Prop
  | label s, label s' | symbol s, symbol s' => s.Matches names o s'
  | l, l' => l = l'

/-! ## Code -/

section Code
variable {names : String → String → Prop} {unit unit' : String} (hu : names unit unit')
include hu

theorem Segment.place_matches (n n' : Counters) (s : Segment) (i : UInt16) :
    List.Forall₂ (Line.Matches names (n.offset n')) (s.place unit i).pushCode (s.place unit' i).pushCode ∧
      List.Forall₂ (Line.Matches names (n.offset n')) (s.place unit i).popCode (s.place unit' i).popCode := by
  -- line by line, the two codes are the same but for the unit of a static cell
  cases s
  case statics => repeat' first | exact hu | constructor
  case pointer => by_cases hi : i = 0 <;> simp only [place, hi, if_true, if_false] <;> repeat' constructor
  all_goals repeat' constructor

theorem Command.code_matches (n n' : Counters) (c : Command) :
    List.Forall₂ (Line.Matches names (n.offset n')) (c.code unit n) (c.code unit' n') := by
  cases c with
  | push s i => exact (s.place_matches hu n n' i).1
  | pop s i => exact (s.place_matches hu n n' i).2
  | operate op => cases op <;> repeat' constructor
  | function name locals =>
    have hzero : ∀ l ∈ pushZero, l.Matches names (n.offset n') l := by
      simp [pushZero, Line.Matches, Symbol.Matches]
    exact List.forall₂_same.2 (forall_mem_functionCode locals rfl hzero)
  | _ => repeat' constructor

end Code

/-! ## Runs -/

namespace Piece
variable {names : String → String → Prop}

theorem lines_matches {unit unit' : String} (hu : names unit unit') (n n' : Counters) (c : Command) (echo : Bool) :
    List.Forall₂ (Line.Matches names (n.offset n')) ((command unit n c).lines echo) ((command unit' n' c).lines echo) := by
  refine List.rel_append ?_ (c.code_matches hu n n')
  cases echo <;> simp [remark, Line.Matches]

/-- The same commands in units that correspond give matching lines, wherever the counters start. -/
theorem number_matches {cs cs' : List (String × Command)}
    (h : List.Forall₂ (fun x x' => names x.1 x'.1 ∧ x.2 = x'.2) cs cs') (n n' : Counters) (echo : Bool) :
    List.Forall₂ (Line.Matches names (n.offset n')) ((number n cs).flatMap (lines echo))
      ((number n' cs').flatMap (lines echo)) := by
  induction h generalizing n n' with
  | nil => exact .nil
  | @cons x x' cs cs' hx _ ih =>
    obtain ⟨unit, c⟩ := x
    obtain ⟨unit', c'⟩ := x'
    obtain ⟨hu, rfl⟩ := hx
    have hrest := ih (n.after c) (n'.after c)
    rw [Counters.offset_after] at hrest
    exact List.rel_append (lines_matches hu n n' c echo) hrest

end Piece

/-! ## Sources behind other sources -/

namespace Program

/-- The counters behind the start code and the commands of some units. -/
def countersAfter (units : List SourceUnit) (bootstrap : Bool) : Counters :=
  (pieces units bootstrap).foldl Piece.after {}

theorem commands_append (s t : List SourceUnit) : commands (s ++ t) = commands s ++ commands t :=
  List.flatMap_append

theorem pieces_append (s t : List SourceUnit) (bootstrap : Bool) :
    pieces (s ++ t) bootstrap = pieces s bootstrap ++ Piece.number (countersAfter s bootstrap) (commands t) := by
  cases bootstrap
  · exact (congrArg (Piece.number {}) (commands_append s t)).trans (Piece.number_append _ _ _)
  · have h := Piece.number_append {} (("", .call entryPoint 0) :: commands s) (commands t)
    rw [List.cons_append, ← commands_append] at h
    exact congrArg (Piece.start :: ·) h

theorem compile_append_ok_iff (s t : List SourceUnit) (bootstrap echo : Bool) :
    (∃ lines, compile (s ++ t) bootstrap echo = .ok lines) ↔
      (∃ front, compile s bootstrap echo = .ok front) ∧ ∃ code, compile t false echo = .ok code := by
  simp only [compile_ok_iff_read, exists_mapM_ok_iff, List.forall_mem_append]

theorem pieces_commands (units : List SourceUnit) (bootstrap : Bool) :
    (pieces units bootstrap).filterMap Piece.command? =
      (if bootstrap then [.call entryPoint 0] else []) ++ (commands units).map Prod.snd := by
  cases bootstrap
  · exact Piece.filterMap_command?_number _ _
  · exact Piece.filterMap_command?_number _ _

/-- Behind some units each counter has grown by the commands of its kind, and by the call of the start code. -/
theorem offset_countersAfter (units : List SourceUnit) (bootstrap : Bool) :
    (countersAfter units bootstrap).offset {} =
      { compare := fun c => comparisons c ((commands units).map Prod.snd)
        call := (callees ((commands units).map Prod.snd)).length + if bootstrap then 1 else 0 } := by
  have hget (cs : List Command) (c : Comparison) : (Counters.count {} cs).get c = comparisons c cs := by
    cases c <;> exact Nat.zero_add _
  have hcall (cs : List Command) : (Counters.count {} cs).call = (callees cs).length := Nat.zero_add _
  have hzero (c : Comparison) : Counters.get {} c = 0 := by cases c <;> rfl
  rw [countersAfter, Piece.foldl_after, pieces_commands]
  cases bootstrap <;> simp [Counters.offset, hget, hcall, hzero, comparisons, callees]

/-- The code of later units is their own code with its generated labels counted on from the units in front. -/
theorem compile_append {s t : List SourceUnit} {bootstrap echo : Bool} {lines : List Line}
    (h : compile (s ++ t) bootstrap echo = .ok lines) :
    ∃ front back code, compile s bootstrap echo = .ok front ∧ compile t false echo = .ok code ∧ lines = front ++ back ∧
      List.Forall₂ (Line.Matches Eq ((countersAfter s bootstrap).offset {})) back code := by
  obtain ⟨⟨front, hfront⟩, code, hcode⟩ := (compile_append_ok_iff s t bootstrap echo).1 ⟨lines, h⟩
  refine ⟨front, (Piece.number (countersAfter s bootstrap) (commands t)).flatMap (Piece.lines echo), code, hfront,
    hcode, ?_, ?_⟩
  · rw [(compile_lines h).1, pieces_append, List.flatMap_append, ← (compile_lines hfront).1]
  · rw [(compile_lines hcode).1]
    exact Piece.number_matches (List.forall₂_same.2 fun _ _ => ⟨rfl, rfl⟩) _ _ echo

end Program

/-! ## Batches -/

namespace Emitter

/-- Two emitters with the same setting for comments add matching lines for the same commands. -/
theorem appendAll_matches {e e' : Emitter} (hecho : e.echo = e'.echo) (cs : List Command) :
    ∃ added added',
      (e.appendAll cs).lines.toList = e.lines.toList ++ added ∧
      (e'.appendAll cs).lines.toList = e'.lines.toList ++ added' ∧
      List.Forall₂ (Line.Matches (fun unit unit' => unit = e.unit ∧ unit' = e'.unit) (e.counters.offset e'.counters))
        added added' := by
  refine ⟨_, _, (e.appendAll_wrote cs).lines, (e'.appendAll_wrote cs).lines, ?_⟩
  rw [hecho]
  refine Piece.number_matches ?_ _ _ e'.echo
  rw [List.forall₂_map_left_iff, List.forall₂_map_right_iff]
  exact List.forall₂_same.2 fun c _ => ⟨⟨rfl, rfl⟩, rfl⟩

/-- Two emitters that both write comments, or both do not, take up the same commands of a batch and fail at the same one
with the same error. The lines they add match one by one: they are equal, but for the unit of a static cell, which
is that of each emitter, and for the numbers of generated labels, which are as far apart as the counters of that
kind were. Hence the code of sources behind other sources is their own, without start code, and with generated
labels counted on from the commands in front. -/
theorem emitAll_matches (e e' : Emitter) (hecho : e.echo = e'.echo) (cs : List SourceCommand) :
    (∃ done rest added added', cs = done ++ rest ∧ (∀ c ∈ done, c.command.check = .ok ()) ∧
      (rest = [] ∧ (e.perform (emitAll cs)).2 = .ok () ∧ (e'.perform (emitAll cs)).2 = .ok () ∨
        ∃ c tail cause, rest = c :: tail ∧ c.command.check = .error cause ∧
          (e.perform (emitAll cs)).2 = .error { line := c.line, text := c.text, cause } ∧
          (e'.perform (emitAll cs)).2 = .error { line := c.line, text := c.text, cause }) ∧
      (e.perform (emitAll cs)).1.lines.toList = e.lines.toList ++ added ∧
      (e'.perform (emitAll cs)).1.lines.toList = e'.lines.toList ++ added' ∧
      List.Forall₂ (Line.Matches (fun unit unit' => unit = e.unit ∧ unit' = e'.unit) (e.counters.offset e'.counters))
        added added') ∧
    ∀ s t bootstrap echo,
      ((∃ lines, Program.compile (s ++ t) bootstrap echo = .ok lines) ↔
        (∃ front, Program.compile s bootstrap echo = .ok front) ∧ ∃ code, Program.compile t false echo = .ok code) ∧
      ∀ lines, Program.compile (s ++ t) bootstrap echo = .ok lines → ∃ front back code,
        Program.compile s bootstrap echo = .ok front ∧ Program.compile t false echo = .ok code ∧
        lines = front ++ back ∧
        List.Forall₂ (Line.Matches Eq
          { compare := fun c => comparisons c ((Program.commands s).map Prod.snd)
            call := (callees ((Program.commands s).map Prod.snd)).length + if bootstrap then 1 else 0 }) back code := by
  refine ⟨?_, fun s t bootstrap echo => ⟨Program.compile_append_ok_iff s t bootstrap echo, fun lines h => ?_⟩⟩
  · obtain ⟨done, rest, result, rfl, hdone, hbatch, hrest⟩ := emitAll_cases cs
    obtain ⟨added, added', hadded, hadded', hmatch⟩ := appendAll_matches hecho (done.map (·.command))
    rw [hbatch, hbatch]
    refine ⟨done, rest, added, added', rfl, hdone, ?_, hadded, hadded', hmatch⟩
    rcases hrest with ⟨rfl, rfl⟩ | ⟨c, tail, cause, rfl, hc, rfl⟩
    · exact .inl ⟨rfl, rfl, rfl⟩
    · exact .inr ⟨c, tail, cause, rfl, hc, rfl, rfl⟩
  · rw [← Program.offset_countersAfter]
    exact Program.compile_append h

/-- Emitters of two units, one of them new, and a batch that fails at its last command; and two units behind the start
code. -/
theorem emitAll_matches_units :
    (let e : Emitter := { unit := "A", counters := { eq := 2, call := 5 } }
    let e' : Emitter := { unit := "B" }
    let cs : List SourceCommand := [⟨1, "eq", .operate (.compare .eq)⟩, ⟨2, "push static 3", .push .statics 3⟩,
      ⟨3, "call f 0", .call "f" 0⟩, ⟨4, "pop constant 0", .pop .constant 0⟩]
    e.echo = e'.echo ∧ ∃ added added',
      (e.perform (emitAll cs)).1.lines.toList = added ∧ (e'.perform (emitAll cs)).1.lines.toList = added' ∧
      List.Forall₂ (Line.Matches (fun unit unit' => unit = "A" ∧ unit' = "B")
        (Counters.offset { eq := 2, call := 5 } {})) added added') ∧
    ∃ front back code,
      Program.compile [⟨"A", "eq"⟩] true false = .ok front ∧
      Program.compile [⟨"B", "eq\npush static 0"⟩] false false = .ok code ∧
      Program.compile [⟨"A", "eq"⟩, ⟨"B", "eq\npush static 0"⟩] true false = .ok (front ++ back) ∧
      List.Forall₂ (Line.Matches Eq
        { compare := fun c => comparisons c ((Program.commands [⟨"A", "eq"⟩]).map Prod.snd)
          call := (callees ((Program.commands [⟨"A", "eq"⟩]).map Prod.snd)).length + if true then 1 else 0 })
        back code := by
  constructor
  · intro e e' cs
    obtain ⟨_, _, added, added', -, -, -, hadded, hadded', hmatch⟩ := (emitAll_matches e e' rfl cs).1
    exact ⟨rfl, added, added', hadded, hadded', hmatch⟩
  · have h : Program.compile ([⟨"A", "eq"⟩] ++ [⟨"B", "eq\npush static 0"⟩]) true false =
        .ok ([.start, .command "" {} (.call entryPoint 0), .command "A" { call := 1 } (.operate (.compare .eq)),
          .command "B" { eq := 1, call := 1 } (.operate (.compare .eq)),
          .command "B" { eq := 2, call := 1 } (.push .statics 0)].flatMap (Piece.lines false)) := by
      decide +kernel
    obtain ⟨front, back, code, hfront, hcode, hlines, hmatch⟩ :=
      ((emitAll_matches {} {} rfl []).2 [⟨"A", "eq"⟩] [⟨"B", "eq\npush static 0"⟩] true false).2 _ h
    rw [hlines] at h
    exact ⟨front, back, code, hfront, hcode, h, hmatch⟩

end Emitter

end HackStack
