import HackStack.Proofs.LegalAssembly
import HackStack.Proofs.ProgramOutcome
/-!
# Comments in the output

If comments are wanted, each piece of the output begins with one. Code has none of its own, and no
other line is written like one, so the text of a line tells whether to take it out again.

`compile_comments`: without its comments an output is the one that is made without them. The comments
are the commands of the sources, and each can be read again.
-/

namespace HackStack

/-- Only a comment is written like one. -/
theorem Line.startsWith_text (l : Line) : l.text.startsWith "//" = l.isComment := by
  have hhead {x : Char} {s : List Char} (hs : l.text.toList = x :: s) (hx : x ≠ '/') :
      l.text.startsWith "//" = false := by
    rw [String.startsWith_string_eq_false_iff, hs]
    exact fun hp => hx (List.cons_prefix_cons.1 hp).1.symm
  cases l with
  | comment t => simp [text, isComment]
  | label s => exact hhead (x := '(') (by simp [text]; rfl) (by decide)
  | number n => exact hhead (x := '@') (by simp [text]; rfl) (by decide)
  | symbol s => exact hhead (x := '@') (by simp [text]; rfl) (by decide)
  | set dest c =>
    obtain ⟨x, s, hd, hx, -⟩ := Dest.text_head dest
    exact hhead (by rw [toList_set, hd]; rfl) hx
  | jump c j =>
    obtain ⟨x, s, hc, hx, -⟩ := Comp.text_head c
    exact hhead (by rw [toList_jump, hc]; rfl) hx

/-! ## Pieces -/

namespace Piece

theorem code_no_comment (p : Piece) : ∀ l ∈ p.code, l.isComment = false := by
  cases p with
  | start => decide
  | command unit n c => exact c.code_no_comment unit n

/-- A piece has one comment, in front of its code. -/
theorem comments_lines (p : Piece) : (p.lines true).filter Line.isComment = [.comment p.remark] := by
  have hcode : p.code.filter Line.isComment = [] :=
    List.filter_eq_nil_iff.2 fun l hl => by simp [p.code_no_comment l hl]
  exact congrArg (Line.comment p.remark :: ·) hcode

theorem rest_lines (p : Piece) : (p.lines true).filter (fun l => !l.isComment) = p.lines false := by
  have hcode : p.code.filter (fun l => !l.isComment) = p.code :=
    List.filter_eq_self.2 fun l hl => by simp [p.code_no_comment l hl]
  exact hcode

theorem filter_comments (ps : List Piece) :
    (ps.flatMap (lines true)).filter Line.isComment = ps.map fun p => .comment p.remark := by
  rw [List.filter_flatMap, List.map_eq_flatMap]
  exact List.flatMap_congr fun p _ => p.comments_lines

theorem filter_rest (ps : List Piece) :
    (ps.flatMap (lines true)).filter (fun l => !l.isComment) = ps.flatMap (lines false) := by
  rw [List.filter_flatMap]
  exact List.flatMap_congr fun p _ => p.rest_lines

theorem map_remark_number (n : Counters) (cs : List (String × Command)) :
    (number n cs).map remark = cs.map (·.2.display) := by
  induction cs generalizing n with
  | nil => rfl
  | cons x cs ih => exact congrArg (x.2.display :: ·) (ih _)

end Piece

/-! ## Programs -/

namespace Program

/-- What the comments of a program say, in order. -/
def remarks (units : List SourceUnit) (bootstrap : Bool) : List String :=
  (if bootstrap then ["bootstrap", "call Sys.init 0"] else []) ++ (commands units).map (·.2.display)

/-- The blocks in front of those of the units. -/
def startBlocks (bootstrap : Bool) : List (List Line) :=
  let e : Emitter := { echo := false }
  if bootstrap then [e.startCode, e.block (.call entryPoint 0)] else []

theorem map_remark_pieces (units : List SourceUnit) (bootstrap : Bool) :
    (pieces units bootstrap).map Piece.remark = remarks units bootstrap := by
  cases bootstrap
  · exact Piece.map_remark_number _ _
  · exact congrArg ("bootstrap" :: ·) (Piece.map_remark_number _ _)

/-- The code of the pieces is that of the start, and then the blocks of a run that writes no comments. -/
theorem emits_quiet (units : List SourceUnit) (bootstrap : Bool) :
    ∃ blocks e', (start bootstrap false).Emits (commands units) blocks e' ∧
      (pieces units bootstrap).map Piece.code = startBlocks bootstrap ++ blocks := by
  have hrun := (start bootstrap false).emits_appendEach fun x hx => (commands_sound units x hx).check
  refine ⟨_, _, hrun, ?_⟩
  cases bootstrap <;> rfl

/-- A program compiles with comments if it does without, and otherwise the error is the same. Without the lines that
begin with two slashes, its output is the one without comments. These lines are a comment each for the start code and
for the call of the entry point, if they are wanted, and then one for each command of the units, in order; reading
what such a comment says gives the command back. Each comment stands right in front of the block of its command,
which is what an emitter that writes no comments adds for it. -/
theorem compile_comments (units : List SourceUnit) (bootstrap : Bool) :
    ((∃ on, compile units bootstrap true = .ok on) ↔ ∃ off, compile units bootstrap false = .ok off) ∧
    (∀ err, compile units bootstrap true = .error err ↔ compile units bootstrap false = .error err) ∧
    ∀ on, compile units bootstrap true = .ok on → ∃ off, compile units bootstrap false = .ok off ∧
      (on.map Line.text).filter (fun s => !s.startsWith "//") = off.map Line.text ∧
      (on.map Line.text).filter (·.startsWith "//") = (remarks units bootstrap).map ("// " ++ ·) ∧
      (∀ u ∈ units, ∃ cs, Source.read u.source = .ok cs) ∧
      (∀ x ∈ commands units, Command.read x.2.display = .ok x.2) ∧
      ∃ blocks e', (start bootstrap false).Emits (commands units) blocks e' ∧
        (remarks units bootstrap).length = (startBlocks bootstrap ++ blocks).length ∧
        off = (startBlocks bootstrap ++ blocks).flatten ∧
        on = (List.zipWith (fun text block => .comment text :: block) (remarks units bootstrap)
          (startBlocks bootstrap ++ blocks)).flatten := by
  have hok : (∃ on, compile units bootstrap true = .ok on) ↔ ∃ off, compile units bootstrap false = .ok off := by
    rw [compile_ok_iff_read, compile_ok_iff_read]
  refine ⟨hok, fun err => ?_, fun on hon => ?_⟩
  · rw [compile_error_iff_read, compile_error_iff_read]
  obtain ⟨off, hoff⟩ := hok.1 ⟨on, hon⟩
  obtain ⟨blocks, e', hrun, hcode⟩ := emits_quiet units bootstrap
  refine ⟨off, hoff, ?_, ?_, fun u hu => ((compile_lines hon).2 u hu).imp fun _ hcs => hcs.1,
    fun x hx => Command.read_display (commands_sound units x hx), blocks, e', hrun, ?_, ?_, ?_⟩
  · rw [List.filter_map, (compile_lines hon).1, (compile_lines hoff).1, ← Piece.filter_rest]
    simp only [Function.comp_def, Line.startsWith_text]
  · rw [List.filter_map, (compile_lines hon).1, ← map_remark_pieces]
    simp only [Function.comp_def, Line.startsWith_text, Piece.filter_comments, List.map_map]
    rfl
  · rw [← hcode, ← map_remark_pieces, List.length_map, List.length_map]
  · rw [(compile_lines hoff).1, ← hcode]
    rfl
  · rw [(compile_lines hon).1, ← hcode, ← map_remark_pieces, List.zipWith_map, List.zipWith_self]
    rfl

end Program

end HackStack
