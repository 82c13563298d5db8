import HackStack.Program
import HackStack.Proofs.Emission
import HackStack.Session
/-!
# What an emitter has written

Every line of an emitter belongs to a piece: the start code, or the code of one
command with the unit and the counters it was emitted under.

- `session_wrote`: after any sequence of requests, the lines are those of the pieces in `history`
- `compile_lines`: the lines of a program that compiles are those of its pieces
- `compile_session`: a program that compiles is a session of its own
-/

namespace HackStack

/-- A part of the output, with what its lines depend on. -/
inductive Piece
  | start
  | command (unit : String) (n : Counters) (c : Command)
  deriving DecidableEq, Repr

namespace Piece

def code : Piece → List Line
  | start => [.number stackBase, .set .d (.get .a), .symbol .sp, .set .m .d]
  | command unit n c => c.code unit n

/-- The text of the comment in front of a piece. -/
def remark : Piece → String
  | start => "bootstrap"
  | command _ _ c => c.display

def lines (echo : Bool) (p : Piece) : List Line :=
  (if echo then [.comment p.remark] else []) ++ p.code

/-- Whether the command of a piece passes its check. -/
def Checked : Piece → Prop
  | start => True
  | command _ _ c => c.check = .ok ()

/-- The counters behind a piece, from those in front of it. -/
def after (n : Counters) : Piece → Counters
  | start => n
  | command _ _ c => n.after c

/-- Whether each piece carries the counters that the pieces in front of it lead to. -/
def Numbered : Counters → List Piece → Prop
  | _, [] => True
  | n, start :: ps => Numbered n ps
  | n, command _ m c :: ps => m = n ∧ Numbered (n.after c) ps

theorem numbered_append (n : Counters) (ps qs : List Piece) :
    Numbered n (ps ++ qs) ↔ Numbered n ps ∧ Numbered (ps.foldl after n) qs := by
  induction ps generalizing n with
  | nil => simp [Numbered]
  | cons p ps ih => cases p <;> simp [Numbered, after, ih, and_assoc]

/-- The pieces of commands, each with the unit it is in. -/
def number : Counters → List (String × Command) → List Piece
  | _, [] => []
  | n, (unit, c) :: rest => command unit n c :: number (n.after c) rest

theorem number_append (n : Counters) (cs ds : List (String × Command)) :
    number n (cs ++ ds) = number n cs ++ number ((number n cs).foldl after n) ds := by
  induction cs generalizing n with
  | nil => rfl
  | cons c cs ih => simp [number, after, ih]

theorem numbered_number (n : Counters) (cs : List (String × Command)) : Numbered n (number n cs) := by
  induction cs generalizing n with
  | nil => trivial
  | cons c cs ih => exact ⟨rfl, ih _⟩

theorem mem_number {n : Counters} {cs : List (String × Command)} {p : Piece} (h : p ∈ number n cs) :
    ∃ unit m c, p = command unit m c ∧ (unit, c) ∈ cs := by
  induction cs generalizing n with
  | nil => cases h
  | cons x cs ih =>
    rcases List.mem_cons.1 h with rfl | h
    · exact ⟨_, _, _, rfl, List.mem_cons_self⟩
    · obtain ⟨unit, m, c, rfl, hm⟩ := ih h
      exact ⟨unit, m, c, rfl, List.mem_cons_of_mem _ hm⟩

theorem exists_mem_number {n : Counters} {cs : List (String × Command)} {unit : String} {c : Command}
    (h : (unit, c) ∈ cs) : ∃ m, command unit m c ∈ number n cs := by
  induction cs generalizing n with
  | nil => cases h
  | cons x cs ih =>
    rcases List.mem_cons.1 h with rfl | h
    · exact ⟨n, List.mem_cons_self⟩
    · obtain ⟨m, hm⟩ := ih h
      exact ⟨m, List.mem_cons_of_mem _ hm⟩

end Piece

/-! ## Appending commands -/

namespace Emitter

/-- `e'` is `e` once the pieces have been written. -/
structure Wrote (e e' : Emitter) (ps : List Piece) : Prop where
  echo : e'.echo = e.echo
  counters : e'.counters = ps.foldl Piece.after e.counters
  lines : e'.lines.toList = e.lines.toList ++ ps.flatMap (Piece.lines e.echo)

theorem Wrote.refl (e : Emitter) : e.Wrote e [] := ⟨rfl, rfl, by simp⟩

theorem Wrote.trans {e e' e'' : Emitter} {ps qs : List Piece} (h : e.Wrote e' ps) (h' : e'.Wrote e'' qs) :
    e.Wrote e'' (ps ++ qs) where
  echo := h'.echo.trans h.echo
  counters := by rw [h'.counters, h.counters, List.foldl_append]
  lines := by rw [h'.lines, h.lines, h.echo, List.flatMap_append, List.append_assoc]

theorem append_wrote (e : Emitter) (c : Command) : e.Wrote (e.append c) [.command e.unit e.counters c] := by
  refine ⟨rfl, rfl, ?_⟩
  simp [append, block, comment, Piece.lines, Piece.remark, Piece.code]

theorem appendAll_wrote (e : Emitter) (cs : List Command) :
    e.Wrote (e.appendAll cs) (Piece.number e.counters (cs.map (e.unit, ·))) := by
  induction cs generalizing e with
  | nil => exact .refl e
  | cons c cs ih => exact (e.append_wrote c).trans (ih (e.append c))

theorem enter_wrote (e : Emitter) (unit : String) : e.Wrote (e.enter unit) [] := ⟨rfl, rfl, by simp [enter]⟩

theorem bootstrap_wrote (e : Emitter) :
    e.Wrote e.bootstrap [.start, .command e.unit e.counters (.call entryPoint 0)] := by
  have hstart : e.Wrote { e with lines := e.lines ++ e.startCode } [.start] := by
    refine ⟨rfl, rfl, ?_⟩
    simp [startCode, comment, Piece.lines, Piece.remark, Piece.code]
  rw [bootstrap_eq]
  exact hstart.trans (append_wrote _ _)

end Emitter

/-! ## Sessions -/

/-- The commands a request gets emitted. -/
def Request.accepted : Request → List Command
  | .bootstrap => [.call entryPoint 0]
  | .enter _ => []
  | .emit c => [c].takeWhile fun c => c.check.isOk
  | .emitAll cs => (cs.map (·.command)).takeWhile fun c => c.check.isOk
  | .line text =>
    match Command.read text with
    | .ok c => [c].takeWhile fun c => c.check.isOk
    | .error _ => []
  | .source text =>
    match Source.read text with
    | .ok cs => (cs.map (·.command)).takeWhile fun c => c.check.isOk
    | .error _ => []

namespace Emitter

/-- The pieces a request adds. -/
def written (e : Emitter) (r : Request) : List Piece :=
  (if r = .bootstrap then [.start] else []) ++ Piece.number e.counters (r.accepted.map (e.unit, ·))

/-- The emitter after a sequence of requests, failed ones among them. -/
def session (e : Emitter) (rs : List Request) : Emitter := rs.foldl (fun e r => (e.answer r).1) e

theorem session_append (e : Emitter) (rs rs' : List Request) : e.session (rs ++ rs') = (e.session rs).session rs' :=
  List.foldl_append

/-- The pieces a sequence of requests adds. -/
def history (e : Emitter) : List Request → List Piece
  | [] => []
  | r :: rs => e.written r ++ (e.answer r).1.history rs

theorem emit_fst (e : Emitter) (c : Command) :
    (e.perform (emit c)).1 = e.appendAll ([c].takeWhile fun c => c.check.isOk) := by
  rw [perform_emit]
  cases h : c.check <;> simp [h, Except.isOk, Except.toBool, appendAll]

theorem answer_wrote (e : Emitter) (r : Request) : e.Wrote (e.answer r).1 (e.written r) := by
  have hall (cs : List Command) : e.Wrote (e.appendAll cs) (Piece.number e.counters (cs.map (e.unit, ·))) :=
    e.appendAll_wrote cs
  cases r with
  | bootstrap => exact e.bootstrap_wrote
  | enter unit => exact e.enter_wrote unit
  | emit c => simpa [answer, respond, perform_adapt, emit_fst, written, Request.accepted] using hall _
  | emitAll cs => simpa [answer, respond, perform_adapt, emitAll_fst, written, Request.accepted] using hall _
  | line text =>
    rw [answer, respond, perform_adapt, perform_except_bind]
    cases h : Command.read text with
    | ok c => simpa [h, emit_fst, written, Request.accepted] using hall _
    | error => simpa [h, written, Request.accepted, Piece.number] using Wrote.refl e
  | source text =>
    rw [answer, respond, perform_adapt, perform_except_bind]
    cases h : Source.read text with
    | ok cs => simpa [h, emitAll_fst, written, Request.accepted] using hall _
    | error => simpa [h, written, Request.accepted, Piece.number] using Wrote.refl e

/-- What an emitter holds after any sequence of requests. -/
theorem session_wrote (e : Emitter) (rs : List Request) : e.Wrote (e.session rs) (e.history rs) := by
  induction rs generalizing e with
  | nil => exact .refl e
  | cons r rs ih => exact (e.answer_wrote r).trans (ih _)

end Emitter

theorem Request.accepted_check {r : Request} {c : Command} (h : c ∈ r.accepted) : c.check = .ok () := by
  have hok {cs : List Command} (hm : c ∈ cs.takeWhile fun c => c.check.isOk) : c.check = .ok () := by
    have ht := List.all_eq_true.1 List.all_takeWhile c hm
    cases hc : c.check with
    | ok => rfl
    | error => simp [hc, Except.isOk, Except.toBool] at ht
  cases r with
  | bootstrap => obtain rfl := List.mem_singleton.1 h; rfl
  | enter => cases h
  | emit | emitAll => exact hok h
  | line | source =>
    rw [accepted] at h
    split at h
    · exact hok h
    · cases h

namespace Emitter

theorem written_checked {e : Emitter} {r : Request} {p : Piece} (h : p ∈ e.written r) : p.Checked := by
  rcases List.mem_append.1 h with hs | hc
  · split at hs
    · obtain rfl := List.mem_singleton.1 hs; trivial
    · cases hs
  · obtain ⟨unit, n, c, rfl, hm⟩ := Piece.mem_number hc
    obtain ⟨c', hc', he⟩ := List.mem_map.1 hm
    cases he
    exact Request.accepted_check hc'

theorem history_checked {e : Emitter} {rs : List Request} {p : Piece} (h : p ∈ e.history rs) : p.Checked := by
  induction rs generalizing e with
  | nil => cases h
  | cons r rs ih => exact (List.mem_append.1 h).elim written_checked ih

theorem history_numbered (e : Emitter) (rs : List Request) : Piece.Numbered e.counters (e.history rs) := by
  induction rs generalizing e with
  | nil => trivial
  | cons r rs ih =>
    rw [history, Piece.numbered_append, ← (e.answer_wrote r).counters]
    refine ⟨?_, ih _⟩
    unfold written
    split
    · exact Piece.numbered_number _ _
    · exact Piece.numbered_number _ _

end Emitter

/-! ## Programs -/

namespace Program

/-- The commands of a unit whose source can be read. -/
def unitCommands (u : SourceUnit) : List (String × Command) :=
  match Source.read u.source with
  | .ok cs => cs.map fun c => (u.name, c.command)
  | .error _ => []

/-- The commands of all units, each with the unit it is in. -/
def commands (units : List SourceUnit) : List (String × Command) := units.flatMap unitCommands

theorem mem_commands {units : List SourceUnit} {x : String × Command} :
    x ∈ commands units ↔ ∃ u ∈ units, ∃ cs, Source.read u.source = .ok cs ∧ ∃ c ∈ cs, x = (u.name, c.command) := by
  have hunit (u : SourceUnit) :
      x ∈ unitCommands u ↔ ∃ cs, Source.read u.source = .ok cs ∧ ∃ c ∈ cs, x = (u.name, c.command) := by
    unfold unitCommands
    cases Source.read u.source <;> simp [eq_comm]
  simp only [commands, List.mem_flatMap, hunit]

/-- The pieces of a program. -/
def pieces (units : List SourceUnit) (bootstrap : Bool) : List Piece :=
  if bootstrap then .start :: Piece.number {} (("", .call entryPoint 0) :: commands units)
  else Piece.number {} (commands units)

theorem emitUnit_wrote {e e' : Emitter} {u : SourceUnit} (h : emitUnit e u = .ok e') :
    e.Wrote e' (Piece.number e.counters (unitCommands u)) ∧
      ∃ cs, Source.read u.source = .ok cs ∧ ∀ c ∈ cs, c.command.check = .ok () := by
  unfold emitUnit at h
  split at h
  · cases h
  · next cs hcs =>
    split at h
    · next e'' he =>
      cases h
      obtain ⟨rfl, hall⟩ := Emitter.emitAll_ok_iff.1 he
      refine ⟨?_, cs, hcs, hall⟩
      -- entering the unit writes nothing, but the pieces carry its name
      have hw := (e.enter_wrote u.name).trans ((e.enter u.name).appendAll_wrote (cs.map (·.command)))
      simpa [unitCommands, hcs, Emitter.enter, Function.comp_def] using hw
    · cases h

theorem emitUnits_wrote {e e' : Emitter} {units : List SourceUnit} (h : units.foldlM emitUnit e = .ok e') :
    e.Wrote e' (Piece.number e.counters (commands units)) ∧
      ∀ u ∈ units, ∃ cs, Source.read u.source = .ok cs ∧ ∀ c ∈ cs, c.command.check = .ok () := by
  induction units generalizing e with
  | nil => cases h; exact ⟨.refl _, by simp⟩
  | cons u units ih =>
    rw [List.foldlM_cons] at h
    cases hu : emitUnit e u with
    | error => rw [hu] at h; cases h
    | ok e₁ =>
      rw [hu] at h
      obtain ⟨hw, hcs⟩ := emitUnit_wrote hu
      obtain ⟨hws, hall⟩ := ih h
      refine ⟨?_, by simpa using ⟨hcs, hall⟩⟩
      have ht := hw.trans hws
      rwa [hw.counters, ← Piece.number_append] at ht

theorem start_wrote (bootstrap echo : Bool) :
    Emitter.Wrote { echo } (start bootstrap echo)
      (if bootstrap then .start :: Piece.number {} [("", .call entryPoint 0)] else []) := by
  cases bootstrap
  · exact .refl _
  · exact Emitter.bootstrap_wrote _

/-- The lines of a program are those of its pieces, and its sources can be read. -/
theorem compile_lines {units : List SourceUnit} {bootstrap echo : Bool} {lines : List Line}
    (h : compile units bootstrap echo = .ok lines) :
    lines = (pieces units bootstrap).flatMap (Piece.lines echo) ∧
      ∀ u ∈ units, ∃ cs, Source.read u.source = .ok cs ∧ ∀ c ∈ cs, c.command.check = .ok () := by
  unfold compile at h
  cases hf : units.foldlM emitUnit (start bootstrap echo) with
  | error => rw [hf] at h; cases h
  | ok e =>
    rw [hf] at h
    cases h
    obtain ⟨hw, hcs⟩ := emitUnits_wrote hf
    refine ⟨?_, hcs⟩
    have ht := (start_wrote bootstrap echo).trans hw
    show e.lines.toList = _
    rw [ht.lines, (start_wrote bootstrap echo).counters]
    cases bootstrap <;> simp [pieces, Piece.number, Piece.after]

/-- The requests a program makes. -/
def requests (units : List SourceUnit) (bootstrap : Bool) : List Request :=
  (if bootstrap then [.bootstrap] else []) ++ units.flatMap fun u => [.enter u.name, .source u.source]

theorem emitUnit_session {e e' : Emitter} {u : SourceUnit} (h : emitUnit e u = .ok e') :
    e.session [.enter u.name, .source u.source] = e' := by
  unfold emitUnit at h
  split at h
  · cases h
  · next cs hcs =>
    split at h
    · next e'' he =>
      cases h
      show ((e.enter u.name).perform (Emitter.respond (.source u.source))).1 = e'
      rw [Emitter.respond, Emitter.perform_adapt, Emitter.perform_except_bind, hcs]
      exact congrArg Prod.fst he
    · cases h

theorem emitUnits_session {e e' : Emitter} {units : List SourceUnit} (h : units.foldlM emitUnit e = .ok e') :
    e.session (units.flatMap fun u => [.enter u.name, .source u.source]) = e' := by
  induction units generalizing e with
  | nil => cases h; rfl
  | cons u units ih =>
    rw [List.foldlM_cons] at h
    cases hu : emitUnit e u with
    | error => rw [hu] at h; cases h
    | ok e₁ =>
      rw [hu] at h
      rw [List.flatMap_cons, Emitter.session_append, emitUnit_session hu]
      exact ih h

/-- A program that compiles is a session. -/
theorem compile_session {units : List SourceUnit} {bootstrap echo : Bool} {lines : List Line}
    (h : compile units bootstrap echo = .ok lines) :
    lines = (({ echo } : Emitter).session (requests units bootstrap)).lines.toList := by
  have hstart : ({ echo } : Emitter).session (if bootstrap then [.bootstrap] else []) = start bootstrap echo := by
    cases bootstrap <;> rfl
  unfold compile at h
  cases hf : units.foldlM emitUnit (start bootstrap echo) with
  | error => rw [hf] at h; cases h
  | ok e =>
    rw [hf] at h
    cases h
    rw [requests, Emitter.session_append, hstart, emitUnits_session hf]

/-- A piece of a program is the start code, the call of the entry point, or a command of a unit. -/
theorem mem_pieces {units : List SourceUnit} {bootstrap : Bool} {p : Piece} (h : p ∈ pieces units bootstrap) :
    (bootstrap = true ∧ (p = .start ∨ ∃ n, p = .command "" n (.call entryPoint 0))) ∨
      ∃ unit n c, p = .command unit n c ∧ (unit, c) ∈ commands units := by
  have hnumber {n : Counters} (hm : p ∈ Piece.number n (commands units)) :
      ∃ unit n c, p = .command unit n c ∧ (unit, c) ∈ commands units := Piece.mem_number hm
  cases bootstrap with
  | false => exact .inr (hnumber h)
  | true =>
    rcases List.mem_cons.1 h with rfl | h
    · exact .inl ⟨rfl, .inl rfl⟩
    · rcases List.mem_cons.1 h with rfl | h
      · exact .inl ⟨rfl, .inr ⟨_, rfl⟩⟩
      · exact .inr (hnumber h)

/-- Each command of the sources has its piece. -/
theorem mem_pieces_of_commands {units : List SourceUnit} {unit : String} {c : Command}
    (h : (unit, c) ∈ commands units) (bootstrap : Bool) : ∃ n, .command unit n c ∈ pieces units bootstrap := by
  cases bootstrap with
  | false => exact Piece.exists_mem_number h
  | true =>
    obtain ⟨n, hn⟩ := Piece.exists_mem_number (n := Counters.after {} (.call entryPoint 0)) h
    exact ⟨n, List.mem_cons_of_mem _ (List.mem_cons_of_mem _ hn)⟩

/-- The pieces of a program that compiles pass their checks. -/
theorem pieces_checked {units : List SourceUnit} {bootstrap echo : Bool} {lines : List Line}
    (h : compile units bootstrap echo = .ok lines) {p : Piece} (hp : p ∈ pieces units bootstrap) : p.Checked := by
  rcases mem_pieces hp with ⟨-, rfl | ⟨n, rfl⟩⟩ | ⟨unit, n, c, rfl, hc⟩
  · trivial
  · rfl
  · obtain ⟨u, hu, cs, hcs, c', hc', he⟩ := mem_commands.1 hc
    obtain ⟨cs', hcs', hall⟩ := (compile_lines h).2 u hu
    rw [hcs] at hcs'
    cases hcs'
    cases he
    exact hall c' hc'

end Program

end HackStack
