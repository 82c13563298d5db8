import HackStack.Proofs.GeneratedLabels
/-!
# Batches of commands

`Emitter.Emits` is a run of an emitter over commands, one after another, with the block
that each of them adds. What a run does to the emitter is the sum of its steps.

`emitAll_stops`: a batch is a run over the commands in front of the first one that fails
its check. That command and what follows it leave nothing behind: in each kind of command the
check comes before the count, the comment and the code (`perform_emit`).
-/

namespace HackStack

namespace Emitter

/-- `e'` is `e` once the commands have been emitted one after another, each under its unit. The blocks are what
they add. -/
inductive Emits : Emitter → List (String × Command) → List (List Line) → Emitter → Prop
  | nil (e : Emitter) : Emits e [] [] e
  | cons {e e₁ e' : Emitter} {unit : String} {c : Command} {cs : List (String × Command)} {block : List Line}
      {blocks : List (List Line)} (emitted : (e.enter unit).perform (emit c) = (e₁, .ok ()))
      (added : e₁.lines.toList = e.lines.toList ++ block) (rest : Emits e₁ cs blocks e') :
      Emits e ((unit, c) :: cs) (block :: blocks) e'

/-! ## One command -/

theorem perform_emit_ok_iff {e e' : Emitter} {c : Command} :
    e.perform (emit c) = (e', .ok ()) ↔ c.check = .ok () ∧ e' = e.append c := by
  rw [perform_emit]
  cases c.check <;> simp [eq_comm]

/-- Only the check makes a command fail, and one that fails leaves the emitter as it was. -/
theorem emit_failed {e : Emitter} {c : Command} {err : CommandError} (h : (e.perform (emit c)).2 = .error err) :
    c.check = .error err ∧ (e.perform (emit c)).1 = e := by
  rw [perform_emit] at h ⊢
  cases hc : c.check with
  | ok => rw [hc] at h; cases h
  | error => rw [hc] at h; cases h; exact ⟨rfl, rfl⟩

/-! ## Runs -/

namespace Emits
variable {e e' : Emitter} {cs : List (String × Command)} {blocks : List (List Line)} (h : Emits e cs blocks e')
include h

theorem lines_eq : e'.lines.toList = e.lines.toList ++ blocks.flatten := by
  induction h with
  | nil => simp
  | cons _ added _ ih => rw [ih, added, List.flatten_cons, List.append_assoc]

theorem counters_eq : e'.counters = e.counters.count (cs.map Prod.snd) := by
  induction h with
  | nil => rfl
  | cons emitted _ _ ih =>
    obtain ⟨-, rfl⟩ := perform_emit_ok_iff.1 emitted
    rw [ih, List.map_cons, Counters.count_cons]
    rfl

theorem echo_eq : e'.echo = e.echo := by
  induction h with
  | nil => rfl
  | cons emitted _ _ ih =>
    obtain ⟨-, rfl⟩ := perform_emit_ok_iff.1 emitted
    exact ih

end Emits

/-- Appends commands that have passed their checks, each under its unit. -/
def appendEach (e : Emitter) (cs : List (String × Command)) : Emitter :=
  cs.foldl (fun e x => (e.enter x.1).append x.2) e

/-- Commands that pass their checks can be emitted one after another, and each adds the lines of its piece. -/
theorem emits_appendEach (e : Emitter) {cs : List (String × Command)} (h : ∀ x ∈ cs, x.2.check = .ok ()) :
    e.Emits cs ((Piece.number e.counters cs).map (Piece.lines e.echo)) (e.appendEach cs) := by
  induction cs generalizing e with
  | nil => exact .nil e
  | cons x cs ih =>
    obtain ⟨unit, c⟩ := x
    obtain ⟨hc, hcs⟩ := List.forall_mem_cons.1 h
    have hw := ((e.enter unit).append_wrote c).lines
    rw [List.flatMap_singleton] at hw
    exact .cons (perform_emit_ok_iff.2 ⟨hc, rfl⟩) hw (ih _ hcs)

/-! ## Runs within one unit -/

theorem appendEach_unit (e : Emitter) (cs : List Command) : e.appendEach (cs.map (e.unit, ·)) = e.appendAll cs := by
  induction cs generalizing e with
  | nil => rfl
  | cons c cs ih => exact ih (e.append c)

theorem emits_appendAll (e : Emitter) {cs : List Command} (h : ∀ c ∈ cs, c.check = .ok ()) :
    e.Emits (cs.map (e.unit, ·)) ((Piece.number e.counters (cs.map (e.unit, ·))).map (Piece.lines e.echo))
      (e.appendAll cs) := by
  rw [← appendEach_unit]
  exact e.emits_appendEach (List.forall_mem_map.2 h)

theorem appendAll_unit (e : Emitter) (cs : List Command) : (e.appendAll cs).unit = e.unit := by
  induction cs generalizing e with
  | nil => rfl
  | cons c cs ih => exact ih (e.append c)

/-- Commands that pass their checks are appended one by one. -/
theorem perform_forM_emit (e : Emitter) {cs : List Command} (h : ∀ c ∈ cs, c.check = .ok ()) :
    e.perform (cs.forM emit) = (e.appendAll cs, .ok ()) := by
  induction cs generalizing e with
  | nil => rfl
  | cons c cs ih =>
    obtain ⟨hc, hcs⟩ := List.forall_mem_cons.1 h
    show e.perform (emit c >>= fun _ => cs.forM emit) = _
    rw [perform_bind, perform_emit_ok_iff.2 ⟨hc, rfl⟩]
    exact ih _ hcs

/-! ## Batches -/

/-- A batch emits the commands in front of the first one that fails its check, one by one, and reports that one
with its line; it succeeds if there is none. Each of these commands adds its block behind the lines that were
there and is counted, the unit stays, and nothing comes of the rest. A single command fails with the error of
its check, and one that fails leaves the emitter as it was. -/
theorem emitAll_stops (e : Emitter) (cs : List SourceCommand) :
    (∃ done rest e' blocks, cs = done ++ rest ∧
      (rest = [] ∧ e.perform (emitAll cs) = (e', .ok ()) ∨
        ∃ c tail cause, rest = c :: tail ∧ c.command.check = .error cause ∧
          e.perform (emitAll cs) = (e', .error { line := c.line, text := c.text, cause })) ∧
      (∀ c ∈ done, c.command.check = .ok ()) ∧
      e.perform ((done.map (·.command)).forM emit) = (e', .ok ()) ∧
      e.Emits (done.map fun c => (e.unit, c.command)) blocks e' ∧
      e'.lines.toList = e.lines.toList ++ blocks.flatten ∧
      e'.counters = e.counters.count (done.map (·.command)) ∧
      e'.unit = e.unit ∧ e'.echo = e.echo) ∧
    ∀ c, (c.check = .ok () → (e.perform (emit c)).2 = .ok ()) ∧
      ∀ err, (e.perform (emit c)).2 = .error err → c.check = .error err ∧ (e.perform (emit c)).1 = e := by
  refine ⟨?_, fun c => ⟨fun hc => ?_, fun err => emit_failed⟩⟩
  · obtain ⟨done, rest, result, rfl, hdone, hbatch, hrest⟩ := emitAll_cases cs
    have hcs : ∀ c ∈ done.map (·.command), c.check = .ok () := List.forall_mem_map.2 hdone
    have hrun := e.emits_appendAll hcs
    rw [List.map_map] at hrun
    refine ⟨done, rest, e.appendAll (done.map SourceCommand.command), _, rfl, ?_, hdone, e.perform_forM_emit hcs, hrun,
      hrun.lines_eq, ?_, e.appendAll_unit _, hrun.echo_eq⟩
    · rw [hbatch]
      rcases hrest with ⟨rfl, rfl⟩ | ⟨c, tail, cause, rfl, hc, rfl⟩
      · exact .inl ⟨rfl, rfl⟩
      · exact .inr ⟨c, tail, cause, rfl, hc, rfl⟩
    · rw [hrun.counters_eq, List.map_map]
      rfl
  · rw [perform_emit_ok_iff.2 ⟨hc, rfl⟩]

end Emitter

end HackStack
