import HackStack.Emitter
/-!
# What emitting comes to

The lines of a command are a function of the command, the unit and the counters
(`Command.code`), and an emitter that takes the command up appends them
(`Emitter.append`).

- `perform_emit`: a command that passes its check is appended; one that fails it leaves no line,
  no comment and no count behind
- `emitAll_cases`: a batch appends the commands in front of the first one that fails
-/

namespace HackStack

/-- The counters once the command has been carried out. -/
def Counters.after (n : Counters) : Command → Counters
  | .operate (.compare c) => n.next c
  | .call .. => { n with call := n.call + 1 }
  | _ => n

/-- The lines that carry out a command. -/
def Command.code (unit : String) (n : Counters) : Command → List Line
  | operate op => op.code n
  | push s i => (s.place unit i).pushCode
  | pop s i => (s.place unit i).popCode
  | label name => [.label (.named name)]
  | goto name => [.symbol (.named name), .jump .zero .always]
  | ifGoto name => popD ++ [.symbol (.named name), .jump .d .ne]
  | function name locals => functionCode name locals
  | call name args => callCode name args n.call
  | ret => returnCode

namespace Emitter
variable {ε α : Type}

/-- The comment in front of some code, if comments are wanted. -/
def comment (e : Emitter) (text : String) : List Line :=
  if e.echo then [.comment text] else []

/-- The lines a command adds. -/
def block (e : Emitter) (c : Command) : List Line :=
  e.comment c.display ++ c.code e.unit e.counters

/-- The emitter once it has taken up a command. -/
def append (e : Emitter) (c : Command) : Emitter :=
  let block := e.block c
  { e with lines := e.lines ++ block, counters := e.counters.after c }

def appendAll (e : Emitter) (cs : List Command) : Emitter := cs.foldl append e

/-- The lines in front of the first call: the stack pointer is set to the base of the stack. -/
def startCode (e : Emitter) : List Line :=
  e.comment "bootstrap" ++ [.number stackBase, .set .d (.get .a), .symbol .sp, .set .m .d]

/-! ## Actions -/

theorem perform_bind {β : Type} (e : Emitter) (a : Action ε α) (f : α → Action ε β) :
    e.perform (a >>= f) =
      match e.perform a with
      | (e', .ok x) => e'.perform (f x)
      | (e', .error err) => (e', .error err) := by
  unfold perform
  rw [ExceptT.run_bind, StateT.run_bind]
  rcases a.run.run e with ⟨_ | _, e'⟩ <;> rfl

theorem perform_adapt {ε' : Type} (e : Emitter) (a : Action ε α) (f : ε → ε') :
    e.perform (a.adapt f) = ((e.perform a).1, (e.perform a).2.mapError f) := rfl

theorem perform_except_bind {β : Type} (e : Emitter) (x : Except ε α) (f : α → Action ε β) :
    e.perform (liftM x >>= f) =
      match x with
      | .ok a => e.perform (f a)
      | .error err => (e, .error err) := by
  cases x <;> rfl

theorem perform_lift (e : Emitter) (a : StateM Emitter α) :
    e.perform (liftM a : Action ε α) = ((a.run e).2, .ok (a.run e).1) := rfl

theorem write_run (e : Emitter) (lines : List Line) :
    (write lines).run e = ((), { e with lines := e.lines ++ lines }) := rfl

theorem remark_run (e : Emitter) (text : String) :
    (remark text).run e = ((), { e with lines := e.lines ++ e.comment text }) := by
  obtain ⟨unit, n, _ | _, lines⟩ := e
  · have hnil : lines ++ ([] : List Line) = lines := by simp
    exact congrArg (fun ls => ((), Emitter.mk unit n false ls)) hnil.symm
  · rfl

theorem append_lines (ls : Array Line) (xs ys : List Line) : ls ++ xs ++ ys = ls ++ (xs ++ ys) :=
  Array.toList_inj.1 (by simp)

/-! ## One command -/

theorem perform_transfer (e : Emitter) (d : Direction) (s : Segment) (i : UInt16) :
    e.perform (transfer d s i) =
      match s.checkIndex d i with
      | .ok () => (e, .ok (d.code (s.place e.unit i)))
      | .error err => (e, .error err) := by
  rw [transfer, perform_except_bind]
  cases s.checkIndex d i <;> rfl

/-- The code of a command comes with its count. A command that fails its check is not counted. -/
theorem perform_code (e : Emitter) (c : Command) :
    e.perform (code c) =
      match c.check with
      | .ok () => ({ e with counters := e.counters.after c }, .ok (c.code e.unit e.counters))
      | .error err => (e, .error err) := by
  cases c with
  | operate op => cases op <;> rfl
  | push s i => exact e.perform_transfer .push s i
  | pop s i => exact e.perform_transfer .pop s i
  | call name args =>
    rw [code, perform_except_bind, Command.check]
    cases checkArgs args <;> rfl
  | _ => rfl

/-- A command that passes its check is appended. A command that fails it leaves the emitter as it was. -/
theorem perform_emit (e : Emitter) (c : Command) :
    e.perform (emit c) =
      match c.check with
      | .ok () => (e.append c, .ok ())
      | .error err => (e, .error err) := by
  rw [emit, perform_bind, perform_code]
  cases c.check with
  | error err => rfl
  | ok =>
    simp only [perform_bind, perform_lift, remark_run, write_run, append_lines]
    rfl

theorem call_run (e : Emitter) (callee : String) (args : UInt16) :
    (call callee args).run e =
      ((Command.call callee args).code e.unit e.counters,
        { e with counters := e.counters.after (.call callee args) }) := rfl

theorem bootstrap_eq (e : Emitter) :
    e.bootstrap = ({ e with lines := e.lines ++ e.startCode } : Emitter).append (.call entryPoint 0) := by
  have hdisplay : s!"call {entryPoint} 0" = (Command.call entryPoint 0).display := by decide
  have hbind {α β : Type} (x : α) (f : α → Id β) : bind (m := Id) x f = f x := rfl
  unfold bootstrap boot
  rw [hdisplay]
  simp only [StateT.run_bind, remark_run, write_run, call_run, hbind, append_lines, append, block, startCode,
    List.append_assoc]

/-! ## Batches -/

/-- A batch appends the commands in front of the first one that fails its check, whatever the emitter, and reports that
one with its line. -/
theorem emitAll_cases (cs : List SourceCommand) :
    ∃ done rest result, cs = done ++ rest ∧ (∀ c ∈ done, c.command.check = .ok ()) ∧
      (∀ e : Emitter, e.perform (emitAll cs) = (e.appendAll (done.map (·.command)), result)) ∧
      (rest = [] ∧ result = .ok () ∨
        ∃ c tail cause, rest = c :: tail ∧ c.command.check = .error cause ∧
          result = .error { line := c.line, text := c.text, cause }) := by
  induction cs with
  | nil => exact ⟨[], [], .ok (), rfl, by simp, fun _ => rfl, .inl ⟨rfl, rfl⟩⟩
  | cons c cs ih =>
    have hstep (e : Emitter) : e.perform (emitAll (c :: cs)) =
        match c.command.check with
        | .ok () => (e.append c.command).perform (emitAll cs)
        | .error cause => (e, .error { line := c.line, text := c.text, cause }) := by
      show e.perform ((emit c.command).adapt _ >>= fun _ => emitAll cs) = _
      rw [perform_bind, perform_adapt, perform_emit]
      cases c.command.check <;> rfl
    cases hc : c.command.check with
    | error cause =>
      rw [hc] at hstep
      exact ⟨[], c :: cs, _, rfl, by simp, hstep, .inr ⟨c, cs, cause, rfl, hc, rfl⟩⟩
    | ok =>
      rw [hc] at hstep
      obtain ⟨done, rest, result, rfl, hdone, hrun, hrest⟩ := ih
      exact ⟨c :: done, rest, result, rfl, List.forall_mem_cons.2 ⟨hc, hdone⟩,
        fun e => (hstep e).trans (hrun (e.append c.command)), hrest⟩

/-- A batch succeeds if each of its commands passes its check. -/
theorem emitAll_ok_iff {e e' : Emitter} {cs : List SourceCommand} :
    e.perform (emitAll cs) = (e', .ok ()) ↔
      e' = e.appendAll (cs.map (·.command)) ∧ ∀ c ∈ cs, c.command.check = .ok () := by
  obtain ⟨done, rest, result, rfl, hdone, hrun, ⟨rfl, rfl⟩ | ⟨c, tail, cause, rfl, hc, rfl⟩⟩ := emitAll_cases cs
  · rw [hrun, List.append_nil]
    constructor
    · rintro ⟨⟩; exact ⟨rfl, hdone⟩
    · rintro ⟨rfl, -⟩; rfl
  · rw [hrun]
    constructor
    · rintro ⟨⟩
    · rintro ⟨-, hall⟩
      rw [hall c (by simp)] at hc
      cases hc

/-- The commands that a batch gets emitted. -/
theorem emitAll_fst (e : Emitter) (cs : List SourceCommand) :
    (e.perform (emitAll cs)).1 = e.appendAll ((cs.map (·.command)).takeWhile fun c => c.check.isOk) := by
  obtain ⟨done, rest, result, rfl, hdone, hrun, hrest⟩ := emitAll_cases cs
  have hok : ∀ c ∈ done.map (·.command), c.check.isOk := by
    refine List.forall_mem_map.2 fun c hc => ?_
    rw [hdone c hc]
    rfl
  have htail : (rest.map (·.command)).takeWhile (fun c => c.check.isOk) = [] := by
    rcases hrest with ⟨rfl, -⟩ | ⟨c, tail, cause, rfl, hc, -⟩
    · rfl
    · rw [List.map_cons, List.takeWhile_cons, hc]
      rfl
  rw [hrun, List.map_append, List.takeWhile_append_of_pos hok, htail, List.append_nil]

end Emitter

end HackStack
