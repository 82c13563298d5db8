import HackStack.Cli.Run
import HackStack.Proofs.JobOutcome
import HackStack.Proofs.Utf8
/-!
# What comes of a run of the program

A run that the arguments ask for plans a job and runs it. What it comes to apart from the log is
`Invocation.run_quiet`, where neither what the log shows nor whether progress is shown occurs.

`program_outcome`: the exit status, what is printed, the failure report and the files are those of the job, and
the log has no influence on them, whatever reads the arguments, describes failures and shows the log. But a search
for the first word of the report is misled by a log with a line that begins with this word
(`program_outcome_misread`).
-/

namespace HackStack.Cli
variable {σ : Type}

/-! ## Looking for the failure report -/

/-- What each failure report begins with. -/
def reportWord : List Char := "Error: ".toList

/-- The text from the first line on that begins like a failure report, where `atStart` says whether it starts a line. -/
def reportFrom : (atStart : Bool) → List Char → List Char
  | _, [] => []
  | atStart, c :: cs => if atStart && reportWord.isPrefixOf (c :: cs) then c :: cs else reportFrom (c == '\n') cs

/-- What a search for a failure report gives. -/
def errorText (s : String) : String := String.ofList (reportFrom true s.toList)

example : errorText "INFO Error: a\nError: b\n\nCaused by:\n" = "Error: b\n\nCaused by:\n" := by decide +kernel

/-- Whether no line is left without its end. -/
def wholeLines (s : String) : Bool := s.toList.getLast?.all (· == '\n')

/-- Whole lines, none of which begins like a report, are passed over. -/
theorem reportFrom_append {s : List Char} (hwhole : s.getLast?.all (· == '\n')) {atStart : Bool}
    (hnone : reportFrom atStart s = []) (t : List Char) :
    reportFrom atStart (s ++ t) = reportFrom (if s = [] then atStart else true) t := by
  induction s generalizing atStart with
  | nil => rfl
  | cons c cs ih =>
    have hword : ¬(atStart && reportWord.isPrefixOf (c :: cs)) := by
      intro h
      rw [reportFrom, if_pos h] at hnone
      cases hnone
    -- the first word of a report that began in these lines would end in them, as it has no line feed
    have hword' : ¬(atStart && reportWord.isPrefixOf (c :: (cs ++ t))) := by
      rw [Bool.and_eq_true, List.isPrefixOf_iff_prefix] at hword ⊢
      rintro ⟨hstart, hprefix⟩
      rcases List.prefix_or_prefix_of_prefix hprefix (List.prefix_append (c :: cs) t) with hin | hout
      · exact hword ⟨hstart, hin⟩
      · have hlast := List.getLast?_eq_some_getLast (List.cons_ne_nil c cs)
        have hfeed := List.mem_of_getLast? hlast
        rw [hlast, Option.all_some, beq_iff_eq] at hwhole
        rw [hwhole] at hfeed
        exact absurd (hout.subset hfeed) (by decide)
    rw [reportFrom, if_neg hword] at hnone
    rw [List.cons_append, reportFrom, if_neg hword', if_neg (List.cons_ne_nil c cs)]
    cases cs with
    | nil =>
      have hfeed : (c == '\n') = true := hwhole
      rw [hfeed]
      rfl
    | cons d ds =>
      rw [List.getLast?_cons_cons] at hwhole
      rw [ih hwhole hnone, if_neg (List.cons_ne_nil d ds)]

theorem errorText_append {log failure : String} (hwhole : wholeLines log) (hnone : errorText log = "") :
    errorText (log ++ failure) = errorText failure := by
  have hlog : reportFrom true log.toList = [] := by simpa [errorText] using hnone
  rw [errorText, String.toList_append, reportFrom_append hwhole hlog, ite_self, errorText]

theorem errorText_report (s : String) : errorText ("Error: " ++ s) = "Error: " ++ s := by
  have hword : reportWord.isPrefixOf ("Error: " ++ s).toList := by
    rw [List.isPrefixOf_iff_prefix, String.toList_append]
    exact List.prefix_append _ _
  obtain ⟨c, cs, hcs⟩ : ∃ c cs, ("Error: " ++ s).toList = c :: cs := ⟨_, _, by rw [String.toList_append]; rfl⟩
  rw [errorText, ← String.toList_inj, String.toList_ofList, hcs, reportFrom, if_pos (by rw [← hcs, hword]; rfl)]

/-! ## Runs apart from the log -/

/-- The outcome as if nothing were logged. -/
def Outcome.quiet (o : Outcome) : Outcome := { o with log := "" }

theorem Outcome.of_quiet {out : Outcome × σ} {o : Outcome} {s : σ} (h : Prod.map Outcome.quiet id out = (o, s)) :
    out.1.exit = o.exit ∧ out.1.output = o.output ∧ out.1.failure = o.failure ∧ out.2 = s := by
  cases h
  exact ⟨rfl, rfl, rfl, rfl⟩

variable [MonadFiles (StateM σ)] [FileSystem σ]

namespace Invocation

theorem run_quiet (tools : Tools) (i : Invocation) (s : σ) :
    Prod.map Outcome.quiet id ((i.run tools : StateM σ Outcome).run s) =
      match Job.plan i.input i.output? (FileSystem.found s i.input) with
      | .error e => (tools.failed ("cannot translate " ++ i.input.text) e, s)
      | .ok job =>
        let ran := (job.run i.bootstrap (!i.noComments) : StateM σ Job.Report).run s
        (i.outcome tools job ran.1.result, ran.2) := by
  unfold run
  rw [run_then (FileSystem.run_find s i.input)]
  cases Job.plan i.input i.output? (FileSystem.found s i.input) with
  | error e => rfl
  | ok job =>
    cases hrun : (job.run i.bootstrap (!i.noComments) : StateM σ Job.Report).run s with
    | mk report s' =>
      dsimp only
      rw [run_then hrun, hrun]
      obtain ⟨result, events⟩ := report
      cases result <;> rfl

/-- A run whose job succeeds prints where the result is. -/
theorem run_ok {i : Invocation} {s : σ} {job : Job} {n : Nat} (tools : Tools)
    (hplan : Job.plan i.input i.output? (FileSystem.found s i.input) = .ok job)
    (hrun : ((job.run i.bootstrap (!i.noComments) : StateM σ Job.Report).run s).1.result = .ok n) :
    let out := (i.run tools : StateM σ Outcome).run s
    out.1.exit = 0 ∧ out.1.output = job.output.text ++ "\n" ∧ out.1.failure = "" ∧
      out.2 = ((job.run i.bootstrap (!i.noComments) : StateM σ Job.Report).run s).2 := by
  have hquiet := run_quiet tools i s
  rw [hplan] at hquiet
  dsimp only at hquiet
  rw [hrun] at hquiet
  exact Outcome.of_quiet hquiet

/-- Any other run prints a failure report and changes nothing. -/
theorem run_failed {i : Invocation} {s : σ} (tools : Tools)
    (h : ¬∃ job n, Job.plan i.input i.output? (FileSystem.found s i.input) = .ok job ∧
      ((job.run i.bootstrap (!i.noComments) : StateM σ Job.Report).run s).1.result = .ok n) :
    let out := (i.run tools : StateM σ Outcome).run s
    out.1.exit = 1 ∧ out.1.output = "" ∧
      (∃ (what : String) (e : JobError), out.1.failure = "Error: " ++ tools.describe what e.causes ++ "\n") ∧
      out.2 = s := by
  have hquiet := run_quiet tools i s
  cases hplan : Job.plan i.input i.output? (FileSystem.found s i.input) with
  | error e =>
    rw [hplan] at hquiet
    obtain ⟨hexit, houtput, hfailure, hstate⟩ := Outcome.of_quiet hquiet
    exact ⟨hexit, houtput, ⟨_, e, hfailure⟩, hstate⟩
  | ok job =>
    cases hrun : ((job.run i.bootstrap (!i.noComments) : StateM σ Job.Report).run s).1.result with
    | ok n => exact absurd ⟨job, n, hplan, hrun⟩ h
    | error e =>
      rw [hplan] at hquiet
      dsimp only at hquiet
      rw [hrun, Job.run_failed hrun] at hquiet
      obtain ⟨hexit, houtput, hfailure, hstate⟩ := Outcome.of_quiet hquiet
      exact ⟨hexit, houtput, ⟨_, e, hfailure⟩, hstate⟩

end Invocation

/-- A run that the arguments ask for succeeds if planning and running the job do, prints where the result is, as
paths are shown, and leaves what the job left. Any other fails, prints nothing on standard output and changes
nothing. Runs that differ in whether progress is shown and in what the log shows come to the same, and the messages
end in the same failure report. It is also what a search for its first word gives, if the logs are lines that do not
begin with this word. -/
theorem program_outcome {Arg : Type} {read : List Arg → Except Outcome Invocation} {args args' : List Arg}
    {i : Invocation} {verbose' : Bool} (hargs : read args = .ok i)
    (hargs' : read args' = .ok { i with verbose := verbose' })
    (tools : Tools) (log' : Bool → List Log.Event → String) (s : σ) :
    let out := (program read tools args : StateM σ Outcome).run s
    let out' := (program read { tools with log := log' } args' : StateM σ Outcome).run s
    let planned := Job.plan i.input i.output? (FileSystem.found s i.input)
    let ran (job : Job) := (job.run i.bootstrap (!i.noComments) : StateM σ Job.Report).run s
    (out.1.exit = 0 ↔ ∃ job n, planned = .ok job ∧ (ran job).1.result = .ok n) ∧
    (∀ job n, planned = .ok job → (ran job).1.result = .ok n →
      out.1.output = job.output.text ++ "\n" ∧ (∀ path, job.output = .ofText path → out.1.output = path ++ "\n") ∧
      out.1.failure = "" ∧ out.2 = (ran job).2) ∧
    (out.1.exit ≠ 0 → out.1.exit = 1 ∧ out.1.output = "" ∧
      (∃ (what : String) (e : JobError), out.1.failure = "Error: " ++ tools.describe what e.causes ++ "\n") ∧
      out.2 = s) ∧
    (out'.1.exit = out.1.exit ∧ out'.1.output = out.1.output ∧ out'.2 = out.2) ∧
    (out.1.messages = out.1.log ++ out.1.failure ∧ out'.1.messages = out'.1.log ++ out.1.failure) ∧
    (wholeLines out.1.log → errorText out.1.log = "" → wholeLines out'.1.log → errorText out'.1.log = "" →
      errorText out.1.messages = out.1.failure ∧ errorText out'.1.messages = out.1.failure) := by
  intro out out' planned ran
  have hout : out = (i.run tools : StateM σ Outcome).run s := by
    simp only [out, program, hargs]
  have hsame : Prod.map Outcome.quiet id out' = Prod.map Outcome.quiet id out := by
    simp only [out, out', program, hargs, hargs', Invocation.run_quiet]
    rfl
  clear_value out out'
  obtain ⟨hexit', houtput', hfailure', hstate'⟩ := Outcome.of_quiet hsame
  have hmessages' : out'.1.messages = out'.1.log ++ out.1.failure := by
    rw [Outcome.messages, hfailure']
    rfl
  have hsearch (hfailure : errorText out.1.failure = out.1.failure) (hwhole : wholeLines out.1.log)
      (hnone : errorText out.1.log = "") (hwhole' : wholeLines out'.1.log) (hnone' : errorText out'.1.log = "") :
      errorText out.1.messages = out.1.failure ∧ errorText out'.1.messages = out.1.failure :=
    ⟨(errorText_append hwhole hnone).trans hfailure,
      hmessages' ▸ (errorText_append hwhole' hnone').trans hfailure⟩
  by_cases hok : ∃ job n, planned = .ok job ∧ (ran job).1.result = .ok n
  · obtain ⟨job, n, hplan, hrun⟩ := hok
    obtain ⟨hexit, houtput, hfailure, hstate⟩ := Invocation.run_ok tools hplan hrun
    rw [← hout] at hexit houtput hfailure hstate
    refine ⟨iff_of_true hexit ⟨job, n, hplan, hrun⟩, fun job' n' hplan' hrun' => ?_, absurd hexit,
      ⟨hexit', houtput', hstate'⟩, ⟨rfl, hmessages'⟩, hsearch (by rw [hfailure]; rfl)⟩
    rw [hplan] at hplan'
    cases hplan'
    refine ⟨houtput, fun path hpath => ?_, hfailure, hstate⟩
    rw [houtput, hpath, FilePath.text, FilePath.ofText, Text.lossy_utf8]
  · have hfailed := Invocation.run_failed tools hok
    dsimp only at hfailed
    rw [← hout] at hfailed
    obtain ⟨what, e, hfailure⟩ := hfailed.2.2.1
    have hne : out.1.exit ≠ 0 := by rw [hfailed.1]; decide
    refine ⟨iff_of_false hne hok, fun job n hplan hrun => absurd ⟨job, n, hplan, hrun⟩ hok, fun _ => hfailed,
      ⟨hexit', houtput', hstate'⟩, ⟨rfl, hmessages'⟩, hsearch ?_⟩
    rw [hfailure, String.append_assoc]
    exact errorText_report _

/-- The second run shows all there is to log. The job fails, as the second line of its unit is bad. -/
theorem program_outcome_logged :
    let t := (FileTree.empty []).putFile [Text.utf8 "A.vm"] "add\npop constant 1".toUTF8
    let topicName : Log.Topic → String := fun | .job => "job" | .code => "code"
    let quiet : LogSetup := { topicName }
    let traced : LogSetup := { topicName, spec? := some "trace" }
    let out := (runArguments quiet ["A.vm"] : StateM FileTree Outcome).run t
    let out' := (runArguments traced ["A.vm", "--verbose"] : StateM FileTree Outcome).run t
    out.1.exit = 1 ∧ out.1.output = "" ∧ out.2 = t ∧ out'.1.exit = 1 ∧ out'.1.output = "" ∧ out'.2 = t ∧
      out'.1.log ≠ "" ∧ errorText out.1.messages = out.1.failure ∧ errorText out'.1.messages = out.1.failure := by
  intro t topicName quiet traced out out'
  let i : Invocation :=
    { input := .ofText "A.vm", output? := none, bootstrap := .auto, noComments := false, verbose := false }
  have hargs : invocation ["A.vm"] = .ok i := by decide +kernel
  have hargs' : invocation ["A.vm", "--verbose"] = .ok { i with verbose := true } := by decide +kernel
  obtain ⟨hok, -, hfailed, ⟨hexit', houtput', hstate'⟩, -, hsearch⟩ :=
    program_outcome hargs hargs' quiet.tools traced.log t
  have hexit : out.1.exit ≠ 0 := by decide +kernel
  obtain ⟨hone, houtput, -, hstate⟩ := hfailed hexit
  have hlog' : out'.1.log = "INFO translating 1 unit(s) into A.asm (bootstrap: false)\n" := by decide +kernel
  have hmessages := hsearch (by decide +kernel) (by decide +kernel) (by decide +kernel) (by decide +kernel)
  exact ⟨hone, houtput, hstate, hexit'.trans hone, houtput'.trans houtput, hstate'.trans hstate,
    by rw [hlog']; decide, hmessages⟩

/-- The path of an output that is no text is not printed as it is. And a log that repeats what is wrong with its
setup may begin a line like a failure report, where there is no failure. -/
theorem program_outcome_misread :
    let topicName : Log.Topic → String := fun | .job => "job" | .code => "code"
    let path : Bytes := 0xFF :: Text.utf8 ".vm"
    let read : List Bytes → Except Outcome Invocation := fun args =>
      .ok { input := ⟨args.headD []⟩, output? := none, bootstrap := .auto, noComments := false, verbose := false }
    let t := (FileTree.empty []).putFile [path] "add".toUTF8
    let job : Job := { units := [⟨path⟩], output := ⟨0xFF :: Text.utf8 ".asm"⟩, fromDirectory := false }
    let out := (program read { describe := failureText, log := fun _ _ => "" } [path] : StateM FileTree Outcome).run t
    let t' := (FileTree.empty []).putFile [Text.utf8 "A.vm"] "add".toUTF8
    let logged (spec? : Option String) :=
      (runArguments { topicName, spec? } ["A.vm"] : StateM FileTree Outcome).run t'
    (Job.plan ⟨path⟩ none (t.find ⟨path⟩) = .ok job ∧ out.1.exit = 0 ∧ out.1.output = "\uFFFD.asm\n" ∧
      Text.utf8 out.1.output ≠ job.output.bytes ++ Text.utf8 "\n") ∧
    errorText (logged none).1.messages = "" ∧
    errorText (logged (some "a=x\nError: y")).1.messages = "Error: y', ignoring it\n" := by
  decide +kernel

end HackStack.Cli
