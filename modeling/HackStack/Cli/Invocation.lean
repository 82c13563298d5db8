import HackStack.Job.Run
/-!
# A run of the program

An invocation is what the arguments ask for. The program plans the job and runs
it, prints where the result is, and reports a failure. Three things it takes
from elsewhere: how arguments are read, how a failure is put into words, and
what the log shows.
-/

namespace HackStack.Cli

/-- What to compile and how. -/
structure Invocation where
  input : FilePath
  output? : Option FilePath
  bootstrap : Bootstrap
  /-- Whether the comment in front of each command's code is left out. -/
  noComments : Bool
  verbose : Bool
  deriving DecidableEq, Repr

/-- What a run of the program leaves behind, besides files. -/
structure Outcome where
  exit : UInt32 := 0
  output : String := ""
  log : String := ""
  /-- What stands behind the log for a person to read. -/
  failure : String := ""
  deriving DecidableEq, Repr

/-- All that is written for a person to read. -/
def Outcome.messages (o : Outcome) : String := o.log ++ o.failure

structure Tools where
  /-- Puts into words what failed, and the causes from the nearest to the furthest. -/
  describe : (what : String) → (causes : List String) → String
  /-- What the log shows of the events, given whether the arguments ask for progress. -/
  log : (verbose : Bool) → (events : List Log.Event) → String

/-- A failure. -/
def Tools.failed (tools : Tools) (what : String) (e : JobError) : Outcome :=
  { exit := 1, failure := "Error: " ++ tools.describe what e.causes ++ "\n" }

/-- What comes of a job. -/
def Invocation.outcome (tools : Tools) (i : Invocation) (job : Job) : Except JobError Nat → Outcome
  | .ok _ => { output := job.output.text ++ "\n" }
  | .error e => tools.failed ("translation of " ++ i.input.text ++ " failed") e

variable {m : Type → Type} [Monad m] [MonadFiles m]

def Invocation.run (tools : Tools) (i : Invocation) : m Outcome := do
  match Job.plan i.input i.output? (← MonadFiles.find i.input) with
  | .error e => return { tools.failed ("cannot translate " ++ i.input.text) e with log := tools.log i.verbose [] }
  | .ok job =>
    let report ← job.run i.bootstrap (!i.noComments)
    return { i.outcome tools job report.result with log := tools.log i.verbose report.events }

/-- The program, where `read` says what arguments come to: an invocation, or what the program says instead
of running. -/
def program {Arg : Type} (read : List Arg → Except Outcome Invocation) (tools : Tools) (args : List Arg) :
    m Outcome :=
  match read args with
  | .error said => return said
  | .ok i => i.run tools

end HackStack.Cli
