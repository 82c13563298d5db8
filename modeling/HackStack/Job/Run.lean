import HackStack.Job.Plan
import HackStack.Log.Event
import HackStack.Text.Lines
/-!
# Running a job

All units are read before any is compiled, and the output is written once all
of them have compiled, so a job that fails changes no file. A report holds what
came of the job and the events on the way.
-/

namespace HackStack

/-- The events of compiling, up to the first bad line. -/
def Program.events : List SourceUnit → List Log.Event
  | [] => []
  | u :: us =>
    match Source.read u.source with
    | .error _ => []
    | .ok commands =>
      .unitRead u.name commands.length :: (commands.map fun c => .command u.name c.command) ++ events us

namespace Job

structure Report where
  /-- The number of lines written. -/
  result : Except JobError Nat
  events : List Log.Event

/-- The units with their texts, if all could be read, or else the first that could not. -/
def sources : List (FilePath × Except FileError String) → Except JobError (List SourceUnit)
  | [] => .ok []
  | (path, .ok text) :: rest => ({ name := path.stem, source := text } :: ·) <$> sources rest
  | (path, .error cause) :: _ => .error (.read path cause)

/-- The text of an output file. -/
def render (lines : List Line) : String :=
  Text.joinLines (lines.map (·.text))

variable {m : Type → Type} [Monad m] [MonadFiles m]

/-- Writes what compiling gave, if it went well. -/
def write (job : Job) (compiled : Except UnitError (List Line)) : m (Except JobError Nat) :=
  match compiled with
  | .error e => return .error (.unit e)
  | .ok lines => do
    match ← MonadFiles.writeText job.output (render lines) with
    | .ok () => return .ok lines.length
    | .error cause => return .error (.write job.output cause)

def run (job : Job) (mode : Bootstrap) (echo : Bool) : m Report := do
  let bootstrap := job.wantsBootstrap mode
  let start := Log.Event.start job.units.length job.output bootstrap
  let texts ← job.units.mapM MonadFiles.readText
  match sources (job.units.zip texts) with
  | .error e => return { result := .error e, events := [start] }
  | .ok units =>
    let result ← job.write (Program.compile units bootstrap echo)
    let finish := match result with
      | .ok n => [.finish n]
      | .error _ => []
    return { result, events := start :: Program.events units ++ finish }

end Job

end HackStack
