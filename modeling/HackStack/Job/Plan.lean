import HackStack.Job.Error
/-!
# Planning a job

A job names the units to compile, in order, and where the result goes. An input
is one source file, or a directory, which stands for the source files right in
it, in the order of their names. `Job.plan` depends on the file system only
through what the input leads to.
-/

namespace HackStack

def sourceExtension : String := "vm"

def outputExtension : String := "asm"

/-- Whether the code that calls the entry point goes in front. -/
inductive Bootstrap
  /-- If a directory holds more than one unit. -/
  | auto
  | always
  | never
  deriving DecidableEq, Repr

def Bootstrap.ofName? : String → Option Bootstrap
  | "auto" => some .auto
  | "always" => some .always
  | "never" => some .never
  | _ => none

structure Job where
  units : List FilePath
  output : FilePath
  fromDirectory : Bool
  deriving DecidableEq, Repr

def FilePath.isSource (p : FilePath) : Bool :=
  p.extension? == some (Text.utf8 sourceExtension)

namespace Job

/-- Whether the entries of a directory come in the order of their names. -/
def inOrder (a b : Bytes) : Bool := decide (a ≤ b)

/-- The units right in the directory `input`. -/
def unitsIn (input : FilePath) (entries : List (Bytes × Bool)) : List FilePath :=
  let names := (entries.filter fun (name, isFile) => isFile && (input.join name).isSource).map (·.1)
  (names.mergeSort inOrder).map input.join

/-- The name of the output in a directory. -/
def outputName (name? : Option Bytes) : String :=
  (name?.map Text.lossy).getD "out" ++ "." ++ outputExtension

/-- The job for an input that leads to `found`. Without a given output the result goes beside the
source file, or into the directory under the directory's own name. -/
def plan (input : FilePath) (output? : Option FilePath) : Found → Except JobError Job
  | .directory name? entries =>
    match unitsIn input entries with
    | [] => .error (.noSourceFiles input)
    | units =>
      let output := input.join (Text.utf8 (outputName name?))
      .ok { units, output := output?.getD output, fromDirectory := true }
  | .unlisted cause => .error (.read input cause)
  | .file =>
    if input.isSource then
      let output := input.withExtension (Text.utf8 outputExtension)
      .ok { units := [input], output := output?.getD output, fromDirectory := false }
    else .error (.unsupportedInput input)
  | .nothing => .error (.unsupportedInput input)

def wantsBootstrap (job : Job) : Bootstrap → Bool
  | .always => true
  | .never => false
  | .auto => job.fromDirectory && 1 < job.units.length

end Job

end HackStack
