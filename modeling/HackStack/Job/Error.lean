import HackStack.File.Access
import HackStack.Program
/-!
# Why a job fails

`JobError.message` is the whole text, and `JobError.causes` the texts from the
failure itself down to what is behind it.
-/

namespace HackStack

inductive JobError
  | unit (e : UnitError)
  | read (path : FilePath) (cause : FileError)
  | write (path : FilePath) (cause : FileError)
  | unsupportedInput (path : FilePath)
  | noSourceFiles (path : FilePath)
  deriving DecidableEq, Repr

namespace JobError

def message : JobError → String
  | unit e => e.message
  | read path cause => "failed to read " ++ path.text ++ ": " ++ cause.message
  | write path cause => "failed to write " ++ path.text ++ ": " ++ cause.message
  | unsupportedInput path => path.text ++ " is neither a .vm file nor a directory"
  | noSourceFiles path => "no .vm files found in " ++ path.text

def causes (e : JobError) : List String :=
  e.message :: match e with
    | unit e => [e.cause.message, e.cause.cause.message]
    | read _ cause | write _ cause => [cause.message]
    | unsupportedInput _ | noSourceFiles _ => []

/-- The command error behind the failure, if there is one. -/
def commandError? : JobError → Option CommandError
  | unit e => some e.cause.cause
  | _ => none

end JobError

end HackStack
