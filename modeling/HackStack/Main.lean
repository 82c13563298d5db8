import HackStack.Cli.Run
/-!
# The executable

Access to the files of the machine, and `main`, which prints what
`Cli.runArguments` leaves behind.
-/

namespace HackStack

/-- The cause behind a failure the system reports. -/
def FileError.ofSystem : IO.Error → FileError
  | .noFileOrDirectory .. => .notFound
  | .inappropriateType _ code details =>
    if code = 20 then .notADirectory else if code = 21 then .isADirectory else .system details
  | .invalidArgument _ code details =>
    if code = 36 then .nameTooLong else .system s!"{details} (os error {code})"
  | .permissionDenied _ code details => .system s!"{details} (os error {code})"
  | e => .system (toString e)

/-- Runs an action on files and keeps its failure as a value. -/
def attempt {α : Type} (action : IO α) : IO (Except FileError α) := do
  match ← action.toBaseIO with
  | .ok a => return .ok a
  | .error e => return .error (.ofSystem e)

/-- What a path leads to on this machine. -/
def findOnDisk (p : FilePath) : IO Found := do
  let path := System.mkFilePath [p.text]
  match ← attempt (do return (← path.metadata).type) with
  | .ok .dir =>
    let listing ← attempt (do
      (← path.readDir).toList.mapM fun entry => do
        let name := Text.utf8 entry.fileName
        let kind ← attempt (do return (← (System.mkFilePath [(p.join name).text]).metadata).type)
        return (name, match kind with | .ok .file => true | _ => false))
    match listing with
    | .ok entries =>
      let root ← attempt (IO.FS.realPath path)
      return .directory (root.toOption.bind fun root => root.fileName.map Text.utf8) entries
    | .error cause => return .unlisted cause
  | .ok .file => return .file
  | _ => return .nothing

instance : MonadFiles IO where
  find := findOnDisk
  readText p := do
    match ← attempt (IO.FS.readBinFile p.text) with
    | .ok bytes => return match String.fromUTF8? bytes with
      | some text => .ok text
      | none => .error .notText
    | .error e => return .error e
  writeText p text := attempt (IO.FS.writeFile p.text text)

end HackStack

/-- Runs the program on the arguments and the files of this machine. -/
def main (args : List String) : IO UInt32 := do
  let setup : HackStack.Cli.LogSetup := {
    spec? := ← IO.getEnv "RUST_LOG"
    topicName := fun
      | .job => "HackStack.Job"
      | .code => "HackStack.Emitter" }
  let outcome ← HackStack.Cli.runArguments setup args
  IO.eprint outcome.messages
  IO.print outcome.output
  return outcome.exit
