import HackStack.File.Error
import HackStack.File.Path
/-!
# Access to files

`MonadFiles` is what a job asks of the file system: what a path leads to, the
text of a file, and writing a file.
-/

namespace HackStack

/-- What a path leads to. -/
inductive Found
  | file
  /-- A directory with its own name, unless it is the root or its path from the root cannot be found,
  and the names in it, each with whether the path to it leads to a file. The order of the names means
  nothing. -/
  | directory (name? : Option Bytes) (entries : List (Bytes × Bool))
  /-- A directory whose entries cannot be listed. -/
  | unlisted (cause : FileError)
  | nothing
  deriving DecidableEq, Repr

class MonadFiles (m : Type → Type) where
  find : FilePath → m Found
  readText : FilePath → m (Except FileError String)
  /-- Replaces what the file holds, and creates it if its directory is there. -/
  writeText : FilePath → String → m (Except FileError Unit)

end HackStack
