/-!
# What can go wrong with a file

The texts are those of the operating system, with its error numbers.
-/

namespace HackStack

inductive FileError
  | notFound
  | notADirectory
  | isADirectory
  /-- A name in the path is too long, or the path as a whole. -/
  | nameTooLong
  /-- The bytes of the file are no UTF-8 text. -/
  | notText
  /-- The path holds a NUL character. -/
  | nulInPath
  /-- Any other failure, in the words of the system. -/
  | system (text : String)
  deriving DecidableEq, Repr

def FileError.message : FileError → String
  | notFound => "No such file or directory (os error 2)"
  | notADirectory => "Not a directory (os error 20)"
  | isADirectory => "Is a directory (os error 21)"
  | nameTooLong => "File name too long (os error 36)"
  | notText => "stream did not contain valid UTF-8"
  | nulInPath => "file name contained an unexpected NUL byte"
  | system text => text

end HackStack
