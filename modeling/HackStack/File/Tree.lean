import HackStack.File.Access
/-!
# File trees

A file tree is a file system without links or permissions, as a value: which
locations hold directories and files, and the working directory that relative
paths start from. `walk` follows a path piece by piece, and every piece has to
start from a directory and to be short enough. A file is written only where a
name ends the path, as a slash after it asks for a directory.
-/

namespace HackStack

/-- The names on the way from a place up to the root, innermost first. -/
abbrev Location := List Bytes

inductive Entry
  | directory
  | file (bytes : ByteArray)

def Entry.isFile : Entry → Bool
  | file _ => true
  | directory => false

structure FileTree where
  /-- Each location once, in any order. The root is always there and is not listed. -/
  entries : List (Location × Entry)
  /-- The working directory. -/
  cwd : Location
  /-- Whether a path is one for which the system finds the path from the root, if it leads to a directory.
  It gives up where that path is too long for it. -/
  rooted : FilePath → Bool := fun _ => true

namespace FileTree

def entry? (t : FileTree) (l : Location) : Option Entry :=
  if l = [] then some .directory else t.entries.lookup l

/-- The tree with `e` at the location. -/
def put (t : FileTree) (l : Location) (e : Entry) : FileTree :=
  { t with entries := (l, e) :: t.entries.filter (·.1 != l) }

/-- Makes the location and all above it directories, where nothing is yet. -/
def putDirectory (t : FileTree) : Location → FileTree
  | [] => t
  | name :: l =>
    let t := t.putDirectory l
    if (t.entry? (name :: l)).isSome then t else t.put (name :: l) .directory

/-- Puts a file at the location, and directories above it. -/
def putFile (t : FileTree) (l : Location) (bytes : ByteArray) : FileTree :=
  (t.putDirectory l.tail).put l (.file bytes)

/-- The tree that holds nothing but its working directory. -/
def empty (cwd : Location) : FileTree :=
  ({ entries := [], cwd } : FileTree).putDirectory cwd

/-- The names in a directory, each with whether it is a file. -/
def names (t : FileTree) (dir : Location) : List (Bytes × Bool) :=
  t.entries.filterMap fun
    | (name :: l, e) => if l = dir then some (name, e.isFile) else none
    | ([], _) => none

/-! ## Paths -/

/-- Where a piece of a path leads from a directory. -/
def step (l : Location) (piece : Bytes) : Location :=
  if FilePath.isIdle piece then l else if piece = FilePath.parent then l.tail else piece :: l

/-- Where the pieces lead. Nothing need be at the end, but every piece starts from a directory. -/
def walk (t : FileTree) (l : Location) : List Bytes → Except FileError Location
  | [] => .ok l
  | piece :: pieces =>
    match t.entry? l with
    | none => .error .notFound
    | some (.file _) => .error .notADirectory
    | some .directory =>
      if FilePath.fitsName piece then t.walk (step l piece) pieces else .error .nameTooLong

/-- Where a path starts. -/
def origin (t : FileTree) (p : FilePath) : Except FileError Location :=
  if p.bytes.contains 0 then .error .nulInPath
  else if p.bytes.isEmpty then .error .notFound
  else if !p.fits then .error .nameTooLong
  else .ok (if p.isAbsolute then [] else t.cwd)

/-- What a path leads to. -/
def resolve (t : FileTree) (p : FilePath) : Except FileError (Location × Entry) := do
  let l ← t.walk (← t.origin p) p.pieces
  match t.entry? l with
  | some e => .ok (l, e)
  | none => .error .notFound

/-- The location of the file that writing to the path replaces or creates. -/
def target (t : FileTree) (p : FilePath) : Except FileError Location := do
  let l ← t.origin p
  match p.pieces.reverse.dropWhile (· == []) with
  | [] => .error .isADirectory
  | last :: front =>
    -- the idle piece at the end checks that the way there ends in a directory
    let dir ← t.walk l (front.reverse ++ [[FilePath.dot]])
    if FilePath.isIdle last ∨ last = FilePath.parent ∨ p.pieces.getLast? = some [] then .error .isADirectory
    else if !FilePath.fitsName last then .error .nameTooLong
    else match t.entry? (last :: dir) with
      | some .directory => .error .isADirectory
      | _ => .ok (last :: dir)

/-! ## Access -/

def find (t : FileTree) (p : FilePath) : Found :=
  match t.resolve p with
  | .ok (l, .directory) =>
    .directory (if t.rooted p then l.head? else none)
      ((t.names l).map fun (name, isFile) => (name, isFile && (p.join name).fits))
  | .ok (_, .file _) => .file
  | .error _ => .nothing

def readText (t : FileTree) (p : FilePath) : Except FileError String :=
  match t.resolve p with
  | .ok (_, .file bytes) =>
    match String.fromUTF8? bytes with
    | some text => .ok text
    | none => .error .notText
  | .ok (_, .directory) => .error .isADirectory
  | .error e => .error e

def writeText (t : FileTree) (p : FilePath) (text : String) : Except FileError FileTree :=
  (fun l => t.put l (.file text.toUTF8)) <$> t.target p

instance : MonadFiles (StateM FileTree) where
  find p := do return (← get).find p
  readText p := do return (← get).readText p
  writeText p text := do
    match (← get).writeText p text with
    | .ok t => set t; return .ok ()
    | .error e => return .error e

end FileTree

end HackStack
