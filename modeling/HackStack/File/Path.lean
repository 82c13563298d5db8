import HackStack.Text.Bytes
/-!
# Paths

A path is kept as it was written; nothing is normalised unless a function says
so. Slashes separate its pieces. An empty piece or a single dot leads nowhere,
two dots lead to the parent directory, and any other piece is a name.
-/

namespace HackStack

structure FilePath where
  bytes : Bytes
  deriving DecidableEq, Repr

namespace FilePath

def slash : UInt8 := 0x2F

def dot : UInt8 := 0x2E

def ofText (s : String) : FilePath := ⟨Text.utf8 s⟩

/-- The path as it is shown. -/
def text (p : FilePath) : String := Text.lossy p.bytes

/-- The pieces between the slashes, the empty ones too. -/
def pieces (p : FilePath) : List Bytes := p.bytes.splitOn slash

/-- A piece that leads nowhere. -/
def isIdle (piece : Bytes) : Bool := piece == [] || piece == [dot]

/-- The piece that leads to the parent directory. -/
def parent : Bytes := [dot, dot]

def isAbsolute (p : FilePath) : Bool := p.bytes.head? == some slash

/-- The name a path ends in, whatever slashes and dots follow it. -/
def fileName? (p : FilePath) : Option Bytes :=
  (p.pieces.filter (!isIdle ·)).getLast?.filter (· != parent)

/-- Splits a name at its last dot. A name without dots stays whole, and so does one whose only dot
comes first. -/
def splitName (name : Bytes) : Bytes × Option Bytes :=
  let parts := name.splitOn dot
  match parts.dropLast with
  | [] | [[]] => (name, none)
  | front => ([dot].intercalate front, parts.getLast?)

/-- The name a path ends in, without its extension, as it is shown. -/
def stem (p : FilePath) : String :=
  Text.lossy ((p.fileName?.map fun name => (splitName name).1).getD [])

/-- What follows the last dot of the name a path ends in. -/
def extension? (p : FilePath) : Option Bytes :=
  p.fileName?.bind fun name => (splitName name).2

/-- The path of an entry of the directory `p`. -/
def join (p : FilePath) (name : Bytes) : FilePath :=
  if p.bytes = [] ∨ p.bytes.getLast? = some slash then ⟨p.bytes ++ name⟩
  else ⟨p.bytes ++ slash :: name⟩

/-- The path less as many bytes at its end as its extension has. -/
def dropExtension (p : FilePath) : FilePath :=
  match p.extension? with
  | none => p
  | some extension => ⟨p.bytes.take (p.bytes.length - extension.length)⟩

/-- The path with another extension. The old one comes off the end first, and what is left may end
in no name: without `vm`, `..vm` is the parent directory. Such a path stays so. -/
def withExtension (p : FilePath) (extension : Bytes) : FilePath :=
  let p := p.dropExtension
  match p.fileName? with
  | none => p
  | some name =>
    let front := (p.pieces.reverse.dropWhile isIdle).tail.reverse
    ⟨[slash].intercalate (front ++ [(splitName name).1 ++ dot :: extension])⟩

example : ((ofText "d/a.vm").withExtension (Text.utf8 "asm")).text = "d/a.asm" ∧
    ((ofText "d/..vm").withExtension (Text.utf8 "asm")).text = "d/.." := by decide +kernel

/-! ## Lengths -/

/-- Whether a name is short enough for a file system: at most 255 bytes. -/
def fitsName (name : Bytes) : Bool := name.length ≤ 255

/-- Whether the whole path is short enough to be followed: less than 4096 bytes. -/
def fits (p : FilePath) : Bool := p.bytes.length < 4096

end FilePath

end HackStack
