import HackStack.Emitter
/-!
# Programs

A program is a list of units, each a name and a source text. `compile` emits
them in order through one emitter and stops at the first bad line of the first
bad unit.
-/

namespace HackStack

structure SourceUnit where
  name : String
  source : String
  deriving DecidableEq, Repr

/-- A bad line, and the unit it is in. -/
structure UnitError where
  unit : String
  cause : LineError
  deriving DecidableEq, Repr

def UnitError.message (e : UnitError) : String :=
  e.unit ++ ": " ++ e.cause.message

namespace Program

def emitUnit (e : Emitter) (u : SourceUnit) : Except UnitError Emitter :=
  match Source.read u.source with
  | .error cause => .error { unit := u.name, cause }
  | .ok commands =>
    match (e.enter u.name).perform (Emitter.emitAll commands) with
    | (e, .ok ()) => .ok e
    | (_, .error cause) => .error { unit := u.name, cause }

/-- The emitter a program starts with. -/
def start (bootstrap echo : Bool) : Emitter :=
  let e : Emitter := { echo }
  if bootstrap then e.bootstrap else e

/-- The lines of a whole program. -/
def compile (units : List SourceUnit) (bootstrap echo : Bool) : Except UnitError (List Line) :=
  (·.lines.toList) <$> units.foldlM emitUnit (start bootstrap echo)

end Program

end HackStack
