import HackStack.Log.Event
import HackStack.Pattern.Meaning
import HackStack.Text.Blank
/-!
# Specifications of what to show

A specification is a list of directives, separated by commas, and after a slash
a pattern. `info,job=trace/Main|Sys` shows events up to `info`, those of the
topic `job` up to `trace`, and of them only events whose message holds `Main`
or `Sys`. What cannot be read is left out, with a warning.
-/

namespace HackStack.Log

/-- A level for the topics whose names start with `topic`, or for all of them. -/
structure Directive where
  topic : Option String
  level : Level
  deriving DecidableEq, Repr

/-- What a specification says that means nothing. -/
inductive SpecFault
  /-- A level that has no such name, or a directive with two equals signs. -/
  | directive (text : String)
  | slashes (spec : String)
  | pattern (cause : Pattern.Error)
  deriving DecidableEq, Repr

def SpecFault.message : SpecFault → String
  | directive text => "invalid logging spec '" ++ text ++ "'"
  | slashes spec => "invalid logging spec '" ++ spec ++ "' (too many '/'s)"
  | pattern cause => "invalid regex filter - " ++ cause.message

/-- The fault as a line of the log. -/
def SpecFault.warning (f : SpecFault) : String :=
  "warning: " ++ f.message ++ ", ignoring it\n"

/-- Reads `level`, `topic` or `topic=level`. A topic without a level shows everything. -/
def Directive.read (s : List Char) : Except SpecFault Directive :=
  match s.splitOn '=' with
  | [w] =>
    match Level.ofName? (String.ofList w) with
    | some level => .ok { topic := none, level }
    | none => .ok { topic := some (String.ofList w), level := .trace }
  | [w, l] =>
    let l := Text.trim l
    let topic := some (String.ofList w)
    if l.isEmpty then .ok { topic, level := .trace }
    else match Level.ofName? (String.ofList l) with
      | some level => .ok { topic, level }
      | none => .error (.directive (String.ofList l))
  | _ => .error (.directive (String.ofList s))

structure Spec where
  directives : List Directive := []
  pattern? : Option Pattern := none
  faults : List SpecFault := []
  deriving DecidableEq, Repr

namespace Spec

/-- Reads directives. -/
def ofList (list : List Char) : Spec :=
  let items := ((list.splitOn ',').map Text.trim).filter (!·.isEmpty)
  items.foldl (fun spec item =>
    match Directive.read item with
    | .ok d => { spec with directives := spec.directives ++ [d] }
    | .error f => { spec with faults := spec.faults ++ [f] }) {}

/-- Reads a specification. One with two slashes says nothing. -/
def read (text : String) : Spec :=
  match text.toList.splitOn '/' with
  | [list] => ofList list
  | [list, pattern] =>
    let spec := ofList list
    match Pattern.read (String.ofList pattern) with
    | .ok p => { spec with pattern? := some p }
    | .error cause => { spec with faults := spec.faults ++ [.pattern cause] }
  | _ => { faults := [.slashes text] }

/-- What is written about the faults. -/
def warnings (s : Spec) : String := String.join (s.faults.map SpecFault.warning)

end Spec

end HackStack.Log
