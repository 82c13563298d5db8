import HackStack.Log.Spec
/-!
# Which events are shown

A filter holds directives, of which the one with the longest text that fits a
topic decides, and possibly a pattern that has to occur in the message.
`configure` changes a filter as a specification says.
-/

namespace HackStack.Log

/-- How much of the topic's name the directive spells out, if it is about that topic. -/
def Directive.reach? (d : Directive) (topic : String) : Option Nat :=
  match d.topic with
  | none => some 0
  | some start => if start.toList.isPrefixOf topic.toList then some start.length else none

structure Filter where
  directives : List Directive
  pattern? : Option Pattern := none
  deriving DecidableEq, Repr

namespace Filter

/-- Shows every event up to a level. -/
def ofLevel (level : Level) : Filter :=
  { directives := [{ topic := none, level }] }

/-- Adds a directive, in the place of an earlier one with the same topic. -/
def add (f : Filter) (d : Directive) : Filter :=
  if f.directives.any (·.topic == d.topic) then
    { f with directives := f.directives.map fun d' => if d'.topic = d.topic then d else d' }
  else { f with directives := f.directives ++ [d] }

/-- The filter changed as the specification says. -/
def configure (f : Filter) (spec : Spec) : Filter :=
  { spec.directives.foldl add f with pattern? := spec.pattern? }

/-- The level of a topic. Of two directives that reach equally far the later one decides. -/
def levelOf (f : Filter) (topic : String) : Level :=
  (f.directives.foldl
    (fun best d =>
      match d.reach? topic with
      | some n => if best.1 ≤ n then (n, d.level) else best
      | none => best)
    (0, .off)).2

/-- Whether an event is shown, where `topicName` names the topics. -/
def admits (f : Filter) (topicName : Topic → String) (e : Event) : Bool :=
  e.level.rank ≤ (f.levelOf (topicName e.topic)).rank &&
    f.pattern?.all (·.occursIn e.message.toList)

end Filter

end HackStack.Log
