import HackStack.Emitter
/-!
# Sessions

A session drives one emitter by requests. A request that fails is answered
with what is wrong, and the session goes on with whatever the request had
emitted before it failed.
-/

namespace HackStack

inductive Request
  | bootstrap
  | enter (unit : String)
  | emit (c : Command)
  | emitAll (cs : List SourceCommand)
  /-- Reads one line and emits its command. -/
  | line (text : String)
  /-- Reads a source text and emits its commands. -/
  | source (text : String)
  deriving DecidableEq, Repr

inductive RequestError
  | command (e : CommandError)
  | line (e : LineError)
  deriving DecidableEq, Repr

namespace Emitter

def respond : Request → Action RequestError Unit
  | .bootstrap => boot
  | .enter unit => modify (·.enter unit)
  | .emit c => (emit c).adapt .command
  | .emitAll cs => (emitAll cs).adapt .line
  | .line text => ExceptT.adapt .command do emit (← Command.read text)
  | .source text => ExceptT.adapt .line do emitAll (← Source.read text)

def answer (e : Emitter) (r : Request) : Emitter × Except RequestError Unit :=
  e.perform (respond r)

end Emitter

end HackStack
