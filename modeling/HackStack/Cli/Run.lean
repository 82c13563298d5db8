import HackStack.Cli.Arguments
import HackStack.Cli.Failure
import HackStack.Log.Filter
/-!
# The command line program

`runArguments` is the whole program over any access to files, with the log set
up from outside and failures reported as a list of causes.
-/

namespace HackStack.Cli

/-- How the log is set up from outside. -/
structure LogSetup where
  /-- A specification of what to show, which the arguments do not override. -/
  spec? : Option String := none
  topicName : Log.Topic → String

namespace LogSetup

/-- What the specification says. Without one nothing changes. -/
def spec (setup : LogSetup) : Log.Spec :=
  (setup.spec?.map Log.Spec.read).getD {}

/-- The events to show of a run. -/
def filter (setup : LogSetup) (verbose : Bool) : Log.Filter :=
  (Log.Filter.ofLevel (if verbose then .debug else .warn)).configure setup.spec

/-- What is wrong with the specification, and then the events that it shows. -/
def log (setup : LogSetup) (verbose : Bool) (events : List Log.Event) : String :=
  setup.spec.warnings ++
    String.join ((events.filter ((setup.filter verbose).admits setup.topicName)).map (·.text))

def tools (setup : LogSetup) : Tools where
  describe := failureText
  log := setup.log

end LogSetup

def versionText : String := "vmtranslator 0.1.0\n"

def usageText : String :=
  "Usage: vmtranslator [OPTIONS] <INPUT>\n\n" ++
  "Options:\n" ++
  "  -o, --output <OUTPUT>        where the result goes\n" ++
  "      --bootstrap <BOOTSTRAP>  auto, always or never\n" ++
  "      --no-comments            no comment in front of each command's code\n" ++
  "  -v, --verbose                log progress\n" ++
  "  -h, --help                   print this text\n" ++
  "  -V, --version                print the version\n"

/-- What the arguments come to. -/
def invocation (args : List String) : Except Outcome Invocation :=
  match readArguments args with
  | .error e => .error { exit := 2, failure := "error: " ++ e.message ++ "\n\n" ++ usageText }
  | .ok .version => .error { output := versionText }
  | .ok .help => .error { output := usageText }
  | .ok (.run i) => .ok i

variable {m : Type → Type} [Monad m] [MonadFiles m]

def runArguments (setup : LogSetup) (args : List String) : m Outcome :=
  program invocation setup.tools args

end HackStack.Cli
