import HackStack.Cli.Invocation
/-!
# Command line arguments

Arguments are read from left to right, and the first one that is wrong or asks
for help or the version ends the reading. An option's value is attached to it,
with or without an equals sign, or is the next argument, which then must not
look like an option itself. Short options can share one dash. After two dashes
alone every argument is an input. Nothing may be given twice.
-/

namespace HackStack.Cli

inductive Request
  | run (i : Invocation)
  | version
  | help
  deriving DecidableEq, Repr

inductive Switch
  | output | bootstrap | noComments | verbose | version | help
  deriving DecidableEq, Repr

namespace Switch

def name : Switch → String
  | output => "output"
  | bootstrap => "bootstrap"
  | noComments => "no-comments"
  | verbose => "verbose"
  | version => "version"
  | help => "help"

def ofLong? (w : String) : Option Switch :=
  [output, bootstrap, noComments, verbose, version, help].find? (·.name == w)

def ofShort? : Char → Option Switch
  | 'o' => some output
  | 'v' => some verbose
  | 'V' => some version
  | 'h' => some help
  | _ => none

def takesValue : Switch → Bool
  | output | bootstrap => true
  | _ => false

end Switch

/-- What is wrong with the arguments. -/
inductive UsageError
  | noInput
  | unexpected (arg : String)
  | missingValue (s : Switch)
  | badValue (s : Switch) (value : String)
  | needlessValue (s : Switch)
  | repeated (s : Switch)
  deriving DecidableEq, Repr

def UsageError.message : UsageError → String
  | noInput => "no input given"
  | unexpected arg => s!"unexpected argument `{arg}`"
  | missingValue s => s!"--{s.name} needs a value"
  | badValue s value => s!"`{value}` is no value for --{s.name}"
  | needlessValue s => s!"--{s.name} takes no value"
  | repeated s => s!"--{s.name} is given twice"

/-- What the arguments so far have said. -/
structure Draft where
  input : Option FilePath := none
  output : Option FilePath := none
  bootstrap : Option Bootstrap := none
  noComments : Bool := false
  verbose : Bool := false
  deriving DecidableEq, Repr

/-- What one argument comes to. -/
inductive Step
  | next (d : Draft)
  /-- The value of the option is the next argument. -/
  | await (d : Draft) (s : Switch)
  | stop (r : Request)

namespace Draft

def addInput (d : Draft) (arg : String) : Except UsageError Draft :=
  if d.input.isSome || arg.isEmpty then .error (.unexpected arg)
  else .ok { d with input := some (.ofText arg) }

/-- Takes the value of an option. -/
def setValue (d : Draft) (s : Switch) (value : String) : Except UsageError Draft :=
  match s with
  | .output =>
    if value.isEmpty then .error (.badValue s value)
    else if d.output.isSome then .error (.repeated s)
    else .ok { d with output := some (.ofText value) }
  | .bootstrap =>
    match Bootstrap.ofName? value with
    | none => .error (.badValue s value)
    | some mode =>
      if d.bootstrap.isSome then .error (.repeated s) else .ok { d with bootstrap := some mode }
  | _ => .error (.needlessValue s)

/-- Takes an option that stands without a value. -/
def setFlag (d : Draft) (s : Switch) : Except UsageError Step :=
  match s with
  | .noComments => if d.noComments then .error (.repeated s) else .ok (.next { d with noComments := true })
  | .verbose => if d.verbose then .error (.repeated s) else .ok (.next { d with verbose := true })
  | .version => .ok (.stop .version)
  | .help => .ok (.stop .help)
  | .output | .bootstrap => .ok (.await d s)

/-- Takes a long option, given without its dashes. -/
def takeLong (d : Draft) (w : List Char) : Except UsageError Step :=
  match Switch.ofLong? (String.ofList (w.takeWhile (· != '='))), w.dropWhile (· != '=') with
  | none, _ => .error (.unexpected ("--" ++ String.ofList w))
  | some s, [] => d.setFlag s
  | some s, _ :: value => .next <$> d.setValue s (String.ofList value)

/-- Takes short options that share a dash. -/
def takeShort (d : Draft) : List Char → Except UsageError Step
  | [] => .ok (.next d)
  | c :: cs =>
    match Switch.ofShort? c with
    | none => .error (.unexpected ("-" ++ String.ofList [c]))
    | some s =>
      if s.takesValue then
        match cs with
        | [] => .ok (.await d s)
        | '=' :: value | value => .next <$> d.setValue s (String.ofList value)
      else
        match d.setFlag s with
        | .ok (.next d) => d.takeShort cs
        | r => r

def take (d : Draft) (arg : String) : Except UsageError Step :=
  match arg.toList with
  | '-' :: '-' :: w => d.takeLong w
  | '-' :: c :: cs => d.takeShort (c :: cs)
  | _ => .next <$> d.addInput arg

def finish (d : Draft) : Except UsageError Request :=
  match d.input with
  | none => .error .noInput
  | some input =>
    .ok (.run {
      input, output? := d.output, bootstrap := d.bootstrap.getD .auto, noComments := d.noComments,
      verbose := d.verbose })

/-- Whether an argument looks like an option. A dash alone does not. -/
def isOption (arg : String) : Bool :=
  arg.toList.head? == some '-' && arg != "-"

def read (d : Draft) : List String → Except UsageError Request
  | [] => d.finish
  | "--" :: args => do (← args.foldlM addInput d).finish
  | arg :: args => do
    match ← d.take arg with
    | .next d => d.read args
    | .stop r => .ok r
    | .await d s =>
      match args with
      | [] => .error (.missingValue s)
      | value :: args =>
        if isOption value then .error (.missingValue s) else (← d.setValue s value).read args

end Draft

/-- What the arguments ask for. -/
def readArguments (args : List String) : Except UsageError Request :=
  ({} : Draft).read args

end HackStack.Cli
