import ScriptTree.Cli.Compile
import ScriptTree.Cli.Complete
import ScriptTree.Cli.Help
import ScriptTree.Cli.Reserved
import ScriptTree.Cli.Serve
import ScriptTree.Settings.Load

/-!
The command line. A run takes the arguments and what the program sees of the machine, and
gives what is printed and whether the run fails.
-/

namespace ScriptTree.Cli

def versionText (host : Host) : String :=
  programName ++ " v" ++ programVersion ++ "\n" ++
    "Dialects: " ++ String.intercalate ", " Reserved.Catalogue.builtin.names ++
    " (default " ++ Dialect.latest.shortName ++ ")\n" ++
    "Built with " ++ host.toolchain ++ "\n"

/-! Completion. -/

def descriptionsVariables (top : Command) : List String :=
  [top.name, "cobra"].map fun name => Text.upper name ++ "_COMPLETION_DESCRIPTIONS"

/-- Whether the environment lets completion show descriptions. The first variable that is set
decides, and what is not a truth value is ignored. -/
def describes (top : Command) (host : Host) : Bool :=
  let texts := (descriptionsVariables top).filterMap fun (name : String) =>
    (host.environment.lookup name).filter (· ≠ "")
  (texts.head?.bind Settings.Raw.readBool?).getD true

def runComplete (top : Command) (host : Host) (described : Bool) (line : List String) : Outcome :=
  if line.isEmpty then .fail "requires at least 1 arg(s), only received 0"
  else
    let completion := Completion.ofLine top line
    let (number, name) := completion.directive
    .done (.concat (completion.choices.map fun c => .println (c.line (described && describes top host))) ++
      .println (":" ++ number) ++
      .complain ("Completion ended with directive: " ++ name ++ "\n"))

/-! Commands. -/

def complaint? (top c : Command) (arguments : List String) : Option String :=
  if c.choices.isEmpty then none
  else
    match arguments with
    | [choice] =>
      if c.choices.contains choice then none
      else some ("invalid argument " ++ Text.quote choice ++ " for " ++ Text.quote (Command.path top c))
    | others => some ("accepts 1 arg(s), received " ++ Nat.repr others.length)

def runIn (s : Session) (c : Command) (a : Arguments) : Outcome :=
  match c with
  | .compile => s.compile (a.switched "watch") a.rest
  | .reserved => s.reserved a.rest
  | .serve => s.serve
  | .version => .done (.print (versionText s.host))
  | .root | .completion | .help | .complete _ => .done {}

def runLoaded (host : Host) (c : Command) (a : Arguments) : Outcome :=
  match Settings.load host.disk host.environment (a.text "config") a.given with
  | .error e => .fail e.message
  | .ok loaded =>
    let s : Session := ⟨host, loaded.settings, some (Session.levelOf loaded.settings)⟩
    let told := match loaded.file with
      | some path => s.log [⟨.debug, "using config file", [("path", path)]⟩]
      | none => {}
    (runIn s c a).after told

def runParsed (top : Command) (host : Host) (c : Command) (a : Arguments) : Outcome :=
  if a.switched "help" then .done (.print (Command.manual top c))
  else if a.switched "version" then .done (.println (programName ++ " " ++ programVersion))
  else if c = .root then .done (.print (Command.manual top c))
  else
    match complaint? top c a.rest with
    | some message => .fail message
    | none =>
      if c = .help then .done (.print (Command.topic top a.rest))
      else if c = .completion then .done {}
      else if top = .root then runLoaded host c a
      else runIn ⟨host, .standard, none⟩ c a

def execute (top : Command) (host : Host) (c : Command) (arguments : List String) : Outcome :=
  match c with
  | .complete described => runComplete top host described arguments
  | c =>
    match Arguments.parse (Command.flags top c) arguments with
    | .error .help => .done (.print (Command.manual top c))
    | .error e => .fail e.message
    | .ok a => runParsed top host c a

def run (host : Host) (arguments : List String) : Outcome :=
  match Command.find .root arguments with
  | .error e => .fail e.message
  | .ok (c, arguments) => execute .root host c arguments

def readsInput (arguments : List String) : Bool :=
  match Command.find .root arguments with
  | .ok (.compile, rest) =>
    match Arguments.parse (Command.flags .root .compile) rest with
    | .ok a => a.rest.isEmpty || a.rest.contains Session.inputName
    | .error _ => false
  | _ => false

/-- Runs a command as a program of its own with the standard settings. Such a program tells
of its failure itself and shows its usage then. -/
def runAlone (host : Host) (top : Command) (arguments : List String) : Outcome :=
  match Command.find top arguments with
  | .error e => .fail e.message
  | .ok (c, arguments) =>
    let o := execute top host c arguments
    match o.failure with
    | none => o
    | some message =>
      { o with
        console := o.console ++ .complain ("Error: " ++ message ++ "\n") ++
          .println (Command.fullUsage top c) }

end ScriptTree.Cli
