import ScriptTree.Cli.Flag
import ScriptTree.Text.Distance

/-!
The commands of the program with their descriptions and flags, and how arguments choose
one of them.
-/

namespace ScriptTree.Cli

def programName : String := "triptjs"

def programVersion : String := "0.1.0"

inductive Command where
  /-- The program itself, which holds the other commands. -/
  | root
  | compile
  | completion
  | help
  | reserved
  | serve
  | version
  /-- Answers a shell that completes a line, with or without descriptions. -/
  | complete (described : Bool)
deriving DecidableEq, Inhabited

namespace Command

def name : Command → String
  | root => programName
  | compile => "compile"
  | completion => "completion"
  | help => "help"
  | reserved => "reserved"
  | serve => "serve"
  | version => "version"
  | complete true => "__complete"
  | complete false => "__completeNoDesc"

/-- What follows the name where the use of a command is shown. -/
def operands : Command → String
  | compile => " [file...]"
  | completion => " [bash|zsh|fish|powershell]"
  | help => " [command]"
  | reserved => " [word...]"
  | root | serve | version | complete _ => ""

def summary : Command → String
  | root => "triptjs - compile tript expressions to JavaScript"
  | compile => "Compile tript ASTs to JavaScript"
  | completion => "Generate shell completion scripts"
  | help => "Help about any command"
  | reserved => "Show reserved words per ECMAScript dialect"
  | serve => "Serve the compiler over HTTP"
  | version => "Show version information"
  | complete _ => "Request shell completion choices for the specified command-line"

def paragraph (lines : List String) : String := String.intercalate "\n" lines

def description : Command → String
  | root => paragraph [
    "triptjs compiles typed tript expression trees into ECMAScript.",
    "",
    "Reference names that collide with reserved words of the target dialect are",
    "rewritten, n-ary operators are folded into right-associative binary chains,",
    "and the result is printed as JavaScript source or as a Shift-style JSON AST."]
  | compile => paragraph [
    "Compile one or more tript ASTs to JavaScript.",
    "",
    "Each file holds a single \"_type\"-tagged node tree in JSON or YAML. Files are",
    "compiled concurrently. With no arguments, or with \"-\", the tree is read from",
    "standard input.",
    "",
    "Output adapts to environment:",
    "  - Terminal: Styled output with colors",
    "  - Piped/Scripted: Markdown format",
    "  - JSON: Machine-readable format"]
  | completion => paragraph [
    "Generate shell completion scripts for triptjs.",
    "",
    "To load completions:",
    "",
    "Bash:",
    "  $ source <(triptjs completion bash)",
    "",
    "Zsh:",
    "  $ triptjs completion zsh > \"$\x7bfpath[1]\x7d/_triptjs\"",
    "",
    "Fish:",
    "  $ triptjs completion fish | source",
    "",
    "PowerShell:",
    "  PS> triptjs completion powershell | Out-String | Invoke-Expression"]
  | help => paragraph [
    "Help provides help for any command in the application.",
    "Simply type triptjs help [path to command] for full details."]
  | reserved => paragraph [
    "Show which words are reserved in each ECMAScript dialect.",
    "",
    "Without arguments every reserved word of every dialect is listed. With",
    "arguments only those words are shown, together with the name each one is",
    "rewritten to under the current configuration.",
    "",
    "A word marked \"strict\" is reserved only in strict mode code."]
  | serve => paragraph [
    "Start an HTTP server exposing the compiler.",
    "",
    "Endpoints:",
    "  POST /compile          Compile a JSON tript AST (?emit=js|ast)",
    "  GET  /reserved/\x7bword\x7d  Report where a word is reserved and how it is rewritten",
    "  GET  /healthz          Liveness check",
    "",
    "Compilation uses the same configuration as the compile command."]
  | version => "Display triptjs version and the supported ECMAScript dialects."
  | complete _ => ""

def examples : Command → String
  | compile => paragraph [
    "  # Compile a file",
    "  triptjs compile expr.json",
    "",
    "  # Target ES5 and suffix reserved names instead of prefixing them",
    "  triptjs compile --dialect es5 --reconcile suffix expr.json",
    "",
    "  # Emit the Shift-style JSON AST",
    "  triptjs compile --emit ast expr.yaml",
    "",
    "  # Minify and check the generated code, recompiling on change",
    "  triptjs compile --minify --verify --watch exprs/*.json"]
  | reserved => paragraph [
    "  # List every reserved word",
    "  triptjs reserved",
    "",
    "  # Check some names against ES5 with the suffix strategy",
    "  triptjs reserved --dialect es5 --reconcile suffix await class public"]
  | serve => paragraph [
    "  # Serve on the default address",
    "  triptjs serve",
    "",
    "  # Serve ES5 output on all interfaces",
    "  triptjs serve --addr :8787 --dialect es5"]
  | root | completion | help | version | complete _ => ""

def globalFlags : List Flag := [
  { name := "config", usage := "config file (default: ./triptjs.yaml)" },
  { name := "dialect", short := some 'd', usage := "ECMAScript dialect (es3|es5|es6)" },
  { name := "log-level", usage := "Log level (debug|info|warn|error)" },
  { name := "output", short := some 'o', usage := "Output format (auto|text|markdown|json)" },
  { name := "reconcile", usage := "Reserved name strategy (prefix|suffix|starlark)" },
  { name := "reconcile-affix", usage := "Text added by the prefix and suffix strategies" },
  { name := "reconcile-expr",
    usage := "Starlark expression over `name` for the starlark strategy" },
  { name := "strict", kind := .switch true,
    usage := "Treat strict-mode reserved words as reserved" },
  { name := "verbose", short := some 'v', kind := .switch false, usage := "Verbose output" }]

def outputFlags : List Flag := [
  { name := "minify", kind := .switch false,
    usage := "Minify the generated code with esbuild" },
  { name := "verify", kind := .switch false,
    usage := "Parse the generated code with esbuild and fail on syntax errors" },
  { name := "evaluate", kind := .switch false,
    usage := "Fold closed expressions to a literal before compiling" }]

def ownFlags : Command → List Flag
  | root => globalFlags
  | compile =>
    outputFlags ++ [
      { name := "emit", usage := "What to print: js or ast" },
      { name := "concurrency", kind := .number,
        usage := "Maximum files compiled at once (default: GOMAXPROCS)" },
      { name := "watch", short := some 'w', kind := .switch false,
        usage := "Recompile files when they change" }]
  | serve =>
    { name := "addr", usage := "Listen address (default: 127.0.0.1:8787)" } :: outputFlags
  | completion | help | reserved | version | complete _ => []

def standardFlags (c : Command) : List Flag :=
  { name := "help", short := some 'h', kind := .switch false, usage := "help for " ++ c.name } ::
    if c = root then
      [{ name := "version", kind := .switch false, usage := "version for " ++ programName }]
    else []

def listed : List Command := [version, compile, reserved, serve, completion, help]

/-! A command can also be the top of a program of its own. -/

def children (top : Command) : List Command := if top = root then listed else []

def inheritedFlags (top c : Command) : List Flag :=
  if top = root ∧ c ≠ root then globalFlags else []

def flags (top c : Command) : List Flag :=
  c.ownFlags ++ c.standardFlags ++ inheritedFlags top c

def path (top c : Command) : String := if c = top then c.name else top.name ++ " " ++ c.name

/-- The values that a command's first argument may have; any if there are none. -/
def choices : Command → List String
  | completion => ["bash", "zsh", "fish", "powershell"]
  | _ => []

/-! Choosing a command. -/

/-- Whether an argument is a flag whose value is the next argument, as far as is known
before flags are read. A flag that is not known takes a value. -/
def takesNext (known : List Flag) (argument : String) : Bool :=
  match argument.toList with
  | '-' :: '-' :: body =>
    !body.contains '=' && !((Flag.named? known (String.ofList body)).any (·.isSwitch))
  | ['-', c] => c ≠ '=' && c.toNat < 0x80 && !((Flag.shortNamed? known c).any (·.isSwitch))
  | _ => false

/-- The arguments that are neither flags nor values of flags. A value that would be the
last argument ends the search. -/
def words (known : List Flag) : List String → List String
  | [] => []
  | argument :: others =>
    if argument = "--" then []
    else if takesNext known argument then
      match others with
      | [] | [_] => []
      | _ :: others => words known others
    else if argument = "" || Text.startsWith "-" argument then words known others
    else argument :: words known others

def dropWord (known : List Flag) (word : String) : List String → List String
  | [] => []
  | argument :: others =>
    if argument = "--" then argument :: others
    else if takesNext known argument then
      match others with
      | [] => [argument]
      | value :: others => argument :: value :: dropWord known word others
    else if argument = word then others
    else argument :: dropWord known word others

def suggestions (top : Command) (word : String) : List String :=
  let key := Text.lower word
  ((children top).filter (· ≠ help)).filterMap fun c =>
    if Text.distance (Text.toBytes key) (Text.toBytes c.name) ≤ 2 || Text.startsWith key c.name then
      some c.name
    else none

structure Unknown where
  word : String
  top : Command
deriving DecidableEq

namespace Unknown

def message (e : Unknown) : String :=
  let near := suggestions e.top e.word
  "unknown command " ++ Text.quote e.word ++ " for " ++ Text.quote e.top.name ++
    (if near.isEmpty then ""
      else "\n\nDid you mean this?\n" ++ String.join (near.map fun name => "\t" ++ name ++ "\n"))

end Unknown

def findAmong (commands : List Command) (top : Command) (arguments : List String) :
    Except Unknown (Command × List String) :=
  match words top.ownFlags arguments with
  | [] => .ok (top, arguments)
  | word :: _ =>
    match commands.find? (·.name = word) with
    | some c => .ok (c, dropWord top.ownFlags word arguments)
    | none => if (children top).isEmpty then .ok (top, arguments) else .error ⟨word, top⟩

def callable (top : Command) : List Command := children top ++ [complete true, complete false]

def find (top : Command) (arguments : List String) : Except Unknown (Command × List String) :=
  findAmong (callable top) top arguments

end Command

end ScriptTree.Cli
