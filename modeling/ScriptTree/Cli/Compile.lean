import ScriptTree.Cli.Session
import ScriptTree.Script.Source

/-!
The command that compiles files. Files are read one by one, what could be read is compiled
together, and every file has a result of its own.
-/

namespace ScriptTree.Cli

inductive LoadError where
  | unreadable (name : String) (cause : ReadError)
  | source (cause : SourceError)
deriving Inhabited

namespace LoadError

def message : LoadError → String
  | unreadable name cause => "failed to read " ++ name ++ ": " ++ cause.message name
  | source cause => cause.message

end LoadError

inductive FileOutcome where
  | failed (message : String)
  | rejected (diagnostics : List Diagnostic)
  | tree (tree : Js.Expr)
  | code (text : ByteString)
deriving Inhabited

structure FileResult where
  file : String
  outcome : FileOutcome
deriving Inhabited

namespace FileOutcome

def isFailure : FileOutcome → Bool
  | failed _ | rejected _ => true
  | tree _ | code _ => false

def ofResult (trees : Bool) : Except PipelineError Output → FileOutcome
  | .error e => failed e.message
  | .ok o =>
    if !o.diagnostics.isEmpty then rejected o.diagnostics
    else if trees then (o.tree.map tree).getD (code [])
    else code o.code

def fields : FileOutcome → List (String × Json.Value)
  | failed message => [("error", .string message)]
  | rejected diagnostics => [("diagnostics", .array (diagnostics.map Diagnostic.encode))]
  | tree e => [("ast", e.encode)]
  | code text => if text.isEmpty then [] else [("code", .string text)]

def encodeError? : FileOutcome → Option Js.EncodeError
  | tree e => e.encodeError?
  | failed _ | rejected _ | code _ => none

end FileOutcome

namespace FileResult

def encode (r : FileResult) : Json.Value :=
  .object (("file", .string r.file) :: r.outcome.fields)

end FileResult

namespace Session

/-! Reading. -/

/-- The name that stands for standard input. -/
def inputName : String := "-"

def loadFile (s : Session) (input : List UInt8) (name : String) : Except LoadError Node := do
  let bytes ←
    if name = inputName then pure input
    else (s.host.disk.read name).mapError (.unreadable name)
  (Node.ofFile name bytes).mapError .source

/-- Scripts by the names of their files. Standard input is used up when it is first
read. -/
def load (s : Session) (input : List UInt8) : List String → List (String × Except LoadError Node)
  | [] => []
  | name :: rest =>
    (name, s.loadFile input name) :: s.load (if name = inputName then [] else input) rest

def readable : List (String × Except LoadError Node) → List (String × Node)
  | [] => []
  | (name, .ok script) :: rest => (name, script) :: readable rest
  | (_, .error _) :: rest => readable rest

/-! Compiling. -/

def place (trees : Bool) :
    List (String × Except LoadError Node) → List Pipeline.Entry → List FileResult
  | [], _ => []
  | (name, .error e) :: rest, entries => ⟨name, .failed e.message⟩ :: place trees rest entries
  | (name, .ok _) :: rest, entry :: entries =>
    ⟨name, .ofResult trees entry.result⟩ :: place trees rest entries
  | (_, .ok _) :: _, [] => []

def emitsTrees (s : Session) : Bool := s.settings.emit = "ast"

def compileFiles (s : Session) (p : Pipeline) (files : List String) : Report (List FileResult) :=
  let loaded := s.load s.host.input files
  let report := p.runAll s.host.cancelled (readable loaded)
  ⟨report.events, place s.emitsTrees loaded report.result⟩

def failures (results : List FileResult) : Nat := results.countP (·.outcome.isFailure)

/-! Showing. -/

def showOutcome (s : Session) (name : String) : FileOutcome → Console
  | .failed message => Render.error s.mode (name ++ message)
  | .rejected diagnostics =>
    .concat (diagnostics.map fun d => Render.error s.mode (name ++ d.text))
  | .tree e =>
    match e.indentedJson with
    | .ok text => Render.code s.mode "json" text
    | .error cause => Render.error s.mode (name ++ cause.message)
  | .code text => Render.code s.mode (if s.emitsTrees then "json" else "js") text.text

/-- One of several results has a heading and, unless it could not be written, a blank
line after it. -/
def showNamed (s : Session) (r : FileResult) : Console :=
  Render.header s.mode 2 r.file ++ s.showOutcome (r.file ++ ": ") r.outcome ++
    if r.outcome.encodeError?.isSome then {} else .println ""

/-- As JSON all results are written together or not at all. -/
def showJson (s : Session) (results : List FileResult) : Console :=
  match results.findSome? (·.outcome.encodeError?) with
  | some cause => Render.error s.mode ("failed to encode results: " ++ cause.message)
  | none => Render.json (.array (results.map FileResult.encode))

def showResults (s : Session) (results : List FileResult) : Console :=
  if s.mode = .json then s.showJson results
  else
    match results with
    | [r] => s.showOutcome "" r.outcome
    | results => .concat (results.map s.showNamed)

/-! Watching. -/

def unwatchable? (s : Session) (files : List String) : Option (String × ReadError) :=
  files.findSome? fun file =>
    let directory := FileName.parent (s.host.disk.absolute file)
    match s.host.disk.lookup directory with
    | .ok _ => none
    | .error e => some (directory, e)

def watch (s : Session) (files : List String) : Outcome :=
  match s.unwatchable? files with
  | some (directory, e) => .fail ("failed to watch " ++ directory ++ ": " ++ e.reason)
  | none =>
    .done (Render.muted s.mode
      ("Watching " ++ Nat.repr files.length ++ " file(s) for changes..."))

def compile (s : Session) (watched : Bool) (arguments : List String) : Outcome :=
  let files := if arguments.isEmpty then [inputName] else arguments
  if watched && files.contains inputName then
    .fail "--watch needs file arguments, not standard input"
  else
    match s.settings.pipeline with
    | .error e => .fail e.message
    | .ok p =>
      let report := s.compileFiles p files
      let interrupted :=
        if s.host.cancelled then
          s.log [⟨.debug, "batch interrupted", [("error", cancelledMessage)]⟩]
        else {}
      let console := s.logEvents report.events ++ interrupted ++ s.showResults report.result
      let failed := failures report.result
      if watched then (s.watch files).after console
      else if failed = 0 then .done console
      else
        ⟨console, some (Nat.repr failed ++ " of " ++ Nat.repr files.length ++
          " file(s) failed to compile")⟩

end Session

end ScriptTree.Cli
