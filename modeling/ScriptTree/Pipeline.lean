import ScriptTree.Compile.Trace
import ScriptTree.Js.Check
import ScriptTree.Js.Encoding
import ScriptTree.Js.Printer
import ScriptTree.Script.Evaluate

/-!
From a script to source text: the script is interpreted, what is left of it is compiled
and printed, and the text may be checked and made short.
-/

namespace ScriptTree

structure Diagnostic where
  path : String
  message : String
deriving DecidableEq, Inhabited

namespace Diagnostic

def ofFinding (f : Finding) : Diagnostic := ⟨f.path.text, f.problem.message⟩

def text (d : Diagnostic) : String :=
  if d.path = "" then d.message else d.path ++ ": " ++ d.message

/-- The path is left out where there is none. -/
def encode (d : Diagnostic) : Json.Value :=
  .object ((if d.path = "" then [] else [("path", .string d.path)]) ++ [("message", .string d.message)])

end Diagnostic

inductive Interpretation where
  | diagnostics (list : List Diagnostic)
  /-- Another script is compiled in its place. -/
  | residual (script : Node)
  | unreduced
deriving Inhabited

inductive InterpretError where
  | cancelled
  | failed (message : String)
deriving DecidableEq, Inhabited

def cancelledMessage : String := "context canceled"

namespace InterpretError

def message : InterpretError → String
  | cancelled => cancelledMessage
  | failed message => message

end InterpretError

/-- An interpreter knows whether the work is cancelled; it may fail and may say nothing. -/
abbrev Interpreter := Bool → Node → Except InterpretError (Option Interpretation)

namespace Interpreter

def passthrough : Interpreter := fun _ _ => .ok (some .unreduced)

def evaluator : Interpreter := fun cancelled script =>
  if cancelled then .error .cancelled
  else
    match script.reduce with
    | .rejected findings => .ok (some (.diagnostics (findings.map Diagnostic.ofFinding)))
    | .reduced value => .ok (some (.residual value.toNode))
    | .unreduced => .ok (some .unreduced)

end Interpreter

inductive PipelineError where
  | interpret (cause : InterpretError)
  | noInterpretation
  | compile (cause : CompileError)
  /-- Printed text that does not read back. -/
  | invalid (fault : Js.Fault)
  /-- Text that could not be read to make it short. -/
  | minify (fault : Js.Fault)
  | cancelled
deriving DecidableEq, Inhabited

namespace PipelineError

def message : PipelineError → String
  | interpret cause => "failed to interpret script: " ++ cause.message
  | noInterpretation => "unexpected interpreter result <nil>"
  | compile cause => cause.message
  | invalid fault => Js.invalidMessage fault
  | minify fault => "failed to minify: " ++ Js.invalidMessage fault
  | cancelled => cancelledMessage

end PipelineError

/-- What compiling a script gives. A rejected script has neither text nor tree. -/
structure Output where
  code : ByteString := []
  tree : Option Js.Expr := none
  diagnostics : List Diagnostic := []
deriving Inhabited

namespace Output

def fields (o : Output) : List (String × Json.Value) :=
  (if o.code.isEmpty then [] else [("code", .string o.code)]) ++
    (match o.tree with
      | some e => [("ast", e.encode)]
      | none => []) ++
    (if o.diagnostics.isEmpty then []
      else [("diagnostics", .array (o.diagnostics.map Diagnostic.encode))])

def json (o : Output) : Except Js.EncodeError String :=
  match o.tree.bind Js.Expr.encodeError? with
  | some e => .error e
  | none => .ok (Json.Value.object o.fields).compact

end Output

inductive Event where
  | rejected (count : Nat)
  | reduced (tag : ByteString)
  /-- A rule for reserved names failed, and the standard one was used. -/
  | renamed (name reason : ByteString)
  | failed (name : String) (reason : String)
  | batch (inputs : Nat)
deriving DecidableEq, Inhabited

structure Report (α : Type) where
  events : List Event
  result : α
deriving Inhabited

structure Pipeline where
  identifiers : Identifier.Options
  interpreter : Interpreter
  minify : Bool := false
  verify : Bool := false

instance : Inhabited Pipeline := ⟨⟨.standard, .passthrough, false, false⟩⟩

namespace Pipeline

/-- Options that are not chosen are the standard ones, and without an interpreter
scripts are compiled as they are. -/
def make (identifiers : Identifier.Options) (interpreter : Option Interpreter)
    (minify verify : Bool) : Pipeline :=
  ⟨identifiers.orStandard, interpreter.getD .passthrough, minify, verify⟩

def finish (p : Pipeline) (code : ByteString) : Except PipelineError ByteString := do
  let target := Js.Target.ofDialect p.identifiers.dialect
  if p.verify then
    (Js.verify target code.text).mapError .invalid
  if p.minify then
    let short ← (Js.minify target code.text).mapError .minify
    return Text.toBytes short
  else return code

def build (p : Pipeline) (script : Node) : Except PipelineError Output := do
  let tree ← (script.compile p.identifiers).mapError .compile
  let code ← p.finish tree.source
  return { code, tree := some tree }

def renameEvents (p : Pipeline) (script : Node) : List Event :=
  script.renamings.filterMap fun name => (p.identifiers.failure? name).map (.renamed name)

def run (p : Pipeline) (cancelled : Bool) (script : Node) :
    Report (Except PipelineError Output) :=
  match p.interpreter cancelled script with
  | .error cause => ⟨[], .error (.interpret cause)⟩
  | .ok none => ⟨[], .error .noInterpretation⟩
  | .ok (some (.diagnostics list)) => ⟨[.rejected list.length], .ok { diagnostics := list }⟩
  | .ok (some (.residual other)) => ⟨.reduced other.tag :: p.renameEvents other, p.build other⟩
  | .ok (some .unreduced) => ⟨p.renameEvents script, p.build script⟩

structure Entry where
  name : String
  result : Except PipelineError Output

def runNamed (p : Pipeline) (cancelled : Bool) (input : String × Node) : Report Entry :=
  if cancelled then ⟨[], ⟨input.1, .error .cancelled⟩⟩
  else
    let report := p.run false input.2
    let failure := match report.result with
      | .error e => [Event.failed input.1 e.message]
      | .ok _ => []
    ⟨report.events ++ failure, ⟨input.1, report.result⟩⟩

def runAll (p : Pipeline) (cancelled : Bool) (inputs : List (String × Node)) :
    Report (List Entry) :=
  let reports := inputs.map (p.runNamed cancelled)
  ⟨reports.flatMap (·.events) ++ [.batch inputs.length], reports.map (·.result)⟩

end Pipeline

end ScriptTree
