import ScriptTree.Duration
import ScriptTree.Log
import ScriptTree.Pipeline
import ScriptTree.Render.Mode
import ScriptTree.Starlark.Program

/-!
Settings of the command line and of the server, and what they ask for.
-/

namespace ScriptTree

structure ServerSettings where
  address : String := ""
  shutdownTimeout : Duration := .zero
  maxBodyBytes : Int := 0
deriving DecidableEq, Inhabited

structure Settings where
  dialect : Dialect := .unset
  strict : Bool := false
  /-- How reserved names are replaced, and with what. -/
  reconcile : String := ""
  affix : String := ""
  expression : String := ""
  evaluate : Bool := false
  emit : String := ""
  minify : Bool := false
  verify : Bool := false
  concurrency : Int := 0
  output : String := ""
  verbose : Bool := false
  logLevel : String := ""
  server : ServerSettings := {}
deriving DecidableEq, Inhabited

inductive SettingsError where
  | dialect (number : Int) (known : List String)
  | noExpression
  | strategy (name : String)
  | emit (name : String)
  | output (name : String)
  | level (text : String) (cause : Log.LevelError)
  | concurrency (number : Int)
deriving DecidableEq, Inhabited

namespace SettingsError

def levelMessage (text : String) (cause : Log.LevelError) : String :=
  "invalid log_level " ++ Text.quote text ++ ": slog: level string " ++ Text.quote text ++ ": " ++
    cause.message

def message : SettingsError → String
  | dialect number known =>
    "unknown dialect " ++ Text.integer number ++ " (known: " ++
      String.intercalate ", " known ++ ")"
  | noExpression => "reconcile_expr is required when reconcile is " ++ Text.quote "starlark"
  | strategy name =>
    "unknown reconcile strategy " ++ Text.quote name ++ " (expected prefix, suffix or starlark)"
  | emit name => "unknown emit format " ++ Text.quote name ++ " (expected js or ast)"
  | output name =>
    "unknown output format " ++ Text.quote name ++ " (expected auto, text, markdown or json)"
  | level text cause => levelMessage text cause
  | concurrency number => "concurrency must not be negative, got " ++ Text.integer number

end SettingsError

inductive StrategyError where
  | unknown (name : String)
  | expression (cause : Starlark.ProgramError)
deriving DecidableEq, Inhabited

namespace StrategyError

def message : StrategyError → String
  | unknown name => "unknown reconcile strategy " ++ Text.quote name
  | expression cause => "failed to compile reconcile_expr: " ++ cause.message.text

end StrategyError

namespace Settings

def standardAffix : String := "_"

def standard : Settings where
  dialect := .latest
  strict := true
  reconcile := "prefix"
  affix := standardAffix
  emit := "js"
  output := "auto"
  logLevel := "warn"
  server := ⟨"127.0.0.1:8787", .seconds 5, Nat.pow 2 20⟩

/-- The level of the log; none chosen is that of warnings. -/
def readLevel (text : String) : Except SettingsError Log.Level :=
  if text = "" then .ok .warn
  else (Log.Level.ofText text).mapError (.level text)

def validate (s : Settings) (c : Reserved.Catalogue := .builtin) : Except SettingsError Unit := do
  if (c.get? s.dialect.resolve).isNone then throw (.dialect s.dialect.number c.names)
  match s.reconcile with
  | "" | "prefix" | "suffix" => pure ()
  | "starlark" => if Text.trim s.expression = "" then throw .noExpression
  | name => throw (.strategy name)
  if !(["", "js", "ast"].contains s.emit) then throw (.emit s.emit)
  if !(Render.Mode.ofName s.output).isKnown then throw (.output s.output)
  let _ ← readLevel s.logLevel
  if s.concurrency < 0 then throw (.concurrency s.concurrency)

def reconciler (s : Settings) : Except StrategyError Identifier.Reconciler :=
  let affix := if s.affix = "" then standardAffix else s.affix
  match s.reconcile with
  | "" | "prefix" => .ok (.before affix)
  | "suffix" => .ok (.after affix)
  | "starlark" =>
    match Starlark.Program.ofText s.expression with
    | .ok program => .ok program.reconciler
    | .error cause => .error (.expression cause)
  | name => .error (.unknown name)

def identifiers (s : Settings) : Except StrategyError Identifier.Options := do
  return ⟨some (← s.reconciler), s.dialect.resolve, s.strict, some .standard⟩

def pipeline (s : Settings) : Except StrategyError Pipeline := do
  let ids ← s.identifiers
  return .make ids (if s.evaluate then some .evaluator else none) s.minify s.verify

end Settings

end ScriptTree
