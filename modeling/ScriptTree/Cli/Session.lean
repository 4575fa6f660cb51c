import ScriptTree.Disk
import ScriptTree.Log
import ScriptTree.Render
import ScriptTree.Settings

/-!
What commands work with: the machine they run on, as far as they see it, and settings.
-/

namespace ScriptTree.Cli

structure Host where
  disk : Disk
  environment : List (String × String) := []
  input : List UInt8 := []
  cancelled : Bool := false
  terminal : Bool := false
  /-- The time, as the log shows it. -/
  clock : String := ""
  /-- How long compiling takes, as the log shows it. -/
  elapsed : String := ""
  /-- What the program was built with. -/
  toolchain : String := ""
deriving Inhabited

structure Session where
  host : Host
  settings : Settings
  /-- The least level that is logged; nothing is without one. -/
  level : Option Log.Level := none
deriving Inhabited

structure Outcome where
  console : Console := {}
  failure : Option String := none
deriving DecidableEq, Inhabited

namespace Outcome

def done (console : Console) : Outcome := { console }

def fail (message : String) : Outcome := { failure := some message }

def after (console : Console) (o : Outcome) : Outcome := { o with console := console ++ o.console }

end Outcome

def recordOf (elapsed : String) : Event → Log.Record
  | .rejected count =>
    ⟨.debug, "interpreter reported diagnostics", [("count", Nat.repr count)]⟩
  | .reduced tag => ⟨.debug, "interpreter reduced script", [("kind", tag)]⟩
  | .renamed name reason =>
    ⟨.warn, "reconcile expression failed, using default", [("name", name), ("error", reason)]⟩
  | .failed name reason => ⟨.debug, "compile failed", [("name", name), ("error", reason)]⟩
  | .batch inputs =>
    ⟨.debug, "batch compiled", [("inputs", Nat.repr inputs), ("duration", elapsed)]⟩

namespace Session

def mode (s : Session) : Render.Mode :=
  (Render.Mode.ofName s.settings.output).resolve s.host.terminal

def log (s : Session) (records : List Log.Record) : Console :=
  match s.level with
  | some least => .complain (Log.lines s.host.clock least records)
  | none => {}

def logEvents (s : Session) (events : List Event) : Console :=
  s.log (events.map (recordOf s.host.elapsed))

def levelOf (s : Settings) : Log.Level :=
  if s.verbose then .debug
  else
    match Settings.readLevel s.logLevel with
    | .ok level => level
    | .error _ => .info

end Session

end ScriptTree.Cli
