import ScriptTree.Cli.Session
import ScriptTree.Server
import ScriptTree.Server.Address

/-!
The command that starts the service.
-/

namespace ScriptTree.Cli.Session

def server (s : Session) : Except StrategyError Server := do
  let p ← s.settings.pipeline
  return .make (some p) p.identifiers s.settings.server.maxBodyBytes

def serve (s : Session) : Outcome :=
  match s.server with
  | .error e => .fail e.message
  | .ok _ =>
    let text := s.settings.server.address
    let listening := Render.muted s.mode ("Listening on " ++ text)
    match Server.Address.ofText text with
    | .error e => ⟨listening, some ("failed to listen on " ++ text ++ ": listen tcp: " ++ e.message)⟩
    | .ok address =>
      let started : Log.Record := ⟨.info, "starting compile server", [("addr", address.text)]⟩
      let ended : Log.Record := ⟨.debug, "shutting down compile server", []⟩
      .done (listening ++ s.log (if s.host.cancelled then [started, ended] else [started]))

end ScriptTree.Cli.Session
