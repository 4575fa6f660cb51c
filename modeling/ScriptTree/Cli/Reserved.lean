import ScriptTree.Cli.Session
import ScriptTree.Render.Table
import ScriptTree.Server

/-!
The command that shows reserved words, and what replaces them.
-/

namespace ScriptTree.Cli

/-- A word with the editions that reserve it and, if that is asked for, the name it is
replaced by. -/
structure WordReport where
  word : String
  editions : List (String × String)
  sanitized : Option ByteString
deriving DecidableEq, Inhabited

namespace WordReport

def encode (r : WordReport) : Json.Value :=
  .object ([("word", .string r.word), ("editions", Server.textMembers r.editions)] ++
    match r.sanitized with
    | none | some [] => []
    | some name => [("sanitized", .string name)])

def row (editions : List String) (r : WordReport) : List String :=
  r.word :: editions.map (fun name => (r.editions.lookup name).getD "") ++ (r.sanitized.map ByteString.text).toList

end WordReport

namespace Session

def allWords : List String :=
  ((Reserved.Catalogue.builtin.list.flatMap (·.listing true)).eraseDups).mergeSort
    (fun a b => decide (a ≤ b))

def report (ids : Option Identifier.Options) (word : String) : WordReport :=
  ⟨word, Server.reservations word, ids.map (·.sanitize word)⟩

def wordTable (ids : Option Identifier.Options) (reports : List WordReport) : Render.Table :=
  let editions := Reserved.Catalogue.builtin.names
  ⟨"Word" :: editions.map Text.upper ++
      (ids.map fun o => "Sanitized (" ++ Text.upper o.dialect.shortName ++ ")").toList,
    reports.map (·.row editions)⟩

def showWords (s : Session) (ids : Option Identifier.Options) (reports : List WordReport) : Console :=
  match s.mode with
  | .json => Render.json (.array (reports.map WordReport.encode))
  | .markdown => .print (wordTable ids reports).markdown
  | .text | .auto | .other _ => .print (wordTable ids reports).drawn

def reserved (s : Session) (words : List String) : Outcome :=
  if words.isEmpty then .done (s.showWords none (allWords.map (report none)))
  else
    match s.settings.identifiers with
    | .error e => .fail e.message
    | .ok ids =>
      let failures := words.filterMap fun (word : String) => (ids.failure? word).map (Event.renamed word)
      .done (s.logEvents failures ++ s.showWords (some ids) (words.map (report (some ids))))

end Session

end ScriptTree.Cli
