import ScriptTree.Pipeline
import ScriptTree.Script.Source
import ScriptTree.Server.Request

/-!
The compiler as a service: scripts are posted, and words are looked up.
-/

namespace ScriptTree

namespace Server

structure Response where
  status : Nat
  body : String := ""
  id : ByteString := []
  contentType : String := ""
  allow : String := ""
  encoding : String := ""
deriving DecidableEq, Inhabited

def Response.requestId (r : Response) : String := r.id.text

end Server

open Server (Request Response)

structure Server where
  pipeline : Pipeline
  identifiers : Identifier.Options
  maxBodyBytes : Nat

namespace Server

def standardMaxBody : Nat := Nat.pow 2 20

/-- Without a pipeline scripts are compiled with the given options for identifiers. -/
def make (pipeline : Option Pipeline) (identifiers : Identifier.Options) (maxBody : Int) :
    Server :=
  let ids := identifiers.orStandard
  ⟨pipeline.getD (.make ids none false false), ids,
    if maxBody ≤ 0 then standardMaxBody else maxBody.toNat⟩

def reservations (word : ByteString) : List (String × String) :=
  let text := word.text?
  Reserved.Catalogue.builtin.list.filterMap fun e =>
    if text.any (e.reserves · false) then some (e.name, "reserved")
    else if text.any (e.reserves · true) then some (e.name, "strict")
    else none

def textMembers (members : List (String × String)) : Json.Value :=
  .object (members.map fun (name, text) => (name, .string text))

def answer (status : Nat) (v : Json.Value) : Response :=
  { status, body := v.compact ++ "\n", contentType := "application/json" }

def refuse (id : ByteString) (status : Nat) (message kind : String) : Response :=
  answer status (.object ([("request_id", .string id), ("error", .string message)] ++
    if kind = "" then [] else [("kind", .string kind)]))

def classify : PipelineError → Nat × String
  | .compile (.unknownNode _) => (422, "unknown_node_kind")
  | .compile (.unknownOperator _) => (422, "unknown_operator")
  | .invalid _ | .minify _ => (422, "invalid_output")
  | .interpret .cancelled | .cancelled => (503, "cancelled")
  | .interpret (.failed _) | .noInterpretation => (500, "")

/-- A tree with a number that has no JSON form leaves the body empty. -/
def success (id : ByteString) (tree : Bool) (o : Output) : Response :=
  let kept : Output := if tree then { o with code := [] } else { o with tree := none }
  let status := if o.diagnostics.isEmpty then 200 else 422
  match kept.tree.bind Js.Expr.encodeError? with
  | some _ => { status, contentType := "application/json" }
  | none => answer status (.object (("request_id", .string id) :: kept.fields))

def compile (s : Server) (id : ByteString) (r : Request) : Response :=
  let emit := Target.parameter r.target "emit"
  if !(["", "js", "ast"].contains emit) then refuse id 400 "emit must be js or ast" ""
  else if s.maxBodyBytes < r.body.length then refuse id 413 "request body too large" ""
  else if r.broken then refuse id 400 "failed to read request body" ""
  else
    match Node.ofJson r.body with
    | .error e => refuse id 400 e.message "decode"
    | .ok script =>
      match (s.pipeline.run r.cancelled script).result with
      | .error e =>
        let (status, kind) := classify e
        refuse id status e.message kind
      | .ok o => success id (emit = "ast") o

def acceptsBody (r : Request) : Bool :=
  let type := ((Text.splitOn ';' (r.header "Content-Type").text).head?).getD ""
  (r.body.isEmpty && !r.broken) || Text.lower (Text.trim type) = "application/json"

def lookUpWord (s : Server) (word : ByteString) : Response :=
  answer 200 (.object [("word", .string word), ("reserved", .boolean (s.identifiers.reserves word)),
    ("editions", textMembers (reservations word)),
    ("sanitized", .string (s.identifiers.sanitize word))])

def notFound : Response :=
  { status := 404, body := "404 page not found\n", contentType := "text/plain; charset=utf-8" }

inductive Route where
  | health
  | word (bytes : ByteString)
  | compile
deriving DecidableEq, Inhabited

namespace Route

def method : Route → String
  | health | word _ => "GET"
  | compile => "POST"

def ofPath? (path : List UInt8) : Option Route :=
  let mark := Text.toBytes "/reserved/"
  if path = Text.toBytes "/healthz" then some health
  else if path = Text.toBytes "/compile" then some compile
  else if mark.isPrefixOf path then
    let rest := path.drop mark.length
    if rest.isEmpty || rest.contains 47 then none else some (word rest)
  else none

end Route

def knownMethods : List String :=
  ["CONNECT", "DELETE", "GET", "HEAD", "OPTIONS", "PATCH", "POST", "PUT", "TRACE"]

def route (s : Server) (id : ByteString) (r : Request) : Response :=
  if !knownMethods.contains r.method then { status := 405 }
  else
    match Route.ofPath? (Target.path r.target) with
    | none => notFound
    | some place =>
      if r.method ≠ place.method then { status := 405, allow := place.method }
      else
        match place with
        | .health => answer 200 (textMembers [("status", "ok")])
        | .word bytes => s.lookUpWord bytes
        | .compile => if acceptsBody r then s.compile id r else { status := 415 }

/-- The encoding of a body: one that has a type is compressed if that is accepted. -/
def encodingOf (r : Request) (response : Response) : String :=
  let accepted := Text.lower (r.header "Accept-Encoding").text
  if response.contentType = "" then ""
  else if Text.contains "gzip" accepted then "gzip"
  else if Text.contains "deflate" accepted then "deflate"
  else ""

/-- Answers a request; one without a valid identifier gets the fresh one. -/
def handle (s : Server) (fresh : ByteString) (r : Request) : Response :=
  let given := r.header "X-Request-ID"
  let id := if RequestId.isValid given then given else fresh
  let response := s.route id r
  { response with id, encoding := encodingOf r response }

end Server

end ScriptTree
