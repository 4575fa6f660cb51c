import ScriptTree.Yaml.Token.Lexer

/-!
The node tree of a YAML document. Only the first document of a text counts. An alias
holds the node it stands for; one that stands inside its own node is a cycle.
-/

namespace ScriptTree.Yaml

/-- Tags in their short form, such as `!!str`. -/
structure Tag where
  text : String
deriving DecidableEq, Inhabited

namespace Tag

def null : Tag := ⟨"!!null"⟩
def bool : Tag := ⟨"!!bool"⟩
def str : Tag := ⟨"!!str"⟩
def int : Tag := ⟨"!!int"⟩
def float : Tag := ⟨"!!float"⟩
def timestamp : Tag := ⟨"!!timestamp"⟩
def seq : Tag := ⟨"!!seq"⟩
def map : Tag := ⟨"!!map"⟩
def binary : Tag := ⟨"!!binary"⟩
def merge : Tag := ⟨"!!merge"⟩

def coreStart : String := "tag:yaml.org,2002:"

def shorten (long : String) : Tag :=
  if coreStart.toList.isPrefixOf long.toList then
    ⟨"!!" ++ String.ofList (long.toList.drop coreStart.length)⟩
  else ⟨long⟩

end Tag

/-- Nodes, with the line on which they start, counted from one. A scalar has no tag
when its text decides. -/
inductive Node where
  | scalar (text : String) (tag : Option Tag) (style : Style) (line : Nat)
  | sequence (items : List Node) (tag : Tag) (line : Nat)
  | mapping (pairs : List (Node × Node)) (tag : Tag) (line : Nat)
  | link (name : String) (target : Node) (line : Nat)
  | cycle (name : String) (line : Nat)
deriving Inhabited

namespace Node

def line : Node → Nat
  | scalar _ _ _ line | sequence _ _ line | mapping _ _ line | link _ _ line | cycle _ line => line

end Node

/-! Composing nodes from tokens. -/

structure Composer where
  lexer : Lexer
  handles : List (String × String) := [("!", "!"), ("!!", Tag.coreStart)]
  /-- The anchored node that each name stands for at present. -/
  anchors : List (String × Nat) := []
  complete : List (Nat × Node) := []
  /-- Number of anchored nodes so far. -/
  count : Nat := 0

abbrev Compose := StateT Composer (Except Fault)

namespace Compose

def lex (read : Lexing α) : Compose α := do
  let s ← get
  let (a, l) ← (read.run s.lexer : Except Fault (α × Lexer))
  set { s with lexer := l }
  return a

def peek : Compose Token := lex Lexing.peek

def advance : Compose Unit := lex Lexing.advance

def fail (context problem : Nat) (text : String) : Compose α :=
  throw { problem := text, contextLine := context, problemLine := problem }

def refuse (text : String) : Compose α := throw { problem := text }

/-! Properties of a node: an anchor and a tag, in either order. -/

structure Properties where
  anchor : Option String := none
  /-- Handle and rest of the tag, and its line. -/
  tag : Option (String × String × Nat) := none
  start : Nat

def anchorHere? : Compose (Option String) := do
  match (← peek).lexeme with
  | .anchor name => advance; return some name
  | _ => return none

def tagHere? : Compose (Option (String × String × Nat)) := do
  let t ← peek
  match t.lexeme with
  | .tag handle suffix => advance; return some (handle, suffix, t.line)
  | _ => return none

def properties : Compose Properties := do
  let start := (← peek).line
  match ← anchorHere? with
  | some name => return ⟨some name, ← tagHere?, start⟩
  | none =>
    match ← tagHere? with
    | some tag => return ⟨← anchorHere?, some tag, start⟩
    | none => return ⟨none, none, start⟩

/-- The tag that is written at a node; the lone mark `!` counts as none. -/
def writtenTag (p : Properties) : Compose (Option Tag) := do
  match p.tag with
  | none => return none
  | some (handle, suffix, line) =>
    let long ←
      if handle = "" then pure suffix
      else
        match (← get).handles.lookup handle with
        | some target => pure (target ++ suffix)
        | none => fail p.start line "found undefined tag handle"
    return if long = "" || long = "!" then none else some (Tag.shorten long)

def openAnchor (p : Properties) : Compose (Option Nat) := do
  match p.anchor with
  | none => return none
  | some name =>
    let s ← get
    let rest := s.anchors.filter (fun entry => entry.1 ≠ name)
    set { s with anchors := (name, s.count) :: rest, count := s.count + 1 }
    return some s.count

def closeAnchor (number : Option Nat) (n : Node) : Compose Node := do
  match number with
  | some i => modify fun s => { s with complete := (i, n) :: s.complete }
  | none => pure ()
  return n

def aliasNode (name : String) (line : Nat) : Compose Node := do
  let s ← get
  match s.anchors.lookup name with
  | none => refuse ("unknown anchor '" ++ name ++ "' referenced")
  | some i =>
    match s.complete.lookup i with
    | some target => return .link name target line
    | none => return .cycle name line

def emptyScalar (line : Nat) : Node := .scalar "" (some .null) .plain (line + 1)

/-- The default tag of a scalar. A plain one has none, except the mark of a merge. -/
def scalarTag (text : String) (style : Style) : Option Tag :=
  if style = .plain then (if text = "<<" then some .merge else none) else some .str

mutual

/-- A node. Only where `block` holds may it be a block collection, and only where
`indentless` holds a sequence that is not indented. -/
def node : Nat → Bool → Bool → Compose Node
  | 0, _, _ => refuse "unknown problem parsing YAML content"
  | fuel + 1, block, indentless => do
    let first ← peek
    match first.lexeme with
    | .link name =>
      advance
      aliasNode name (first.line + 1)
    | _ =>
      let p ← properties
      let tag ← writtenTag p
      let line := p.start + 1
      let t ← peek
      match t.lexeme with
      | .scalar text style =>
        advance
        let number ← openAnchor p
        closeAnchor number (.scalar text (tag.orElse fun _ => scalarTag text style) style line)
      | .blockEntry =>
        if indentless then
          let number ← openAnchor p
          let items ← indentlessItems fuel []
          closeAnchor number (.sequence items (tag.getD .seq) line)
        else content block p tag t
      | .flowSequenceStart =>
        advance
        let number ← openAnchor p
        let items ← flowItems fuel t.line true []
        closeAnchor number (.sequence items (tag.getD .seq) line)
      | .flowMappingStart =>
        advance
        let number ← openAnchor p
        let pairs ← flowPairs fuel t.line true []
        closeAnchor number (.mapping pairs (tag.getD .map) line)
      | .blockSequenceStart =>
        if block then
          advance
          let number ← openAnchor p
          let items ← blockItems fuel t.line []
          closeAnchor number (.sequence items (tag.getD .seq) line)
        else content block p tag t
      | .blockMappingStart =>
        if block then
          advance
          let number ← openAnchor p
          let pairs ← blockPairs fuel t.line []
          closeAnchor number (.mapping pairs (tag.getD .map) line)
        else content block p tag t
      | _ => content block p tag t

/-- A node with properties but without content, or no node at all. -/
def content (_block : Bool) (p : Properties) (tag : Option Tag) (t : Token) : Compose Node := do
  if p.anchor.isSome || p.tag.isSome then
    let number ← openAnchor p
    closeAnchor number (.scalar "" tag .plain (p.start + 1))
  else fail p.start t.line "did not find expected node content"

/-- The items of a block sequence up to its end, after others, last first. -/
def blockItems : Nat → Nat → List Node → Compose (List Node)
  | 0, _, _ => refuse "unknown problem parsing YAML content"
  | fuel + 1, start, before => do
    let t ← peek
    match t.lexeme with
    | .blockEntry =>
      advance
      let item ←
        match (← peek).lexeme with
        | .blockEntry | .blockEnd => pure (emptyScalar t.line)
        | _ => node fuel true false
      blockItems fuel start (item :: before)
    | .blockEnd =>
      advance
      return before.reverse
    | _ => fail start t.line "did not find expected '-' indicator"

def indentlessItems : Nat → List Node → Compose (List Node)
  | 0, _ => refuse "unknown problem parsing YAML content"
  | fuel + 1, before => do
    let t ← peek
    match t.lexeme with
    | .blockEntry =>
      advance
      let item ←
        match (← peek).lexeme with
        | .blockEntry | .key | .value | .blockEnd => pure (emptyScalar t.line)
        | _ => node fuel true false
      indentlessItems fuel (item :: before)
    | _ => return before.reverse

def blockPairs : Nat → Nat → List (Node × Node) → Compose (List (Node × Node))
  | 0, _, _ => refuse "unknown problem parsing YAML content"
  | fuel + 1, start, before => do
    let t ← peek
    match t.lexeme with
    | .key =>
      advance
      let key ←
        match (← peek).lexeme with
        | .key | .value | .blockEnd => pure (emptyScalar t.line)
        | _ => node fuel true true
      let value ← blockValue fuel
      blockPairs fuel start ((key, value) :: before)
    | .blockEnd =>
      advance
      return before.reverse
    | _ => fail start t.line "did not find expected key"

def blockValue : Nat → Compose Node
  | 0 => refuse "unknown problem parsing YAML content"
  | fuel + 1 => do
    let t ← peek
    match t.lexeme with
    | .value =>
      advance
      match (← peek).lexeme with
      | .key | .value | .blockEnd => return emptyScalar t.line
      | _ => node fuel true true
    | _ => return emptyScalar t.line

def flowItems : Nat → Nat → Bool → List Node → Compose (List Node)
  | 0, _, _, _ => refuse "unknown problem parsing YAML content"
  | fuel + 1, start, first, before => do
    let t ← peek
    if t.lexeme = .flowSequenceEnd then
      advance
      return before.reverse
    if !first then
      if t.lexeme = .flowEntry then advance
      else fail start t.line "did not find expected ',' or ']'"
    let t ← peek
    match t.lexeme with
    | .flowSequenceEnd =>
      advance
      return before.reverse
    | .key =>
      advance
      let item ← flowPair fuel (t.line + 1)
      flowItems fuel start false (item :: before)
    | _ =>
      let item ← node fuel false false
      flowItems fuel start false (item :: before)

/-- A single pair that stands as an item of a flow sequence. -/
def flowPair : Nat → Nat → Compose Node
  | 0, _ => refuse "unknown problem parsing YAML content"
  | fuel + 1, line => do
    let t ← peek
    let key ←
      match t.lexeme with
      | .value | .flowEntry | .flowSequenceEnd =>
        advance
        pure (emptyScalar t.line)
      | _ => node fuel false false
    let t ← peek
    let value ←
      match t.lexeme with
      | .value =>
        advance
        let t ← peek
        match t.lexeme with
        | .flowEntry | .flowSequenceEnd => pure (emptyScalar t.line)
        | _ => node fuel false false
      | _ => pure (emptyScalar t.line)
    return .mapping [(key, value)] .map line

def flowPairs : Nat → Nat → Bool → List (Node × Node) → Compose (List (Node × Node))
  | 0, _, _, _ => refuse "unknown problem parsing YAML content"
  | fuel + 1, start, first, before => do
    let t ← peek
    if t.lexeme = .flowMappingEnd then
      advance
      return before.reverse
    if !first then
      if t.lexeme = .flowEntry then advance
      else fail start t.line "did not find expected ',' or '\x7d'"
    let t ← peek
    match t.lexeme with
    | .flowMappingEnd =>
      advance
      return before.reverse
    | .key =>
      advance
      let t ← peek
      let key ←
        match t.lexeme with
        | .value | .flowEntry | .flowMappingEnd => pure (emptyScalar t.line)
        | _ => node fuel false false
      let value ← flowValue fuel
      flowPairs fuel start false ((key, value) :: before)
    | _ =>
      let key ← node fuel false false
      let line := (← peek).line
      flowPairs fuel start false ((key, emptyScalar line) :: before)

def flowValue : Nat → Compose Node
  | 0 => refuse "unknown problem parsing YAML content"
  | fuel + 1 => do
    let t ← peek
    match t.lexeme with
    | .value =>
      advance
      let t ← peek
      match t.lexeme with
      | .flowEntry | .flowMappingEnd => return emptyScalar t.line
      | _ => node fuel false false
    | _ => return emptyScalar t.line

end

/-! Documents. -/

def directives : Nat → Bool → Compose Unit
  | 0, _ => pure ()
  | fuel + 1, versioned => do
    let t ← peek
    match t.lexeme with
    | .versionDirective major minor =>
      if versioned then fail 0 t.line "found duplicate %YAML directive"
      else if major ≠ 1 || minor ≠ 1 then fail 0 t.line "found incompatible YAML document"
      else
        advance
        directives fuel true
    | .tagDirective handle target =>
      let s ← get
      let written := s.handles.filter (fun h => h ≠ ("!", "!") && h ≠ ("!!", Tag.coreStart))
      if written.any (fun h => h.1 = handle) then fail 0 t.line "found duplicate %TAG directive"
      else
        set { s with handles := (handle, target) :: s.handles }
        advance
        directives fuel versioned
    | _ => pure ()

def document (fuel : Nat) : Compose (Option Node) := do
  let t ← peek
  match t.lexeme with
  | .streamEnd => return none
  | .versionDirective _ _ | .tagDirective _ _ | .documentStart =>
    directives fuel false
    let t ← peek
    if t.lexeme ≠ .documentStart then fail 0 t.line "did not find expected <document start>"
    advance
    let t ← peek
    match t.lexeme with
    | .versionDirective _ _ | .tagDirective _ _ | .documentStart | .documentEnd | .streamEnd =>
      return some (emptyScalar t.line)
    | _ =>
      let n ← node fuel true false
      let _ ← peek
      return some n
  | _ =>
    let n ← node fuel true false
    let _ ← peek
    return some n

end Compose

def Node.ofSource (s : Source) : Except Fault (Option Node) :=
  (Compose.document (8 * s.characters.length + 64)).run' { lexer := .start s }

end ScriptTree.Yaml
