import ScriptTree.Json.Value
import ScriptTree.Yaml.Scalar

/-!
The data of a YAML document. A mapping whose keys are all strings is an object, any
other a table. The pairs of a merged mapping count where their key does not occur
otherwise.
-/

namespace ScriptTree.Yaml

inductive Value where
  | scalar (value : Scalar)
  | sequence (items : List Value)
  | object (members : List (String × Value))
  | table (entries : List (Scalar × Value))
deriving Inhabited

namespace Value

def sortMembers (members : List (String × α)) : List (String × α) :=
  members.mergeSort (fun a b => decide (a.1 ≤ b.1))

/-! As messages show data. -/

def scalarLiteral : Scalar → String
  | .null => "interface \x7b\x7d(nil)"
  | .bool b => if b then "true" else "false"
  | .int n =>
    if n < Nat.pow 2 63 then Text.integer n
    else "0x" ++ String.ofList (Nat.toDigits 16 n.toNat)
  | .float x => x.general
  | .timestamp t => t.text
  | .str s | .foreign _ s => Text.quote s
  | .binary bytes => bytes.quote

def bracketed (type : String) (parts : List String) : String :=
  type ++ "\x7b" ++ String.intercalate ", " parts ++ "\x7d"

mutual

def literal : Value → String
  | scalar s => scalarLiteral s
  | sequence items => bracketed "[]interface \x7b\x7d" (literals items)
  | object members =>
    bracketed "map[string]interface \x7b\x7d"
      ((sortMembers (memberLiterals members)).map fun (k, v) => Text.quote k ++ ":" ++ v)
  | table entries =>
    bracketed "map[interface \x7b\x7d]interface \x7b\x7d" (entryLiterals entries)

def literals : List Value → List String
  | [] => []
  | v :: rest => literal v :: literals rest

def memberLiterals : List (String × Value) → List (String × String)
  | [] => []
  | (k, v) :: rest => (k, literal v) :: memberLiterals rest

def entryLiterals : List (Scalar × Value) → List String
  | [] => []
  | (k, v) :: rest => (scalarLiteral k ++ ":" ++ literal v) :: entryLiterals rest

end

end Value

inductive Error where
  | malformed (fault : Fault)
  | unfit (reasons : List String)
deriving Inhabited

namespace Error

def message : Error → String
  | malformed fault => fault.message
  | unfit reasons => "yaml: unmarshal errors:\n  " ++ String.intercalate "\n  " reasons

end Error

structure Tally where
  reasons : List String := []
  /-- Number of nodes read so far, each as often as it was reached. -/
  reached : Nat := 0
  /-- Number of those that were reached through an alias. -/
  copied : Nat := 0
  /-- Number of aliases around the present node. -/
  depth : Nat := 0

namespace Tally

/-- The least and the greatest number of nodes between which the share of copies is more
and more restricted. -/
def restriction : Nat × Nat := (400000, 4000000)

def allowedShare (reached : Nat) : Nat × Nat :=
  let (low, high) := restriction
  if reached ≤ low then (99, 100)
  else if high ≤ reached then (10, 100)
  else (99 * (high - low) - 89 * (reached - low), 100 * (high - low))

def isExcessive (t : Tally) : Bool :=
  let (part, whole) := allowedShare t.reached
  100 < t.copied && 1000 < t.reached && t.reached * part < t.copied * whole

end Tally

/-- Reading data collects the reasons why parts do not fit and goes on. -/
abbrev Reading := StateT Tally (Except Fault)

namespace Reading

def note (reason : String) : Reading Unit := modify fun t => { t with reasons := t.reasons ++ [reason] }

def refuse (problem : String) : Reading α := throw { problem := problem }

/-- Counts a node. Data that consist mostly of copies are refused. -/
def visit : Reading Unit := do
  modify fun t =>
    { t with reached := t.reached + 1, copied := t.copied + if 0 < t.depth then 1 else 0 }
  if (← get).isExcessive then refuse "document contains excessive aliasing"

def copy (read : Reading α) : Reading α := do
  modify fun t => { t with depth := t.depth + 1 }
  let a ← read
  modify fun t => { t with depth := t.depth - 1 }
  return a

end Reading

namespace Node

/-- The tag of a node, by its text if none is written. -/
def tag : Node → Tag
  | scalar text tag _ _ =>
    match tag with
    | some t => t
    | none => (Scalar.ofPlain true text).tag
  | sequence _ tag _ => tag
  | mapping _ tag _ => tag
  | link _ target _ => target.tag
  | cycle _ _ => ⟨""⟩

def sameKey : Node → Node → Bool
  | scalar a _ _ _, scalar b _ _ _ => a = b
  | sequence _ _ _, sequence _ _ _ => true
  | mapping _ _ _, mapping _ _ _ => true
  | link a _ _, link b _ _ | link a _ _, cycle b _ | cycle a _, link b _ _
  | cycle a _, cycle b _ => a = b
  | _, _ => false

def keyText : Node → String
  | scalar text _ _ _ => text
  | link name _ _ | cycle name _ => name
  | sequence _ _ _ | mapping _ _ _ => ""

def isMerge : Node → Bool
  | scalar text tag _ _ => text = "<<" && (tag.isNone || tag = some .merge)
  | _ => false

def repeatedKeys : List (Node × Node) → List String
  | [] => []
  | (key, _) :: rest =>
    (rest.filter (fun pair => sameKey key pair.1)).map (fun pair =>
      "line " ++ Nat.repr pair.1.line ++ ": mapping key " ++ Text.quote pair.1.keyText ++
        " already defined at line " ++ Nat.repr key.line) ++
      repeatedKeys rest

def hasStringKeys (pairs : List (Node × Node)) : Bool :=
  pairs.all fun pair => pair.1.tag = .str || pair.1.tag = .merge

def unfit (n : Node) (target : String) : String :=
  let shown :=
    match n with
    | scalar text _ _ _ =>
      if 10 < text.utf8ByteSize then
        " `" ++ Text.ofBytes ((Text.toBytes text).take 7) ++ "...`"
      else " `" ++ text ++ "`"
    | _ => ""
  "line " ++ Nat.repr n.line ++ ": cannot unmarshal " ++ n.tag.text ++ shown ++ " into " ++ target

def seenKeys (entries : List (Scalar × Value)) : List Scalar := entries.map (·.1)

def mergeRefusal : Reading α :=
  Reading.refuse "map merge requires map or sequence of maps as the value"

def lastOfEach : List (Scalar × Value) → List (Scalar × Value)
  | [] => []
  | entry :: rest =>
    if rest.any (·.1 = entry.1) then lastOfEach rest else entry :: lastOfEach rest

def assemble (strings : Bool) (entries : List (Scalar × Value)) : Value :=
  if strings then
    .object (entries.filterMap fun entry =>
      match entry.1 with
      | .str s => some (s, entry.2)
      | _ => none)
  else .table entries

/-- The key that a scalar is. Where keys have to be strings it counts as its text, and an
empty one is left out. -/
def scalarKey (strings : Bool) (text : String) : Scalar → Option Scalar
  | .null => if strings then none else some .null
  | .str s | .foreign _ s => some (.str s)
  | .binary bytes => some (.str bytes.text)
  | other => some (if strings then .str text else other)

def recount : Node → Reading Unit
  | link _ target _ => do
    Reading.visit
    Reading.copy target.recount
  | _ => Reading.visit

/-- The entries that a mapping writes, and then those it merges, which leave out the
keys seen before. Of a key that was not seen before and is written in two ways the last
entry counts, and a mapping with a key written twice has no entries. -/
def collect (pairs : List (Node × Node)) (seen : Option (List Scalar))
    (own : Reading (List (Scalar × Value)))
    (merged : List Scalar → Reading (List (Scalar × Value))) :
    Reading (Option (List (Scalar × Value))) := do
  match repeatedKeys pairs with
  | [] =>
    let first ← own
    match seen with
    | some seen =>
      let others ← merged (seen ++ seenKeys first)
      return some (first ++ others)
    | none =>
      let first := lastOfEach first
      if pairs.any (·.1.isMerge) then
        pairs.forM (·.1.recount)
        let others ← merged (seenKeys first)
        return some (first ++ others)
      else return some first
  | reasons =>
    reasons.forM Reading.note
    return none

mutual

def value : Node → Reading (Option Value)
  | scalar text tag _ _ => do
    Reading.visit
    let s ← (Scalar.read tag text : Except Fault Scalar)
    match s with
    | .foreign _ text => return some (.scalar (.str text))
    | s => return some (.scalar s)
  | sequence items _ _ => do
    Reading.visit
    let items ← values items
    return some (.sequence items)
  | mapping pairs _ _ => do
    Reading.visit
    let strings := hasStringKeys pairs
    let entries ← collect pairs none (ownEntries strings none pairs)
      (fun seen => mergedEntries strings seen pairs)
    return entries.map (assemble strings)
  | link _ target _ => do
    Reading.visit
    Reading.copy (value target)
  | cycle name _ => Reading.refuse ("anchor '" ++ name ++ "' value contains itself")

def values : List Node → Reading (List Value)
  | [] => return []
  | n :: rest => do
    let first ← value n
    let others ← values rest
    return match first with
      | some v => v :: others
      | none => others

def key (strings : Bool) : Node → Reading (Option Scalar)
  | scalar text tag _ _ => do
    Reading.visit
    let s ← (Scalar.read tag text : Except Fault Scalar)
    return scalarKey strings text s
  | link _ target _ => do
    Reading.visit
    Reading.copy (key strings target)
  | cycle name _ => Reading.refuse ("anchor '" ++ name ++ "' value contains itself")
  | sequence items tag line => do
    Reading.visit
    if strings then
      Reading.note ((sequence items tag line).unfit "string")
      return none
    else
      let items ← values items
      Reading.refuse ("invalid map key: " ++ (Value.sequence items).literal)
  | mapping pairs tag line => do
    Reading.visit
    if strings then
      Reading.note ((mapping pairs tag line).unfit "string")
      return none
    else
      let strings := hasStringKeys pairs
      let entries ← collect pairs none (ownEntries strings none pairs)
        (fun seen => mergedEntries strings seen pairs)
      match entries with
      | some list => Reading.refuse ("invalid map key: " ++ (assemble strings list).literal)
      | none => return none

/-- The entries that a mapping writes itself, without those whose key was seen if the
mapping is merged into another. -/
def ownEntries (strings : Bool) (seen : Option (List Scalar)) :
    List (Node × Node) → Reading (List (Scalar × Value))
  | [] => return []
  | (k, v) :: rest => do
    if k.isMerge then ownEntries strings seen rest
    else
      match ← key strings k with
      | none => ownEntries strings seen rest
      | some k =>
        if seen.any (·.contains k) then ownEntries strings seen rest
        else
          let first ← value v
          let others ← ownEntries strings (seen.map (k :: ·)) rest
          return match first with
            | some v => (k, v) :: others
            | none => others

def mergedEntries (strings : Bool) (seen : List Scalar) :
    List (Node × Node) → Reading (List (Scalar × Value))
  | [] => return []
  | (k, v) :: rest =>
    if k.isMerge then
      match v with
      | mapping pairs _ _ => do
        Reading.visit
        let list ← collect pairs (some seen) (ownEntries strings (some seen) pairs)
          (fun seen => mergedEntries strings seen pairs)
        return list.getD []
      | link _ (mapping pairs _ _) _ => do
        Reading.visit
        Reading.copy do
          Reading.visit
          let list ← collect pairs (some seen) (ownEntries strings (some seen) pairs)
            (fun seen => mergedEntries strings seen pairs)
          return list.getD []
      | sequence items _ _ => mergedList strings seen items
      | cycle name _ => Reading.refuse ("anchor '" ++ name ++ "' value contains itself")
      | _ => mergeRefusal
    else mergedEntries strings seen rest

def mergedList (strings : Bool) (seen : List Scalar) :
    List Node → Reading (List (Scalar × Value))
  | [] => return []
  | mapping pairs _ _ :: rest => do
    Reading.visit
    let list ← collect pairs (some seen) (ownEntries strings (some seen) pairs)
      (fun seen => mergedEntries strings seen pairs)
    let first := list.getD []
    let others ← mergedList strings (seen ++ seenKeys first) rest
    return first ++ others
  | link _ (mapping pairs _ _) _ :: rest => do
    Reading.visit
    let list ← Reading.copy do
      Reading.visit
      collect pairs (some seen) (ownEntries strings (some seen) pairs)
        (fun seen => mergedEntries strings seen pairs)
    let first := list.getD []
    let others ← mergedList strings (seen ++ seenKeys first) rest
    return first ++ others
  | _ :: _ => mergeRefusal

end

end Node

/-- Runs the reading of a document, which counts as a node; reasons that were collected make
it fail. -/
def Reading.finish (r : Reading α) : Except Error α :=
  match (Reading.visit *> r).run {} with
  | .error fault => .error (.malformed fault)
  | .ok (a, tally) => if tally.reasons.isEmpty then .ok a else .error (.unfit tally.reasons)

/-- The data of the first document of a text; an empty one is null. -/
def Value.ofBytes (bytes : List UInt8) : Except Error Value :=
  match Node.ofSource (.ofBytes bytes) with
  | .error fault => .error (.malformed fault)
  | .ok none => .ok (.scalar .null)
  | .ok (some n) =>
    match n.value.finish with
    | .error e => .error e
    | .ok v => .ok (v.getD (.scalar .null))

/-- The members of a document that has to be a mapping or empty. -/
def Value.membersOfBytes (bytes : List UInt8) : Except Error (List (String × Value)) :=
  match Node.ofSource (.ofBytes bytes) with
  | .error fault => .error (.malformed fault)
  | .ok none => .ok []
  | .ok (some n) =>
    match n with
    | .mapping pairs _ _ =>
      match (Reading.visit *> Node.collect pairs none (Node.ownEntries true none pairs)
          (fun seen => Node.mergedEntries true seen pairs)).finish with
      | .error e => .error e
      | .ok list =>
        match Node.assemble true (list.getD []) with
        | .object members => .ok members
        | _ => .ok []
    | _ =>
      match n.value.finish with
      | .error e => .error e
      | .ok (some (.scalar .null)) => .ok []
      | .ok _ => .error (.unfit [n.unfit "map[string]interface \x7b\x7d"])

/-! As JSON. -/

namespace Value

def scalarJson : Scalar → Json.Value
  | .null => .null
  | .bool b => .boolean b
  | .int n => .integer n
  | .float x => .number x
  | .timestamp t => .string t.text
  | .str s | .foreign _ s => .string s
  | .binary bytes => .string bytes

mutual

def json : Value → Json.Value
  | scalar s => scalarJson s
  | sequence items => .array (jsonItems items)
  | object members => .object (sortMembers (jsonMembers members))
  | table _ => .null

def jsonItems : List Value → List Json.Value
  | [] => []
  | v :: rest => json v :: jsonItems rest

def jsonMembers : List (String × Value) → List (String × Json.Value)
  | [] => []
  | (k, v) :: rest => (k, json v) :: jsonMembers rest

end

def firstByKey (failures : List (String × Option String)) : Option String :=
  (sortMembers failures).findSome? (·.2)

mutual

/-- The first part, in writing order, that has no JSON form. -/
def jsonFailure? : Value → Option String
  | scalar (.float x) => if x.isFinite then none else some (Json.unwritableMessage x)
  | scalar (.timestamp t) =>
    if t.hasPlainOffset then none
    else
      some ("json: error calling MarshalJSON for type *time.Time: " ++
        "timezone hour outside of range [0,23]")
  | scalar _ => none
  | sequence items => itemFailure? items
  | object members => firstByKey (memberFailures members)
  | table _ => some "json: unsupported type: map[interface \x7b\x7d]interface \x7b\x7d"

def itemFailure? : List Value → Option String
  | [] => none
  | v :: rest => (jsonFailure? v).or (itemFailure? rest)

def memberFailures : List (String × Value) → List (String × Option String)
  | [] => []
  | (k, v) :: rest => (k, jsonFailure? v) :: memberFailures rest

end

end Value

end ScriptTree.Yaml
