import ScriptTree.Json.Term
import ScriptTree.Script.Node

/-!
Scripts read from JSON. A node is an object whose member `_type` is its tag; what it
needs beside depends on its kind, and a tag of no kind is kept as it is. The first
violation, from the left and before what stands below it, is reported with its path.
-/

namespace ScriptTree

open Json (Term)

inductive Violation where
  | invalidJson
  | notObject
  | noTag
  | notBoolean
  | notNumber
  | notString
  | notArray
  /-- An object among the parameters with a tag of its own. -/
  | notParameter (tag : ByteString)
  | noBody
deriving DecidableEq, Inhabited

namespace Violation

def message : Violation → String
  | invalidJson => "invalid JSON"
  | notObject => "expected an object"
  | noTag => "missing _type"
  | notBoolean => "expected a boolean"
  | notNumber => "expected a number"
  | notString => "expected a string"
  | notArray => "expected an array"
  | notParameter tag => "expected Parameter, got " ++ tag.quote
  | noBody => "missing body"

end Violation

structure DecodeError where
  path : Path
  violation : Violation
deriving DecidableEq, Inhabited

namespace DecodeError

def message (e : DecodeError) : String :=
  "decode error at " ++ e.path.text ++ ": " ++ e.violation.message

end DecodeError

namespace Decode

def fail (path : Path) (violation : Violation) : Except DecodeError α :=
  .error ⟨path, violation⟩

abbrev Members := List (ByteString × Term)

def Members.field? (members : Members) (name : String) : Option Term :=
  members.lookup (Text.toBytes name)

def stringField (members : Members) (name : String) (path : Path) :
    Except DecodeError ByteString :=
  match members.field? name with
  | some (.string s) => .ok s
  | _ => fail (path ++ [.field name]) .notString

def parameter (t : Term) (path : Path) : Except DecodeError Parameter :=
  match t with
  | .object _ (members : Members) => do
    match members.field? "_type" with
    | some tag =>
      if tag.plainText ≠ "Parameter" then
        fail path (.notParameter tag.plainText)
    | none => pure ()
    let name ← stringField members "name" path
    return ⟨name, ((members.field? "type").map Term.plainText).getD ""⟩
  | _ => fail path .notObject

def parameterList (path : Path) : Nat → List Term → Except DecodeError (List Parameter)
  | _, [] => .ok []
  | i, t :: rest => do
    let first ← parameter t (path ++ [.parameter i])
    let others ← parameterList path (i + 1) rest
    return first :: others

def parameters (members : Members) (path : Path) :
    Except DecodeError (List Parameter) :=
  match members.field? "parameters" with
  | none | some .null => .ok []
  | some (.array _ items) => parameterList path 0 items
  | some _ => fail (path ++ [.field "parameters"]) .notArray

theorem sizeOf_lookup_lt {members : Members} {key : ByteString} {t : Term}
    (h : members.lookup key = some t) : sizeOf t < sizeOf members := by
  induction members with
  | nil => simp at h
  | cons m rest ih =>
    obtain ⟨k, v⟩ := m
    simp only [List.lookup_cons] at h
    simp only [List.cons.sizeOf_spec, Prod.mk.sizeOf_spec]
    split at h
    · obtain rfl : v = t := by simpa using h
      omega
    · have := ih h
      omega

theorem sizeOf_field_lt {members : Members} {name : String} {t : Term}
    (h : members.field? name = some t) : sizeOf t < sizeOf members :=
  sizeOf_lookup_lt h

mutual

def node (t : Term) (path : Path) : Except DecodeError Node :=
  match t with
  | .object raw (members : Members) =>
    match members.field? "_type" with
    | some (.string tag) =>
      if tag.isEmpty then fail path .noTag
      else
        match Kind.ofTag? tag with
        | none => .ok (.unrecognized tag raw)
        | some .boolean =>
          match members.field? "value" with
          | some (.boolean b) => .ok (.boolean b)
          | _ => fail (path ++ [.field "value"]) .notBoolean
        | some .number =>
          match members.field? "value" with
          | some (.number text) => .ok (.number (Term.numberOf text))
          | _ => fail (path ++ [.field "value"]) .notNumber
        | some .reference => do
          let name ← stringField members "name" path
          return .reference name
        | some (.operation op) =>
          match h : members.field? "children" with
          | none | some .null => .ok (.operation op [])
          | some (.array _ items) => do
            let children ← nodes items path 0
            return .operation op children
          | some _ => fail (path ++ [.field "children"]) .notArray
        | some .function => do
          let name ← stringField members "name" path
          let params ← parameters members path
          match h : members.field? "body" with
          | none => fail path .noBody
          | some inner =>
            let body ← node inner (path ++ [.field "body"])
            return .function name params body
    | _ => fail path .noTag
  | _ => fail path .notObject
termination_by sizeOf t
decreasing_by
  · have := sizeOf_field_lt h
    simp only [Json.Term.array.sizeOf_spec] at this
    simp only [Json.Term.object.sizeOf_spec]
    omega
  · have := sizeOf_field_lt h
    simp only [Json.Term.object.sizeOf_spec]
    omega

def nodes (items : List Term) (path : Path) (i : Nat) : Except DecodeError (List Node) :=
  match items with
  | [] => .ok []
  | t :: rest => do
    let first ← node t (path ++ [.child i])
    let others ← nodes rest path (i + 1)
    return first :: others
termination_by sizeOf items

end

end Decode

def Node.ofJsonText (text : ByteString) : Except DecodeError Node :=
  match Term.ofBytes? text with
  | none => .error ⟨[], .invalidJson⟩
  | some t => Decode.node t []

end ScriptTree
