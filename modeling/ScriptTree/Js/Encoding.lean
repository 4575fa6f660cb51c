import ScriptTree.Js.Expr
import ScriptTree.Json.Value

/-!
The JSON form of trees, in the field names of the Shift format. Every node starts
with its type.
-/

namespace ScriptTree.Js

open Json (Value)

def record (type : String) (fields : List (String × Value)) : Value :=
  .object (("type", .string type) :: fields)

def encodeBinding (name : ByteString) : Value :=
  record "BindingIdentifier" [("name", .string name)]

def encodeOptional (encode : α → Value) : Option α → Value
  | some x => encode x
  | none => .null

def Parameters.encode (p : Parameters) : Value :=
  record "FormalParameters"
    [("items", .array (p.items.map encodeBinding)), ("rest", encodeOptional encodeBinding p.rest)]

def encodeReturn (expression : Value) : Value :=
  record "ReturnStatement" [("expression", expression)]

def encodeBody (directives : List ByteString) (statements : List Value) : Value :=
  record "FunctionBody"
    [("directives", .array (directives.map .string)), ("statements", .array statements)]

def Head.encode (h : Head) (body : Value) : Value :=
  record "FunctionExpression"
    [("isAsync", .boolean h.isAsync), ("isGenerator", .boolean h.isGenerator),
      ("name", encodeOptional encodeBinding h.name),
      ("params", encodeOptional Parameters.encode h.parameters), ("body", body)]

namespace Expr

def typeName : Expr → String
  | absent => ""
  | boolean _ => "LiteralBooleanExpression"
  | number _ => "LiteralNumericExpression"
  | identifier _ => "IdentifierExpression"
  | binary _ _ _ => "BinaryExpression"
  | function _ _ _ | bodiless _ => "FunctionExpression"

end Expr

mutual

def Expr.encode : Expr → Value
  | .absent => .null
  | .boolean value => record "LiteralBooleanExpression" [("value", .boolean value)]
  | .number value => record "LiteralNumericExpression" [("value", .number value)]
  | .identifier name => record "IdentifierExpression" [("name", .string name)]
  | .binary op left right =>
    record "BinaryExpression"
      [("left", left.encode), ("operator", .string op.symbol), ("right", right.encode)]
  | .function head directives statements =>
    head.encode (encodeBody directives (encodeStatements statements))
  | .bodiless head => head.encode .null

def Statement.encode : Statement → Value
  | .absent => .null
  | .returned e => encodeReturn e.encode

def encodeStatements : List Statement → List Value
  | [] => []
  | s :: rest => s.encode :: encodeStatements rest

end

namespace Tree

def typeName : Tree → String
  | expression e => e.typeName
  | statement .absent => ""
  | statement (.returned _) => "ReturnStatement"
  | binding _ => "BindingIdentifier"
  | parameters _ => "FormalParameters"
  | body _ _ => "FunctionBody"

def encode : Tree → Value
  | expression e => e.encode
  | statement s => s.encode
  | binding name => encodeBinding name
  | parameters p => p.encode
  | body directives statements => encodeBody directives (encodeStatements statements)

end Tree

/-! A number that is not finite has no JSON form. The failure names the nodes on the
way to it. -/

structure EncodeError where
  /-- Types of the nodes from the root to the number. -/
  route : List String
  value : Number
deriving DecidableEq

namespace EncodeError

def under (type : String) (e : EncodeError) : EncodeError := { e with route := type :: e.route }

/-- The innermost message, about the number alone. -/
def cause (e : EncodeError) : String := Json.unwritableMessage e.value

def message (e : EncodeError) : String :=
  e.route.foldr
    (fun type inner => "json: error calling MarshalJSON for type *jsast." ++ type ++ ": " ++ inner)
    e.cause

end EncodeError

mutual

/-- The first number, in writing order, that has no JSON form. -/
def Expr.encodeError? : Expr → Option EncodeError
  | .absent | .boolean _ | .identifier _ | .bodiless _ => none
  | .number value =>
    if value.isFinite then none else some ⟨["LiteralNumericExpression"], value⟩
  | .binary _ left right =>
    (left.encodeError?.or right.encodeError?).map (·.under "BinaryExpression")
  | .function _ _ statements =>
    (statementsError? statements).map fun e =>
      (e.under "FunctionBody").under "FunctionExpression"

def Statement.encodeError? : Statement → Option EncodeError
  | .absent => none
  | .returned e => e.encodeError?.map (·.under "ReturnStatement")

def statementsError? : List Statement → Option EncodeError
  | [] => none
  | s :: rest => s.encodeError?.or (statementsError? rest)

end

namespace Expr

def json (e : Expr) : Except EncodeError String :=
  match e.encodeError? with
  | some failure => .error failure
  | none => .ok e.encode.compact

def indentedJson (e : Expr) : Except EncodeError String :=
  match e.encodeError? with
  | some failure => .error failure
  | none => .ok (e.encode.indented 0)

end Expr

def Tree.encodeError? : Tree → Option EncodeError
  | expression e => e.encodeError?
  | statement s => s.encodeError?
  | binding _ | parameters _ => none
  | body _ statements => (statementsError? statements).map (·.under "FunctionBody")

def Tree.json (t : Tree) : Except EncodeError String :=
  match t.encodeError? with
  | some failure => .error failure
  | none => .ok t.encode.compact

end ScriptTree.Js
