import ScriptTree.Number.Layout
import ScriptTree.Text.ByteString

/-!
JSON values as the program writes them. Members keep their order. Written text is
safe inside a page: the characters of markup are escaped. A malformed byte is written
as the escape of the replacement character.
-/

namespace ScriptTree.Json

inductive Value where
  | null
  | boolean (value : Bool)
  | number (value : Number)
  | integer (value : Int)
  | string (value : ByteString)
  | array (items : List Value)
  | object (members : List (String × Value))
deriving Inhabited

/-- Induction over values. The statement about an array or an object may be derived from the
statements about its parts. -/
@[elab_as_elim, induction_eliminator]
theorem Value.induction {motive : Value → Prop}
    (null : motive .null)
    (boolean : ∀ value, motive (.boolean value))
    (number : ∀ value, motive (.number value))
    (integer : ∀ value, motive (.integer value))
    (string : ∀ value, motive (.string value))
    (array : ∀ items, (∀ v ∈ items, motive v) → motive (.array items))
    (object : ∀ members, (∀ m ∈ members, motive m.2) → motive (.object members)) :
    ∀ v, motive v
  | .null => null
  | .boolean value => boolean value
  | .number value => number value
  | .integer value => integer value
  | .string value => string value
  | .array items =>
    array items fun v _ => induction null boolean number integer string array object v
  | .object members =>
    object members fun m hm =>
      have hsize : sizeOf m.2 < sizeOf members := by
        have hm := List.sizeOf_lt_of_mem hm
        have hpair : sizeOf m = 1 + sizeOf m.1 + sizeOf m.2 := rfl
        omega
      induction null boolean number integer string array object m.2

/-! Strings. -/

def escape (c : Char) : List Char :=
  if c = '"' then ['\\', '"']
  else if c = '\\' then ['\\', '\\']
  else if c = '\n' then ['\\', 'n']
  else if c = '\r' then ['\\', 'r']
  else if c = '\t' then ['\\', 't']
  else if c.toNat = 8 then ['\\', 'b']
  else if c.toNat = 12 then ['\\', 'f']
  else if c.toNat < 0x20 || c = '<' || c = '>' || c = '&' || c.toNat = 0x2028 ||
      c.toNat = 0x2029 then
    '\\' :: 'u' :: Text.Quoted.hex 4 c.toNat
  else [c]

def escapePiece : Text.Piece → List Char
  | .char c => escape c
  | .broken _ => '\\' :: 'u' :: Text.Quoted.hex 4 Text.replacement.toNat

def writeString (s : ByteString) : String :=
  String.ofList ('"' :: (Text.pieces s).flatMap escapePiece ++ ['"'])

namespace Value

/-! The compact form, without white space. -/

mutual

def compact : Value → String
  | null => "null"
  | boolean b => if b then "true" else "false"
  | number x => x.jsonForm
  | integer n => Text.integer n
  | string s => writeString s
  | array items => "[" ++ String.intercalate "," (compactItems items) ++ "]"
  | object members => "\x7b" ++ String.intercalate "," (compactMembers members) ++ "\x7d"

def compactItems : List Value → List String
  | [] => []
  | v :: rest => compact v :: compactItems rest

def compactMembers : List (String × Value) → List String
  | [] => []
  | (key, v) :: rest => (writeString key ++ ":" ++ compact v) :: compactMembers rest

end

/-! The indented form, two spaces a level and one item a line. -/

def indentation (depth : Nat) : String := String.ofList (List.replicate (2 * depth) ' ')

/-- Brackets around lines of items, or next to each other when there are none. -/
def bracket (depth : Nat) (opening closing : String) (items : List String) : String :=
  if items.isEmpty then opening ++ closing
  else
    let lead := "\n" ++ indentation (depth + 1)
    opening ++ lead ++ String.intercalate ("," ++ lead) items ++
      "\n" ++ indentation depth ++ closing

mutual

def indented (depth : Nat) : Value → String
  | null => "null"
  | boolean b => if b then "true" else "false"
  | number x => x.jsonForm
  | integer n => Text.integer n
  | string s => writeString s
  | array items => bracket depth "[" "]" (indentedItems (depth + 1) items)
  | object members => bracket depth "\x7b" "\x7d" (indentedMembers (depth + 1) members)

def indentedItems (depth : Nat) : List Value → List String
  | [] => []
  | v :: rest => indented depth v :: indentedItems depth rest

def indentedMembers (depth : Nat) : List (String × Value) → List String
  | [] => []
  | (key, v) :: rest =>
    (writeString key ++ ": " ++ indented depth v) :: indentedMembers depth rest

end

/-! Numbers that have no written form. -/

mutual

/-- The first number, in writing order, that is not finite. -/
def unwritable? : Value → Option Number
  | number x => if x.isFinite then none else some x
  | array items => unwritableItem? items
  | object members => unwritableMember? members
  | null | boolean _ | integer _ | string _ => none

def unwritableItem? : List Value → Option Number
  | [] => none
  | v :: rest =>
    match unwritable? v with
    | some x => some x
    | none => unwritableItem? rest

def unwritableMember? : List (String × Value) → Option Number
  | [] => none
  | (_, v) :: rest =>
    match unwritable? v with
    | some x => some x
    | none => unwritableMember? rest

end

@[simp] theorem unwritableItem?_cons (v : Value) (rest : List Value) :
    unwritableItem? (v :: rest) = v.unwritable?.or (unwritableItem? rest) := by
  rw [unwritableItem?]
  cases v.unwritable? <;> rfl

@[simp] theorem unwritableMember?_nil : unwritableMember? [] = none := rfl

@[simp] theorem unwritableMember?_cons (key : String) (v : Value) (rest : List (String × Value)) :
    unwritableMember? ((key, v) :: rest) = v.unwritable?.or (unwritableMember? rest) := by
  rw [unwritableMember?]
  cases v.unwritable? <;> rfl

end Value

def unwritableMessage (x : Number) : String := "json: unsupported value: " ++ x.general

end ScriptTree.Json
