import ScriptTree.Starlark.Operator

/-!
Methods of dictionaries.
-/

namespace ScriptTree.Starlark.Method.Dict

open Arguments

def names : List String :=
  ["clear", "get", "items", "keys", "pop", "popitem", "setdefault", "update", "values"]

def addPair (address i : Nat) (pair : Value) : Run Unit := do
  let element := "dictionary update sequence element #" ++ Nat.repr i
  match ← Run.iterator? pair with
  | none => Run.fail (element ++ " is not iterable (" ++ pair.typeName ++ ")")
  | some it =>
    match pair.length? (← get) with
    | none => Run.fail (element ++ " has unknown length (" ++ pair.typeName ++ ")")
    | some n =>
      match it.take 2 with
      | [k, v] =>
        if n ≠ 2 then Run.fail (element ++ " has length " ++ Text.integer n ++ ", want 2")
        Run.hold pair (· + 1)
        Run.setKey address k v
      | _ => Run.fail (element ++ " has length " ++ Text.integer n ++ ", want 2")

/-- Adds the entries of a dictionary or of a sequence of pairs. Nothing that is gone
through may change meanwhile. -/
def addFrom (address : Nat) (v : Value) : Run Unit := do
  match v with
  | .dict other =>
    for entry in (← get).entries other do
      Run.setKey address entry.key entry.value
  | v =>
    match ← Run.iterator? v with
    | none => Run.fail ("got " ++ v.typeName ++ ", want iterable")
    | some it =>
      Run.hold v (· + 1)
      let pairs ← it.fold (fun (pairs : List Value) pair => do
        addPair address pairs.length pair
        return pair :: pairs) []
      pairs.forM fun pair => Run.hold pair (· - 1)
      Run.hold v (· - 1)

def repeated? : List ByteString → List ByteString → Option ByteString
  | _, [] => none
  | seen, name :: rest =>
    if seen.contains name then some name else repeated? (name :: seen) rest

def update (address : Nat) (a : Arguments) : Run Unit := do
  a.positional.forM (addFrom address)
  let before := ((← get).entries address).size
  for (name, value) in a.named do
    Run.setKey address (.string name) value
  if ((← get).entries address).size < before + a.named.length then
    match repeated? [] (a.named.map (·.1)) with
    | some name => Run.fail ("duplicate keyword arg: " ++ name.quote)
    | none => pure ()

def call (name : String) (address : Nat) (a : Arguments) : Run Value := do
  let take (least : Nat) (kinds : List Want) : Run (List Value) :=
    (a.ordered name least kinds : Result _)
  let itemsOf (f : Entry → Value) : Run Value := do
    Run.newList (((← get).entries address).map f)
  match name with
  | "clear" =>
    let _ ← take 0 []
    Run.checkDict address "clear"
    Run.modifyDict address fun d => { d with entries := #[], places := {} }
    return .none
  | "get" =>
    let arguments ← take 1 [.any, .any]
    let found ← Run.named name (Run.getKey? address (arguments.getD 0 .none))
    return found.getD (arguments.getD 1 .none)
  | "items" =>
    let _ ← take 0 []
    itemsOf fun entry => .tuple [entry.key, entry.value]
  | "keys" =>
    let _ ← take 0 []
    itemsOf (·.key)
  | "values" =>
    let _ ← take 0 []
    itemsOf (·.value)
  | "pop" =>
    let arguments ← take 1 [.any, .any]
    match ← Run.named name (Run.deleteKey? address (arguments.getD 0 .none)), arguments[1]? with
    | some v, _ => return v
    | none, some v => return v
    | none, none => Run.fail "pop: missing key"
  | "popitem" =>
    let _ ← take 0 []
    match ((← get).entries address)[0]? with
    | some entry =>
      let _ ← Run.named name (Run.deleteKey? address entry.key)
      return .tuple [entry.key, entry.value]
    | none => Run.fail "popitem: empty dict"
  | "setdefault" =>
    let arguments ← take 1 [.any, .any]
    let key := arguments.getD 0 .none
    let default := arguments.getD 1 .none
    match ← Run.named name (Run.getKey? address key) with
    | some v => return v
    | none =>
      Run.named name (Run.setKey address key default)
      return default
  | _ =>
    if 1 < a.positional.length then
      Run.fail ("update: got " ++ Nat.repr a.positional.length ++ " arguments, want at most 1")
    Run.named name (update address a)
    return .none

end ScriptTree.Starlark.Method.Dict
