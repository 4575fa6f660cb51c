import ScriptTree.Starlark.Operator

/-!
Methods of lists.
-/

namespace ScriptTree.Starlark.Method.List

open Arguments

def names : List String :=
  ["append", "clear", "extend", "index", "insert", "pop", "remove"]

def item (arguments : List Value) (i : Nat) : Value := arguments[i]?.getD .none

def extend (address : Nat) (v : Value) : Run Unit := do
  let it ← Run.iterator v
  let added := it.toList
  Run.modifyItems address fun items => items ++ added

def insert (address : Nat) (i : Int) (v : Value) : Run Unit :=
  Run.modifyItems address fun items =>
    let n : Int := items.size
    let j := if i < 0 then i + n else i
    let place := if n ≤ j then items.size else j.toNat
    items.extract 0 place ++ #[v] ++ items.extract place items.size

def find (address : Nat) (v low high : Value) : Run Value := do
  let s ← get
  let items := (s.items address).toList
  let (start, stop) ← (Operator.interval low high items.length : Result _)
  let part := (items.take stop.toNat).drop start.toNat
  match ← (Order.indexOf? s v start.toNat part : Result _) with
  | some i => return .int i
  | none => Run.fail "value not in list"

def remove (address : Nat) (v : Value) : Run Unit := do
  let s ← get
  match ← (Order.indexOf? s v 0 (s.items address).toList : Result _) with
  | some i => Run.modifyItems address fun items => items.eraseIdxIfInBounds i
  | none => Run.fail "element not found"

/-- Takes an item out, the last one if no index is given. -/
def pop (address : Nat) (i : Option Int) : Run Value := do
  let items := (← get).items address
  let n : Int := items.size
  let place ← (Operator.placeOf (.list address) n (i.getD (n - 1)) : Result Nat)
  Run.checkList address "pop from"
  Run.modifyItems address fun items => items.eraseIdxIfInBounds place
  return items.getD place .none

def call (name : String) (address : Nat) (a : Arguments) : Run Value := do
  let take (least : Nat) (kinds : List Want) : Run (List Value) :=
    (a.ordered name least kinds : Result _)
  match name with
  | "append" =>
    let arguments ← take 1 [.any]
    Run.named name (Run.checkList address "append to")
    Run.modifyItems address (·.push (item arguments 0))
    return .none
  | "clear" =>
    let _ ← take 0 []
    Run.named name (Run.checkList address "clear")
    Run.modifyItems address fun _ => #[]
    return .none
  | "extend" =>
    let arguments ← take 1 [.iterable]
    Run.named name (Run.checkList address "extend")
    extend address (item arguments 0)
    return .none
  | "index" =>
    let arguments ← take 1 [.any, .any, .any]
    Run.named name (find address (item arguments 0) (item arguments 1) (item arguments 2))
  | "insert" =>
    let arguments ← take 2 [.word, .any]
    Run.named name (Run.checkList address "insert into")
    insert address ((item arguments 0).intOr 0) (item arguments 1)
    return .none
  | "pop" =>
    let arguments ← take 0 [.word]
    Run.named name (pop address (arguments.head?.map (Value.intOr 0)))
  | _ =>
    let arguments ← take 1 [.any]
    Run.named name (do
      Run.checkList address "remove from"
      remove address (item arguments 0))
    return .none

end ScriptTree.Starlark.Method.List
