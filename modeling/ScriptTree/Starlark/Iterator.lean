import ScriptTree.Starlark.Value

/-!
Going through values item by item.
-/

namespace ScriptTree.Starlark

inductive Iterator where
  | listed (rest : List Value)
  | progression (range : Range) (place : Nat)
deriving Inhabited

namespace Iterator

def next? : Iterator → Option (Value × Iterator)
  | listed [] => none
  | listed (v :: rest) => some (v, listed rest)
  | progression r place =>
    if (place : Int) < r.length then some (.int (r.item place), progression r (place + 1)) else none

def remaining : Iterator → Nat
  | listed rest => rest.length
  | progression r place => r.length.toNat - place

def take : Nat → Iterator → List Value
  | n, listed rest => rest.take n
  | n, progression r place =>
    (List.range (min n (r.length.toNat - place))).map fun i => .int (r.item (place + i : Nat))

def toList (it : Iterator) : List Value := it.take it.remaining

def anyOf (p : Value → Bool) : Nat → Iterator → Bool
  | 0, _ => false
  | n + 1, it =>
    match it.next? with
    | some (v, it) => p v || anyOf p n it
    | none => false

def any (p : Value → Bool) (it : Iterator) : Bool := it.anyOf p it.remaining

def foldFirst (step : σ → Value → Run σ) : Nat → Iterator → σ → Run σ
  | 0, _, acc => pure acc
  | n + 1, it, acc =>
    match it.next? with
    | some (v, it) => do
      let acc ← step acc v
      foldFirst step n it acc
    | none => pure acc

def fold (step : σ → Value → Run σ) (init : σ) (it : Iterator) : Run σ :=
  foldFirst step it.remaining it init

end Iterator

namespace Value

def viewItems (kind : StringView) (b : ByteString) : List Value :=
  match kind with
  | .elems => b.map fun x => string [x]
  | .elemOrds => b.map fun x => int x.toNat
  | .codepoints => (Text.chars b).map fun c => string (Text.ofChars [c])
  | .codepointOrds => (Text.chars b).map fun c => int c.toNat

def iterator? (s : Store) : Value → Option Iterator
  | list a => some (.listed (s.items a).toList)
  | tuple items => some (.listed items)
  | dict a => some (.listed ((s.entries a).toList.map (·.key)))
  | range r => some (.progression r 0)
  | view kind b => some (.listed (viewItems kind b))
  | byteView b => some (.listed (viewItems .elemOrds b))
  | none | bool _ | int _ | float _ | string _ | bytes _ | builtin _ | method _ _ _
  | function _ _ _ _ => Option.none

def isIterable : Value → Bool
  | list _ | tuple _ | dict _ | range _ | view _ _ | byteView _ => true
  | none | bool _ | int _ | float _ | string _ | bytes _ | builtin _ | method _ _ _
  | function _ _ _ _ => false

end Value

namespace Run

def iterator? (v : Value) : Run (Option Iterator) := do return v.iterator? (← get)

def iterator (v : Value) : Run Iterator := do return ((← iterator? v).getD (.listed []))

def hold (v : Value) (change : Nat → Nat) : Run Unit :=
  match v with
  | .list a => modifyList a fun l => { l with readers := change l.readers }
  | .dict a => modifyDict a fun d => { d with readers := change d.readers }
  | _ => pure ()

def holding (v : Value) (work : Run α) : Run α := do
  hold v (· + 1)
  let r ← work
  hold v (· - 1)
  return r

end Run

end ScriptTree.Starlark
