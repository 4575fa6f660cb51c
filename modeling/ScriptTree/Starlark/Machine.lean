import ScriptTree.Starlark.Assembler
import ScriptTree.Starlark.Builtin

/-!
The machine that evaluates expressions. It takes one instruction at a time and counts its
steps, of which there may be a limited number.
-/

namespace ScriptTree.Starlark

namespace Machine

/-- The number of steps at which an evaluation is given up. -/
def stepLimit : Nat := 100000

def tooManySteps : Result α := fail "Starlark computation cancelled: too many steps"

inductive Slot where
  | empty
  | value (v : Value)
  | cell (address : Nat)
deriving Inhabited

structure Loop where
  source : Value
  rest : Iterator
deriving Inhabited

structure Activation where
  code : Code
  slots : Array Slot
  captured : List Nat
  given : ByteString
  place : Nat := 0
  stack : List Value := []
  loops : List Loop := []
deriving Inhabited

inductive Outcome where
  | proceed (a : Activation)
  /-- A call, whose result goes on top of the stack. -/
  | call (function : Value) (arguments : Arguments) (a : Activation)
  | done (v : Value)

namespace Activation

def push (a : Activation) (v : Value) : Activation := { a with stack := v :: a.stack }

def top (a : Activation) : Value := a.stack.headD .none

/-- The `n` values on top, the last one first. -/
def popped (a : Activation) (n : Nat) : List Value × Activation :=
  (a.stack.take n, { a with stack := a.stack.drop n })

def setSlot (a : Activation) (i : Nat) (v : Value) : Activation :=
  { a with slots := a.slots.modify i fun _ => .value v }

def shared (name : String) (address : Nat) : Run Value := do
  match (← get).cells.getD address none with
  | some v => return v
  | none => Run.fail ("local variable " ++ name ++ " referenced before assignment")

def slotName (a : Activation) (i : Nat) : String := a.code.frame.slots.getD i ""

def read (a : Activation) (i : Nat) : Run Value :=
  match a.slots.getD i .empty with
  | .value v => pure v
  | .cell address => shared (a.slotName i) address
  | .empty => Run.fail ("local variable " ++ a.slotName i ++ " referenced before assignment")

def capturedAt (a : Activation) (i : Nat) : Nat := a.captured.getD i 0

def capturedName (a : Activation) (i : Nat) : String :=
  ((a.code.frame.captured[i]?).map (·.1)).getD ""

def cellOf (a : Activation) : Capture → Nat
  | .cell i =>
    match a.slots.getD i .empty with
    | .cell address => address
    | _ => 0
  | .captured i => a.capturedAt i

end Activation

def constantValue : Constant → Value
  | .int n => .int n
  | .float x => .float x
  | .string b => .string b
  | .bytes b => .bytes b

def universalValue (name : String) : Value :=
  match name with
  | "None" => .none
  | "True" => .bool true
  | "False" => .bool false
  | name => .builtin name

def universalNames : List String := ["None", "True", "False"] ++ Builtin.names

def takeArguments (a : Activation) (positional named : Nat) (spread spreadNamed : Bool) :
    Run (Value × Arguments × Activation) := do
  let (spreadNamedValue, a) := a.popped (if spreadNamed then 1 else 0)
  let (spreadValue, a) := a.popped (if spread then 1 else 0)
  let (pairs, a) := a.popped (2 * named)
  let (values, a) := a.popped positional
  let (function, a) := a.popped 1
  let extraNamed ←
    match spreadNamedValue with
    | .dict address :: _ =>
      ((← get).entries address).toList.mapM fun entry =>
        match entry.key with
        | .string name => pure (name, entry.value)
        | key => Run.fail ("keywords must be strings, not " ++ key.typeName)
    | v :: _ => Run.fail ("argument after ** must be a mapping, not " ++ v.typeName)
    | [] => pure []
  let extra ←
    match spreadValue with
    | v :: _ =>
      match ← Run.iterator? v with
      | some it => pure it.toList
      | none => Run.fail ("argument after * must be iterable, not " ++ v.typeName)
    | [] => pure []
  return (function.headD .none, ⟨values.reverse ++ extra, namedOf [] pairs ++ extraNamed⟩, a)
where
  namedOf (done : List (ByteString × Value)) : List Value → List (ByteString × Value)
    | v :: .string name :: rest => namedOf ((name, v) :: done) rest
    | _ => done

def unpack (a : Activation) (n : Nat) (v : Value) : Run Activation := do
  match ← Run.iterator? v with
  | none => Run.fail ("got " ++ v.typeName ++ " in sequence assignment")
  | some it =>
    let items := it.take (n + 1)
    if n < items.length then
      let length := (v.length? (← get)).getD (-1)
      Run.fail ("too many values to unpack (got " ++ Text.integer length ++ ", want " ++
        Nat.repr n ++ ")")
    if items.length < n then
      Run.fail ("too few values to unpack (got " ++ Nat.repr items.length ++ ", want " ++
        Nat.repr n ++ ")")
    return { a with stack := items ++ a.stack }

def makeFunction (functions : Array Code) (a : Activation) (index : Nat) : Run Activation := do
  let code := functions.getD index {}
  let (defaults, a) := a.popped (code.signature.defaults.countP id)
  let cells := code.frame.captured.map fun (_, c) => a.cellOf c
  return a.push (.function (← Run.newIdentity) index defaults.reverse cells)

def idle (n : Nat) : Run Unit := modify fun s => { s with steps := s.steps + n }

/-- What an instruction does; the place is that of the next one already. -/
def execute (functions : Array Code) (i : Instruction) (a : Activation) : Run Outcome := do
  match i with
  | .constant c => return .proceed (a.push (constantValue c))
  | .nothing => return .proceed (a.push .none)
  | .slot i => return .proceed (a.push (← a.read i))
  | .cell i => return .proceed (a.push (← a.read i))
  | .captured i =>
    return .proceed (a.push (← Activation.shared (a.capturedName i) (a.capturedAt i)))
  | .given => return .proceed (a.push (.string a.given))
  | .universal name => return .proceed (a.push (universalValue name))
  | .setSlot i => return .proceed ({ a with stack := a.stack.drop 1 }.setSlot i a.top)
  | .setCell i =>
    let address := a.cellOf (.cell i)
    let v := a.top
    modify fun s => { s with cells := s.cells.modify address fun _ => some v }
    return .proceed { a with stack := a.stack.drop 1 }
  | .duplicate => return .proceed (a.push a.top)
  | .discard => return .proceed { a with stack := a.stack.drop 1 }
  | .exchange =>
    match a.stack with
    | x :: y :: rest => return .proceed { a with stack := y :: x :: rest }
    | _ => return .proceed a
  | .unary op =>
    let (_, rest) := a.popped 1
    return .proceed (rest.push (← (Operator.unary (← get) op a.top : Result Value)))
  | .binary op =>
    match a.stack with
    | y :: x :: rest =>
      return .proceed ({ a with stack := rest }.push (← Operator.binary op x y))
    | _ => return .proceed a
  | .makeList n =>
    let (items, a) := a.popped n
    return .proceed (a.push (← Run.newList items.reverse.toArray))
  | .makeTuple n =>
    let (items, a) := a.popped n
    return .proceed (a.push (.tuple items.reverse))
  | .makeDict => return .proceed (a.push (← Run.newDict {}))
  | .append =>
    match a.stack with
    | v :: .list address :: rest =>
      Run.modifyItems address (·.push v)
      return .proceed { a with stack := rest }
    | _ => return .proceed a
  | .setEntry isNew =>
    match a.stack with
    | v :: k :: .dict address :: rest =>
      let before := ((← get).entries address).size
      Run.setKey address k v
      if isNew && ((← get).entries address).size = before then
        Run.fail ("duplicate key: " ++ k.display (← get))
      return .proceed { a with stack := rest }
    | _ => return .proceed a
  | .field name =>
    let (_, rest) := a.popped 1
    return .proceed (rest.push (← Method.get a.top name))
  | .setField name => Run.fail ("can't assign to ." ++ name ++ " field of " ++ a.top.typeName)
  | .index =>
    match a.stack with
    | k :: v :: rest =>
      let item ← (Operator.index (← get) v k : Result Value)
      return .proceed ({ a with stack := rest }.push item)
    | _ => return .proceed a
  | .setIndex =>
    match a.stack with
    | v :: k :: x :: rest =>
      Operator.setIndex x k v
      return .proceed { a with stack := rest }
    | _ => return .proceed a
  | .slice =>
    match a.stack with
    | step :: high :: low :: v :: rest =>
      return .proceed ({ a with stack := rest }.push (← Operator.slice v low high step))
    | _ => return .proceed a
  | .unpack n =>
    let (_, rest) := a.popped 1
    return .proceed (← unpack rest n a.top)
  | .startLoop =>
    let source := a.top
    match ← Run.iterator? source with
    | none => Run.fail (source.typeName ++ " value is not iterable")
    | some rest =>
      Run.hold source (· + 1)
      return .proceed { a with stack := a.stack.drop 1, loops := ⟨source, rest⟩ :: a.loops }
  | .endLoop =>
    match a.loops with
    | loop :: loops =>
      Run.hold loop.source (· - 1)
      return .proceed { a with loops }
    | [] => return .proceed a
  | .next target n =>
    match a.loops with
    | ⟨source, rest⟩ :: loops =>
      match rest.next? with
      | some (v, rest) =>
        idle n
        return .proceed ({ a with loops := ⟨source, rest⟩ :: loops }.push v)
      | none => return .proceed { a with place := target }
    | [] => return .proceed { a with place := target }
  | .call positional named spread spreadNamed =>
    let (function, arguments, a) ← takeArguments a positional named spread spreadNamed
    return .call function arguments a
  | .idle => return .proceed a
  | .makeFunction index => return .proceed (← makeFunction functions a index)
  | .result => return .done a.top
  | .jump target => return .proceed { a with place := target }
  | .branch target n =>
    let (_, rest) := a.popped 1
    if a.top.truth (← get) then return .proceed { rest with place := target }
    else
      idle n
      return .proceed rest

def step (functions : Array Code) (a : Activation) : Run Outcome := fun s =>
  let s := { s with steps := s.steps + 1 }
  if stepLimit ≤ s.steps then tooManySteps
  else
    let i := a.code.instructions.getD a.place .result
    execute functions i { a with place := a.place + 1 } s

/-! Calls of functions. -/

structure Binding where
  slots : Array (Option Value)
  /-- Arguments by name for which there is no parameter. -/
  others : List (ByteString × Value) := []

def surplus (name : ByteString) : Result α :=
  fail ("function lambda got multiple values for parameter " ++ name.quote)

def bindNamed (c : Code) (b : Binding) (argument : ByteString × Value) : Result Binding :=
  let (name, v) := argument
  let parameters := c.frame.slots.take c.signature.ordinary
  match parameters.findIdx? fun p => Text.toBytes p == name with
  | some i =>
    if (b.slots.getD i none).isSome then surplus name
    else .ok { b with slots := b.slots.modify i fun _ => some v }
  | none =>
    if !c.signature.restNamed then
      fail ("function lambda got an unexpected keyword argument " ++ name.quote)
    else if (b.others.lookup name).isSome then surplus name
    else .ok { b with others := b.others ++ [argument] }

def defaultsOf (c : Code) (defaults : List Value) : List (Nat × Value) :=
  let first := c.signature.ordinary - c.signature.defaults.length
  let places := (c.signature.defaults.zipIdx first).filterMap fun (given, i) =>
    if given then some i else none
  places.zip defaults

def bindArguments (c : Code) (defaults : List Value) (a : Arguments) : Run (Array Slot) := do
  let sig := c.signature
  let given := a.positional.length
  if sig.ordinary = 0 && !sig.rest && !sig.restNamed then
    let all := given + a.named.length
    if 0 < all then
      Run.fail ("function lambda accepts no arguments (" ++ Nat.repr all ++ " given)")
    return (c.frame.slots.map fun _ => Slot.empty).toArray
  let byPlace := sig.ordinary - sig.byName
  if byPlace < given && !sig.rest then
    Run.fail ("function lambda accepts " ++
      (if sig.byName < sig.defaults.length then "at most " else "") ++ Nat.repr byPlace ++
      " positional argument" ++ (if byPlace = 1 then "" else "s") ++ " (" ++ Nat.repr given ++
      " given)")
  let start := (List.range c.frame.slots.length).map fun i =>
    if i < byPlace then a.positional[i]? else none
  let b ← (a.named.foldlM (bindNamed c) { slots := start.toArray } : Result Binding)
  let defaults := defaultsOf c defaults
  let filled := b.slots.mapIdx fun i v => v.or (defaults.lookup i)
  let missing := (List.range sig.ordinary).filter fun i => (filled.getD i none).isNone
  if !missing.isEmpty then
    Run.fail ("function lambda missing " ++ Nat.repr missing.length ++ " argument" ++
      (if 1 < missing.length then "s" else "") ++ " (" ++
      String.intercalate ", " (missing.map fun i => c.frame.slots.getD i "") ++ ")")
  let slots := filled.map fun v => (v.map Slot.value).getD .empty
  let slots :=
    if sig.rest then slots.modify sig.ordinary fun _ => .value (.tuple (a.positional.drop byPlace))
    else slots
  if sig.restNamed then
    let others ← b.others.mapM fun (name, v) => do
      return (⟨← ((Value.string name).hash : Result Nat), .string name, v⟩ : Entry)
    let dict ← Run.newDict (.ofEntries others)
    return slots.modify (sig.ordinary + sig.rest.toNat) fun _ => .value dict
  else return slots

def toCell (slots : Array Slot) (i : Nat) : Run (Array Slot) := do
  let v := match slots.getD i .empty with
    | .value v => some v
    | _ => none
  let address ← modifyGet fun s => (s.cells.size, { s with cells := s.cells.push v })
  return slots.modify i fun _ => .cell address

def start (c : Code) (given : ByteString) (captured : List Nat) (slots : Array Slot) :
    Run Activation := do
  let slots ← c.frame.cells.foldlM toCell slots
  return { code := c, slots, captured, given }

mutual

/-- Works until there is a result. Functions in `active` wait for it. -/
def run (functions : Array Code) (active : List Nat) :
    Nat → Activation → Store → Result (Value × Store)
  | 0, _, _ => tooManySteps
  | fuel + 1, a, s =>
    match step functions a s with
    | .error e => .error e
    | .ok (.proceed a, s) => run functions active fuel a s
    | .ok (.done v, s) => .ok (v, s)
    | .ok (.call f arguments a, s) =>
      match call functions active a.given fuel f arguments s with
      | .error e => .error e
      | .ok (v, s) => run functions active fuel (a.push v) s

/-- Calls a function. No function calls itself, directly or through others. -/
def call (functions : Array Code) (active : List Nat) (given : ByteString) :
    Nat → Value → Arguments → Store → Result (Value × Store)
  | 0, _, _, _ => tooManySteps
  | fuel + 1, f, arguments, s =>
    match f with
    | .builtin name =>
      Builtin.call (fun f v s => call functions active given fuel f ⟨[v], []⟩ s) name arguments s
    | .method _ name receiver => Method.call name receiver arguments s
    | .function _ index defaults cells =>
      if active.contains index then fail "function lambda called recursively"
      else
        let code := functions.getD index {}
        match (bindArguments code defaults arguments >>= start code given cells) s with
        | .error e => .error e
        | .ok (a, s) => run functions (index :: active) fuel a s
    | f => fail ("invalid call of non-function (" ++ f.typeName ++ ")")

end

end Machine

/-- The value of an expression for an identifier, by an evaluator that has taken some steps and
gives up at a limited number of them. -/
def Assembly.valueAfter (taken : Nat) (a : Assembly) (given : ByteString) :
    Result (Value × Store) :=
  match Machine.start a.main given [] (a.main.frame.slots.map fun _ => .empty).toArray
      { steps := taken } with
  | .error e => .error e
  | .ok (activation, s) =>
    Machine.run a.functions [] (2 * Machine.stepLimit) activation s

def Assembly.value (a : Assembly) (given : ByteString) : Result (Value × Store) :=
  a.valueAfter 0 given

end ScriptTree.Starlark
