import ScriptTree.Starlark.Expr
import ScriptTree.Starlark.Spelling

/-!
Names of an expression. Loops of comprehensions and parameters of functions bind names;
every other name has to be the given one or a universal one. A variable lives in a slot of
the function around it, in a cell if an inner function uses it too, and inner functions
reach it as a captured variable.
-/

namespace ScriptTree.Starlark

inductive Access where
  | slot (index : Nat)
  | cell (index : Nat)
  | captured (index : Nat)
  | given
  | universal
deriving DecidableEq, Inhabited

/-- What inner functions take along from the function around them. -/
inductive Capture where
  | cell (index : Nat)
  | captured (index : Nat)
deriving DecidableEq, Inhabited

structure Frame where
  slots : List String := []
  cells : List Nat := []
  captured : List (String × Capture) := []
deriving DecidableEq, Inhabited

namespace Scope

def given : String := "name"

inductive Place where
  | slot
  | cell
  | captured
  | given
  | universal
  | undefined
deriving DecidableEq, Inhabited

structure Binding where
  place : Place
  index : Nat := 0
deriving DecidableEq, Inhabited

structure Use where
  name : String
  position : Position
  block : Nat
deriving DecidableEq, Inhabited

/-- A part of an expression with names of its own: the whole, a function, or a
comprehension. -/
structure Block where
  parent : Nat := 0
  /-- The frame of the block if it is a function. -/
  frame : Option Nat := none
  names : List (String × Nat) := []
  children : List Nat := []
  /-- Uses in this function that are not accounted for, in order. -/
  uses : List Use := []
deriving Inhabited

structure Draft where
  position : Position
  slots : List (String × Nat) := []
  captured : List (String × Nat) := []
deriving Inhabited

structure State where
  bindings : Array Binding := #[]
  /-- The whole expression is the first block. -/
  blocks : Array Block := #[{}]
  drafts : Array Draft := #[{ position := ⟨0, 0⟩ }]
  current : Nat := 0
  accesses : List (Position × Nat) := []
  error : Option TextError := none
deriving Inhabited

structure Resolution where
  accesses : List (Position × Access)
  /-- The frame of the whole. -/
  outer : Frame
  /-- Frames of functions by their positions. -/
  frames : List (Position × Frame)
deriving Inhabited

abbrev Resolve := StateM State

/-- Only the first error counts. -/
def report (position : Position) (reason : ByteString) : Resolve Unit :=
  modify fun s => { s with error := s.error.or (some ⟨position, reason⟩) }

def block (i : Nat) : Resolve Block := do return (← get).blocks.getD i {}

def modifyBlock (i : Nat) (change : Block → Block) : Resolve Unit :=
  modify fun s => { s with blocks := s.blocks.modify i change }

def modifyDraft (i : Nat) (change : Draft → Draft) : Resolve Unit :=
  modify fun s => { s with drafts := s.drafts.modify i change }

def newBinding (b : Binding) : Resolve Nat :=
  modifyGet fun s => (s.bindings.size, { s with bindings := s.bindings.push b })

def binding (i : Nat) : Resolve Binding := do return (← get).bindings.getD i ⟨.undefined, 0⟩

/-- The block of the innermost function around a block, or the whole. -/
def container (blocks : Array Block) : Nat → Nat → Nat
  | 0, i => i
  | fuel + 1, i =>
    let b := blocks.getD i {}
    if i = 0 || b.frame.isSome then i else container blocks fuel b.parent

def currentContainer : Resolve Nat := do
  let s ← get
  return container s.blocks s.blocks.size s.current

def enter (frame : Option Nat) : Resolve Unit := do
  let s ← get
  let i := s.blocks.size
  modifyBlock s.current fun b => { b with children := b.children ++ [i] }
  modify fun s =>
    { s with blocks := s.blocks.push { parent := s.current, frame }, current := i }

def leave : Resolve Unit := do
  let b ← block (← get).current
  modify fun s => { s with current := b.parent }

def use (name : String) (position : Position) : Resolve Unit := do
  let here := (← get).current
  modifyBlock (← currentContainer) fun b => { b with uses := b.uses ++ [⟨name, position, here⟩] }

/-- Binds a name in the current block; the answer tells whether it was bound before. -/
def bind (name : String) (position : Position) : Resolve Bool := do
  let here := (← get).current
  let known := ((← block here).names.lookup name).isSome
  if !known then
    let frame := (← block (← currentContainer)).frame.getD 0
    let slots := ((← get).drafts.getD frame { position }).slots
    let b ← newBinding ⟨.slot, slots.length⟩
    modifyBlock here fun block => { block with names := (name, b) :: block.names }
    modifyDraft frame fun d => { d with slots := d.slots ++ [(name, b)] }
  use name position
  return known

/-! Looking names up. -/

def lookUpLocal (blocks : Array Block) (name : String) : Nat → Nat → Option Nat
  | 0, _ => none
  | fuel + 1, i =>
    let b := blocks.getD i {}
    match b.names.lookup name with
    | some found => some found
    | none => if i = 0 || b.frame.isSome then none else lookUpLocal blocks name fuel b.parent

def access (u : Use) (b : Nat) : Resolve Unit :=
  modify fun s => { s with accesses := (u.position, b) :: s.accesses }

def resolveOwn (i : Nat) : Resolve Unit := do
  let s ← get
  let uses := (← block i).uses
  let found (u : Use) := lookUpLocal s.blocks u.name s.blocks.size u.block
  for u in uses do
    match found u with
    | some b => access u b
    | none => pure ()
  modifyBlock i fun b => { b with uses := uses.filter fun u => (found u).isNone }

def visible (blocks : Array Block) : Nat → Nat → List String
  | 0, _ => []
  | fuel + 1, i =>
    let b := blocks.getD i {}
    b.names.map (·.1) ++ if i = 0 then [] else visible blocks fuel b.parent

/-- What a name stands for that no block binds. -/
def outermost (universal : List String) (u : Use) : Resolve Nat := do
  if u.name = given then newBinding ⟨.given, 0⟩
  else if universal.contains u.name then newBinding ⟨.universal, 0⟩
  else if u.name = "set" then
    report u.position "this Starlark dialect does not support sets"
    newBinding ⟨.universal, 0⟩
  else
    let s ← get
    let names := (visible s.blocks s.blocks.size u.block).mergeSort (fun a b => decide (a ≤ b))
    let hint := match Spelling.nearest? u.name names with
      | some other => " (did you mean " ++ other ++ "?)"
      | none => ""
    report u.position ("undefined: " ++ u.name ++ hint)
    newBinding ⟨.undefined, 0⟩

/-- The binding of a use by the blocks around it. A variable of an outer function moves to
a cell and is captured by the functions between. -/
def lookUp (universal : List String) (u : Use) : Nat → Nat → Resolve Nat
  | 0, _ => outermost universal u
  | fuel + 1, i => do
    if i = 0 then outermost universal u
    else
      let here ← block i
      match here.names.lookup u.name with
      | some b => return b
      | none =>
        let outer ← lookUp universal u fuel here.parent
        let place := (← binding outer).place
        let b ←
          match here.frame with
          | some frame =>
            if place = .slot || place = .cell || place = .captured then
              if place = .slot then
                modify fun s =>
                  { s with bindings := s.bindings.modify outer fun b => { b with place := .cell } }
              let taken := ((← get).drafts.getD frame { position := u.position }).captured
              modifyDraft frame fun d => { d with captured := d.captured ++ [(u.name, outer)] }
              newBinding ⟨.captured, taken.length⟩
            else pure outer
          | none => pure outer
        modifyBlock i fun block => { block with names := (u.name, b) :: block.names }
        return b

def resolveOthers (universal : List String) : Nat → Nat → Resolve Unit
  | 0, _ => pure ()
  | fuel + 1, i => do
    for child in (← block i).children do
      resolveOthers universal fuel child
    for u in (← block i).uses do
      let blocks := (← get).blocks.size
      access u (← lookUp universal u blocks u.block)

/-! Going through an expression. -/

structure ParameterState where
  optional : Bool := false
  /-- The place of the mark or the parameter that ends those by position. -/
  star : Option Position := none
  rest : Option (String × Position) := none
  restNamed : Option (String × Position) := none
  byName : Nat := 0

def bindParameter (name : String) (position blame : Position) : Resolve Unit := do
  if ← bind name position then report blame ("duplicate parameter: " ++ name)

def ordinary (p : ParameterState) (name : String) (position blame : Position) (isOptional : Bool) :
    Resolve ParameterState := do
  let kind := if isOptional then "optional" else "required"
  match p.restNamed with
  | some (rest, _) => report blame (kind ++ " parameter may not follow **" ++ rest)
  | none =>
    if p.star.isNone && p.optional && !isOptional then
      report blame "required parameter may not follow optional"
  bindParameter name position blame
  return { p with
    optional := p.optional || isOptional
    byName := if p.restNamed.isNone && p.star.isSome then p.byName + 1 else p.byName }

def star (p : ParameterState) (position : Position) (rest : Option (String × Position)) :
    Resolve ParameterState := do
  match p.restNamed with
  | some (name, _) =>
    report position ("* parameter may not follow **" ++ name)
    return p
  | none =>
    if p.star.isSome then
      report position "multiple * parameters not allowed"
      return p
    else return { p with star := some position, rest }

def visitParameter (p : ParameterState) : Parameter Expr → Resolve ParameterState
  | .required name position => ordinary p name position position false
  | .optional name position sign _ => ordinary p name position sign true
  | .bare position => star p position none
  | .rest position name place => star p position (some (name, place))
  | .restNamed position name place => do
    if p.restNamed.isSome then report position "multiple ** parameters not allowed"
    return { p with restNamed := some (name, place) }

def visitParameters (parameters : List (Parameter Expr)) : Resolve Unit := do
  let p ← parameters.foldlM visitParameter {}
  match p.rest, p.star with
  | some (name, position), _ => bindParameter name position position
  | none, some position =>
    if p.byName = 0 then
      report position "bare * must be followed by keyword-only parameters"
  | none, none => pure ()
  match p.restNamed with
  | some (name, position) => bindParameter name position position
  | none => pure ()

structure ArgumentState where
  spread : Bool := false
  spreadNamed : Bool := false
  names : List String := []
  positional : Nat := 0
  named : Nat := 0

def visitArgument (a : ArgumentState) (argument : Argument Expr) : Resolve ArgumentState := do
  let blame (reason : String) := report argument.start reason
  match argument with
  | .spreadNamed _ _ =>
    if a.spreadNamed then blame "multiple **kwargs not allowed"
    return { a with spreadNamed := true }
  | .spread _ _ =>
    if a.spreadNamed then blame "*args may not follow **kwargs"
    else if a.spread then blame "multiple *args not allowed"
    return { a with spread := true }
  | .named name position _ =>
    if a.spreadNamed then blame "keyword argument may not follow **kwargs"
    else if a.spread then blame "keyword argument may not follow *args"
    if a.names.contains name then
      report position ("keyword argument " ++ Text.quote name ++ " is repeated")
    return { a with names := name :: a.names, named := a.named + 1 }
  | .positional _ =>
    if a.spread then blame "positional argument may not follow *args"
    else if a.spreadNamed then blame "positional argument may not follow **kwargs"
    else if !a.names.isEmpty then blame "positional argument may not follow named"
    return { a with positional := a.positional + 1 }

def argumentLimit : Nat := 255

def checkCount (position : Position) (n : Nat) (kind : String) : Resolve Unit :=
  if argumentLimit < n then
    report position (Nat.repr n ++ " " ++ kind ++ " arguments in call, limit is 255")
  else pure ()

mutual

def visit : Expr → Resolve Unit
  | .name n p => use n p
  | .constant _ _ => pure ()
  | .group _ e => visit e
  | .list _ items => visitAll items
  | .tuple _ items => visitAll items
  | .dict _ entries => visitEntries entries
  | .unary _ _ e => visit e
  | .binary _ a b => do
    visit a
    visit b
  | .conditional c a b => do
    visit c
    visit a
    visit b
  | .field e _ => visit e
  | .index e k => do
    visit e
    visit k
  | .slice e a b c => do
    visit e
    visitOption a
    visitOption b
    visitOption c
  | .call f arguments => do
    visit f
    let a ← visitArguments {} arguments
    checkCount f.start a.positional "positional"
    checkCount f.start a.named "keyword"
  | .listOf _ body clauses => do
    visitClauses true clauses
    visit body
    leave
  | .dictOf _ k v clauses => do
    visitClauses true clauses
    visit k
    visit v
    leave
  | .lambda position parameters body => do
    visitDefaults parameters
    let frame := (← get).drafts.size
    modify fun s => { s with drafts := s.drafts.push { position } }
    enter (some frame)
    visitParameters parameters
    visit body
    resolveOwn (← get).current
    leave

def visitAll : List Expr → Resolve Unit
  | [] => pure ()
  | e :: rest => do
    visit e
    visitAll rest

def visitOption : Option Expr → Resolve Unit
  | none => pure ()
  | some e => visit e

def visitEntries : List (Expr × Expr) → Resolve Unit
  | [] => pure ()
  | (k, v) :: rest => do
    visit k
    visit v
    visitEntries rest

def visitArguments (a : ArgumentState) : List (Argument Expr) → Resolve ArgumentState
  | [] => return a
  | .positional e :: rest => do
    let a ← visitArgument a (.positional e)
    visit e
    visitArguments a rest
  | .named n p e :: rest => do
    let a ← visitArgument a (.named n p e)
    visit e
    visitArguments a rest
  | .spread p e :: rest => do
    let a ← visitArgument a (.spread p e)
    visit e
    visitArguments a rest
  | .spreadNamed p e :: rest => do
    let a ← visitArgument a (.spreadNamed p e)
    visit e
    visitArguments a rest

def visitDefaults : List (Parameter Expr) → Resolve Unit
  | [] => pure ()
  | .optional _ _ _ e :: rest => do
    visit e
    visitDefaults rest
  | .required _ _ :: rest | .bare _ :: rest | .rest _ _ _ :: rest | .restNamed _ _ _ :: rest =>
    visitDefaults rest

/-- The items of the first loop belong to the block outside. -/
def visitClauses (first : Bool) : List (Clause Expr) → Resolve Unit
  | [] => pure ()
  | .loop target items :: rest => do
    visit items
    if first then enter none
    visitTarget target
    visitClauses false rest
  | .condition test :: rest => do
    visit test
    visitClauses first rest

def visitTarget : Expr → Resolve Unit
  | .name n p => do
    let _ ← bind n p
  | .group _ e => visitTarget e
  | .list _ items => visitTargets items
  | .tuple _ items => visitTargets items
  | .index e k => do
    visit e
    visit k
  | .field e _ => visit e
  | .constant c p => unassignable (.constant c p)
  | .dict p entries => unassignable (.dict p entries)
  | .unary p op e => unassignable (.unary p op e)
  | .binary op a b => unassignable (.binary op a b)
  | .conditional c a b => unassignable (.conditional c a b)
  | .slice e a b c => unassignable (.slice e a b c)
  | .call f arguments => unassignable (.call f arguments)
  | .listOf p e clauses => unassignable (.listOf p e clauses)
  | .dictOf p k v clauses => unassignable (.dictOf p k v clauses)
  | .lambda p parameters e => unassignable (.lambda p parameters e)
where
  unassignable (e : Expr) : Resolve Unit := report e.start ("can't assign to " ++ e.form)

def visitTargets : List Expr → Resolve Unit
  | [] => pure ()
  | e :: rest => do
    visitTarget e
    visitTargets rest

end

/-! Results. -/

def accessOf (b : Binding) : Access :=
  match b.place with
  | .slot => .slot b.index
  | .cell => .cell b.index
  | .captured => .captured b.index
  | .given => .given
  | .universal | .undefined => .universal

def frameOf (bindings : Array Binding) (d : Draft) : Frame :=
  let bound (i : Nat) := bindings.getD i ⟨.undefined, 0⟩
  { slots := d.slots.map (·.1)
    cells := (d.slots.map fun (_, b) => bound b).filterMap fun b =>
      if b.place = .cell then some b.index else none
    captured := d.captured.map fun (name, b) =>
      (name, if (bound b).place = .captured then .captured (bound b).index else .cell (bound b).index) }

def resolve (universal : List String) (e : Expr) : Except TextError Resolution :=
  let s := (do
    visit e
    resolveOwn 0
    resolveOthers universal (← get).blocks.size 0 : Resolve Unit).run {} |>.2
  match s.error with
  | some error => .error error
  | none =>
    .ok {
      accesses := s.accesses.map fun (p, b) => (p, accessOf (s.bindings.getD b ⟨.undefined, 0⟩))
      outer := frameOf s.bindings (s.drafts.getD 0 { position := ⟨0, 0⟩ })
      frames := s.drafts.toList.map fun d => (d.position, frameOf s.bindings d) }

end Scope

end ScriptTree.Starlark
