import ScriptTree.Js.Term
import ScriptTree.Number

/-!
Smaller trees of the same meaning: constants are computed, chains of one logical
operator group to the left, constants stand on the right of an equality, and names that
nothing uses are dropped. Names of parameters and of inner functions become free to choose,
and what is used how often is kept account of.
-/

namespace ScriptTree.Js

structure Usage where
  /-- The places of declared names, once for each declaration. -/
  declared : List Nat := []
  /-- Uses of names that are free to choose. -/
  uses : List (Nat × String) := []
  /-- Uses of names that the text itself gives to the world. -/
  outer : List String := []
  /-- Names that the text takes from the world. -/
  free : List String := []
deriving DecidableEq, Inhabited

namespace Term

/-! Constants. -/

def isConstant : Term → Bool
  | boolean _ | number _ | null | undefined => true
  | _ => false

/-- The truth of a term that is the same in every run, and whether the term can be
dropped when its truth is known. -/
def constantTruth : Term → Option (Bool × Bool)
  | boolean b => some (b, true)
  | number x => some (!x.isZero && !x.isNaN, true)
  | null | undefined => some (false, true)
  | function _ _ _ _ => some (true, true)
  | unary "!" e => (constantTruth e).map fun (b, pure) => (!b, pure)
  | binary .or _ e =>
    match constantTruth e with
    | some (true, _) => some (true, false)
    | _ => none
  | binary .and _ e =>
    match constantTruth e with
    | some (false, _) => some (false, false)
    | _ => none
  | _ => none

def isAlways (truth : Bool) (e : Term) : Bool := (constantTruth e).any fun known => known.1 = truth

def constantNumber? : Term → Option Number
  | number x => some x
  | boolean b => some (.ofNat b.toNat)
  | null => some .zero
  | undefined => some .nan
  | _ => none

def constantEqual : Term → Term → Option Bool
  | boolean a, boolean b => some (a == b)
  | number a, number b => some (a.equals b)
  | boolean a, number b | number b, boolean a => some (b.equals (.ofNat a.toNat))
  | null, null | undefined, undefined | null, undefined | undefined, null => some true
  | null, boolean _ | null, number _ | undefined, boolean _ | undefined, number _ => some false
  | boolean _, null | number _, null | boolean _, undefined | number _, undefined => some false
  | _, _ => none

def isTruthValue : Term → Bool
  | boolean _ => true
  | unary "!" _ => true
  | binary .equal _ _ => true
  | binary (.other _ level) _ _ => level = 6 || level = 7
  | binary .or a b | binary .and a b => isTruthValue a && isTruthValue b
  | _ => false

/-! Operators. -/

/-- Moves a chain of one operator on the right over to the left. -/
def chain (op : Infix) (left : Term) : Term → Term
  | binary op' a b =>
    if op' = op then chain op (chain op left a) b else binary op left (binary op' a b)
  | right => binary op left right

def logical (op : Infix) (left right : Term) : Term :=
  match constantTruth left with
  | some (truth, pure) =>
    if truth = decide (op = .or) then left
    else if pure then right
    else chain op left right
  | none => chain op left right

def negate : Term → Term
  | boolean b => boolean !b
  | number x => boolean (x.isZero || x.isNaN)
  | null | undefined => boolean true
  | function _ _ _ _ => boolean false
  | unary "!" e => if isTruthValue e then e else unary "!" (unary "!" e)
  | binary .equal a b => binary (.other "!=" 6) a b
  | binary (.other "!=" _) a b => binary .equal a b
  | binary (.other "===" n) a b => binary (.other "!==" n) a b
  | binary (.other "!==" n) a b => binary (.other "===" n) a b
  | e => unary "!" e

/-- An equality whose constant, if it has one, stands on the right. -/
def orderedEquality (left right : Term) : Term :=
  match constantEqual left right, right with
  | some b, _ => boolean b
  | none, undefined => binary .equal left null
  | none, boolean b =>
    if isTruthValue left then (if b then left else negate left) else binary .equal left right
  | none, right => binary .equal left right

def equality (left right : Term) : Term :=
  if isConstant left && !isConstant right then orderedEquality right left
  else orderedEquality left right

/-- Whether a number is an integer whose magnitude fits a word of 32 bits. -/
def isSmallInteger (x : Number) : Bool :=
  let d := x.toFloat
  d == d.floor && d.abs ≤ 4294967295

/-- A sum or a quotient. Sums of small integers and quotients by zero are always computed,
and others only where constants are. -/
def arithmetic (folds : Bool) (op : Infix) (left right : Term) : Term :=
  match op, left, right with
  | .add, number a, number b =>
    if folds || (isSmallInteger a && isSmallInteger b) then number (a + b)
    else binary op left right
  | .other "/" _, number a, number b =>
    if folds || b.isZero then number (a / b) else binary op left right
  | op, left, right => binary op left right

def prefixed (op : String) (e : Term) : Term :=
  match op, constantNumber? e with
  | "!", _ => negate e
  | "-", some x => number (.ofFloat (-x.toFloat))
  | "+", some x => number x
  | "void", _ => if isConstant e then undefined else unary op e
  | op, _ => unary op e

/-! Names. -/

structure Scope where
  /-- Names with their places; a name that the text gives to the world has none. -/
  names : List (String × Option Nat) := []
  taken : Nat := 0
  /-- Whether what is looked at never runs. -/
  dead : Bool := false
  folds : Bool := false

namespace Scope

def bind (scope : Scope) (name : String) : Scope :=
  { scope with names := (name, some scope.taken) :: scope.names, taken := scope.taken + 1 }

def bindName (scope : Scope) : Name → Scope
  | .text name => scope.bind name
  | .slot _ => scope

def placed (scope : Scope) : Name → Name
  | .text name =>
    match scope.names.lookup name with
    | some (some i) => .slot i
    | _ => .text name
  | .slot i => .slot i

end Scope

abbrev Count := StateM Usage

def declare : Name → Count Unit
  | .slot i => modify fun u => { u with declared := i :: u.declared }
  | .text _ => pure ()

def lookUp (scope : Scope) (name : String) : Count Term := do
  match scope.names.lookup name with
  | some (some i) =>
    if !scope.dead then modify fun u => { u with uses := (i, name) :: u.uses }
    return reference (.slot i)
  | some none =>
    if !scope.dead then modify fun u => { u with outer := name :: u.outer }
    return reference (.text name)
  | none =>
    modify fun u => { u with free := name :: u.free }
    match name with
    | "undefined" => return undefined
    | "NaN" => return number .nan
    | "Infinity" => return number (.infinity false)
    | name => return reference (.text name)

/-- The scope of the body of a function: first its name, then its parameters. -/
def inner (scope : Scope) (name : Option Name) (parameters : List Name) : Scope :=
  let named := match name with
    | some n => scope.bindName n
    | none => scope
  (parameters.eraseDups).foldl Scope.bindName named

def declaredBy (body : List Statement) : List Name :=
  body.filterMap fun s =>
    match s with
    | .declare name _ _ => some name
    | .give _ | .evaluate _ => none

mutual

def simplify (scope : Scope) : Term → Count Term
  | reference (.text n) => lookUp scope n
  | unary op e => do return prefixed op (← simplify scope e)
  | binary .or a b => do
    let a ← simplify scope a
    let b ← simplify { scope with dead := scope.dead || isAlways true a } b
    return logical .or a b
  | binary .and a b => do
    let a ← simplify scope a
    let b ← simplify { scope with dead := scope.dead || isAlways false a } b
    return logical .and a b
  | binary .equal a b => do
    let a ← simplify scope a
    let b ← simplify scope b
    return equality a b
  | binary op a b => do
    let a ← simplify scope a
    let b ← simplify scope b
    return arithmetic scope.folds op a b
  | assign a b => do
    let a ← simplify scope a
    let b ← simplify scope b
    return assign a b
  | member e n => do return member (← simplify scope e) n
  | call f values => do
    let f ← simplify scope f
    let values ← simplifyAll scope values
    return call f values
  | function grouped own parameters body => do
    let place := scope.taken
    let inside := inner scope own parameters
    let placed := parameters.map inside.placed
    if own.isSome then declare (.slot place)
    placed.forM declare
    let before := (← get).uses.length
    let body ← simplifyBody inside body
    let uses := (← get).uses
    let made := uses.take (uses.length - before)
    let isUsed := own.isSome && made.any fun use => use.1 = place
    return function grouped (if isUsed then some (.slot place) else none) placed body
  | e => return e

def simplifyAll (scope : Scope) : List Term → Count (List Term)
  | [] => return []
  | e :: rest => do
    let e ← simplify scope e
    let rest ← simplifyAll scope rest
    return e :: rest

/-- Nothing runs after a statement that returns, and the last one may be left out if it
returns nothing. -/
def simplifyBody (scope : Scope) : List Statement → Count (List Statement)
  | [] => return []
  | .give none :: _ => return []
  | .give (some e) :: _ => do
    match ← simplify scope e with
    | undefined => return []
    | e => return [.give (some e)]
  | .evaluate e :: rest => do
    let e ← simplify scope e
    let rest ← simplifyBody scope rest
    return .evaluate e :: rest
  | .declare name parameters body :: rest => do
    let inside := inner scope none parameters
    let placed := parameters.map inside.placed
    placed.forM declare
    let body ← simplifyBody inside body
    let rest ← simplifyBody scope rest
    return .declare (scope.placed name) placed body :: rest

end

end Term

namespace Code

def given (c : Code) : List String :=
  (Term.declaredBy c.statements).filterMap fun n =>
    match n with
    | .text name => some name
    | .slot _ => none

def simplify (c : Code) : Code × Usage :=
  let scope : Term.Scope := { names := c.given.map fun n => (n, none) }
  (do
    let value ← c.value.mapM (Term.simplify { scope with folds := true })
    let statements ← Term.simplifyBody scope c.statements
    return ⟨value, statements⟩ : Term.Count Code).run {}

end Code

end ScriptTree.Js
