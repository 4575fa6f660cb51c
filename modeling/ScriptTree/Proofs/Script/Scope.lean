import ScriptTree.Script.Node
import Mathlib.Data.Set.Function

/-!
Scopes of names. A function binds its parameters and, behind them, its own name; a name
stands for what the innermost function around it that binds the name makes of it, and a
name that no function binds is free. Resolving a script replaces each reference to a
bound name by a name for its binder and leaves a free one as it is.
-/

namespace ScriptTree

/-- The names that a function binds. -/
structure Frame where
  name : Option ByteString
  parameters : List ByteString
deriving DecidableEq, Inhabited

/-- What binds a name, seen from where the name is used: functions are counted outward
from the innermost one. -/
inductive Binder where
  | parameter (depth position : Nat)
  /-- The own name of a function. -/
  | itself (depth : Nat)
deriving DecidableEq, Inhabited

/-- Of several parameters with one name the last one counts. -/
def position? (name : ByteString) : List ByteString → Option Nat
  | [] => none
  | first :: rest =>
    match position? name rest with
    | some i => some (i + 1)
    | none => if first = name then some 0 else none

namespace Frame

def binder? (frame : Frame) (depth : Nat) (name : ByteString) : Option Binder :=
  match position? name frame.parameters with
  | some i => some (.parameter depth i)
  | none => if frame.name = some name then some (.itself depth) else none

def names (frame : Frame) : List ByteString := frame.name.toList ++ frame.parameters

def rename (f : ByteString → ByteString) (frame : Frame) : Frame :=
  ⟨frame.name.map f, frame.parameters.map f⟩

end Frame

/-- The functions around a place, innermost first. -/
abbrev Scope := List Frame

namespace Scope

def binderFrom? (name : ByteString) (depth : Nat) : Scope → Option Binder
  | [] => none
  | frame :: outer => (frame.binder? depth name).or (binderFrom? name (depth + 1) outer)

def binder? (scope : Scope) (name : ByteString) : Option Binder := binderFrom? name 0 scope

/-- The name that a name is resolved to, with `write` for the names of binders. -/
def resolve (scope : Scope) (write : Binder → ByteString) (name : ByteString) :
    ByteString :=
  match scope.binder? name with
  | some binder => write binder
  | none => name

end Scope

/-! A renaming that keeps names apart keeps their binders. -/

section Rename

variable {f : ByteString → ByteString} {apart : Set ByteString} {name : ByteString}

theorem position?_map (hinjective : Set.InjOn f apart) (hname : name ∈ apart)
    {names : List ByteString} (hnames : ∀ other ∈ names, other ∈ apart) :
    position? (f name) (names.map f) = position? name names := by
  induction names with
  | nil => rfl
  | cons first rest ih =>
      have hfirst : f first = f name ↔ first = name :=
        hinjective.eq_iff (hnames first (by simp)) hname
      rw [List.map_cons, position?, position?,
        ih fun other hother => hnames other (List.mem_cons_of_mem _ hother)]
      simp only [hfirst]

theorem Frame.binder?_rename (hinjective : Set.InjOn f apart) (hname : name ∈ apart)
    {frame : Frame} (hframe : ∀ other ∈ frame.names, other ∈ apart) (depth : Nat) :
    (frame.rename f).binder? depth (f name) = frame.binder? depth name := by
  have hparameters : position? (f name) (frame.rename f).parameters =
      position? name frame.parameters :=
    position?_map hinjective hname fun other hother =>
      hframe other (List.mem_append_right _ hother)
  have hself : (frame.rename f).name = some (f name) ↔ frame.name = some name := by
    rw [rename, Option.map_eq_some_iff]
    constructor
    · rintro ⟨own, hown, heq⟩
      have happart : own ∈ apart := hframe own (by simp [names, hown])
      rw [hown, hinjective happart hname heq]
    · intro hown
      exact ⟨name, hown, rfl⟩
  simp only [binder?, hparameters, hself]

theorem Scope.binder?_rename (hinjective : Set.InjOn f apart) (hname : name ∈ apart)
    {scope : Scope} (hscope : ∀ frame ∈ scope, ∀ other ∈ frame.names, other ∈ apart) :
    binder? (scope.map (Frame.rename f)) (f name) = scope.binder? name := by
  unfold binder?
  generalize 0 = depth
  induction scope generalizing depth with
  | nil => rfl
  | cons frame outer ih =>
      rw [List.map_cons, binderFrom?, binderFrom?,
        Frame.binder?_rename hinjective hname (hscope frame (by simp)),
        ih fun other hother => hscope other (List.mem_cons_of_mem _ hother)]

/-- A renamed name resolves to the renamed name of its binder. -/
theorem Scope.resolve_rename (hinjective : Set.InjOn f apart) (hname : name ∈ apart)
    {scope : Scope} (hscope : ∀ frame ∈ scope, ∀ other ∈ frame.names, other ∈ apart)
    (write : Binder → ByteString) :
    resolve (scope.map (Frame.rename f)) (f ∘ write) (f name) =
      f (scope.resolve write name) := by
  unfold resolve
  rw [binder?_rename hinjective hname hscope]
  cases scope.binder? name <;> rfl

end Rename

namespace Node

mutual

def names : Node → List ByteString
  | reference name => [name]
  | operation _ operands => namesOfAll operands
  | function name parameters body => name :: parameters.map (·.name) ++ names body
  | missing _ | boolean _ | number _ | unrecognized _ _ => []

def namesOfAll : List Node → List ByteString
  | [] => []
  | n :: rest => names n ++ namesOfAll rest

end

theorem mem_namesOfAll {operands : List Node} {n : Node} {name : ByteString}
    (hn : n ∈ operands) (hname : name ∈ n.names) : name ∈ namesOfAll operands := by
  induction operands with
  | nil => cases hn
  | cons first rest ih =>
      rw [namesOfAll, List.mem_append]
      rcases List.mem_cons.mp hn with rfl | hn
      · exact .inl hname
      · exact .inr (ih hn)

mutual

/-- The script with each bound reference replaced by a name for its binder. -/
def resolve (write : Binder → ByteString) (scope : Scope) : Node → Node
  | reference name => reference (scope.resolve write name)
  | operation op operands => operation op (resolveAll write scope operands)
  | function name parameters body =>
    function name parameters
      (resolve write (⟨some name, parameters.map (·.name)⟩ :: scope) body)
  | missing expected => missing expected
  | boolean value => boolean value
  | number value => number value
  | unrecognized tag raw => unrecognized tag raw

def resolveAll (write : Binder → ByteString) (scope : Scope) : List Node → List Node
  | [] => []
  | n :: rest => resolve write scope n :: resolveAll write scope rest

end

theorem length_resolveAll (write : Binder → ByteString) (scope : Scope)
    (operands : List Node) :
    (resolveAll write scope operands).length = operands.length := by
  induction operands with
  | nil => rfl
  | cons n rest ih => rw [resolveAll, List.length_cons, ih, List.length_cons]

end Node

end ScriptTree
