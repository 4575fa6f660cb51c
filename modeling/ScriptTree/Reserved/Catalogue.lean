import ScriptTree.Reserved.Edition
import ScriptTree.Text.Casing
import ScriptTree.Text.Lines

/-!
The catalogue of registered editions. Editions stand on a shelf and the two
indexes, by dialect and by name, hold their places; an edition that changes on the
shelf is seen through both. The last registration under a key wins.
-/

namespace ScriptTree.Reserved

def assign [DecidableEq κ] (key : κ) (value : ν) : List (κ × ν) → List (κ × ν)
  | [] => [(key, value)]
  | (k, v) :: rest => if k = key then (key, value) :: rest else (k, v) :: assign key value rest

structure Catalogue where
  shelf : List Edition
  byDialect : List (Dialect × Nat)
  byName : List (String × Nat)
deriving Inhabited

namespace Catalogue

def empty : Catalogue := ⟨[], [], []⟩

/-- Puts an edition at the end of the shelf; its place is the former length. -/
def place (c : Catalogue) (e : Edition) : Catalogue := { c with shelf := c.shelf ++ [e] }

def modify (c : Catalogue) (place : Nat) (change : Edition → Edition) : Catalogue :=
  { c with shelf := c.shelf.modify place change }

def keys (e : Edition) : List String := (e.name :: e.aliases).map Text.lower

def register (c : Catalogue) (place : Nat) : Catalogue :=
  match c.shelf[place]? with
  | none => c
  | some e =>
    { c with
      byDialect := assign e.dialect place c.byDialect
      byName := (keys e).foldl (fun index key => assign key place index) c.byName }

def add (c : Catalogue) (e : Edition) : Catalogue := (c.place e).register c.shelf.length

def builtin : Catalogue := ((empty.add editionES3).add editionES5).add editionES6

def get? (c : Catalogue) (d : Dialect) : Option Edition := do
  let place ← c.byDialect.lookup d
  c.shelf[place]?

/-- The edition with a name or an alias that has the same lower-case form. -/
def lookup? (c : Catalogue) (name : String) : Option Edition := do
  let place ← c.byName.lookup (Text.lower name)
  c.shelf[place]?

def list (c : Catalogue) : List Edition :=
  (c.byDialect.filterMap (fun entry => c.shelf[entry.2]?)).mergeSort
    (fun a b => decide (a.dialect.number ≤ b.dialect.number))

def names (c : Catalogue) : List String := c.list.map (·.name)

/-- Whether a word is reserved in a dialect. A dialect without an edition is
answered by the newest one. -/
def reserves (c : Catalogue) (word : String) (d : Dialect) (strict : Bool) : Bool :=
  match c.get? d.resolve with
  | some e => e.reserves word strict
  | none =>
    match c.get? .latest with
    | some e => e.reserves word strict
    | none => false

end Catalogue

structure UnknownDialect where
  text : String
  known : List String
deriving DecidableEq

namespace UnknownDialect

def message (e : UnknownDialect) : String :=
  "unknown ECMAScript dialect " ++ Text.quote e.text ++
    " (known: " ++ String.intercalate ", " e.known ++ ")"

end UnknownDialect

/-- Reads a dialect by a name of its edition; an empty text is the newest. -/
def Catalogue.parseDialect (c : Catalogue) (text : String) : Except UnknownDialect Dialect :=
  let name := Text.lower (Text.trim text)
  if name = "" then .ok .latest
  else
    match c.lookup? name with
    | some e => .ok e.dialect
    | none => .error ⟨text, c.names⟩

end ScriptTree.Reserved
