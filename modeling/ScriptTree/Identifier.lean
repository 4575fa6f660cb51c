import ScriptTree.Reserved.Catalogue
import ScriptTree.Text.ByteString

/-!
Identifiers kept clear of reserved words: a name that is reserved is replaced, any
other name stays as it is.
-/

namespace ScriptTree.Identifier

open Reserved (Catalogue)

inductive Reconciler where
  | before (affix : ByteString)
  | after (affix : ByteString)
  | unchanged
  /-- A rule that may fail, with a message, on some names. -/
  | computed (rule : ByteString → Except ByteString ByteString)
deriving Inhabited

namespace Reconciler

def underscoreMark : ByteString := "_"

/-- The way used where none is chosen or where a rule fails. -/
def underscore : Reconciler := before underscoreMark

def apply : Reconciler → ByteString → ByteString
  | before affix, name => affix ++ name
  | after affix, name => name ++ affix
  | unchanged, name => name
  | computed rule, name =>
    match rule name with
    | .ok replacement => replacement
    | .error _ => underscoreMark ++ name

def failure? : Reconciler → ByteString → Option ByteString
  | computed rule, name =>
    match rule name with
    | .ok _ => none
    | .error message => some message
  | before _, _ | after _, _ | unchanged, _ => none

end Reconciler

inductive Table where
  | editions (catalogue : Catalogue)
  /-- Exactly these words, whatever the dialect and the mode. -/
  | words (list : List String)
  /-- Any rule on names, dialects and modes. -/
  | computed (rule : ByteString → Dialect → Bool → Bool)
deriving Inhabited

namespace Table

def standard : Table := editions .builtin

/-- A malformed name is no word. -/
def reserves : Table → ByteString → Dialect → Bool → Bool
  | editions c, name, d, strict => name.text?.any (c.reserves · d strict)
  | words list, name, _, _ => name.text?.any list.contains
  | computed rule, name, d, strict => rule name d strict

end Table

structure Options where
  reconcile : Option Reconciler := none
  dialect : Dialect := .unset
  strict : Bool := false
  table : Option Table := none
deriving Inhabited

namespace Options

/-- An underscore in front, the newest dialect, strict mode words included. -/
def standard : Options := ⟨some .underscore, .latest, true, some .standard⟩

def isUnset (o : Options) : Bool :=
  o.reconcile.isNone && o.dialect == .unset && !o.strict && o.table.isNone

def orStandard (o : Options) : Options := if o.isUnset then standard else o

def reserves (o : Options) (name : ByteString) : Bool :=
  (o.table.getD .standard).reserves name o.dialect.resolve o.strict

/-- The name under which a name is emitted. -/
def sanitize (o : Options) (name : ByteString) : ByteString :=
  if o.reserves name then (o.reconcile.getD .underscore).apply name else name

def failure? (o : Options) (name : ByteString) : Option ByteString :=
  if o.reserves name then (o.reconcile.getD .underscore).failure? name else none

end Options

end ScriptTree.Identifier
