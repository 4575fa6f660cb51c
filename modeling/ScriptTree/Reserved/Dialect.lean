import ScriptTree.Text.Quoted

/-!
Dialects: editions of the target language by number. A larger number is a newer
edition and zero stands for the newest.
-/

namespace ScriptTree

structure Dialect where
  number : Int
deriving DecidableEq, Inhabited

namespace Dialect

def es3 : Dialect := ⟨3⟩

def es5 : Dialect := ⟨5⟩

def es6 : Dialect := ⟨6⟩

/-- The newest edition, used wherever none is chosen. -/
def latest : Dialect := es6

def unset : Dialect := ⟨0⟩

def resolve (d : Dialect) : Dialect := if d = unset then latest else d

def shortName (d : Dialect) : String := "es" ++ Text.integer d.resolve.number

end Dialect

end ScriptTree
