/-!
Classes of characters, given in one of two ways: by the boundaries at which membership
changes, or by runs of characters at a constant distance.
-/

namespace ScriptTree.Text

/-- Whether a character belongs to the class with these boundaries in increasing order:
an odd number of them are at or below it. -/
def isBetween (boundaries : List Nat) (c : Char) : Bool :=
  (boundaries.takeWhile (· ≤ c.toNat)).length % 2 = 1

/-- Every `stride`-th character from `first` to `last`. -/
structure CharRun where
  first : Nat
  last : Nat
  stride : Nat := 1
deriving DecidableEq, Inhabited

namespace CharRun

def covers (run : CharRun) (n : Nat) : Bool :=
  run.first ≤ n && n ≤ run.last && (n - run.first) % run.stride = 0

end CharRun

def isCovered (runs : List CharRun) (c : Char) : Bool := runs.any (·.covers c.toNat)

end ScriptTree.Text
