import ScriptTree.Text.ByteString
import ScriptTree.Text.Casing
import ScriptTree.Text.Distance

/-!
The nearest of several names to a name that may be misspelled.
-/

namespace ScriptTree.Starlark.Spelling

/-- Case and underscores do not count. -/
def fold (s : ByteString) : ByteString :=
  Text.ofChars (((Text.chars s).filter (· ≠ '_')).map Text.lowerChar)

/-- The nearest candidate, unless half of the name would have to change. -/
def nearest? (name : ByteString) (candidates : List String) : Option String :=
  let folded := fold name
  (candidates.foldl (fun (best : Option String × Nat) (c : String) =>
    let d := Text.distance folded (fold c)
    if d < best.2 then (some c, d) else best) (none, (folded.length + 1) / 2)).1

end ScriptTree.Starlark.Spelling
