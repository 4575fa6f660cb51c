import ScriptTree.Text.Quoted

/-!
Ways to show results.
-/

namespace ScriptTree.Render

inductive Mode where
  /-- Text on a terminal and markdown elsewhere. -/
  | auto
  | text
  | markdown
  | json
  /-- A name that stands for no way. -/
  | other (name : String)
deriving DecidableEq, Inhabited

namespace Mode

def name : Mode → String
  | auto => "auto"
  | text => "text"
  | markdown => "markdown"
  | json => "json"
  | other name => name

/-- No name stands for the automatic choice. -/
def ofName (name : String) : Mode :=
  match name with
  | "" | "auto" => auto
  | "text" => text
  | "markdown" => markdown
  | "json" => json
  | name => other name

def isKnown : Mode → Bool
  | other _ => false
  | _ => true

def resolve (m : Mode) (terminal : Bool) : Mode :=
  match m with
  | auto => if terminal then text else markdown
  | m => m

end Mode

end ScriptTree.Render
