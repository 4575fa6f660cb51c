import ScriptTree.Yaml.Cursor

/-!
The tokens of a YAML text.
-/

namespace ScriptTree.Yaml

inductive Style where
  | plain
  | singleQuoted
  | doubleQuoted
  | block
deriving DecidableEq, Inhabited

inductive Lexeme where
  | streamEnd
  | versionDirective (major minor : Nat)
  | tagDirective (handle target : String)
  | documentStart
  | documentEnd
  | blockSequenceStart
  | blockMappingStart
  | blockEnd
  | flowSequenceStart
  | flowSequenceEnd
  | flowMappingStart
  | flowMappingEnd
  | blockEntry
  | flowEntry
  | key
  | value
  | link (name : String)
  | anchor (name : String)
  | tag (handle suffix : String)
  | scalar (text : String) (style : Style)
deriving DecidableEq, Inhabited

structure Token where
  lexeme : Lexeme
  line : Nat
deriving DecidableEq, Inhabited

end ScriptTree.Yaml
