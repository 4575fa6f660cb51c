import ScriptTree.Cli.Command
import ScriptTree.Cli.Help

/-!
Answers to a shell that completes a line: words that can stand at the end of it, and
whether names of files can stand there too.
-/

namespace ScriptTree.Cli

structure Choice where
  word : String
  note : Option String := none
deriving DecidableEq, Inhabited

namespace Choice

def line (described : Bool) (c : Choice) : String :=
  match c.note with
  | some note => if described then c.word ++ "\t" ++ note else c.word
  | none => c.word

end Choice

structure Completion where
  choices : List Choice := []
  /-- Whether names of files can be chosen as well. -/
  files : Bool := true
deriving DecidableEq, Inhabited

namespace Completion

def directive (c : Completion) : String × String :=
  if c.files then ("0", "ShellCompDirectiveDefault") else ("4", "ShellCompDirectiveNoFileComp")

/-- The part of a line that is completed: the value of a flag, or a word of its own. -/
structure Target where
  flag : Option Flag := none
  earlier : List String
  word : String
  /-- Whether the word follows a flag that does not exist. -/
  stray : Bool := false

/-- The name of a flag in an argument without a value, the last one of a cluster. -/
def nameIn (argument : String) : String :=
  match argument.toList with
  | '-' :: '-' :: body => String.ofList body
  | cs => String.ofList (cs.getLast?.toList)

def flagNamed? (flags : List Flag) (name : String) : Option Flag :=
  match name.toList with
  | [c] => Flag.shortNamed? flags c
  | _ => Flag.named? flags name

def mayLead (argument : String) : Bool :=
  (match argument.toList with
    | '-' :: '-' :: _ :: _ => true
    | '-' :: c :: _ => c ≠ '-'
    | _ => false) && !argument.toList.contains '='

namespace Target

def afterArguments (flags : List Flag) (earlier : List String) (typed word : String) (attached : Bool) :
    Target :=
  match earlier.getLast? with
  | none => { earlier, word }
  | some last =>
    if !mayLead last then { earlier, word }
    else
      match flagNamed? flags (nameIn last) with
      | none => { earlier, word := typed, stray := true }
      | some f =>
        if f.isSwitch && !attached then { earlier, word }
        else { flag := some f, earlier := earlier.dropLast, word }

def ofLine (flags : List Flag) (earlier : List String) (typed : String) : Target :=
  if !Text.startsWith "-" typed then afterArguments flags earlier typed typed false
  else if !typed.toList.contains '=' then { earlier, word := typed }
  else
    let before := String.ofList (typed.toList.takeWhile (· ≠ '='))
    let word := String.ofList ((typed.toList.dropWhile (· ≠ '=')).drop 1)
    let name := nameIn before
    if name = "" then afterArguments flags earlier typed word true
    else
      match flagNamed? flags name with
      | none => { earlier, word := typed, stray := true }
      | some f => { flag := some f, earlier, word }

end Target

def valuesOf (f : Flag) : List String :=
  match f.name with
  | "dialect" => Reserved.Catalogue.builtin.names
  | "reconcile" => ["prefix", "suffix", "starlark"]
  | "output" => ["auto", "text", "markdown", "json"]
  | "emit" => ["js", "ast"]
  | _ => []

/-- Values are suggested whatever has been typed of them. -/
def ofFlag (f : Flag) : Completion :=
  let values := valuesOf f
  ⟨values.map fun v => { word := v }, values.isEmpty⟩

def namesOf (word : String) (f : Flag) : List Choice :=
  (("--" ++ f.name) :: (f.short.map fun c => "-" ++ String.singleton c).toList).filterMap
    fun name => if Text.startsWith word name then some ⟨name, some f.usage⟩ else none

def ofFlagNames (top c : Command) (given : Arguments) (word : String) : Completion :=
  let offered := Flag.sort (Command.inheritedFlags top c) ++ Flag.sort (c.ownFlags ++ c.standardFlags)
  ⟨(offered.filter fun f => (given.value? f.name).isNone).flatMap (namesOf word), false⟩

def ofCommands (commands : List Command) (word : String) : List Choice :=
  (Command.sort commands).filterMap fun c =>
    if Text.startsWith word c.name then some ⟨c.name, some c.summary⟩ else none

def ofArgument (top c : Command) (others : List String) (word : String) : Completion :=
  let below := if c = top && others.isEmpty then Command.children top else []
  if !c.choices.isEmpty then
    if others.isEmpty then
      ⟨(c.choices.filter (Text.startsWith word)).map fun w => { word := w }, false⟩
    else {}
  else if c = .help then
    match Command.find top others with
    | .ok (found, _) =>
      ⟨ofCommands (if found = top then Command.children top else []) word, false⟩
    | .error _ => ⟨[], false⟩
  else ⟨ofCommands below word, below.isEmpty⟩

def ofCommand (top c : Command) (earlier : List String) (typed : String) : Completion :=
  let flags := Command.flags top c
  let target := Target.ofLine flags earlier typed
  match Arguments.parse flags target.earlier with
  | .error _ => {}
  | .ok given =>
    if target.stray && !given.ended then {}
    else if (given.value? "help").isSome || (given.value? "version").isSome then ⟨[], false⟩
    else
      match target.flag with
      | some f => if given.ended then {} else ofFlag f
      | none =>
        if Text.startsWith "-" target.word && !target.word.toList.contains '=' && !given.ended then
          ofFlagNames top c given target.word
        else ofArgument top c given.rest target.word

def ofLine (top : Command) (line : List String) : Completion :=
  match line.getLast? with
  | none => {}
  | some typed =>
    match Command.find top line.dropLast with
    | .ok (c, earlier) => ofCommand top c earlier typed
    | .error _ => {}

end Completion

end ScriptTree.Cli
