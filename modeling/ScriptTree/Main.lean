import ScriptTree.Cli

/-!
The program. It collects what a run sees of the machine, runs, and prints. Watching and
serving are started and ended at once: waiting belongs to whoever embeds the library.
-/

namespace ScriptTree.Cli

def entryAt (path : String) : IO (Option Entry) := do
  if ← ((← IO.currentDir) / path).isDir then return some .directory
  try
    return some (.file (← IO.FS.readBinFile path).toList)
  catch _ => return none

def pathsOf (directory : String) (arguments : List String) : List String :=
  let values := arguments.map fun a => String.ofList ((a.toList.dropWhile (· ≠ '=')).drop 1)
  let named := (arguments ++ values).filter (· ≠ "")
  let files := named.map fun name => (Disk.mk directory []).absolute name
  let all := files ++ Settings.candidates Settings.searchLevels directory
  (all ++ all.flatMap fun path => FileName.ancestors path.length path).eraseDups

def readDisk (arguments : List String) : IO Disk := do
  let current := (← IO.currentDir).toString
  let found ← (pathsOf current arguments).filterMapM fun path => do
    return (← entryAt path).map fun entry => (path, entry)
  return ⟨current, found⟩

def readEnvironment : IO (List (String × String)) :=
  (descriptionsVariables .root ++ Settings.variableNames).filterMapM fun name => do
    return (← IO.getEnv name).map fun value => (name, value)

/-- Everything that is left in standard input. -/
partial def readInput (input : IO.FS.Stream) (done : ByteArray) : IO ByteArray := do
  let part ← input.read 65536
  if part.isEmpty then return done else readInput input (done ++ part)

def readHost (arguments : List String) : IO Host := do
  let input ←
    if readsInput arguments then readInput (← IO.getStdin) ByteArray.empty else pure .empty
  let now ← IO.monoMsNow
  return {
    disk := ← readDisk arguments
    environment := ← readEnvironment
    input := input.toList
    terminal := ← (← IO.getStdout).isTty
    clock := (Duration.mk (now * Nat.pow 10 6)).text
    elapsed := Duration.zero.text
    toolchain := "lean" }

end ScriptTree.Cli

def main (arguments : List String) : IO UInt32 := do
  let outcome := ScriptTree.Cli.run (← ScriptTree.Cli.readHost arguments) arguments
  IO.print outcome.console.out
  IO.eprint outcome.console.err
  match outcome.failure with
  | none => return 0
  | some message =>
    IO.eprintln ("Error: " ++ message)
    return 1
