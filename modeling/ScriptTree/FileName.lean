import ScriptTree.Text.Lines

/-!
Paths of files as texts, whatever there is at them.
-/

namespace ScriptTree

namespace FileName

/-- Segments without empty ones, single dots, and steps up that earlier segments undo. -/
def reduceSegments (rooted : Bool) : List String → List String → List String
  | done, [] => done.reverse
  | done, s :: rest =>
    if s = "" || s = "." then reduceSegments rooted done rest
    else if s = ".." then
      match done with
      | [] => reduceSegments rooted (if rooted then [] else [s]) rest
      | d :: before =>
        if d = ".." then reduceSegments rooted (s :: done) rest
        else reduceSegments rooted before rest
    else reduceSegments rooted (s :: done) rest

def isAbsolute (path : String) : Bool := Text.startsWith "/" path

def clean (path : String) : String :=
  let rooted := isAbsolute path
  let body := String.intercalate "/" (reduceSegments rooted [] (Text.splitOn '/' path))
  if rooted then "/" ++ body else if body = "" then "." else body

def join (directory path : String) : String :=
  if directory = "" then clean path else clean (directory ++ "/" ++ path)

def parent (path : String) : String :=
  let upTo := path.toList.reverse.dropWhile (· ≠ '/')
  clean (String.ofList upTo.reverse)

def extension (path : String) : String :=
  let back := path.toList.reverse.takeWhile (· ≠ '/')
  if back.contains '.' then String.ofList (back.takeWhile (· ≠ '.') ++ ['.']).reverse else ""

def ancestors : Nat → String → List String
  | 0, _ => []
  | steps + 1, path =>
    let up := parent path
    if up = path then [] else up :: ancestors steps up

end FileName

end ScriptTree
