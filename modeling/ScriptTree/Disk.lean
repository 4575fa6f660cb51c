import ScriptTree.FileName
import ScriptTree.Text.Bytes

/-!
Files and directories by their paths, with a directory that relative paths start from.
-/

namespace ScriptTree

inductive Entry where
  | file (bytes : List UInt8)
  | directory
deriving DecidableEq, Inhabited

structure Disk where
  /-- The directory that relative paths start from. -/
  current : String
  /-- Entries by their absolute paths. -/
  entries : List (String × Entry)
deriving Inhabited

inductive ReadError where
  | missing
  | notDirectory
  | isDirectory
deriving DecidableEq, Inhabited

namespace ReadError

/-- What went wrong, whatever the path. -/
def reason : ReadError → String
  | missing => "no such file or directory"
  | notDirectory => "not a directory"
  | isDirectory => "is a directory"

/-- A directory can be opened and only fails to be read. -/
def message (e : ReadError) (path : String) : String :=
  (match e with
    | isDirectory => "read "
    | _ => "open ") ++ path ++ ": " ++ e.reason

end ReadError

namespace Disk

def absolute (d : Disk) (path : String) : String :=
  if FileName.isAbsolute path then FileName.clean path else FileName.join d.current path

/-- Follows segments from a place; all but the last have to lead to directories. -/
def follow (d : Disk) (place : String) : List String → Except ReadError Entry
  | [] =>
    match d.entries.lookup place with
    | some e => .ok e
    | none => .error .missing
  | segment :: rest =>
    match d.entries.lookup place with
    | none => .error .missing
    | some (.file _) => .error .notDirectory
    | some .directory =>
      if segment = "" || segment = "." then d.follow place rest
      else if segment = ".." then d.follow (FileName.parent place) rest
      else d.follow (FileName.join place segment) rest

def lookup (d : Disk) (path : String) : Except ReadError Entry :=
  if path = "" then .error .missing
  else d.follow (if FileName.isAbsolute path then "/" else d.current) (Text.splitOn '/' path)

def exists? (d : Disk) (path : String) : Bool := (d.lookup path).isOk

def read (d : Disk) (path : String) : Except ReadError (List UInt8) :=
  match d.lookup path with
  | .ok (.file bytes) => .ok bytes
  | .ok .directory => .error .isDirectory
  | .error e => .error e

def below (root current : String) (files : List (String × List UInt8))
    (directories : List String) : Disk :=
  let place (path : String) : String := FileName.join root path
  let named := files.map fun (path, bytes) => (place path, Entry.file bytes)
  let made := (directories ++ [current]).map fun path => (place path, Entry.directory)
  let above := (named ++ made).flatMap fun (path, _) =>
    (FileName.ancestors path.length path).map fun p => (p, Entry.directory)
  ⟨place current, named ++ made ++ above⟩

end Disk

end ScriptTree
