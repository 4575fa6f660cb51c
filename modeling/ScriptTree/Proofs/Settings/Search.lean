import ScriptTree.Proofs.FileName
import ScriptTree.Settings.Load

/-!
The search for a file of settings. It goes up from a directory until a directory has such a file,
the root was searched, or ten directories were.
-/

namespace ScriptTree.Settings

variable {d : Disk} {directory path : String}

def fileIn (d : Disk) (directory : String) : Option String :=
  (fileNames.map (FileName.join directory)).find? d.exists?

theorem findFile_eq_findSome? (d : Disk) (levels : Nat) (start : String) :
    findFile d (levels + 1) start =
      (start :: FileName.ancestors levels start).findSome? (fileIn d) := by
  induction levels generalizing start with
  | zero =>
      rw [findFile, FileName.ancestors, List.findSome?_cons, fileIn]
      cases (fileNames.map (FileName.join start)).find? d.exists? with
      | some path => rfl
      | none => simp [findFile]
  | succ levels ih =>
      rw [findFile, List.findSome?_cons, fileIn, FileName.ancestors]
      cases (fileNames.map (FileName.join start)).find? d.exists? with
      | some path => rfl
      | none =>
          simp only
          split
          next => rfl
          next => exact ih _

theorem fileIn_eq_none_iff :
    fileIn d directory = none ↔
      ∀ name ∈ fileNames, d.exists? (FileName.join directory name) = false := by
  simp [fileIn, List.find?_eq_none]

/-- Of two files in a directory the one of the first name is taken. -/
theorem fileIn_eq_some_iff :
    fileIn d directory = some path ↔
      ∃ name, path = FileName.join directory name ∧ d.exists? path = true ∧
        (name = "triptjs.yaml" ∨
          name = "triptjs.yml" ∧ d.exists? (FileName.join directory "triptjs.yaml") = false) := by
  rw [fileIn, fileNames, List.map_cons, List.map_singleton, List.find?_cons]
  cases hfirst : d.exists? (FileName.join directory "triptjs.yaml") with
  | true =>
      constructor
      · rintro ⟨⟩
        exact ⟨_, rfl, hfirst, .inl rfl⟩
      · rintro ⟨name, rfl, -, rfl | ⟨-, hmissing⟩⟩
        · rfl
        · cases hmissing
  | false =>
      simp only [List.find?_singleton, Option.ite_none_right_eq_some, Option.some.injEq]
      constructor
      · rintro ⟨hsecond, rfl⟩
        exact ⟨_, rfl, hsecond, .inr ⟨rfl, trivial⟩⟩
      · rintro ⟨name, rfl, hexists, rfl | ⟨rfl, -⟩⟩
        · rw [hfirst] at hexists
          cases hexists
        · exact ⟨hexists, rfl⟩

/-- The file that is found is the one in the nearest directory that has any, the start or one of the
nine above it, and of two files there it is the one of the first name. None is found exactly if none
of the directories has a file of settings. There are fewer than ten directories only if the last of
them is the root; the path of each of them is a beginning of the path of the start. -/
theorem findFile_nearest (d : Disk) {start : String} (hstart : FileName.isAbsolute start = true) :
    let directories := start :: FileName.ancestors (searchLevels - 1) start
    (∀ path, findFile d searchLevels start = some path ↔
      ∃ nearer directory farther name, directories = nearer ++ directory :: farther ∧
        (∀ other ∈ nearer, ∀ name ∈ fileNames,
          d.exists? (FileName.join other name) = false) ∧
        path = FileName.join directory name ∧ d.exists? path = true ∧
        (name = "triptjs.yaml" ∨
          name = "triptjs.yml" ∧ d.exists? (FileName.join directory "triptjs.yaml") = false)) ∧
    (findFile d searchLevels start = none ↔ ∀ directory ∈ directories, ∀ name ∈ fileNames,
      d.exists? (FileName.join directory name) = false) ∧
    (directories.length = searchLevels ∨ directories.getLast? = some "/") ∧
    ∀ segments, (∀ s ∈ segments, FileName.IsSegment s) → start = FileName.ofSegments segments →
      directories = (segments.inits.reverse.take searchLevels).map FileName.ofSegments ∧
      ∀ before name, before <+: segments → FileName.IsSegment name →
        FileName.join (FileName.ofSegments before) name =
          FileName.ofSegments (before ++ [name]) := by
  intro directories
  have hfind : findFile d searchLevels start = directories.findSome? (fileIn d) :=
    findFile_eq_findSome? d 9 start
  refine ⟨fun path => ?_, ?_, FileName.length_or_root hstart 9, ?_⟩
  · rw [hfind, List.findSome?_eq_some_iff]
    constructor
    · rintro ⟨nearer, directory, farther, hsplit, hfile, hnearer⟩
      obtain ⟨name, hname⟩ := fileIn_eq_some_iff.mp hfile
      exact ⟨nearer, directory, farther, name, hsplit,
        fun other hother => fileIn_eq_none_iff.mp (hnearer other hother), hname⟩
    · rintro ⟨nearer, directory, farther, name, hsplit, hnearer, hname⟩
      exact ⟨nearer, directory, farther, hsplit, fileIn_eq_some_iff.mpr ⟨name, hname⟩,
        fun other hother => fileIn_eq_none_iff.mpr (hnearer other hother)⟩
  · rw [hfind, List.findSome?_eq_none_iff]
    simp only [fileIn_eq_none_iff]
  · rintro segments hsegments rfl
    refine ⟨FileName.ancestors_ofSegments hsegments 9, fun before name hbefore hname => ?_⟩
    exact FileName.join_ofSegments (fun s hs => hsegments s (hbefore.subset hs)) hname

/-! Two directories with files of settings, and the root with none. -/

def twoFiles : Disk where
  current := "/a/b/c"
  entries := [("/", .directory), ("/a", .directory), ("/a/b", .directory), ("/a/b/c", .directory),
    ("/a/triptjs.yaml", .file []), ("/a/b/triptjs.yml", .file [])]

theorem findFile_nearest_twoFiles :
    FileName.isAbsolute twoFiles.current = true ∧
      findFile twoFiles searchLevels twoFiles.current = some "/a/b/triptjs.yml" ∧
      findFile twoFiles searchLevels "/" = none := by
  have hcurrent : FileName.isAbsolute twoFiles.current = true := by decide
  have hroot : FileName.isAbsolute "/" = true := by decide
  have hsegments : ∀ s ∈ ["a", "b", "c"], FileName.IsSegment s := by
    have hall : ∀ s ∈ ["a", "b", "c"], s ≠ "" ∧ s ≠ "." ∧ s ≠ ".." ∧ '/' ∉ s.toList := by decide
    exact fun s hs => ⟨(hall s hs).1, (hall s hs).2.1, (hall s hs).2.2.1, (hall s hs).2.2.2⟩
  obtain ⟨hfound, -, -, hdirectories⟩ := findFile_nearest twoFiles hcurrent
  obtain ⟨-, hnone, -, honlyRoot⟩ := findFile_nearest twoFiles hroot
  refine ⟨hcurrent, (hfound _).mpr ⟨["/a/b/c"], "/a/b", ["/a", "/"], "triptjs.yml", ?_,
    by decide +kernel, by decide +kernel, by decide +kernel, .inr ⟨rfl, by decide +kernel⟩⟩, ?_⟩
  · exact (hdirectories _ hsegments (by decide +kernel)).1.trans (by decide +kernel)
  · rw [hnone, (honlyRoot [] (List.forall_mem_nil _) (by decide)).1]
    decide +kernel

end ScriptTree.Settings
