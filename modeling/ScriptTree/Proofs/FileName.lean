import ScriptTree.FileName
import Mathlib.Data.List.Infix

/-!
Paths from the root. A path in its shortest form is the root with the segments that lead down from
it, and the directory it lies in is that of all segments but the last. Going up ends at the root.
-/

namespace ScriptTree

/-! Parts between separators. -/

namespace Text

theorem splitList_of_not_mem {mark : Char} {part : List Char} (hpart : mark ∉ part) :
    splitList mark part = [part] := by
  induction part with
  | nil => rfl
  | cons c rest ih =>
      rw [List.mem_cons, not_or] at hpart
      rw [splitList, if_neg (Ne.symm hpart.1), ih hpart.2]

theorem splitList_append {mark : Char} {part : List Char} (hpart : mark ∉ part)
    (rest : List Char) :
    splitList mark (part ++ mark :: rest) = part :: splitList mark rest := by
  induction part with
  | nil => rw [List.nil_append, splitList, if_pos rfl]
  | cons c part ih =>
      rw [List.mem_cons, not_or] at hpart
      rw [List.cons_append, splitList, if_neg (Ne.symm hpart.1), ih hpart.2]

end Text

namespace FileName

/-- The name of a directory or a file in another one. -/
structure IsSegment (s : String) : Prop where
  ne_empty : s ≠ ""
  ne_dot : s ≠ "."
  ne_up : s ≠ ".."
  slash_not_mem : '/' ∉ s.toList

/-- The path that leads through segments down from the root. -/
def ofSegments (segments : List String) : String := "/" ++ String.intercalate "/" segments

/-- Parts of a path, with a separator before each of them. -/
def steps (parts : List String) : List Char := parts.flatMap fun part => '/' :: part.toList

variable {parts segments : List String} {s : String}

theorem steps_cons (part : String) (rest : List String) :
    steps (part :: rest) = '/' :: (part.toList ++ steps rest) := rfl

theorem steps_append (first second : List String) :
    steps (first ++ second) = steps first ++ steps second :=
  List.flatMap_append

theorem toList_ofSegments (s : String) (rest : List String) :
    (ofSegments (s :: rest)).toList = steps (s :: rest) := by
  rw [ofSegments, String.toList_append, String.toList_intercalate]
  induction rest generalizing s with
  | nil => simp [steps]
  | cons next rest ih =>
      rw [List.map_cons, List.map_cons, List.intercalate_cons_cons, steps_cons, ← ih next,
        List.map_cons, List.append_assoc]
      rfl

theorem splitList_steps (first : List Char) (hfirst : '/' ∉ first)
    (hparts : ∀ part ∈ parts, '/' ∉ part.toList) :
    Text.splitList '/' (first ++ steps parts) = first :: parts.map String.toList := by
  induction parts generalizing first with
  | nil =>
      rw [steps, List.flatMap_nil, List.append_nil]
      exact Text.splitList_of_not_mem hfirst
  | cons part rest ih =>
      rw [List.forall_mem_cons] at hparts
      change Text.splitList '/' (first ++ '/' :: (part.toList ++ steps rest)) = _
      rw [Text.splitList_append hfirst, ih _ hparts.1 hparts.2, List.map_cons]

theorem splitOn_steps (hparts : ∀ part ∈ parts, '/' ∉ part.toList) :
    Text.splitOn '/' (String.ofList (steps parts)) = "" :: parts := by
  have hsplit := splitList_steps [] List.not_mem_nil hparts
  rw [Text.splitOn, String.toList_ofList, ← List.nil_append (steps parts), hsplit, List.map_cons,
    List.map_map]
  congr 1
  refine (List.map_congr_left fun part _ => ?_).trans (List.map_id parts)
  exact String.ofList_toList

theorem exists_steps (path : List Char) :
    ∃ first parts, '/' ∉ first ∧ (∀ part ∈ parts, '/' ∉ part.toList) ∧
      path = first ++ steps parts := by
  induction path with
  | nil => exact ⟨[], [], List.not_mem_nil, List.forall_mem_nil _, rfl⟩
  | cons c rest ih =>
      obtain ⟨first, parts, hfirst, hparts, rfl⟩ := ih
      by_cases hc : c = '/'
      · subst hc
        refine ⟨[], String.ofList first :: parts, List.not_mem_nil, ?_, ?_⟩
        · rw [List.forall_mem_cons, String.toList_ofList]
          exact ⟨hfirst, hparts⟩
        · rw [steps_cons, String.toList_ofList]
          rfl
      · refine ⟨c :: first, parts, ?_, hparts, rfl⟩
        rw [List.mem_cons, not_or]
        exact ⟨Ne.symm hc, hfirst⟩

theorem exists_steps_of_isAbsolute {path : String} (hpath : isAbsolute path = true) :
    ∃ front last, (∀ part ∈ front ++ [last], '/' ∉ part.toList) ∧
      path = String.ofList (steps (front ++ [last])) := by
  obtain ⟨first, parts, hfirst, hparts, htext⟩ := exists_steps path.toList
  rw [isAbsolute, Text.startsWith, List.isPrefixOf_iff_prefix] at hpath
  obtain ⟨tail, htail⟩ := hpath
  have hroot : '/' :: tail = first ++ steps parts := htail.trans htext
  cases first with
  | cons c first =>
      have hc : '/' = c := (List.cons.inj hroot).1
      exact absurd (hc ▸ List.mem_cons_self) hfirst
  | nil =>
      rcases List.eq_nil_or_concat parts with rfl | ⟨front, last, rfl⟩
      · cases hroot
      · rw [List.concat_eq_append] at hparts htext
        refine ⟨front, last, hparts, ?_⟩
        rw [← String.toList_inj, String.toList_ofList, htext]
        rfl

/-! Reduction. -/

theorem reduceSegments_of_segments (hsegments : ∀ s ∈ segments, IsSegment s)
    (done more : List String) :
    reduceSegments true done (segments ++ more) =
      reduceSegments true (segments.reverse ++ done) more := by
  induction segments generalizing done with
  | nil => rfl
  | cons s rest ih =>
      rw [List.forall_mem_cons] at hsegments
      obtain ⟨⟨hempty, hdot, hup, -⟩, hrest⟩ := hsegments
      rw [List.cons_append, reduceSegments.eq_def]
      simp only [hempty, hdot, hup, decide_false, Bool.or_self, Bool.false_eq_true, if_false]
      rw [ih hrest, List.reverse_cons, List.append_assoc]
      rfl

theorem isSegment_of_mem_reduceSegments {done : List String} (hdone : ∀ s ∈ done, IsSegment s)
    (hparts : ∀ part ∈ parts, '/' ∉ part.toList) :
    ∀ s ∈ reduceSegments true done parts, IsSegment s := by
  induction parts generalizing done with
  | nil =>
      intro s hs
      exact hdone s (List.mem_reverse.mp hs)
  | cons part rest ih =>
      rw [List.forall_mem_cons] at hparts
      rw [reduceSegments.eq_def]
      by_cases hskip : part = "" ∨ part = "."
      · have hcond : (decide (part = "") || decide (part = ".")) = true := by simpa using hskip
        simp only [hcond, if_true]
        exact ih hdone hparts.2
      · obtain ⟨hempty, hdot⟩ := not_or.mp hskip
        simp only [hempty, hdot, decide_false, Bool.or_self, Bool.false_eq_true, if_false]
        split
        next =>
          cases done with
          | nil => exact ih (List.forall_mem_nil _) hparts.2
          | cons d before =>
              rw [List.forall_mem_cons] at hdone
              simp only [hdone.1.ne_up, if_false]
              exact ih hdone.2 hparts.2
        next hup =>
          exact ih (List.forall_mem_cons.mpr ⟨⟨hempty, hdot, hup, hparts.1⟩, hdone⟩) hparts.2

/-! The shortest form of a path. -/

theorem isAbsolute_ofList_cons (rest : List Char) :
    isAbsolute (String.ofList ('/' :: rest)) = true := by
  have htext : (String.ofList ('/' :: rest)).toList = '/' :: rest := String.toList_ofList
  rw [isAbsolute, Text.startsWith, htext]
  rfl

theorem clean_steps (hne : parts ≠ []) (hparts : ∀ part ∈ parts, '/' ∉ part.toList) :
    clean (String.ofList (steps parts)) = ofSegments (reduceSegments true [] parts) := by
  have habsolute : isAbsolute (String.ofList (steps parts)) = true := by
    obtain ⟨part, rest, rfl⟩ := List.exists_cons_of_ne_nil hne
    exact isAbsolute_ofList_cons _
  rw [clean, habsolute, splitOn_steps hparts, reduceSegments.eq_def]
  rfl

theorem ofSegments_eq (hne : segments ≠ []) :
    ofSegments segments = String.ofList (steps segments) := by
  obtain ⟨s, rest, rfl⟩ := List.exists_cons_of_ne_nil hne
  rw [← String.toList_inj, toList_ofSegments, String.toList_ofList]

theorem isAbsolute_ofSegments (segments : List String) :
    isAbsolute (ofSegments segments) = true := by
  cases segments with
  | nil => decide
  | cons s rest =>
      rw [ofSegments_eq (List.cons_ne_nil s rest)]
      exact isAbsolute_ofList_cons _

theorem reduceSegments_eq_self (hsegments : ∀ s ∈ segments, IsSegment s) :
    reduceSegments true [] segments = segments := by
  have hdone := reduceSegments_of_segments hsegments [] []
  rwa [List.append_nil, List.append_nil, reduceSegments, List.reverse_reverse] at hdone

theorem join_ofSegments (hsegments : ∀ s ∈ segments, IsSegment s) (hs : IsSegment s) :
    join (ofSegments segments) s = ofSegments (segments ++ [s]) := by
  have hall : ∀ part ∈ segments ++ [s], IsSegment part := by
    rw [List.forall_mem_append, List.forall_mem_singleton]
    exact ⟨hsegments, hs⟩
  cases segments with
  | nil =>
      have htext : ofSegments [] ++ "/" ++ s = String.ofList (steps ["", s]) := by
        rw [← String.toList_inj, String.toList_append, String.toList_ofList, steps_cons, steps_cons]
        simp [ofSegments, steps]
      have hparts : ∀ part ∈ ["", s], '/' ∉ part.toList := by
        rw [List.forall_mem_cons, List.forall_mem_singleton]
        exact ⟨by decide, hs.slash_not_mem⟩
      have hskip : reduceSegments true [] ["", s] = reduceSegments true [] [s] := by
        rw [reduceSegments.eq_def]
        rfl
      rw [join, if_neg (by decide), htext, clean_steps (List.cons_ne_nil _ _) hparts, hskip]
      exact congrArg ofSegments (reduceSegments_eq_self hall)
  | cons first rest =>
      have hne : ofSegments (first :: rest) ≠ "" := by
        intro hempty
        have habsolute := isAbsolute_ofSegments (first :: rest)
        rw [hempty] at habsolute
        exact absurd habsolute (by decide)
      have htext : ofSegments (first :: rest) ++ "/" ++ s =
          String.ofList (steps (first :: rest ++ [s])) := by
        rw [← String.toList_inj, String.toList_append, String.toList_append, toList_ofSegments,
          String.toList_ofList, steps_append, List.append_assoc]
        simp [steps]
      rw [join, if_neg hne, htext, clean_steps (by simp) fun part hpart =>
        (hall part hpart).slash_not_mem, reduceSegments_eq_self hall]

/-! Going up. -/

theorem parent_steps {front : List String} {last : String}
    (hparts : ∀ part ∈ front ++ [last], '/' ∉ part.toList) :
    parent (String.ofList (steps (front ++ [last]))) =
      ofSegments (reduceSegments true [] (front ++ [""])) := by
  rw [List.forall_mem_append, List.forall_mem_singleton] at hparts
  -- What is left keeps the last separator, as if an empty part followed it.
  have hup : (steps (front ++ [last])).reverse.dropWhile (· ≠ '/') =
      (steps (front ++ [""])).reverse := by
    have hlast : ∀ c ∈ last.toList.reverse, decide (c ≠ '/') = true := by
      intro c hc
      exact decide_eq_true fun heq => hparts.2 (heq ▸ List.mem_reverse.mp hc)
    have hsplit : (steps (front ++ [last])).reverse =
        last.toList.reverse ++ '/' :: (steps front).reverse := by
      rw [steps_append]
      simp [steps]
    rw [hsplit, List.dropWhile_append_of_pos hlast, List.dropWhile_cons_of_neg (by simp),
      steps_append]
    simp [steps]
  rw [parent, String.toList_ofList]
  simp only [hup, List.reverse_reverse]
  refine clean_steps (by simp) ?_
  rw [List.forall_mem_append, List.forall_mem_singleton]
  exact ⟨hparts.1, by decide⟩

/-- The directory above an absolute path is below the root. -/
theorem exists_parent_eq {path : String} (hpath : isAbsolute path = true) :
    ∃ segments, (∀ s ∈ segments, IsSegment s) ∧ parent path = ofSegments segments := by
  obtain ⟨front, last, hparts, rfl⟩ := exists_steps_of_isAbsolute hpath
  refine ⟨_, ?_, parent_steps hparts⟩
  rw [List.forall_mem_append] at hparts
  refine isSegment_of_mem_reduceSegments (List.forall_mem_nil _) ?_
  rw [List.forall_mem_append, List.forall_mem_singleton]
  exact ⟨hparts.1, by decide⟩

theorem parent_root : parent (ofSegments []) = ofSegments [] := by decide

theorem parent_concat (hsegments : ∀ part ∈ segments ++ [s], IsSegment part) :
    parent (ofSegments (segments ++ [s])) = ofSegments segments := by
  have hreduce := reduceSegments_of_segments
    (List.forall_mem_append.mp hsegments).1 [] [""]
  rw [List.append_nil] at hreduce
  rw [ofSegments_eq (by simp), parent_steps fun part hpart => (hsegments part hpart).slash_not_mem,
    hreduce]
  simp [reduceSegments]

theorem concat_ne (hs : s ≠ "") (segments : List String) :
    ofSegments (segments ++ [s]) ≠ ofSegments segments := by
  intro heq
  have hlong : (ofSegments (segments ++ [s])).toList = steps segments ++ '/' :: s.toList := by
    rw [ofSegments_eq (by simp), String.toList_ofList, steps_append]
    simp [steps]
  have hpos : 0 < s.toList.length :=
    List.length_pos_iff.mpr fun hnil => hs (String.toList_inj.mp hnil)
  have hlength := congrArg List.length hlong
  rw [heq, List.length_append, List.length_cons] at hlength
  cases segments with
  | nil =>
      have hone : (ofSegments []).toList.length = 1 := by decide
      rw [hone] at hlength
      omega
  | cons first rest =>
      rw [toList_ofSegments] at hlength
      omega

theorem eq_root_of_parent_eq {path : String} (hpath : isAbsolute path = true)
    (hparent : parent path = path) : path = "/" := by
  obtain ⟨segments, hsegments, hup⟩ := exists_parent_eq hpath
  obtain rfl : path = ofSegments segments := hparent.symm.trans hup
  rcases List.eq_nil_or_concat segments with rfl | ⟨front, last, rfl⟩
  · rfl
  · rw [List.concat_eq_append] at hsegments hparent
    rw [parent_concat hsegments] at hparent
    have hlast := hsegments last (by simp)
    exact absurd hparent.symm (concat_ne hlast.ne_empty front)

/-- Going up from an absolute path ends at the root, if at all. -/
theorem length_or_root {path : String} (hpath : isAbsolute path = true) (n : Nat) :
    (path :: ancestors n path).length = n + 1 ∨ (path :: ancestors n path).getLast? = some "/" := by
  induction n generalizing path with
  | zero => exact .inl rfl
  | succ n ih =>
      rw [ancestors]
      by_cases hup : parent path = path
      · rw [if_pos hup, eq_root_of_parent_eq hpath hup]
        exact .inr rfl
      · rw [if_neg hup, List.length_cons, List.getLast?_cons_cons]
        obtain ⟨segments, -, hparent⟩ := exists_parent_eq hpath
        have habsolute : isAbsolute (parent path) = true := by
          rw [hparent]
          exact isAbsolute_ofSegments segments
        exact (ih habsolute).imp (congrArg (· + 1)) id

theorem exists_reverse_inits (segments : List String) :
    ∃ shorter, segments.inits.reverse = segments :: shorter := by
  rcases List.eq_nil_or_concat segments with rfl | ⟨front, last, rfl⟩
  · exact ⟨[], rfl⟩
  · exact ⟨front.inits.reverse, by simp [List.inits_append]⟩

/-- A path of segments and the directories above it are the beginnings of the path. -/
theorem ancestors_ofSegments (hsegments : ∀ s ∈ segments, IsSegment s) (n : Nat) :
    ofSegments segments :: ancestors n (ofSegments segments) =
      (segments.inits.reverse.take (n + 1)).map ofSegments := by
  induction n generalizing segments with
  | zero =>
      obtain ⟨shorter, hinits⟩ := exists_reverse_inits segments
      rw [hinits]
      rfl
  | succ n ih =>
      rw [ancestors]
      rcases List.eq_nil_or_concat segments with rfl | ⟨front, last, rfl⟩
      · rw [parent_root, if_pos rfl]
        rfl
      · rw [List.concat_eq_append] at hsegments ⊢
        have hlast := hsegments last (by simp)
        rw [parent_concat hsegments, if_neg (concat_ne hlast.ne_empty front).symm,
          ih (List.forall_mem_append.mp hsegments).1, List.inits_append]
        simp

end FileName

end ScriptTree
