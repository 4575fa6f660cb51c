import ScriptTree.Text.Casing
import ScriptTree.Text.Lines

/-!
Small letters. The small letter of a character is its own small letter, so a text in small letters
stays as it is. Texts that differ only in the case of ASCII letters and in white space around them
are the same once they are trimmed and in small letters.
-/

namespace ScriptTree.Text

/-! Small letters of small letters. -/

namespace CaseRun

/-- The capital letters of ASCII. -/
def capitals : CaseRun := ⟨0x41, 0x5a, 1, 32⟩

def imageStart (run : CaseRun) : Nat := ((run.first : Int) + run.shift).toNat

/-- Whether the images of a run lie before or behind another run, or between its characters. -/
def misses (run other : CaseRun) : Bool :=
  Nat.blt (run.imageStart + (run.last - run.first)) other.first ||
    Nat.blt other.last run.imageStart ||
    (run.first == run.last || run.stride == 2) && other.stride == 2 &&
      run.imageStart % 2 != other.first % 2

theorem covers_eq_false_of_misses {run other : CaseRun}
    (hstart : 0 ≤ (run.first : Int) + run.shift) (hmisses : run.misses other = true) {n : Nat}
    (hn : run.covers n = true) : other.covers ((n : Int) + run.shift).toNat = false := by
  simp only [covers, Bool.and_eq_true, decide_eq_true_eq] at hn
  obtain ⟨⟨hfirst, hlast⟩, hstride⟩ := hn
  have himage : ((n : Int) + run.shift).toNat = run.imageStart + (n - run.first) := by
    rw [imageStart]
    omega
  rw [himage]
  simp only [misses, Bool.or_eq_true, Bool.and_eq_true, Nat.blt_eq, beq_iff_eq, bne_iff_ne]
    at hmisses
  simp only [covers, Bool.and_eq_false_iff, decide_eq_false_iff_not]
  rcases hmisses with (hbefore | hbehind) | ⟨⟨hrun, hother⟩, hparity⟩
  · exact .inl (.inl (by omega))
  · exact .inl (.inr (by omega))
  · have heven : (n - run.first) % 2 = 0 := by
      rcases hrun with hsingle | htwo
      · omega
      · rwa [htwo] at hstride
    rw [hother]
    omega

theorem start_lowerRuns : ∀ run ∈ lowerRuns, 0 ≤ (run.first : Int) + run.shift := by
  decide +kernel

theorem misses_lowerRuns :
    (lowerRuns.all fun run => (capitals :: lowerRuns).all run.misses) = true := by
  decide +kernel

end CaseRun

theorem toLower_of_beyond {c : Char} (hc : 0x80 ≤ c.toNat) : c.toLower = c := by
  have hcapital : ¬ (c.val ≥ 'A'.val ∧ c.val ≤ 'Z'.val) := by
    rintro ⟨-, hlast⟩
    have hle : c.toNat ≤ 90 := UInt32.le_iff_toNat_le.mp hlast
    omega
  exact dif_neg hcapital

/-- What holds of the ASCII characters, and of the others, holds of all. -/
theorem forall_char_of_ascii {p : Char → Prop} (hascii : ∀ n < 0x80, p (Char.ofNat n))
    (hbeyond : ∀ c : Char, 0x80 ≤ c.toNat → p c) (c : Char) : p c := by
  rcases Nat.lt_or_ge c.toNat 0x80 with hc | hc
  · rw [← Char.ofNat_toNat c]
    exact hascii c.toNat hc
  · exact hbeyond c hc

theorem lowerChar_of_uncovered {c : Char}
    (hc : ∀ run ∈ CaseRun.capitals :: lowerRuns, run.covers c.toNat = false) :
    lowerChar c = c := by
  rw [List.forall_mem_cons] at hc
  obtain ⟨hcapital, hruns⟩ := hc
  rw [lowerChar]
  split
  next hascii =>
    have hnone : ∀ n < 0x80, CaseRun.capitals.covers n = false →
        (Char.ofNat n).toLower = Char.ofNat n := by decide
    have hlower := hnone c.toNat hascii hcapital
    rwa [Char.ofNat_toNat] at hlower
  next =>
    have hfind : lowerRuns.find? (·.covers c.toNat) = none := by
      rw [List.find?_eq_none]
      intro run hrun
      rw [hruns run hrun]
      exact Bool.false_ne_true
    rw [CaseRun.apply, hfind]

theorem lowerChar_lowerChar (c : Char) : lowerChar (lowerChar c) = lowerChar c := by
  refine forall_char_of_ascii (p := fun c => lowerChar (lowerChar c) = lowerChar c) (by decide)
    (fun c hc => ?_) c
  have happly : lowerChar c = CaseRun.apply lowerRuns c := if_neg (Nat.not_lt.mpr hc)
  cases hfind : lowerRuns.find? (·.covers c.toNat) with
  | none =>
      have hsame : lowerChar c = c := by rw [happly, CaseRun.apply, hfind]
      rw [hsame, hsame]
  | some run =>
      have himage : lowerChar c = Char.ofNat ((c.toNat : Int) + run.shift).toNat := by
        rw [happly, CaseRun.apply, hfind]
      rw [himage]
      have hrun := List.mem_of_find?_eq_some hfind
      have hall := List.all_eq_true.mp (List.all_eq_true.mp CaseRun.misses_lowerRuns run hrun)
      -- No run covers the image of a run. An image that is no character is the null character.
      by_cases hvalid : ((c.toNat : Int) + run.shift).toNat.isValidChar
      · apply lowerChar_of_uncovered
        intro other hother
        have htoNat : (Char.ofNat ((c.toNat : Int) + run.shift).toNat).toNat =
            ((c.toNat : Int) + run.shift).toNat := by
          rw [Char.ofNat, dif_pos hvalid]
          rfl
        rw [htoNat]
        have hcovers : run.covers c.toNat = true :=
          List.find?_some (p := fun run : CaseRun => run.covers c.toNat) hfind
        exact CaseRun.covers_eq_false_of_misses (CaseRun.start_lowerRuns run hrun)
          (hall other hother) hcovers
      · rw [Char.ofNat, dif_neg hvalid]
        decide

theorem lower_lower (s : String) : lower (lower s) = lower s := by
  rw [← String.toList_inj, lower, lower, String.toList_map, String.toList_map, List.map_map]
  congr 1
  funext c
  exact lowerChar_lowerChar c

/-! Texts that are told apart by case and white space only. -/

/-- A list of characters with white space before and behind it. -/
def Padded (core : List Char) (s : String) : Prop :=
  ∃ before behind, (∀ c ∈ before, isBlank c = true) ∧ (∀ c ∈ behind, isBlank c = true) ∧
    s.toList = before ++ core ++ behind

/-- Texts that differ only in the case of ASCII letters and in white space around them. -/
def Alike (s t : String) : Prop :=
  ∃ core other, Padded core s ∧ Padded other t ∧ core.map Char.toLower = other.map Char.toLower

theorem lowerChar_toLower (c : Char) : lowerChar c.toLower = lowerChar c := by
  refine forall_char_of_ascii (p := fun c => lowerChar c.toLower = lowerChar c) (by decide)
    (fun c hc => ?_) c
  rw [toLower_of_beyond hc]

theorem isBlank_toLower (c : Char) : isBlank c.toLower = isBlank c := by
  refine forall_char_of_ascii (p := fun c => isBlank c.toLower = isBlank c) (by decide)
    (fun c hc => ?_) c
  rw [toLower_of_beyond hc]

theorem dropEndWhile_append {p : Char → Bool} {behind : List Char}
    (hbehind : ∀ c ∈ behind, p c = true) (cs : List Char) :
    dropEndWhile p (cs ++ behind) = dropEndWhile p cs := by
  rw [dropEndWhile, List.reverse_append, List.dropWhile_append_of_pos, dropEndWhile]
  exact fun c hc => hbehind c (List.mem_reverse.mp hc)

theorem trimList_of_padded {before behind : List Char} (hbefore : ∀ c ∈ before, isBlank c = true)
    (hbehind : ∀ c ∈ behind, isBlank c = true) (core : List Char) :
    trimList (before ++ core ++ behind) = trimList core := by
  rw [trimList, List.append_assoc, List.dropWhile_append_of_pos hbefore, List.dropWhile_append]
  split
  next hempty =>
    have hnil : behind.dropWhile isBlank = [] := by
      rw [← List.append_nil behind, List.dropWhile_append_of_pos hbehind, List.dropWhile_nil]
    rw [hnil, trimList, List.isEmpty_iff.mp hempty]
  next => exact dropEndWhile_append hbehind _

theorem trimList_map_toLower (cs : List Char) :
    trimList (cs.map Char.toLower) = (trimList cs).map Char.toLower := by
  have hblank : isBlank ∘ Char.toLower = isBlank := funext isBlank_toLower
  rw [trimList, trimList, dropEndWhile, dropEndWhile, List.dropWhile_map, hblank,
    ← List.map_reverse, List.dropWhile_map, hblank, ← List.map_reverse]

theorem map_lowerChar_eq (cs : List Char) :
    cs.map lowerChar = (cs.map Char.toLower).map lowerChar := by
  rw [List.map_map]
  congr 1
  funext c
  exact (lowerChar_toLower c).symm

theorem Alike.lower_trim_eq {s t : String} (halike : Alike s t) :
    lower (trim s) = lower (trim t) := by
  obtain ⟨core, other, ⟨before, behind, hbefore, hbehind, hs⟩,
    ⟨before', behind', hbefore', hbehind', ht⟩, hcase⟩ := halike
  rw [← String.toList_inj, lower, lower, String.toList_map, String.toList_map, trim, trim, hs, ht,
    String.toList_ofList, String.toList_ofList, trimList_of_padded hbefore hbehind,
    trimList_of_padded hbefore' hbehind', map_lowerChar_eq, map_lowerChar_eq (trimList other),
    ← trimList_map_toLower, ← trimList_map_toLower, hcase]

theorem lower_eq_empty_iff {s : String} : lower s = "" ↔ s = "" := by
  rw [← String.toList_inj, lower, String.toList_map, ← String.toList_inj, String.toList_empty,
    List.map_eq_nil_iff]

end ScriptTree.Text
