import Mathlib.Data.List.Induction
import Mathlib.Data.String.Basic
import ScriptTree.Reserved.History

/-!
The tables of an edition. However an edition is drawn up, no word stands twice in one table, and
once the edition is settled no word stands in both. Whether a word is reserved everywhere is as
the last revision has it that was about the word.
-/

namespace ScriptTree.Reserved

/-! Lists of words. -/

section Words

variable {held added dropped words : List String} {word : String}

theorem insertAll_cons (held : List String) (w : String) (added : List String) :
    insertAll held (w :: added) = insertAll (if w ∈ held then held else held ++ [w]) added := rfl

@[simp] theorem mem_insertAll : word ∈ insertAll held added ↔ word ∈ held ∨ word ∈ added := by
  induction added generalizing held with
  | nil => simp [insertAll]
  | cons w added ih =>
      rw [insertAll_cons, ih, List.mem_cons]
      by_cases hw : w ∈ held
      · rw [if_pos hw]
        constructor
        · rintro (hheld | hadded)
          · exact .inl hheld
          · exact .inr (.inr hadded)
        · rintro (hheld | rfl | hadded)
          · exact .inl hheld
          · exact .inl hw
          · exact .inr hadded
      · rw [if_neg hw, List.mem_append, List.mem_singleton, or_assoc]

theorem nodup_insertAll (hheld : held.Nodup) : (insertAll held added).Nodup := by
  induction added generalizing held with
  | nil => exact hheld
  | cons w added ih =>
      rw [insertAll_cons]
      apply ih
      by_cases hw : w ∈ held
      · rwa [if_pos hw]
      · rw [if_neg hw]
        refine List.nodup_append.mpr ⟨hheld, List.pairwise_singleton _ w, ?_⟩
        rintro word hword _ hsingle rfl
        exact hw (List.mem_singleton.mp hsingle ▸ hword)

@[simp] theorem mem_removeAll : word ∈ removeAll held dropped ↔ word ∈ held ∧ word ∉ dropped := by
  simp [removeAll]

theorem nodup_removeAll (hheld : held.Nodup) : (removeAll held dropped).Nodup := hheld.filter _

theorem perm_sorted (words : List String) : (sorted words).Perm words := List.mergeSort_perm words _

@[simp] theorem mem_sorted : word ∈ sorted words ↔ word ∈ words := (perm_sorted words).mem_iff

theorem pairwise_le_sorted (words : List String) : (sorted words).Pairwise (· ≤ ·) := by
  have htrans : ∀ a b c : String, decide (a ≤ b) = true → decide (b ≤ c) = true →
      decide (a ≤ c) = true := by
    intro a b c hab hbc
    rw [decide_eq_true_eq] at hab hbc ⊢
    exact le_trans hab hbc
  have htotal : ∀ a b : String, (decide (a ≤ b) || decide (b ≤ a)) = true := by
    intro a b
    simpa using le_total a b
  exact (List.pairwise_mergeSort htrans htotal words).imp of_decide_eq_true

theorem pairwise_lt_sorted (hwords : words.Nodup) : (sorted words).Pairwise (· < ·) := by
  have hdistinct : (sorted words).Nodup := (perm_sorted words).nodup_iff.mpr hwords
  exact ((pairwise_le_sorted words).and hdistinct).imp fun ⟨hle, hne⟩ => lt_of_le_of_ne hle hne

end Words

/-! What a revision does to the words that are reserved everywhere. -/

namespace Revision

/-- Whether a revision decides that a word is reserved everywhere, or that it is not. -/
def decides (word : String) : Revision → Bool
  | addWords words | drop words => words.contains word
  | extend base => base.words.contains word
  | addStrictWords _ | addAliases _ | settle => false

def isDrop : Revision → Bool
  | drop _ => true
  | addWords _ | addStrictWords _ | addAliases _ | extend _ | settle => false

theorem mem_words_apply (r : Revision) (e : Edition) (word : String) :
    word ∈ (r.apply e).words ↔
      (r.decides word = true ∧ r.isDrop = false) ∨ (r.decides word = false ∧ word ∈ e.words) := by
  cases r with
  | addWords words | extend words =>
      simp only [apply, Edition.addWords, Edition.extend, decides, isDrop, mem_insertAll,
        List.contains_eq_mem, decide_eq_true_eq, decide_eq_false_iff_not, and_true]
      tauto
  | drop words => simp [apply, Edition.drop, decides, isDrop, and_comm]
  | addStrictWords words | addAliases names | settle =>
      simp [apply, decides, Edition.addStrictWords, Edition.addAliases, Edition.settle]

end Revision

namespace Edition

variable {e : Edition} {revisions : List Revision} {word : String}

theorem revise_concat (e : Edition) (revisions : List Revision) (r : Revision) :
    e.revise (revisions ++ [r]) = r.apply (e.revise revisions) := by
  rw [revise, revise, List.foldl_append]
  rfl

/-- A word is reserved everywhere if the last revision that decides on it does not drop it. -/
theorem mem_words_revise_iff (hword : word ∉ e.words) :
    word ∈ (e.revise revisions).words ↔
      ∃ r, (revisions.filter (·.decides word)).getLast? = some r ∧ r.isDrop = false := by
  induction revisions using List.reverseRecOn with
  | nil => simpa [revise] using hword
  | append_singleton revisions r ih =>
      rw [revise_concat, Revision.mem_words_apply, ih, List.filter_append]
      cases hr : r.decides word with
      | true => simp [hr]
      | false => simp [hr]

/-! Tables without repetition. -/

structure Tidy (e : Edition) : Prop where
  words : e.words.Nodup
  strictWords : e.strictWords.Nodup

theorem tidy_blank (dialect : Dialect) (name : String) : (blank dialect name).Tidy :=
  ⟨List.nodup_nil, List.nodup_nil⟩

theorem Tidy.apply (he : e.Tidy) (r : Revision) : (r.apply e).Tidy := by
  cases r with
  | addWords words => exact ⟨nodup_insertAll he.words, he.strictWords⟩
  | addStrictWords words => exact ⟨he.words, nodup_insertAll he.strictWords⟩
  | drop words => exact ⟨nodup_removeAll he.words, nodup_removeAll he.strictWords⟩
  | addAliases names => exact ⟨he.words, he.strictWords⟩
  | extend base => exact ⟨nodup_insertAll he.words, nodup_insertAll he.strictWords⟩
  | settle => exact ⟨he.words, nodup_removeAll he.strictWords⟩

theorem Tidy.revise (he : e.Tidy) (revisions : List Revision) : (e.revise revisions).Tidy := by
  induction revisions using List.reverseRecOn with
  | nil => exact he
  | append_singleton revisions r ih =>
      rw [revise_concat]
      exact ih.apply r

theorem Tidy.nodup_settle (he : e.Tidy) : (e.settle.words ++ e.settle.strictWords).Nodup := by
  refine List.nodup_append.mpr ⟨he.words, nodup_removeAll he.strictWords, ?_⟩
  rintro word hword _ hstrict rfl
  exact (mem_removeAll.mp hstrict).2 hword

/-! The answers of an edition. -/

theorem reserves_iff_mem_listing (e : Edition) (word : String) (strict : Bool) :
    e.reserves word strict = true ↔ word ∈ e.listing strict := by
  cases strict with
  | false => simp [reserves, listing]
  | true => simp [reserves, listing]

theorem reserves_strict (he : e.reserves word false = true) (strict : Bool) :
    e.reserves word strict = true := by
  have hword : word ∈ e.words := by simpa [reserves] using he
  simp [reserves, hword]

theorem perm_listing (e : Edition) : (e.listing true).Perm (e.listing false ++ e.strictOnly) :=
  (perm_sorted _).trans ((perm_sorted _).append (perm_sorted _)).symm

theorem tables_of_settled (dialect : Dialect) (name : String) (revisions : List Revision) :
    let e := (blank dialect name).revise (revisions ++ [.settle])
    (e.listing true).Pairwise (· < ·) ∧
    (e.listing true).Perm (e.listing false ++ e.strictOnly) ∧
    (∀ word strict, e.reserves word strict = true ↔ word ∈ e.listing strict) ∧
    (∀ word, e.reserves word false = true → e.reserves word true = true) ∧
    ∀ word, (∀ strict, e.reserves word strict = true) ↔
      ∃ r, (revisions.filter (·.decides word)).getLast? = some r ∧ r.isDrop = false := by
  intro e
  have hsettled : e = ((blank dialect name).revise revisions).settle := revise_concat _ _ _
  refine ⟨?_, e.perm_listing, e.reserves_iff_mem_listing,
    fun word hword => reserves_strict hword true, fun word => ?_⟩
  · rw [hsettled]
    exact pairwise_lt_sorted ((tidy_blank dialect name).revise revisions).nodup_settle
  · have hwords : (∀ strict, e.reserves word strict = true) ↔ word ∈ e.words := by
      constructor
      · intro hall
        simpa [reserves] using hall false
      · intro hword
        exact reserves_strict (by simpa [reserves] using hword)
    rw [hwords, hsettled]
    exact mem_words_revise_iff (List.not_mem_nil)

end Edition

end ScriptTree.Reserved
