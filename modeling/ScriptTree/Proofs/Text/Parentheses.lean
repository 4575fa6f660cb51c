import ScriptTree.Proofs.Text.Bytes
import ScriptTree.Text.ByteString

/-!
Parentheses of a text: which of them are partners, and what a text becomes without two
partners. Partners stand in one part of a text that is put together from balanced parts.
-/

namespace ScriptTree.Text

/-- The number of open parentheses after a text, from the number before it; none if the
text closes one that was not open. -/
def openAfter : Nat → ByteString → Option Nat
  | n, [] => some n
  | n, c :: rest =>
    if c = 40 then openAfter (n + 1) rest
    else if c = 41 then
      match n with
      | 0 => none
      | n + 1 => openAfter n rest
    else openAfter n rest

/-- Every parenthesis of the text has its partner in the text. -/
def Balanced (text : ByteString) : Prop := openAfter 0 text = some 0

instance (text : ByteString) : Decidable (Balanced text) :=
  inferInstanceAs (Decidable (_ = _))

/-- A text, and the same text without an opening parenthesis and its partner. -/
inductive Unwraps : ByteString → ByteString → Prop
  | pair {before inner after : ByteString} (hinner : Balanced inner) :
      Unwraps (before ++ toBytes "(" ++ inner ++ toBytes ")" ++ after) (before ++ inner ++ after)

@[simp] theorem openAfter_nil (n : Nat) : openAfter n [] = some n := rfl

@[simp] theorem openAfter_open (n : Nat) (rest : ByteString) :
    openAfter n (40 :: rest) = openAfter (n + 1) rest := by
  rw [openAfter.eq_def]
  rfl

@[simp] theorem openAfter_close_zero (rest : ByteString) : openAfter 0 (41 :: rest) = none := rfl

@[simp] theorem openAfter_close_succ (n : Nat) (rest : ByteString) :
    openAfter (n + 1) (41 :: rest) = openAfter n rest := rfl

theorem openAfter_other {c : UInt8} (n : Nat) (rest : ByteString) (hopen : c ≠ 40)
    (hclose : c ≠ 41) : openAfter n (c :: rest) = openAfter n rest := by
  rw [openAfter.eq_def]
  simp only [if_neg hopen, if_neg hclose]

theorem openAfter_append (n : Nat) (front back : ByteString) :
    openAfter n (front ++ back) = (openAfter n front).bind (openAfter · back) := by
  fun_induction openAfter n front with
  | case1 n => rfl
  | case2 n rest ih => simpa using ih
  | case3 rest => rfl
  | case4 rest n _ ih => simpa using ih
  | case5 n c rest hopen hclose ih => rwa [List.cons_append, openAfter_other n _ hopen hclose]

theorem openAfter_add {n m : Nat} {text : ByteString} (htext : openAfter n text = some m)
    (k : Nat) : openAfter (n + k) text = some (m + k) := by
  fun_induction openAfter n text with
  | case1 n =>
      obtain rfl := Option.some.inj htext
      rfl
  | case2 n rest ih =>
      rw [openAfter_open, Nat.add_right_comm]
      exact ih htext
  | case3 rest => cases htext
  | case4 rest n _ ih =>
      rw [Nat.succ_add, openAfter_close_succ]
      exact ih htext
  | case5 n c rest hopen hclose ih =>
      rw [openAfter_other _ _ hopen hclose]
      exact ih htext

/-! Balanced texts. -/

variable {text front back inner more : ByteString}

theorem Balanced.openAfter (htext : Balanced text) (n : Nat) : openAfter n text = some n := by
  simpa using openAfter_add htext n

theorem Balanced.append (hfront : Balanced front) (hback : Balanced back) :
    Balanced (front ++ back) := by
  rw [Balanced, openAfter_append, hfront.openAfter]
  exact hback

theorem Balanced.enclosed (hinner : Balanced inner) :
    Balanced (toBytes "(" ++ inner ++ toBytes ")") := by
  change Text.openAfter 0 (40 :: (inner ++ [41])) = some 0
  rw [openAfter_open, openAfter_append, hinner.openAfter]
  rfl

theorem balanced_of_not_mem (hopen : 40 ∉ text) (hclose : 41 ∉ text) : Balanced text := by
  induction text with
  | nil => rfl
  | cons c rest ih =>
      rw [List.mem_cons, not_or] at hopen hclose
      rw [Balanced, openAfter_other 0 rest (Ne.symm hopen.1) (Ne.symm hclose.1)]
      exact ih hopen.2 hclose.2

/-- A parenthesis that a text does not close is not followed by a whole balanced text. -/
theorem not_balanced_of_open (hinner : Balanced (back ++ more)) :
    ¬ Balanced (front ++ 40 :: back) := by
  intro htext
  rw [Balanced, openAfter_append] at htext hinner
  obtain ⟨n, -, hback⟩ := Option.bind_eq_some_iff.mp htext
  obtain ⟨m, hm, -⟩ := Option.bind_eq_some_iff.mp hinner
  rw [openAfter_open] at hback
  have hopen := openAfter_add hm (n + 1)
  rw [Nat.zero_add, hback] at hopen
  cases Option.some.inj hopen

theorem not_balanced_of_closed (hinner : Balanced inner) :
    ¬ Balanced (inner ++ 41 :: more) := by
  rw [Balanced, openAfter_append, hinner.openAfter]
  nofun

/-! Texts without two partners. -/

theorem Unwraps.of_eq {before after rest : ByteString} (hinner : Balanced inner)
    (htext : text = before ++ 40 :: (inner ++ 41 :: after))
    (hrest : rest = before ++ (inner ++ after)) : Unwraps text rest := by
  have hpair := @Unwraps.pair before inner after hinner
  rw [htext, hrest]
  simpa [show toBytes "(" = [40] from rfl, show toBytes ")" = [41] from rfl] using hpair

theorem Unwraps.exists_eq {rest : ByteString} (hunwraps : Unwraps text rest) :
    ∃ before inner after, Balanced inner ∧ text = before ++ 40 :: (inner ++ 41 :: after) ∧
      rest = before ++ (inner ++ after) := by
  cases hunwraps with
  | @pair before inner after hinner =>
      refine ⟨before, inner, after, hinner, ?_, List.append_assoc ..⟩
      simp [show toBytes "(" = [40] from rfl, show toBytes ")" = [41] from rfl]

theorem Unwraps.length_eq {rest : ByteString} (hunwraps : Unwraps text rest) :
    text.length = rest.length + 2 := by
  obtain ⟨before, inner, after, -, rfl, rfl⟩ := hunwraps.exists_eq
  simp only [List.length_append, List.length_cons]
  omega

theorem Unwraps.mem {rest : ByteString} (hunwraps : Unwraps text rest) : 40 ∈ text := by
  obtain ⟨before, inner, after, -, rfl, -⟩ := hunwraps.exists_eq
  simp

/-- Behind a balanced text partners stand on one side of its end. -/
theorem Unwraps.append_cases {rest : ByteString} (hfront : Balanced front)
    (hunwraps : Unwraps (front ++ back) rest) :
    (∃ front', Unwraps front front' ∧ rest = front' ++ back) ∨
      ∃ back', Unwraps back back' ∧ rest = front ++ back' := by
  obtain ⟨before, inner, after, hinner, htext, rfl⟩ := hunwraps.exists_eq
  rcases List.append_eq_append_iff.mp htext with ⟨c, rfl, rfl⟩ | ⟨c, rfl, hopen⟩
  · exact .inr ⟨c ++ (inner ++ after), .of_eq hinner rfl rfl, by simp⟩
  rcases List.cons_eq_append_iff.mp hopen with ⟨rfl, rfl⟩ | ⟨back', rfl, hclose⟩
  · exact .inr ⟨inner ++ after, .of_eq hinner (List.nil_append _).symm rfl, by simp⟩
  rcases List.append_eq_append_iff.mp hclose with ⟨d, rfl, hafter⟩ | ⟨d, rfl, -⟩
  · rcases List.cons_eq_append_iff.mp hafter with ⟨rfl, -⟩ | ⟨after', rfl, rfl⟩
    · rw [List.append_nil] at hfront
      have hend : Balanced (inner ++ []) := by rwa [List.append_nil]
      exact absurd hfront (not_balanced_of_open hend)
    · exact .inl ⟨before ++ (inner ++ after'), .of_eq hinner rfl rfl, by simp⟩
  · exact absurd hfront (not_balanced_of_open hinner)

/-- Partners in a text between parentheses are these two, or stand in the text. -/
theorem Unwraps.enclosed_cases {rest : ByteString} (hinner : Balanced inner)
    (hunwraps : Unwraps (toBytes "(" ++ inner ++ toBytes ")") rest) :
    rest = inner ∨
      ∃ inner', Unwraps inner inner' ∧ rest = toBytes "(" ++ inner' ++ toBytes ")" := by
  obtain ⟨before, between, after, hbetween, htext, rfl⟩ := hunwraps.exists_eq
  replace htext : 40 :: (inner ++ [41]) = before ++ 40 :: (between ++ 41 :: after) := htext
  rcases List.cons_eq_append_iff.mp htext with ⟨rfl, hopen⟩ | ⟨before', rfl, hlater⟩
  · rw [List.cons.injEq] at hopen
    -- the first parenthesis is closed by the last one
    rcases List.append_eq_append_iff.mp hopen.2 with ⟨c, rfl, hafter⟩ | ⟨c, rfl, hafter⟩
    · rcases List.cons_eq_append_iff.mp hafter with ⟨rfl, hend⟩ | ⟨more, rfl, hend⟩
      · obtain rfl : after = [] := by simpa using hend.symm
        exact .inl (by simp)
      · exact absurd hinner (not_balanced_of_closed hbetween)
    · obtain rfl : c = [] := by
        have hlength := congrArg List.length hafter
        simp only [List.length_append, List.length_cons, List.length_nil] at hlength
        exact List.eq_nil_of_length_eq_zero (by omega)
      obtain rfl : after = [] := by simpa using hafter.symm
      exact .inl (by simp)
  · have hinside : Unwraps (inner ++ [41]) (before' ++ (between ++ after)) :=
      .of_eq hbetween hlater rfl
    rcases hinside.append_cases hinner with ⟨inner', hinner', hrest⟩ | ⟨_, hclose, -⟩
    · exact .inr ⟨inner', hinner', congrArg (40 :: ·) hrest⟩
    · exact absurd hclose.mem (by decide)

end ScriptTree.Text
