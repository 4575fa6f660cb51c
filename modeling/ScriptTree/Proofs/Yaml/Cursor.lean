import ScriptTree.Yaml.Cursor

/-!
Moves of the cursor over text without damage. Looking ahead changes nothing but what is in
memory.
-/

namespace ScriptTree

/-- A computation with a state ends without failure in a result and a state. -/
def Succeeds (x : StateT σ (Except ε) α) (s : σ) (post : α → σ → Prop) : Prop :=
  ∃ a t, x.run s = .ok (a, t) ∧ post a t

namespace Succeeds

variable {x : StateT σ (Except ε) α} {s : σ} {post : α → σ → Prop}

theorem pure {a : α} (hpost : post a s) : Succeeds (pure a : StateT σ (Except ε) α) s post :=
  ⟨a, s, rfl, hpost⟩

theorem bind {f : α → StateT σ (Except ε) β} {post : β → σ → Prop}
    (hx : Succeeds x s fun a t => Succeeds (f a) t post) : Succeeds (x >>= f) s post := by
  obtain ⟨a, t, hrun, b, u, hrest, hpost⟩ := hx
  refine ⟨b, u, ?_, hpost⟩
  rw [StateT.run_bind, hrun]
  exact hrest

theorem mono {weaker : α → σ → Prop} (hx : Succeeds x s post)
    (hpost : ∀ a t, post a t → weaker a t) : Succeeds x s weaker := by
  obtain ⟨a, t, hrun, h⟩ := hx
  exact ⟨a, t, hrun, hpost a t h⟩

theorem andThen {f : α → StateT σ (Except ε) β} {last : β → σ → Prop} (hx : Succeeds x s post)
    (hf : ∀ a t, post a t → Succeeds (f a) t last) : Succeeds (x >>= f) s last :=
  bind (hx.mono hf)

theorem get {post : σ → σ → Prop} (hpost : post s s) :
    Succeeds (get : StateT σ (Except ε) σ) s post :=
  ⟨s, s, rfl, hpost⟩

theorem set {t : σ} {post : PUnit → σ → Prop} (hpost : post ⟨⟩ t) :
    Succeeds (set t : StateT σ (Except ε) PUnit) s post :=
  ⟨⟨⟩, t, rfl, hpost⟩

theorem modify {f : σ → σ} {post : PUnit → σ → Prop} (hpost : post ⟨⟩ (f s)) :
    Succeeds (modify f : StateT σ (Except ε) PUnit) s post :=
  ⟨⟨⟩, f s, rfl, hpost⟩

theorem lift {r : Except ε α} {a : α} (hr : r = .ok a) (hpost : post a s) :
    Succeeds (liftM r : StateT σ (Except ε) α) s post := by
  refine ⟨a, s, ?_, hpost⟩
  rw [hr]
  rfl

/-- Work on a part of the state. -/
theorem onPart {y : StateT τ (Except ε) α} (part : σ → τ) (put : σ → τ → σ)
    (hy : Succeeds y (part s) fun a t => post a (put s t)) :
    Succeeds (do
      let s ← (MonadState.get : StateT σ (Except ε) σ)
      let (a, t) ← (y.run (part s) : Except ε (α × τ))
      MonadStateOf.set (put s t)
      return a) s post := by
  obtain ⟨a, t, hrun, hpost⟩ := hy
  refine bind (get (bind ?_))
  exact lift hrun (bind (set (pure hpost)))

end Succeeds

namespace Yaml

namespace Cursor

def byteOrderMark : Char := Char.ofNat 0xFEFF

/-- A place in a text that is whole, with no byte order mark from here on. -/
structure Clean (c : Cursor) : Prop where
  damage : c.damage = none
  marked : c.marked = false
  unmarked : byteOrderMark ∉ c.rest
  size : c.rest.length ≤ c.size

/-- A second place is reached from a first over a text. -/
structure Reaches (c : Cursor) (text : List Char) (d : Cursor) : Prop where
  clean : d.Clean
  rest : c.rest = text ++ d.rest
  index : d.index = c.index + text.length
  size : d.size = c.size
  straight : (∀ x ∈ text, isBreak x = false) →
    d.line = c.line ∧ d.column = c.column + text.length

variable {c d e : Cursor}

theorem Reaches.refl (hclean : c.Clean) : c.Reaches [] c :=
  ⟨hclean, rfl, rfl, rfl, fun _ => ⟨rfl, rfl⟩⟩

theorem Reaches.trans {first second : List Char} (hd : c.Reaches first d)
    (he : d.Reaches second e) : c.Reaches (first ++ second) e := by
  refine ⟨he.clean, ?_, ?_, he.size.trans hd.size, fun hstraight => ?_⟩
  · rw [hd.rest, he.rest, List.append_assoc]
  · rw [he.index, hd.index, List.length_append, Nat.add_assoc]
  · obtain ⟨hline, hcolumn⟩ := hd.straight fun x hx => hstraight x (List.mem_append_left _ hx)
    obtain ⟨hline', hcolumn'⟩ := he.straight fun x hx => hstraight x (List.mem_append_right _ hx)
    rw [hline', hcolumn', hline, hcolumn, List.length_append, Nat.add_assoc]
    exact ⟨rfl, rfl⟩

theorem Reaches.rest_of {text tail : List Char} (hd : c.Reaches text d)
    (hrest : c.rest = text ++ tail) : d.rest = tail :=
  List.append_cancel_left (hd.rest.symm.trans hrest)

theorem Reaches.same (hd : c.Reaches [] d) : d.rest = c.rest := hd.rest.symm

theorem Clean.of_rest (hclean : c.Clean) (text : List Char) (hrest : c.rest = text ++ d.rest)
    (hdamage : d.damage = c.damage) (hmarked : d.marked = c.marked) (hsize : d.size = c.size) :
    d.Clean := by
  refine ⟨hdamage.trans hclean.damage, hmarked.trans hclean.marked, fun hmark => ?_, ?_⟩
  · apply hclean.unmarked
    rw [hrest]
    exact List.mem_append_right _ hmark
  · have hlength := hclean.size
    rw [hrest, List.length_append] at hlength
    omega

theorem reaches_step (hclean : c.Clean) {x : Char} {tail : List Char} (hrest : c.rest = x :: tail) :
    c.Reaches [x] c.step := by
  have hstep : c.rest = [x] ++ c.step.rest := by simp [step, hrest]
  exact ⟨hclean.of_rest _ hstep rfl rfl rfl, hstep, rfl, rfl, fun _ => ⟨rfl, rfl⟩⟩

theorem exists_reaches_nextLine (hclean : c.Clean) {x : Char} {tail : List Char}
    (hrest : c.rest = x :: tail) (hbreak : isBreak x = true) :
    c.Reaches [x] c.nextLine ∨ ∃ more, tail = '\n' :: more ∧ c.Reaches [x, '\n'] c.nextLine := by
  have hcrooked {text : List Char} (hmem : x ∈ text) {P : Prop}
      (hstraight : ∀ y ∈ text, isBreak y = false) : P := by
    simp [hstraight x hmem] at hbreak
  unfold nextLine
  split
  · next more hpair =>
    rw [hpair] at hrest
    obtain ⟨rfl, rfl⟩ := List.cons.inj hrest
    refine .inr ⟨more, rfl, hclean.of_rest ['\r', '\n'] hpair rfl rfl rfl, hpair, rfl, rfl, ?_⟩
    exact hcrooked (by simp)
  · next y more _ hsingle =>
    rw [hsingle] at hrest
    obtain ⟨rfl, rfl⟩ := List.cons.inj hrest
    rw [if_pos hbreak]
    refine .inl ⟨hclean.of_rest [y] hsingle rfl rfl rfl, hsingle, rfl, rfl, ?_⟩
    exact hcrooked (by simp)
  · next hnil => simp [hnil] at hrest

theorem Reaches.nextLine (hd : c.Reaches [] d) {x : Char} {tail : List Char}
    (hrest : c.rest = x :: tail) (hbreak : isBreak x = true) :
    c.Reaches [x] d.nextLine ∨ ∃ more, tail = '\n' :: more ∧ c.Reaches [x, '\n'] d.nextLine := by
  rcases exists_reaches_nextLine hd.clean (hd.same.trans hrest) hbreak with
    hsingle | ⟨more, htail, hpair⟩
  · exact .inl (hd.trans hsingle)
  · exact .inr ⟨more, htail, hd.trans hpair⟩

theorem hold_none (wanted held : Nat) (batches : List Nat) :
    ∃ result, hold none wanted held batches = .ok result := by
  induction batches generalizing held with
  | nil => exact ⟨_, rfl⟩
  | cons n batches ih =>
      rw [hold]
      split
      · exact ih (held + n)
      · exact ⟨_, rfl⟩

end Cursor

namespace Scan

open Cursor (Clean Reaches)

variable {c : Cursor} {post : Unit → Cursor → Prop}

theorem need_succeeds (hclean : c.Clean) (n : Nat) :
    Succeeds (need n) c fun _ d => c.Reaches [] d := by
  unfold need
  apply Succeeds.bind
  apply Succeeds.get
  split
  · obtain ⟨⟨held, batches⟩, hhold⟩ := Cursor.hold_none (c.index + n) c.held c.batches
    apply Succeeds.bind
    apply Succeeds.lift (show Cursor.hold c.damage _ _ _ = _ by rw [hclean.damage, hhold])
    apply Succeeds.set
    have hmark : c.looksAt 0 (Char.ofNat 0xFEFF) = false := by
      have hne : ∀ x ∈ c.rest, x ≠ Cursor.byteOrderMark := by
        rintro x hx rfl
        exact hclean.unmarked hx
      cases hrest : c.rest with
      | nil => simp [Cursor.looksAt, hrest]
      | cons x tail =>
          simpa [Cursor.looksAt, hrest, Cursor.byteOrderMark] using hne x (by simp [hrest])
    exact ⟨⟨hclean.damage, hmark, hclean.unmarked, hclean.size⟩, rfl, rfl, rfl, fun _ => ⟨rfl, rfl⟩⟩
  · exact Succeeds.pure (.refl hclean)

theorem skip_succeeds (hclean : c.Clean) {x : Char} {tail : List Char}
    (hrest : c.rest = x :: tail) :
    Succeeds skip c fun _ d => c.Reaches [x] d :=
  Succeeds.modify (Cursor.reaches_step hclean hrest)

theorem skipMany_succeeds (hclean : c.Clean) (text : List Char) {tail : List Char}
    (hrest : c.rest = text ++ tail) :
    Succeeds (skipMany text.length) c fun _ d => c.Reaches text d := by
  induction text generalizing c with
  | nil => exact Succeeds.pure (.refl hclean)
  | cons x text ih =>
      refine (skip_succeeds hclean hrest).andThen fun _ d hd => ?_
      exact (ih hd.clean (hd.rest_of hrest)).mono fun _ e he => hd.trans he

theorem skipBreak_succeeds (hclean : c.Clean) {x : Char} {tail : List Char}
    (hrest : c.rest = x :: tail) (hbreak : isBreak x = true) :
    Succeeds skipBreak c fun _ d =>
      c.Reaches [x] d ∨ ∃ more, tail = '\n' :: more ∧ c.Reaches [x, '\n'] d := by
  refine (need_succeeds hclean 2).andThen fun _ d hd => ?_
  exact Succeeds.modify (hd.nextLine hrest hbreak)

/-- A character is passed, and the one after it is looked at. -/
theorem skip_need_succeeds {next : Scan α} {post : α → Cursor → Prop} (hclean : c.Clean) {x : Char}
    {tail : List Char} (hrest : c.rest = x :: tail) (n : Nat)
    (hnext : ∀ d, c.Reaches [x] d → Succeeds next d post) :
    Succeeds (do skip; need n; next) c post := by
  refine (skip_succeeds hclean hrest).andThen fun _ d hd => ?_
  refine (need_succeeds hd.clean n).andThen fun _ e he => ?_
  exact hnext e (hd.trans he)

/-- The characters of a class are passed up to the first that is not of the class. -/
theorem takeFrom_succeeds {p : Char → Bool} (hclean : c.Clean) {text tail : List Char}
    (hrest : c.rest = text ++ tail) (htext : ∀ x ∈ text, p x = true)
    (htail : tail.head?.any p = false) {fuel : Nat} (hfuel : text.length ≤ fuel)
    (before : List Char) :
    Succeeds (takeFrom p fuel before) c fun result d =>
      result = text.reverse ++ before ∧ c.Reaches text d := by
  induction fuel generalizing c text before with
  | zero =>
      obtain rfl := List.length_eq_zero_iff.mp (Nat.le_zero.mp hfuel)
      exact Succeeds.pure ⟨rfl, .refl hclean⟩
  | succ fuel ih =>
      rw [takeFrom]
      refine Succeeds.bind (Succeeds.get ?_)
      cases text with
      | nil =>
          cases tail with
          | nil =>
              rw [hrest]
              exact Succeeds.pure ⟨rfl, .refl hclean⟩
          | cons y tail =>
              have hy : p y = false := by simpa using htail
              rw [hrest]
              simp only [List.nil_append, hy, Bool.false_eq_true, if_false]
              exact Succeeds.pure ⟨rfl, .refl hclean⟩
      | cons x text =>
          rw [List.forall_mem_cons] at htext
          rw [hrest]
          simp only [List.cons_append, htext.1, if_true]
          refine skip_need_succeeds hclean hrest 1 fun d hd => ?_
          refine (ih hd.clean (hd.rest_of hrest) htext.2
            (Nat.le_of_succ_le_succ hfuel) (x :: before)).mono ?_
          rintro result e ⟨rfl, he⟩
          exact ⟨by simp, hd.trans he⟩

theorem skipWhile_succeeds {p : Char → Bool} (hclean : c.Clean) {text tail : List Char}
    (hrest : c.rest = text ++ tail) (htext : ∀ x ∈ text, p x = true)
    (htail : tail.head?.any p = false) : Succeeds (skipWhile p) c fun _ d => c.Reaches text d := by
  refine Succeeds.bind (Succeeds.bind ?_)
  refine (need_succeeds hclean 1).mono fun _ d hd => ?_
  refine Succeeds.bind (Succeeds.get (Succeeds.bind ?_))
  have hfuel : text.length ≤ d.size := by
    have hsize := hd.clean.size
    rw [hd.same, hrest, List.length_append] at hsize
    omega
  refine (takeFrom_succeeds hd.clean (hd.same.trans hrest) htext htail hfuel []).mono ?_
  rintro result e ⟨rfl, he⟩
  exact Succeeds.pure (Succeeds.pure (hd.trans he))

/-! Comments are looked for and not found. -/

theorem seekComment_succeeds {between : Char → Bool} (hclean : c.Clean) {ahead : Nat}
    (hnone : ((c.rest.drop ahead).dropWhile between).head? ≠ some '#') (fuel : Nat) :
    Succeeds (seekComment between fuel ahead) c fun result d => result = none ∧ c.Reaches [] d := by
  induction fuel generalizing c ahead with
  | zero => exact Succeeds.pure ⟨rfl, .refl hclean⟩
  | succ fuel ih =>
      refine (need_succeeds hclean _).andThen fun _ d hd => Succeeds.bind (Succeeds.get ?_)
      rw [← hd.same] at hnone
      cases hget : d.rest[ahead]? with
      | none => exact Succeeds.pure ⟨rfl, hd⟩
      | some x =>
          obtain ⟨hlt, hx⟩ := List.getElem?_eq_some_iff.mp hget
          rw [List.drop_eq_getElem_cons hlt, hx, List.dropWhile_cons] at hnone
          simp only
          split
          next hbetween =>
            rw [if_pos hbetween] at hnone
            exact (ih hd.clean hnone).mono fun result e he => ⟨he.1, hd.trans he.2⟩
          next hbetween =>
            rw [if_neg hbetween] at hnone
            have hx : x ≠ '#' := by simpa using hnone
            rw [if_neg hx]
            exact Succeeds.pure ⟨rfl, hd⟩

theorem skipLineComment_succeeds (hclean : c.Clean)
    (hnone : (c.rest.dropWhile isGap).head? ≠ some '#') :
    Succeeds skipLineComment c fun _ d => c.Reaches [] d := by
  refine Succeeds.bind (Succeeds.get ?_)
  split
  · refine (seekComment_succeeds hclean (List.drop_zero ▸ hnone) _).andThen ?_
    rintro _ d ⟨rfl, hd⟩
    exact Succeeds.pure hd
  · exact Succeeds.pure (.refl hclean)

end Scan

end Yaml

end ScriptTree
