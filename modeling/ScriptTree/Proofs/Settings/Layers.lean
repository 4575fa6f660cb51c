import ScriptTree.Settings.Layer

/-!
Values in layers of settings by the chain of names that leads to them. A layer that is laid over
another sets the values that it has itself and leaves the others alone.
-/

namespace ScriptTree.Settings

namespace Raw

def isTable : Raw → Bool
  | table _ => true
  | null | bool _ | int _ | float _ | text _ | moment | list => false

def at? : List String → Raw → Option Raw
  | [], v => some v
  | name :: rest, table entries => (entries.lookup name).bind (at? rest)
  | _ :: _, _ => none

/-- The value at the end of a chain of names, where the last one counts if names are repeated. -/
def last? : List String → Raw → Option Raw
  | [], v => some v
  | name :: rest, table entries =>
    entries.reverse.findSome? fun entry => if entry.1 = name then last? rest entry.2 else none
  | _ :: _, _ => none

/-- Whether there are tables up to the end of a chain of names, and no table at the end. -/
def Fits : List String → Raw → Prop
  | [], v => v.isTable = false
  | name :: rest, v => ∃ entries, v = table entries ∧ ∀ w, (name, w) ∈ entries → Fits rest w

/-- Whether there are tables up to the end of a chain of names, none of them missing. -/
def Opened : List String → Raw → Prop
  | [], _ => True
  | name :: rest, v =>
    ∃ entries, v = table entries ∧
      (rest ≠ [] → ∃ w, entries.lookup name = some w ∧ Opened rest w)

/-- Whether names that differ from those of a chain differ in more than case. -/
def Clean : List String → Raw → Prop
  | [], _ => True
  | name :: rest, v =>
    ∀ entries, v = table entries → ∀ other w, (other, w) ∈ entries →
      Text.lower other = Text.lower name → other = name ∧ Clean rest w

/-- Whether there are tables up to the end of a chain of names, none of them with a name twice. -/
def Orderly : List String → Raw → Prop
  | [], v => v.isTable = false
  | name :: rest, v =>
    ∃ entries, v = table entries ∧ (entries.map Prod.fst).Nodup ∧
      ∀ w, entries.lookup name = some w → Orderly rest w

theorem at?_table (name : String) (rest : List String) (entries : Layer) :
    at? (name :: rest) (table entries) = (entries.lookup name).bind (at? rest) := rfl

theorem last?_cons (name : String) (rest : List String) (entry : String × Raw)
    (entries : Layer) :
    last? (name :: rest) (table (entry :: entries)) =
      (last? (name :: rest) (table entries)).or
        (if entry.1 = name then last? rest entry.2 else none) := by
  rw [last?, last?, List.reverse_cons, List.findSome?_append, List.findSome?_singleton]

end Raw

namespace Layer

open Raw (at? last? Fits Opened Clean)

theorem lookup_cons_eq_ite (other : String) (entry : String × Raw) (rest : Layer) :
    (entry :: rest).lookup other = if other = entry.1 then some entry.2 else rest.lookup other := by
  rw [List.lookup_cons]
  by_cases h : other = entry.1
  · rw [if_pos h, beq_iff_eq.mpr h]
  · rw [if_neg h, beq_eq_false_iff_ne.mpr h]

theorem lookup_put (name other : String) (v : Raw) (l : Layer) :
    (put name v l).lookup other = if other = name then some v else l.lookup other := by
  induction l with
  | nil => exact lookup_cons_eq_ite other (name, v) []
  | cons entry rest ih =>
      rw [put]
      split
      next hname =>
        subst hname
        rw [lookup_cons_eq_ite, lookup_cons_eq_ite other entry]
        split <;> rfl
      next hname =>
        rw [lookup_cons_eq_ite, lookup_cons_eq_ite other entry, ih]
        split
        next hother => rw [if_neg (hother ▸ hname)]
        next => rfl

theorem combine_of_leaf {v : Raw} (hleaf : v.isTable = false) (old : Option Raw) :
    combine old v = v := by
  cases v with
  | table entries => cases hleaf
  | _ => rw [combine]; exact nofun

theorem combine_table (under entries : Layer) :
    combine (some (.table under)) (.table entries) = .table (overlay under entries) := by
  rw [combine]

/-! A layer over another. -/

/-- Laying a value over another one opens no table and closes none. At the end of the chain stands
what the upper value has there, or else what the lower one has. -/
def LaysOver (p : List String) : Prop :=
  ∀ old v, Opened p old → Fits p v →
    Opened p (combine (some old) v) ∧
      (combine (some old) v).at? p = (v.last? p).or (old.at? p)

theorem laysOver_nil : LaysOver [] := by
  intro old v _ hleaf
  rw [combine_of_leaf hleaf]
  exact ⟨trivial, rfl⟩

theorem LaysOver.put {rest : List String} (hrest : LaysOver rest) (name : String) {under : Layer}
    {v : Raw} (hunder : Opened (name :: rest) (.table under)) (hv : Fits rest v) :
    Opened (name :: rest) (.table (put name (combine (under.lookup name) v) under)) ∧
      at? (name :: rest) (.table (put name (combine (under.lookup name) v) under)) =
        (last? rest v).or (at? (name :: rest) (.table under)) := by
  obtain ⟨_, ⟨⟩, hopened⟩ := hunder
  rw [Raw.at?_table, Raw.at?_table, lookup_put, if_pos rfl, Option.bind_some]
  cases rest with
  | nil =>
      rw [combine_of_leaf hv]
      exact ⟨⟨_, rfl, fun hne => absurd rfl hne⟩, rfl⟩
  | cons next more =>
      obtain ⟨w, hw, hnext⟩ := hopened (by simp)
      obtain ⟨hresult, hat⟩ := hrest w v hnext hv
      rw [hw, Option.bind_some]
      refine ⟨⟨_, rfl, fun _ => ⟨_, ?_, hresult⟩⟩, hat⟩
      rw [lookup_put, if_pos rfl]

theorem opened_put_of_ne {name other : String} (hne : name ≠ other) {rest : List String}
    {under : Layer} (v : Raw) (hunder : Opened (name :: rest) (.table under)) :
    Opened (name :: rest) (.table (put other v under)) ∧
      at? (name :: rest) (.table (put other v under)) = at? (name :: rest) (.table under) := by
  obtain ⟨_, ⟨⟩, hopened⟩ := hunder
  rw [Raw.at?_table, Raw.at?_table, lookup_put, if_neg hne]
  refine ⟨⟨_, rfl, fun hrest => ?_⟩, rfl⟩
  rw [lookup_put, if_neg hne]
  exact hopened hrest

theorem LaysOver.cons {rest : List String} (hrest : LaysOver rest) (name : String) :
    LaysOver (name :: rest) := by
  intro old v hold hv
  obtain ⟨under, rfl, -⟩ := id hold
  obtain ⟨entries, rfl, hentries⟩ := hv
  rw [combine_table]
  induction entries generalizing under with
  | nil =>
      rw [overlay]
      exact ⟨hold, rfl⟩
  | cons entry others ih =>
      rw [overlay, Raw.last?_cons, Option.or_assoc]
      have hothers : ∀ w, (name, w) ∈ others → Fits rest w :=
        fun w hw => hentries w (List.mem_cons_of_mem _ hw)
      split
      next hname =>
        subst hname
        obtain ⟨hopened, hat⟩ := hrest.put entry.1 hold (hentries entry.2 (by simp))
        rw [← hat]
        exact ih _ hopened hothers
      next hname =>
        obtain ⟨hopened, hat⟩ := opened_put_of_ne (Ne.symm hname)
          (combine (under.lookup entry.1) entry.2) hold
        rw [Option.none_or, ← hat]
        exact ih _ hopened hothers

theorem laysOver (p : List String) : LaysOver p := by
  induction p with
  | nil => exact laysOver_nil
  | cons name rest ih => exact ih.cons name

/-! A value laid over a layer. -/

theorem combine_none (v : Raw) : combine none v = v := by
  cases v with
  | table entries => rw [combine]; exact nofun
  | _ => rw [combine]; exact nofun

theorem mem_put {name : String} {v : Raw} {l : Layer} {entry : String × Raw}
    (hentry : entry ∈ put name v l) : entry = (name, v) ∨ entry ∈ l := by
  induction l with
  | nil => exact .inl (List.mem_singleton.mp hentry)
  | cons first rest ih =>
      rw [put] at hentry
      split at hentry
      next hname =>
        rcases List.mem_cons.mp hentry with rfl | hrest
        · exact .inl (by rw [hname])
        · exact .inr (List.mem_cons_of_mem _ hrest)
      next =>
        rcases List.mem_cons.mp hentry with rfl | hrest
        · exact .inr List.mem_cons_self
        · exact (ih hrest).imp_right (List.mem_cons_of_mem _)

theorem nodup_put {l : Layer} (hl : (l.map Prod.fst).Nodup) (name : String) (v : Raw) :
    ((put name v l).map Prod.fst).Nodup := by
  induction l with
  | nil => simp [put]
  | cons first rest ih =>
      obtain ⟨hfirst, hrest⟩ := List.nodup_cons.mp hl
      rw [put]
      split
      next => exact hl
      next hne =>
        refine List.nodup_cons.mpr ⟨fun hmem => ?_, ih hrest⟩
        obtain ⟨entry, hentry, hname⟩ := List.mem_map.mp hmem
        rcases mem_put hentry with rfl | hentry
        · exact hne hname.symm
        · exact hfirst (List.mem_map.mpr ⟨entry, hentry, hname⟩)

theorem lookup_of_mem {l : Layer} (hl : (l.map Prod.fst).Nodup) {name : String} {v : Raw}
    (hentry : (name, v) ∈ l) : l.lookup name = some v := by
  induction l with
  | nil => cases hentry
  | cons first rest ih =>
      obtain ⟨hfirst, hrest⟩ := List.nodup_cons.mp hl
      rw [lookup_cons_eq_ite]
      rcases List.mem_cons.mp hentry with rfl | hentry
      · exact if_pos rfl
      · rw [if_neg]
        · exact ih hrest hentry
        · rintro rfl
          exact hfirst (List.mem_map.mpr ⟨_, hentry, rfl⟩)

theorem mem_of_lookup {l : Layer} {name : String} {v : Raw} (hv : l.lookup name = some v) :
    (name, v) ∈ l := by
  obtain ⟨before, after, rfl, -⟩ := List.lookup_eq_some_iff.mp hv
  simp

end Layer

namespace Raw

theorem Orderly.fits {p : List String} {v : Raw} (hv : Orderly p v) : Fits p v := by
  induction p generalizing v with
  | nil => exact hv
  | cons name rest ih =>
      obtain ⟨entries, rfl, hnodup, hentries⟩ := hv
      exact ⟨entries, rfl, fun w hw => ih (hentries w (Layer.lookup_of_mem hnodup hw))⟩

theorem last?_of_nodup {entries : Layer} (hnodup : (entries.map Prod.fst).Nodup) (name : String)
    (rest : List String) :
    last? (name :: rest) (table entries) = (entries.lookup name).bind (last? rest) := by
  induction entries with
  | nil => rfl
  | cons first others ih =>
      obtain ⟨hfirst, hothers⟩ := List.nodup_cons.mp hnodup
      rw [last?_cons, ih hothers, Layer.lookup_cons_eq_ite]
      by_cases hname : first.1 = name
      · have hnone : others.lookup name = none := by
          rw [Option.eq_none_iff_forall_ne_some]
          intro w hw
          exact hfirst (hname ▸ List.mem_map.mpr ⟨_, Layer.mem_of_lookup hw, rfl⟩)
        rw [if_pos hname, if_pos hname.symm, hnone]
        rfl
      · rw [if_neg hname, if_neg (Ne.symm hname), Option.or_none]

theorem Orderly.last?_eq {p : List String} {v : Raw} (hv : Orderly p v) :
    v.last? p = v.at? p := by
  induction p generalizing v with
  | nil => rfl
  | cons name rest ih =>
      obtain ⟨entries, rfl, hnodup, hentries⟩ := hv
      rw [last?_of_nodup hnodup, at?_table]
      cases hlookup : entries.lookup name with
      | none => rfl
      | some w => exact ih (hentries w hlookup)

end Raw

/-- Whether chains of names part at names that differ in more than case. -/
def Apart : List String → List String → Prop
  | name :: rest, other :: more =>
    Text.lower name ≠ Text.lower other ∨ name = other ∧ Apart rest more
  | _, _ => False

instance decidableApart : (p q : List String) → Decidable (Apart p q)
  | _ :: rest, _ :: more =>
    have : Decidable (Apart rest more) := decidableApart rest more
    inferInstanceAs (Decidable (_ ∨ _))
  | [], _ => .isFalse id
  | _ :: _, [] => .isFalse id

theorem apart_append {front p q : List String} :
    Apart (front ++ p) (front ++ q) ↔ Apart p q := by
  induction front with
  | nil => exact Iff.rfl
  | cons name rest ih => simp [Apart, ih]

theorem apart_irrefl (p : List String) : ¬ Apart p p := by
  induction p with
  | nil => exact id
  | cons name rest ih => exact fun h => h.elim (fun hne => hne rfl) fun h => ih h.2

namespace Layer

open Raw (at? last? Fits Opened Clean Orderly)

theorem combine_nest_cons (v : Raw) (name : String) (rest : List String) (under : Layer) :
    combine (some (.table under)) (nest v (name :: rest)) =
      .table (put name (combine (under.lookup name) (nest v rest)) under) := by
  rw [nest, combine_table, overlay, overlay]

theorem orderly_put {name : String} {rest : List String} {under : Layer} {other : String} {v : Raw}
    (hunder : Orderly (name :: rest) (.table under)) (hv : name = other → Orderly rest v) :
    Orderly (name :: rest) (.table (put other v under)) := by
  obtain ⟨_, ⟨⟩, hnodup, hentries⟩ := hunder
  refine ⟨_, rfl, nodup_put hnodup _ _, fun w hw => ?_⟩
  rw [lookup_put] at hw
  split at hw
  next hname => exact Option.some.inj hw ▸ hv hname
  next => exact hentries w hw

theorem at?_put (name : String) (rest : List String) (under : Layer) (other : String) (v : Raw) :
    at? (name :: rest) (.table (put other v under)) =
      if name = other then at? rest v else at? (name :: rest) (.table under) := by
  rw [Raw.at?_table, lookup_put]
  split <;> rfl

/-- A nested value goes into no value as it goes into an empty table. -/
theorem exists_under {name : String} {rest : List String} {old : Option Raw}
    (hold : ∀ u, old = some u → Orderly (name :: rest) u) (v : Raw) (first : String)
    (more : List String) :
    ∃ under : Layer, Orderly (name :: rest) (.table under) ∧
      old.bind (at? (name :: rest)) = at? (name :: rest) (.table under) ∧
      combine old (nest v (first :: more)) =
        .table (put first (combine (under.lookup first) (nest v more)) under) := by
  cases old with
  | none =>
      refine ⟨[], ⟨[], rfl, List.nodup_nil, nofun⟩, rfl, ?_⟩
      rw [combine_none, nest, List.lookup_nil, combine_none, put]
  | some u =>
      obtain ⟨under, rfl, h⟩ := hold u rfl
      exact ⟨under, ⟨under, rfl, h⟩, rfl, combine_nest_cons v first more under⟩

/-- A value under a chain of names stands at the end of the chain, and changes nothing at the end
of a chain that is apart. -/
theorem at?_combine_nest {v : Raw} (hleaf : v.isTable = false) {p q : List String}
    (hq : q = p ∨ Apart q p) {old : Option Raw} (hold : ∀ u, old = some u → Orderly p u) :
    Orderly p (combine old (nest v q)) ∧
      (combine old (nest v q)).at? p = if q = p then some v else old.bind (at? p) := by
  induction p generalizing q old with
  | nil =>
      obtain rfl : q = [] := hq.resolve_right fun h => by cases q <;> exact h
      rw [nest, combine_of_leaf hleaf, if_pos rfl]
      exact ⟨hleaf, rfl⟩
  | cons name rest ih =>
      obtain ⟨first, more, rfl⟩ : ∃ first more, q = first :: more := by
        cases q with
        | nil => exact hq.elim nofun False.elim
        | cons first more => exact ⟨first, more, rfl⟩
      obtain ⟨under, hunder, hat, hcombine⟩ := exists_under hold v first more
      rw [hcombine, hat, at?_put]
      by_cases hname : name = first
      · subst hname
        have hmore : more = rest ∨ Apart more rest := by
          rcases hq with heq | hne | ⟨-, hapart⟩
          · exact .inl (List.cons.inj heq).2
          · exact absurd rfl hne
          · exact .inr hapart
        have hentry : ∀ u, under.lookup name = some u → Orderly rest u := by
          obtain ⟨_, ⟨⟩, -, hentries⟩ := hunder
          exact fun _ => hentries _
        obtain ⟨horderly, hvalue⟩ := ih hmore hentry
        refine ⟨orderly_put hunder fun _ => horderly, ?_⟩
        rw [if_pos rfl, hvalue, Raw.at?_table]
        simp only [List.cons.injEq, true_and]
      · refine ⟨orderly_put hunder fun h => absurd h hname, ?_⟩
        rw [if_neg hname, if_neg fun heq => hname (List.cons.inj heq).1.symm]

/-! Names that differ in case only. -/

theorem clean_put {name : String} {rest : List String} {under : Layer} {other : String} {v : Raw}
    (hunder : Clean (name :: rest) (.table under))
    (hv : Text.lower other = Text.lower name → other = name ∧ Clean rest v) :
    Clean (name :: rest) (.table (put other v under)) := by
  rintro _ ⟨⟩ n w hw
  rcases mem_put hw with heq | hw
  · cases heq
    exact hv
  · exact hunder under rfl n w hw

theorem clean_overlay {name : String} {rest : List String}
    (hcombine : ∀ {old : Option Raw} {v : Raw}, (∀ u, old = some u → Clean rest u) →
      Clean rest v → Clean rest (combine old v))
    {under entries : Layer} (hunder : Clean (name :: rest) (.table under))
    (hentries : Clean (name :: rest) (.table entries)) :
    Clean (name :: rest) (.table (overlay under entries)) := by
  induction entries generalizing under with
  | nil =>
      rw [overlay]
      exact hunder
  | cons first others ih =>
      rw [overlay]
      refine ih (clean_put hunder fun hlower => ?_) ?_
      · obtain ⟨hname, hfirst⟩ := hentries _ rfl first.1 first.2 (by simp) hlower
        refine ⟨hname, hcombine (fun u hu => ?_) hfirst⟩
        exact (hunder _ rfl first.1 u (mem_of_lookup hu) hlower).2
      · rintro _ ⟨⟩ other w hw
        exact hentries _ rfl other w (List.mem_cons_of_mem _ hw)

theorem clean_combine {p : List String} {old : Option Raw} {v : Raw}
    (hold : ∀ u, old = some u → Clean p u) (hv : Clean p v) : Clean p (combine old v) := by
  induction p generalizing old v with
  | nil => trivial
  | cons name rest ih =>
      match v, old with
      | .table entries, some (.table under) =>
          rw [combine_table]
          exact clean_overlay ih (hold _ rfl) hv
      | .table entries, none =>
          rw [combine_none]
          exact hv
      | .table entries, some .null | .table entries, some (.bool _) | .table entries, some (.int _)
      | .table entries, some (.float _) | .table entries, some (.text _)
      | .table entries, some .moment | .table entries, some .list =>
          rw [combine]
          · exact hv
          · exact nofun
      | .null, _ | .bool _, _ | .int _, _ | .float _, _ | .text _, _ | .moment, _ | .list, _ =>
          rw [combine_of_leaf rfl]
          exact hv

theorem clean_nest {p q : List String} (hq : q = p ∨ Apart q p) (v : Raw) :
    Clean p (nest v q) := by
  induction p generalizing q with
  | nil => trivial
  | cons name rest ih =>
      cases q with
      | nil => exact hq.elim nofun False.elim
      | cons first more =>
          rintro _ ⟨⟩ other w hw hlower
          cases List.mem_singleton.mp hw
          rcases hq with heq | hne | ⟨hname, hapart⟩
          · cases heq
            exact ⟨rfl, ih (.inl rfl)⟩
          · exact absurd hlower hne
          · exact ⟨hname, ih (.inr hapart)⟩

theorem find?_of_clean {name : String} {rest : List String} {l : Layer}
    (hl : Clean (name :: rest) (.table l)) : l.find? name = l.lookup name := by
  rw [find?]
  cases hlookup : l.lookup name with
  | some v => rfl
  | none =>
      rw [Option.map_eq_none_iff, List.find?_eq_none]
      intro entry hentry hlower
      obtain ⟨hname, -⟩ := hl l rfl entry.1 entry.2 hentry (of_decide_eq_true hlower)
      exact bne_iff_ne.mp (List.lookup_eq_none_iff.mp hlookup entry hentry) hname.symm

/-! Values set one after the other. -/

theorem set_eq_combine {name : String} (hparts : Text.splitOn '.' name ≠ []) (v : Raw) (l : Layer) :
    Raw.table (l.set name v) = combine (some (.table l)) (nest v (Text.splitOn '.' name)) := by
  cases hsplit : Text.splitOn '.' name with
  | nil => exact absurd hsplit hparts
  | cons first rest => rw [set, single, hsplit, nest, combine_table]

end Layer

end ScriptTree.Settings
