import ScriptTree.Cli.Command
import ScriptTree.Proofs.Settings.Layers
import Mathlib.Data.List.TakeWhile

/-!
Flags that are given. They are the ones that the command line names, where values are not taken
for names, and the value of each is read from a text.
-/

namespace ScriptTree.Cli

/-- What is done in two steps gives a result only if each step does. -/
theorem exists_ok_of_bind {x : Except ε α} {next : α → Except ε β} {b : β}
    (hx : x >>= next = .ok b) : ∃ a, x = .ok a ∧ next a = .ok b := by
  cases x with
  | error e => cases hx
  | ok a => exact ⟨a, rfl, hx⟩

theorem exists_ok_of_map_some {x : Except ε α} {r : Option α} (hx : some <$> x = .ok r) :
    ∃ a, x = .ok a ∧ some a = r := by
  cases x with
  | error e => cases hx
  | ok a => exact ⟨a, rfl, Except.ok.inj hx⟩

variable {flags : List Flag} {f : Flag}

/-! Which flags an argument names. -/

/-- Short names written together are read on to the rest, past switches that no value follows. -/
inductive Flag.Reaches (flags : List Flag) : List Char → List Char → Prop
  | refl (body : List Char) : Reaches flags body body
  | past {c : Char} {rest last : List Char} {f : Flag}
    (hfound : Flag.shortNamed? flags c = some f) (hswitch : f.isSwitch = true)
    (hvalue : ∀ d value, rest ≠ '=' :: d :: value) (hrest : Reaches flags rest last) :
    Reaches flags (c :: rest) last

/-- With two dashes an argument names a flag by its long name, with one dash each flag whose short
name is read. -/
def Flag.NamedBy (flags : List Flag) (f : Flag) : Arguments.Shape → Prop
  | .long body => Flag.named? flags (String.ofList (body.takeWhile (· ≠ '='))) = some f
  | .short body => ∃ c rest, Reaches flags body (c :: rest) ∧ Flag.shortNamed? flags c = some f
  | .word | .stop => False

/-- The value of the last flag that an argument names is the next argument. -/
def Arguments.Shape.AwaitsValue (flags : List Flag) : Arguments.Shape → Prop
  | .long body => '=' ∉ body ∧ ∃ f : Flag, f.NamedBy flags (.long body) ∧ f.isSwitch = false
  | .short body => ∃ c f, Flag.Reaches flags body [c] ∧ Flag.shortNamed? flags c = some f ∧
      f.isSwitch = false
  | .word | .stop => False

/-- A command line names a flag before two dashes, and not in the value of another. -/
inductive Arguments.Names (flags : List Flag) (f : Flag) : List String → Prop
  | here {argument : String} {others : List String} (hnamed : f.NamedBy flags (shape argument)) :
    Names flags f (argument :: others)
  | later {argument : String} {others : List String} (hgoes : shape argument ≠ .stop)
    (hvalue : ¬ (shape argument).AwaitsValue flags) (hothers : Names flags f others) :
    Names flags f (argument :: others)
  | behind {argument value : String} {others : List String}
    (hvalue : (shape argument).AwaitsValue flags) (hothers : Names flags f others) :
    Names flags f (argument :: value :: others)

theorem mem_of_named? {name : String} (hf : Flag.named? flags name = some f) : f ∈ flags :=
  List.mem_of_find?_eq_some hf

theorem mem_of_shortNamed? {c : Char} (hf : Flag.shortNamed? flags c = some f) : f ∈ flags :=
  List.mem_of_find?_eq_some hf

theorem Flag.NamedBy.mem {s : Arguments.Shape} (hf : f.NamedBy flags s) : f ∈ flags := by
  cases s with
  | long body => exact mem_of_named? hf
  | short body =>
      obtain ⟨c, rest, -, hfound⟩ := hf
      exact mem_of_shortNamed? hfound
  | word | stop => exact hf.elim

theorem Arguments.Names.mem {arguments : List String} (hf : Names flags f arguments) :
    f ∈ flags := by
  induction hf with
  | here hnamed => exact hnamed.mem
  | later _ _ _ ih => exact ih
  | behind _ _ ih => exact ih

section Cluster

variable {c : Char} {rest : List Char} {g : Flag}

theorem reaches_cons_iff {last : List Char} :
    Flag.Reaches flags (c :: rest) last ↔ last = c :: rest ∨
      (∃ f, Flag.shortNamed? flags c = some f ∧ f.isSwitch = true) ∧
        (∀ d value, rest ≠ '=' :: d :: value) ∧ Flag.Reaches flags rest last := by
  constructor
  · intro hreaches
    cases hreaches with
    | refl => exact .inl rfl
    | past hfound hswitch hvalue hrest => exact .inr ⟨⟨_, hfound, hswitch⟩, hvalue, hrest⟩
  · rintro (rfl | ⟨⟨f, hfound, hswitch⟩, hvalue, hrest⟩)
    · exact .refl _
    · exact .past hfound hswitch hvalue hrest

theorem not_namedBy_nil : ¬ f.NamedBy flags (.short []) := by
  rintro ⟨c, rest, hreaches, -⟩
  cases hreaches

theorem not_awaitsValue_nil : ¬ Arguments.Shape.AwaitsValue flags (.short []) := by
  rintro ⟨c, f, hreaches, -⟩
  cases hreaches

/-- The first short name, and behind a switch without a value the others. -/
theorem namedBy_cons_iff :
    g.NamedBy flags (.short (c :: rest)) ↔ Flag.shortNamed? flags c = some g ∨
      (∃ f, Flag.shortNamed? flags c = some f ∧ f.isSwitch = true) ∧
        (∀ d value, rest ≠ '=' :: d :: value) ∧ g.NamedBy flags (.short rest) := by
  constructor
  · rintro ⟨d, after, hreaches, hfound⟩
    rcases reaches_cons_iff.mp hreaches with hhere | ⟨hswitch, hvalue, hrest⟩
    · obtain ⟨rfl, rfl⟩ := List.cons.inj hhere
      exact .inl hfound
    · exact .inr ⟨hswitch, hvalue, d, after, hrest, hfound⟩
  · rintro (hfound | ⟨hswitch, hvalue, d, after, hrest, hfound⟩)
    · exact ⟨c, rest, .refl _, hfound⟩
    · exact ⟨d, after, reaches_cons_iff.mpr (.inr ⟨hswitch, hvalue, hrest⟩), hfound⟩

theorem awaitsValue_cons_iff :
    Arguments.Shape.AwaitsValue flags (.short (c :: rest)) ↔
      (rest = [] ∧ ∃ f, Flag.shortNamed? flags c = some f ∧ f.isSwitch = false) ∨
      (∃ f, Flag.shortNamed? flags c = some f ∧ f.isSwitch = true) ∧
        (∀ d value, rest ≠ '=' :: d :: value) ∧
          Arguments.Shape.AwaitsValue flags (.short rest) := by
  constructor
  · rintro ⟨d, f, hreaches, hfound⟩
    rcases reaches_cons_iff.mp hreaches with hhere | ⟨hswitch, hvalue, hrest⟩
    · obtain ⟨rfl, rfl⟩ := List.cons.inj hhere
      exact .inl ⟨rfl, f, hfound⟩
    · exact .inr ⟨hswitch, hvalue, d, f, hrest, hfound⟩
  · rintro (⟨rfl, f, hfound⟩ | ⟨hswitch, hvalue, d, f, hrest, hfound⟩)
    · exact ⟨c, f, .refl _, hfound⟩
    · exact ⟨d, f, reaches_cons_iff.mpr (.inr ⟨hswitch, hvalue, hrest⟩), hfound⟩

end Cluster

/-! Which flags are given. -/

/-- The values are those of the named flags, each read from a text. -/
structure Gives (named : Flag → Prop) (given : List Given) : Prop where
  sound : ∀ g ∈ given, ∃ f, named f ∧ ∃ value, f.read value = .ok g
  complete : ∀ f, named f → ∃ g ∈ given, ∃ value, f.read value = .ok g

section Gives

variable {named others : Flag → Prop} {given more : List Given} {value : String} {g : Given}

theorem gives_nil (hnamed : ∀ f, ¬ named f) : Gives named [] :=
  ⟨nofun, fun f hf => absurd hf (hnamed f)⟩

theorem gives_singleton (hread : f.read value = .ok g) : Gives (f = ·) [g] := by
  constructor
  · intro other hother
    cases List.mem_singleton.mp hother
    exact ⟨f, rfl, value, hread⟩
  · rintro _ rfl
    exact ⟨g, List.mem_cons_self, value, hread⟩

theorem Gives.append (hgiven : Gives named given) (hmore : Gives others more) :
    Gives (fun f => named f ∨ others f) (given ++ more) := by
  constructor
  · intro g hg
    rcases List.mem_append.mp hg with hg | hg
    · exact (hgiven.sound g hg).imp fun _ => .imp_left .inl
    · exact (hmore.sound g hg).imp fun _ => .imp_left .inr
  · rintro f (hf | hf)
    · exact (hgiven.complete f hf).imp fun _ => .imp_left (List.mem_append_left more)
    · exact (hmore.complete f hf).imp fun _ => .imp_left (List.mem_append_right given)

theorem Gives.congr (hgiven : Gives named given) (hnamed : ∀ f, named f ↔ others f) :
    Gives others given := by
  obtain rfl : named = others := funext fun f => propext (hnamed f)
  exact hgiven

theorem read_eq_ok (hread : f.read value = .ok g) : g.1 = f.name ∧ g.2.isTable = false := by
  rw [Flag.read] at hread
  split at hread
  next =>
    cases hread
    exact ⟨rfl, rfl⟩
  next =>
    split at hread
    · cases hread
      exact ⟨rfl, rfl⟩
    · cases hread
  next =>
    split at hread
    · cases hread
      exact ⟨rfl, rfl⟩
    · cases hread

end Gives

namespace Reading

/-- What an argument says is about the flags that it names; the last of them may still be without
a value. -/
inductive Follows (flags : List Flag) (s : Arguments.Shape) : Reading → Prop
  | whole {given : List Given} (hgiven : Gives (·.NamedBy flags s) given)
    (hvalue : ¬ s.AwaitsValue flags) : Follows flags s { given := given }
  | awaiting {given : List Given} {f : Flag} {complaint : FlagError}
    (hgiven : ∀ value g, f.read value = .ok g → Gives (·.NamedBy flags s) (given ++ [g]))
    (hvalue : s.AwaitsValue flags) :
    Follows flags s { given := given, pending := some (f, complaint) }

variable {s : Arguments.Shape} {value : String}

theorem follows_of_read {r : Reading}
    (hr : (do return { given := [← f.read value] } : Except FlagError Reading) = .ok r)
    (hnamed : ∀ g, f = g ↔ g.NamedBy flags s) (hvalue : ¬ s.AwaitsValue flags) :
    r.Follows flags s := by
  obtain ⟨g, hread, hr⟩ := exists_ok_of_bind hr
  cases hr
  exact .whole ((gives_singleton hread).congr hnamed) hvalue

theorem follows_of_pending {complaint : FlagError} (hnamed : ∀ g, f = g ↔ g.NamedBy flags s)
    (hvalue : s.AwaitsValue flags) : Follows flags s { pending := some (f, complaint) } :=
  .awaiting (fun _ _ hread => (gives_singleton hread).congr hnamed) hvalue

theorem follows_long {body : List Char} {r : Reading} (hr : long flags body = .ok r) :
    r.Follows flags (.long body) := by
  unfold long at hr
  split at hr
  next => cases hr
  next => cases hr
  next => cases hr
  next =>
    dsimp only at hr
    split at hr
    next => cases hr
    next f _ _ hfound hassigned =>
      have hnamed : ∀ g, f = g ↔ g.NamedBy flags (.long body) := by
        simp only [Flag.NamedBy, hfound, Option.some.injEq, implies_true]
      refine follows_of_read hr hnamed fun ⟨hbare, _⟩ => ?_
      rw [List.dropWhile_eq_nil_iff.mpr] at hassigned
      · cases hassigned
      · exact fun d hd => decide_eq_true (ne_of_mem_of_not_mem hd hbare)
    next f hfound hbare =>
      have hnamed : ∀ g, f = g ↔ g.NamedBy flags (.long body) := by
        simp only [Flag.NamedBy, hfound, Option.some.injEq, implies_true]
      split at hr
      next hswitch =>
        refine follows_of_read hr hnamed fun ⟨_, g, hg, hvalue⟩ => ?_
        obtain rfl := (hnamed g).mpr hg
        rw [hswitch] at hvalue
        cases hvalue
      next hvalue =>
        cases hr
        refine follows_of_pending hnamed ⟨fun hmem => ?_, f, hfound, eq_false_of_ne_true hvalue⟩
        simpa using List.dropWhile_eq_nil_iff.mp hbare '=' hmem

theorem Follows.cons {body rest : List Char} {r : Reading} {g : Given}
    (hr : r.Follows flags (.short rest)) (hread : f.read value = .ok g)
    (hnamed : ∀ other : Flag,
      f = other ∨ other.NamedBy flags (.short rest) ↔ other.NamedBy flags (.short body))
    (hvalue : Arguments.Shape.AwaitsValue flags (.short body) ↔
      Arguments.Shape.AwaitsValue flags (.short rest)) :
    Follows flags (.short body) { r with given := g :: r.given } := by
  cases hr with
  | whole hgiven hrest =>
      exact .whole (((gives_singleton hread).append hgiven).congr hnamed) (mt hvalue.mp hrest)
  | awaiting hgiven hrest =>
      exact .awaiting (fun value last hlast =>
        ((gives_singleton hread).append (hgiven value last hlast)).congr hnamed) (hvalue.mpr hrest)

theorem follows_cluster {body : List Char} {r : Reading} (hr : cluster flags body = .ok r) :
    r.Follows flags (.short body) := by
  induction body generalizing r with
  | nil =>
      cases hr
      exact .whole (gives_nil fun _ => not_namedBy_nil) not_awaitsValue_nil
  | cons c rest ih =>
      unfold cluster at hr
      split at hr
      next hfound =>
        split at hr
        · cases hr
          refine .whole (gives_nil fun g => ?_) ?_
          · simp [namedBy_cons_iff, hfound]
          · simp [awaitsValue_cons_iff, hfound]
        · cases hr
      next f hfound =>
        split at hr
        next d value =>
          refine follows_of_read hr (fun g => ?_) ?_
          · simp [namedBy_cons_iff, hfound]
          · simp [awaitsValue_cons_iff]
        next hassigned =>
          have hbare : ∀ d value, rest ≠ '=' :: d :: value := hassigned
          split at hr
          next hswitch =>
            obtain ⟨first, hread, hr⟩ := exists_ok_of_bind hr
            obtain ⟨others, hothers, hr⟩ := exists_ok_of_bind hr
            cases hr
            refine (ih hothers).cons hread (fun g => ?_) ?_
            · simp [namedBy_cons_iff, hfound, hswitch, hbare]
            · simp [awaitsValue_cons_iff, hfound, hswitch, hbare]
          next hvalue =>
            have hnamed : ∀ g, f = g ↔ g.NamedBy flags (.short (c :: rest)) := by
              simp [namedBy_cons_iff, hfound, hvalue]
            split at hr
            next hlast =>
              cases hr
              refine follows_of_pending hnamed ?_
              simp [awaitsValue_cons_iff, hfound, hvalue, List.isEmpty_iff.mp hlast]
            next hlast =>
              refine follows_of_read hr hnamed ?_
              simp [awaitsValue_cons_iff, hfound, hvalue, mt List.isEmpty_iff.mpr hlast]

end Reading

namespace Arguments

theorem follows_reading {s : Shape} {r : Reading} (hr : reading flags s = .ok (some r)) :
    r.Follows flags s := by
  cases s with
  | word => cases hr
  | stop => cases hr
  | long body =>
      rw [reading] at hr
      obtain ⟨_, hlong, ⟨⟩⟩ := exists_ok_of_map_some hr
      exact Reading.follows_long hlong
  | short body =>
      rw [reading] at hr
      obtain ⟨_, hcluster, ⟨⟩⟩ := exists_ok_of_map_some hr
      exact Reading.follows_cluster hcluster

theorem shape_of_reading {s : Shape} (hr : reading flags s = .ok none) : s = .word ∨ s = .stop := by
  cases s with
  | word => exact .inl rfl
  | stop => exact .inr rfl
  | long body =>
      rw [reading] at hr
      obtain ⟨_, -, hnone⟩ := exists_ok_of_map_some hr
      cases hnone
  | short body =>
      rw [reading] at hr
      obtain ⟨_, -, hnone⟩ := exists_ok_of_map_some hr
      cases hnone

section Names

variable {argument value : String} {others : List String}

theorem names_of_not_awaitsValue (hgoes : shape argument ≠ .stop)
    (hvalue : ¬ (shape argument).AwaitsValue flags) :
    f.NamedBy flags (shape argument) ∨ Names flags f others ↔
      Names flags f (argument :: others) := by
  constructor
  · rintro (hnamed | hothers)
    · exact .here hnamed
    · exact .later hgoes hvalue hothers
  · intro hnames
    cases hnames with
    | here hnamed => exact .inl hnamed
    | later _ _ hothers => exact .inr hothers
    | behind hawaits => exact absurd hawaits hvalue

theorem names_of_awaitsValue (hvalue : (shape argument).AwaitsValue flags) :
    f.NamedBy flags (shape argument) ∨ Names flags f others ↔
      Names flags f (argument :: value :: others) := by
  constructor
  · rintro (hnamed | hothers)
    · exact .here hnamed
    · exact .behind hvalue hothers
  · intro hnames
    cases hnames with
    | here hnamed => exact .inl hnamed
    | later _ hnone => exact absurd hvalue hnone
    | behind _ hothers => exact .inr hothers

theorem not_names_of_stop (hstop : shape argument = .stop) :
    ¬ Names flags f (argument :: others) := by
  intro hnames
  cases hnames with
  | here hnamed =>
      rw [hstop] at hnamed
      exact hnamed
  | later hgoes => exact hgoes hstop
  | behind hvalue =>
      rw [hstop] at hvalue
      exact hvalue

end Names

/-- The flags that are given are the ones that the command line names. -/
theorem gives_of_parse {arguments : List String} {a : Arguments}
    (hparse : parse flags arguments = .ok a) : Gives (Names flags · arguments) a.given := by
  fun_induction parse flags arguments generalizing a with
  | case1 =>
      cases hparse
      exact gives_nil fun f hf => nomatch hf
  | case2 argument others hstop =>
      cases hparse
      exact gives_nil fun f => not_names_of_stop hstop
  | case3 => cases hparse
  | case4 argument hgoes others hreading ih =>
      obtain ⟨b, hothers, hparse⟩ := exists_ok_of_bind hparse
      cases hparse
      have hword := (shape_of_reading hreading).resolve_right hgoes
      refine (ih hothers).congr fun f => ?_
      rw [← names_of_not_awaitsValue hgoes (by rw [hword]; exact id), hword]
      exact (or_iff_right id).symm
  | case5 argument hgoes given others hreading ih =>
      obtain ⟨b, hothers, hparse⟩ := exists_ok_of_bind hparse
      cases hparse
      cases follows_reading hreading with
      | whole hgiven hvalue =>
          exact (hgiven.append (ih hothers)).congr fun f => names_of_not_awaitsValue hgoes hvalue
  | case6 => cases hparse
  | case7 argument hgoes given f complaint value others hreading ih =>
      obtain ⟨last, hread, hparse⟩ := exists_ok_of_bind hparse
      obtain ⟨b, hothers, hparse⟩ := exists_ok_of_bind hparse
      cases hparse
      cases follows_reading hreading with
      | awaiting hgiven hvalue =>
          exact ((hgiven value last hread).append (ih hothers)).congr fun f =>
            names_of_awaitsValue hvalue

end Arguments

end ScriptTree.Cli
