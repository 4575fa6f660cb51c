import ScriptTree.Proofs.Js.Syntax.Grammar

/-!
A parser of expressions by precedence climbing. It accepts exactly what the grammar
derives, so a text stands for at most one expression.
-/

namespace ScriptTree.Js.Syntax

/-! The parser; `fuel` bounds the number of calls. -/

def parameters (strict : Bool) : List Terminal → Option (List String × List Terminal)
  | .closeParen :: rest => some ([], rest)
  | .word name :: .closeParen :: rest =>
    if isFree strict name then some ([name], rest) else none
  | .word name :: .comma :: rest => do
    let (names, rest) ← parameters strict rest
    if isFree strict name && !names.isEmpty then some (name :: names, rest) else none
  | _ => none

variable (read : String → Option Number) (strict : Bool)

mutual

def expression : Nat → Nat → List Terminal → Option (Expr × List Terminal)
  | 0, _, _ => none
  | fuel + 1, level, ts => do
    let (left, rest) ← operand fuel ts
    operators fuel level left rest

def operators : Nat → Nat → Expr → List Terminal → Option (Expr × List Terminal)
  | 0, _, _, _ => none
  | fuel + 1, level, left, ts =>
    match ts with
    | .operator op :: rest =>
      if 0 < op.tightness && level ≤ op.tightness then do
        let (right, rest) ← expression fuel (op.tightness + 1) rest
        operators fuel level (.binary op left right) rest
      else some (left, ts)
    | _ => some (left, ts)

def operand : Nat → List Terminal → Option (Expr × List Terminal)
  | 0, _ => none
  | fuel + 1, ts =>
    match ts with
    | .word text :: rest =>
      if text = "true" then some (.boolean true, rest)
      else if text = "false" then some (.boolean false, rest)
      else if text = "function" then callable fuel rest
      else if isFree strict text then some (.identifier text, rest)
      else none
    | .decimal text :: .slash :: rest =>
      if text = "0" && rest.head? = some (.decimal "0") then some (.number .nan, rest.tail)
      else none
    | .decimal text :: rest => (read text).map fun x => (.number x, rest)
    | .minus :: .decimal text :: rest =>
      (read ("-" ++ text)).map fun x => (.number x, rest)
    | .openParen :: rest => do
      let (e, rest) ← expression fuel 1 rest
      match rest with
      | .closeParen :: rest => some (e, rest)
      | _ => none
    | _ => none

def callable : Nat → List Terminal → Option (Expr × List Terminal)
  | 0, _ => none
  | fuel + 1, ts =>
    match ts with
    | .word name :: .openParen :: rest => do
      let (names, rest) ← parameters strict rest
      match rest with
      | .openBrace :: rest =>
        let (returns, rest) ← statements fuel rest
        if isFree strict name then
          some (.named name (names.map Text.toBytes) returns, rest)
        else none
      | _ => none
    | _ => none

def statements : Nat → List Terminal → Option (List Expr × List Terminal)
  | 0, _ => none
  | fuel + 1, ts =>
    match ts with
    | .closeBrace :: rest => some ([], rest)
    | .word text :: rest =>
      if text = "return" then do
        let (value, rest) ← expression fuel 1 rest
        match rest with
        | .semicolon :: rest =>
          let (values, rest) ← statements fuel rest
          some (value :: values, rest)
        | _ => none
      else none
    | _ => none

end

def parse (ts : List Terminal) : Option Expr :=
  match expression read strict (2 * ts.length + 2) 1 ts with
  | some (e, []) => some e
  | _ => none

def readSource (source : ByteString) : Option Expr := do
  let text ← source.text?
  parse read strict (scanAll false text.toList)

/-! What the grammar derives is parsed. -/

section Completeness

variable {read : String → Option Number} {strict : Bool}

/-- What may follow an expression of a level: no operator that binds tighter than the
level, and no part of a quotient. -/
def Follows (level : Nat) (rest : List Terminal) : Prop :=
  ∀ t, rest.head? = some t → t ≠ .slash ∧ ∀ op, t = .operator op → op.tightness ≤ level

theorem Follows.mono {level level' : Nat} {rest : List Terminal}
    (hfollows : Follows level rest) (hlevel : level ≤ level') : Follows level' rest := by
  intro t ht
  refine ⟨(hfollows t ht).1, fun op hop => ?_⟩
  exact Nat.le_trans ((hfollows t ht).2 op hop) hlevel

theorem ne_of_isFree {text keyword : String} (hfree : isFree strict text = true)
    (hkeyword : keyword ∈ Reserved.editionES6.words) : text ≠ keyword := by
  rintro rfl
  simp [isFree, Reserved.Edition.reserves, hkeyword] at hfree

theorem operators_of_follows {fuel level : Nat} {left : Expr} {rest : List Terminal}
    (hrest : Follows level rest) :
    operators read strict (fuel + 1) (level + 1) left rest = some (left, rest) := by
  cases rest with
  | nil => rfl
  | cons t more =>
      cases t with
      | operator op =>
          have htight : ¬ level + 1 ≤ op.tightness := Nat.not_le.mpr
            (Nat.lt_succ_of_le ((hrest _ rfl).2 op rfl))
          simp [operators, htight]
      | _ => rfl

theorem parameters_append {names : List String}
    (hnames : ∀ p ∈ names, isFree strict p = true) (rest : List Terminal) :
    parameters strict (parameterList names ++ rest) = some (names, rest) := by
  induction names with
  | nil => rfl
  | cons name more ih =>
      have hfree := hnames name (by simp)
      have hmore := ih (fun p hp => hnames p (by simp [hp]))
      cases more with
      | nil => simp [parameterList, parameters, hfree]
      | cons next more => simp [parameterList, parameters, hfree, hmore]

/-- The parser reads an expression and goes on with the operators after it. -/
def Parses (read : String → Option Number) (strict : Bool) (level : Nat)
    (ts : List Terminal) (e : Expr) : Prop :=
  ∀ ⦃fuel minimum rest⦄, minimum ≤ level → Follows level rest →
    2 * (ts ++ rest).length + 2 ≤ fuel →
    ∃ fuel', 2 * rest.length + 1 ≤ fuel' ∧
      expression read strict fuel minimum (ts ++ rest) =
        operators read strict fuel' minimum e rest

theorem parses_of_operand {level : Nat} {ts : List Terminal} {e : Expr} (hts : ts ≠ [])
    (hoperand : ∀ fuel rest, Follows level rest → 2 * (ts ++ rest).length ≤ fuel →
      operand read strict (fuel + 1) (ts ++ rest) = some (e, rest)) :
    Parses read strict level ts e := by
  intro fuel minimum rest _ hrest hfuel
  have hlength := List.length_pos_iff.mpr hts
  match fuel with
  | 0 | 1 => omega
  | fuel + 2 =>
      refine ⟨fuel + 1, ?_, ?_⟩
      · rw [List.length_append] at hfuel
        omega
      · rw [expression, hoperand fuel rest hrest (by omega)]
        rfl

/-- An expression in front of something that ends it is parsed by itself. -/
theorem Parses.complete {level fuel minimum : Nat} {ts rest : List Terminal} {e : Expr}
    (hparses : Parses read strict level ts e) (hminimum : minimum < level)
    (hrest : Follows minimum rest) (hfuel : 2 * (ts ++ rest).length + 2 ≤ fuel) :
    expression read strict fuel (minimum + 1) (ts ++ rest) = some (e, rest) := by
  obtain ⟨fuel', hfuel', hparse⟩ :=
    hparses hminimum (hrest.mono (Nat.le_of_lt hminimum)) hfuel
  cases fuel' with
  | zero => omega
  | succ fuel' => rw [hparse, operators_of_follows hrest]

theorem parses_binary {level : Nat} {op : Operator} {left right : List Terminal}
    {l r : Expr} (hbinds : 0 < op.tightness) (hlevel : level ≤ op.tightness)
    (hleft : Parses read strict op.tightness left l)
    (hright : Parses read strict (op.tightness + 1) right r) :
    Parses read strict level (left ++ .operator op :: right) (.binary op l r) := by
  intro fuel minimum rest hminimum hrest hfuel
  have hops : Follows op.tightness (.operator op :: (right ++ rest)) := by
    intro t ht
    obtain rfl : .operator op = t := Option.some.inj ht
    exact ⟨nofun, fun op' hop => by cases hop; exact Nat.le_refl _⟩
  have happend : left ++ .operator op :: right ++ rest =
      left ++ .operator op :: (right ++ rest) := by simp
  rw [happend] at hfuel ⊢
  have hbinding := Nat.le_trans hminimum hlevel
  obtain ⟨fuel₁, hfuel₁, hfirst⟩ := hleft hbinding hops hfuel
  cases fuel₁ with
  | zero => omega
  | succ fuel₁ =>
      have hlength : 2 * (right ++ rest).length + 2 ≤ fuel₁ := by
        rw [List.length_cons] at hfuel₁
        omega
      -- the right operand ends before an operator of the same tightness
      have hvalue := hright.complete (Nat.lt_succ_self _) (hrest.mono hlevel) hlength
      refine ⟨fuel₁, ?_, ?_⟩
      · rw [List.length_append] at hlength
        omega
      · rw [hfirst, operators]
        simp [hbinds, hbinding, hvalue]

theorem follows_cons {t : Terminal} {rest : List Terminal} (level : Nat)
    (hslash : t ≠ .slash) (hoperator : ∀ op, t ≠ .operator op) :
    Follows level (t :: rest) := by
  intro t' ht
  obtain rfl : t = t' := Option.some.inj ht
  exact ⟨hslash, fun op hop => absurd hop (hoperator op)⟩

theorem Parses.closed {fuel : Nat} {t : Terminal} {ts rest : List Terminal} {e : Expr}
    (hparses : Parses read strict 1 ts e) (hslash : t ≠ .slash)
    (hoperator : ∀ op, t ≠ .operator op)
    (hfuel : 2 * (ts ++ t :: rest).length + 2 ≤ fuel) :
    expression read strict fuel 1 (ts ++ t :: rest) = some (e, t :: rest) :=
  hparses.complete (Nat.lt_succ_self 0) (follows_cons 0 hslash hoperator) hfuel

theorem statements_append {body : List (List Terminal × Expr)}
    (hbody : ∀ s ∈ body, Parses read strict 1 s.1 s.2) (rest : List Terminal)
    {fuel : Nat}
    (hfuel : 2 * ((body.flatMap fun s => returnSymbols s.1) ++
      .closeBrace :: rest).length + 1 ≤ fuel) :
    statements read strict fuel
        ((body.flatMap fun s => returnSymbols s.1) ++ .closeBrace :: rest) =
      some (body.map Prod.snd, rest) := by
  induction body generalizing fuel with
  | nil =>
      cases fuel with
      | zero => simp at hfuel
      | succ fuel => rfl
  | cons s more ih =>
      have hmore := @ih (fun s' hs => hbody s' (by simp [hs]))
      have hvalue := hbody s (by simp)
      generalize htail : (more.flatMap fun s => returnSymbols s.1) ++
        .closeBrace :: rest = tail at hmore
      have happend : ((s :: more).flatMap fun s => returnSymbols s.1) ++
          .closeBrace :: rest = .word "return" :: (s.1 ++ .semicolon :: tail) := by
        simp [returnSymbols, ← htail]
      rw [happend] at hfuel ⊢
      simp only [List.length_cons, List.length_append] at hfuel
      cases fuel with
      | zero => omega
      | succ fuel =>
          have hfirst := @Parses.closed _ _ fuel .semicolon _ tail _ hvalue nofun nofun
            (by simp only [List.length_cons, List.length_append]; omega)
          have hothers := @hmore fuel (by omega)
          simp [statements, hfirst, hothers]

theorem parses_function (level : Nat) {name : String} {names : List String}
    {body : List (List Terminal × Expr)} (hname : isFree strict name = true)
    (hnames : ∀ p ∈ names, isFree strict p = true)
    (hbody : ∀ s ∈ body, Parses read strict 1 s.1 s.2) :
    Parses read strict level
      (functionSymbols name names (body.flatMap fun s => returnSymbols s.1))
      (.named name (names.map Text.toBytes) (body.map Prod.snd)) := by
  apply parses_of_operand (by simp [functionSymbols])
  intro fuel rest _ hfuel
  have happend : functionSymbols name names
        (body.flatMap fun s => returnSymbols s.1) ++ rest =
      .word "function" :: .word name :: .openParen :: (parameterList names ++
        .openBrace :: ((body.flatMap fun s => returnSymbols s.1) ++
          .closeBrace :: rest)) := by
    simp [functionSymbols]
  rw [happend] at hfuel ⊢
  simp only [List.length_cons, List.length_append] at hfuel
  cases fuel with
  | zero => omega
  | succ fuel =>
      have hstatements := @statements_append _ _ _ hbody rest fuel
        (by simp only [List.length_append, List.length_cons]; omega)
      have hcallable := parameters_append hnames (.openBrace ::
        ((body.flatMap fun s => returnSymbols s.1) ++ .closeBrace :: rest))
      simp [operand, callable, hcallable, hstatements, hname]

/-- Every derivation is found by the parser. -/
theorem parses_of_derives {level : Nat} {ts : List Terminal} {e : Expr}
    (hderives : Derives read strict level ts e) : Parses read strict level ts e := by
  induction hderives with
  | true level => exact parses_of_operand (by simp) fun _ _ _ _ => rfl
  | false level => exact parses_of_operand (by simp) fun _ _ _ _ => rfl
  | @name level text hfree =>
      apply parses_of_operand (by simp)
      intro fuel rest _ _
      have htrue : text ≠ "true" := ne_of_isFree hfree (by decide +kernel)
      have hfalse : text ≠ "false" := ne_of_isFree hfree (by decide +kernel)
      have hfunction : text ≠ "function" := ne_of_isFree hfree (by decide +kernel)
      simp [operand, htrue, hfalse, hfunction, hfree]
  | @decimal level text x hread =>
      apply parses_of_operand (by simp)
      intro fuel rest hrest _
      have hslash : ∀ more, rest ≠ .slash :: more := by
        rintro more rfl
        exact (hrest _ rfl).1 rfl
      rw [List.singleton_append, operand]
      · simp [hread]
      · exact hslash
  | negative level hread =>
      apply parses_of_operand (by simp)
      intro fuel rest _ _
      simp [operand, hread]
  | nan level => exact parses_of_operand (by simp) fun _ _ _ _ => rfl
  | @grouped level ts e _ ih =>
      apply parses_of_operand (by simp)
      intro fuel rest _ hfuel
      have happend : .openParen :: (ts ++ [.closeParen]) ++ rest =
          .openParen :: (ts ++ .closeParen :: rest) := by simp
      rw [happend, List.length_cons] at hfuel
      have hinner := @Parses.closed _ _ fuel .closeParen _ rest _ ih nofun nofun
        (by omega)
      simp [operand, hinner]
  | binary hbinds hlevel _ _ ihleft ihright =>
      exact parses_binary hbinds hlevel ihleft ihright
  | function level hname hparameters _ ih =>
      exact parses_function level hname hparameters ih

end Completeness

/-! What is parsed is derived by the grammar. -/

section Soundness

variable {read : String → Option Number} {strict : Bool}

/-- No operator of the level or a tighter one comes next. -/
def Stops (level : Nat) (rest : List Terminal) : Prop :=
  ∀ op more, rest = .operator op :: more → op.tightness < level

/-- What the parts of the parser accept with some fuel is derived. -/
structure Sound (read : String → Option Number) (strict : Bool) (fuel : Nat) :
    Prop where
  expression : ∀ {level ts e rest}, 1 ≤ level →
    expression read strict fuel level ts = some (e, rest) →
    ∃ used, ts = used ++ rest ∧ Derives read strict level used e ∧ Stops level rest
  operators : ∀ {level tight left before ts e rest}, 1 ≤ level → level ≤ tight →
    Derives read strict tight before left → Stops (tight + 1) ts →
    operators read strict fuel level left ts = some (e, rest) →
    ∃ used, ts = used ++ rest ∧ Derives read strict level (before ++ used) e ∧
      Stops level rest
  operand : ∀ {ts e rest}, operand read strict fuel ts = some (e, rest) →
    ∃ used, ts = used ++ rest ∧ ∀ level, Derives read strict level used e
  callable : ∀ {ts e rest}, callable read strict fuel ts = some (e, rest) →
    ∃ used, ts = used ++ rest ∧
      ∀ level, Derives read strict level (.word "function" :: used) e
  statements : ∀ {ts values rest}, statements read strict fuel ts = some (values, rest) →
    ∃ body : List (List Terminal × Expr),
      ts = (body.flatMap fun s => returnSymbols s.1) ++ .closeBrace :: rest ∧
        values = body.map Prod.snd ∧ ∀ s ∈ body, Derives read strict 1 s.1 s.2

theorem tightness_le (op : Operator) : op.tightness ≤ 4 := by
  cases op <;> simp [Operator.tightness]

theorem sound_expression {fuel level : Nat} {ts rest : List Terminal} {e : Expr}
    (hsound : Sound read strict fuel) (hlevel : 1 ≤ level)
    (hparse : expression read strict (fuel + 1) level ts = some (e, rest)) :
    ∃ used, ts = used ++ rest ∧ Derives read strict level used e ∧ Stops level rest := by
  rw [expression] at hparse
  obtain ⟨⟨left, more⟩, hoperand, hoperators⟩ := Option.bind_eq_some_iff.mp hparse
  obtain ⟨before, rfl, hleft⟩ := hsound.operand hoperand
  have hstops : Stops (level + 4 + 1) more := by
    intro op _ _
    have hle := tightness_le op
    omega
  obtain ⟨used, rfl, hderives, hrest⟩ :=
    hsound.operators hlevel (by omega) (hleft (level + 4)) hstops hoperators
  exact ⟨before ++ used, by simp, hderives, hrest⟩

theorem sound_operators {fuel level tight : Nat} {left e : Expr}
    {before ts rest : List Terminal} (hsound : Sound read strict fuel)
    (hlevel : 1 ≤ level) (htight : level ≤ tight)
    (hleft : Derives read strict tight before left) (hstops : Stops (tight + 1) ts)
    (hparse : operators read strict (fuel + 1) level left ts = some (e, rest)) :
    ∃ used, ts = used ++ rest ∧ Derives read strict level (before ++ used) e ∧
      Stops level rest := by
  have hdone : some (left, ts) = some (e, rest) → Stops level ts →
      ∃ used, ts = used ++ rest ∧ Derives read strict level (before ++ used) e ∧
        Stops level rest := by
    intro hresult hrest
    cases hresult
    exact ⟨[], rfl, by simpa using hleft.mono htight, hrest⟩
  cases ts with
  | nil => exact hdone hparse nofun
  | cons t more =>
      cases t with
      | operator op =>
          rw [operators] at hparse
          split at hparse
          next hbinds =>
            simp only [Bool.and_eq_true, decide_eq_true_iff] at hbinds
            obtain ⟨⟨right, after⟩, hright, hoperators⟩ :=
              Option.bind_eq_some_iff.mp hparse
            obtain ⟨middle, rfl, hderives, hnext⟩ :=
              hsound.expression (Nat.succ_le_succ (Nat.zero_le _)) hright
            have htighter := Nat.le_of_lt_succ (hstops op _ rfl)
            -- the right operand took every tighter operator, so the whole binds like `op`
            obtain ⟨used, rfl, hall, hrest⟩ :=
              hsound.operators hlevel hbinds.2
                (.binary hbinds.1 (Nat.le_refl _) (hleft.mono htighter) hderives) hnext
                hoperators
            refine ⟨.operator op :: (middle ++ used), by simp, ?_, hrest⟩
            simpa using hall
          next hbinds =>
            apply hdone hparse
            intro op' more' heq
            cases heq
            simp only [Bool.and_eq_true, decide_eq_true_iff] at hbinds
            omega
      | _ => exact hdone hparse nofun

theorem sound_operand {fuel : Nat} {ts rest : List Terminal} {e : Expr}
    (hsound : Sound read strict fuel)
    (hparse : operand read strict (fuel + 1) ts = some (e, rest)) :
    ∃ used, ts = used ++ rest ∧ ∀ level, Derives read strict level used e := by
  rw [operand.eq_def] at hparse
  simp only at hparse
  split at hparse
  next text more =>
    split at hparse
    next htext =>
      cases hparse
      exact ⟨[.word text], rfl, fun level => htext ▸ .true level⟩
    split at hparse
    next htext =>
      cases hparse
      exact ⟨[.word text], rfl, fun level => htext ▸ .false level⟩
    split at hparse
    next htext =>
      obtain ⟨used, rfl, hderives⟩ := hsound.callable hparse
      exact ⟨.word text :: used, rfl, fun level => htext ▸ hderives level⟩
    split at hparse
    next hfree =>
      cases hparse
      exact ⟨[.word text], rfl, fun level => .name level hfree⟩
    next => cases hparse
  next text more =>
    split at hparse
    next hzeros =>
      simp only [Bool.and_eq_true, decide_eq_true_iff] at hzeros
      obtain ⟨rfl, hhead⟩ := hzeros
      cases hparse
      obtain ⟨tail, rfl⟩ := List.head?_eq_some_iff.mp hhead
      exact ⟨[.decimal "0", .slash, .decimal "0"], rfl, .nan⟩
    next => cases hparse
  next text more _ =>
    obtain ⟨x, hread, hresult⟩ := Option.map_eq_some_iff.mp hparse
    cases hresult
    exact ⟨[.decimal text], rfl, fun level => .decimal level hread⟩
  next text more =>
    obtain ⟨x, hread, hresult⟩ := Option.map_eq_some_iff.mp hparse
    cases hresult
    exact ⟨[.minus, .decimal text], rfl, fun level => .negative level hread⟩
  next more =>
    obtain ⟨⟨inner, after⟩, hinner, hclose⟩ := Option.bind_eq_some_iff.mp hparse
    obtain ⟨used, rfl, hderives, -⟩ := hsound.expression (Nat.le_refl 1) hinner
    simp only at hclose
    split at hclose
    next =>
      cases hclose
      exact ⟨.openParen :: (used ++ [.closeParen]), by simp,
        fun level => .grouped level hderives⟩
    next => cases hclose
  next => cases hparse

theorem sound_parameters {ts rest : List Terminal} {names : List String}
    (hparse : parameters strict ts = some (names, rest)) :
    ts = parameterList names ++ rest ∧ ∀ p ∈ names, isFree strict p = true := by
  fun_induction parameters strict ts generalizing names with
  | case1 more =>
      cases hparse
      exact ⟨rfl, nofun⟩
  | case2 name more hfree =>
      cases hparse
      exact ⟨rfl, fun p hp => List.mem_singleton.mp hp ▸ hfree⟩
  | case4 name more ih =>
      obtain ⟨⟨others, after⟩, hothers, hresult⟩ := Option.bind_eq_some_iff.mp hparse
      simp only [Option.ite_none_right_eq_some, Bool.and_eq_true, Option.some.injEq,
        Prod.mk.injEq] at hresult
      obtain ⟨⟨hfree, hne⟩, rfl, rfl⟩ := hresult
      obtain ⟨rfl, hfrees⟩ := ih hothers
      cases others with
      | nil => cases hne
      | cons next others => exact ⟨rfl, List.forall_mem_cons.mpr ⟨hfree, hfrees⟩⟩
  | case3 | case5 => cases hparse

theorem sound_callable {fuel : Nat} {ts rest : List Terminal} {e : Expr}
    (hsound : Sound read strict fuel)
    (hparse : callable read strict (fuel + 1) ts = some (e, rest)) :
    ∃ used, ts = used ++ rest ∧
      ∀ level, Derives read strict level (.word "function" :: used) e := by
  rw [callable.eq_def] at hparse
  simp only at hparse
  split at hparse
  next name more =>
    obtain ⟨⟨names, after⟩, hnames, hbody⟩ := Option.bind_eq_some_iff.mp hparse
    obtain ⟨rfl, hfree⟩ := sound_parameters hnames
    simp only at hbody
    split at hbody
    next inner =>
      obtain ⟨⟨values, final⟩, hvalues, hresult⟩ := Option.bind_eq_some_iff.mp hbody
      obtain ⟨body, rfl, rfl, hderives⟩ := hsound.statements hvalues
      simp only at hresult
      split at hresult
      next hname =>
        cases hresult
        refine ⟨(functionSymbols name names
          (body.flatMap fun s => returnSymbols s.1)).tail, ?_, fun level => ?_⟩
        · simp [functionSymbols]
        · exact .function level hname hfree hderives
      next => cases hresult
    next => cases hbody
  next => cases hparse

theorem sound_statements {fuel : Nat} {ts rest : List Terminal} {values : List Expr}
    (hsound : Sound read strict fuel)
    (hparse : statements read strict (fuel + 1) ts = some (values, rest)) :
    ∃ body : List (List Terminal × Expr),
      ts = (body.flatMap fun s => returnSymbols s.1) ++ .closeBrace :: rest ∧
        values = body.map Prod.snd ∧ ∀ s ∈ body, Derives read strict 1 s.1 s.2 := by
  rw [statements.eq_def] at hparse
  simp only at hparse
  split at hparse
  next more =>
    cases hparse
    exact ⟨[], rfl, rfl, nofun⟩
  next text more =>
    split at hparse
    next htext =>
      obtain ⟨⟨value, after⟩, hvalue, hmore⟩ := Option.bind_eq_some_iff.mp hparse
      obtain ⟨used, rfl, hderives, -⟩ := hsound.expression (Nat.le_refl 1) hvalue
      simp only at hmore
      split at hmore
      next final =>
        obtain ⟨⟨others, _⟩, hothers, hresult⟩ := Option.bind_eq_some_iff.mp hmore
        obtain ⟨body, rfl, rfl, hbody⟩ := hsound.statements hothers
        cases hresult
        refine ⟨(used, value) :: body, by simp [returnSymbols, htext], rfl, ?_⟩
        intro s hs
        rcases List.mem_cons.mp hs with rfl | hs
        · exact hderives
        · exact hbody s hs
      next => cases hmore
    next => cases hparse
  next => cases hparse

theorem sound (fuel : Nat) : Sound read strict fuel := by
  induction fuel with
  | zero => constructor <;> intros <;> contradiction
  | succ fuel ih =>
      exact ⟨sound_expression ih, sound_operators ih, sound_operand ih,
        sound_callable ih, sound_statements ih⟩

end Soundness

/-- The parser accepts exactly what the grammar derives. -/
theorem parse_eq_some_iff {read : String → Option Number} {strict : Bool}
    {ts : List Terminal} {e : Expr} :
    parse read strict ts = some e ↔ Derives read strict 1 ts e := by
  constructor
  · intro hparse
    unfold parse at hparse
    split at hparse
    next hexpression =>
      cases hparse
      obtain ⟨used, rfl, hderives, -⟩ := (sound _).expression (Nat.le_refl 1) hexpression
      simpa using hderives
    next => cases hparse
  · intro hderives
    have hexpression := @Parses.complete _ _ _ (2 * ts.length + 2) 0 _ [] _
      (parses_of_derives hderives) (by decide) nofun (by simp)
    rw [List.append_nil] at hexpression
    simp [parse, hexpression]

theorem readSource_eq_some_iff {read : String → Option Number} {strict : Bool}
    {source : ByteString} {e : Expr} :
    readSource read strict source = some e ↔ Denotes read strict source e := by
  refine Option.bind_eq_some_iff.trans ?_
  exact exists_congr fun text => and_congr_right fun _ => parse_eq_some_iff

end ScriptTree.Js.Syntax
