import DatasetSearch.Proofs.Query.Reading

/-! # The grammar of queries

```
any     := all (OR all)*
all     := clause (AND? clause)*
clause  := (NOT | -) clause | + clause | primary
primary := FIELD operand | operand
operand := WORD | PHRASE | '(' any ')'
```

`Grammar.Any ts ps` says that the lexemes `ts` are a disjunction with the parts `ps`, and so on for
the other symbols.  One part stands for itself and two or more under a node (`Expr.joined`); `+` and
`AND` leave no node.

The parser follows the grammar.  What it reads is derived by it (`Grammar.any_of_reads`, by
recursion on what is left to read), and what is derived is read, up to where the derivation ends
(`Grammar.Any.reads`, by recursion on the derivation).  So `parse` gives the one expression of the
sentence that the lexemes of a text are, and fails if they are none (`parse_eq_ok_iff`). -/

namespace DatasetSearch.Query

/-- The only expression of a list stands for itself; two or more stand under a node. -/
def Expr.joined (node : List Expr → Expr) : List Expr → Expr
  | [e] => e
  | es => node es

namespace Grammar

open Query.Expr (joined)

mutual

/-- A disjunction and its parts. -/
inductive Any : List Lexeme → List Expr → Prop
  | one {ts : List Lexeme} {es : List Expr} :
      All ts es → Any ts [joined .conjunction es]
  | or {ts us : List Lexeme} {es ps : List Expr} :
      All ts es → Any us ps → Any (ts ++ .or :: us) (joined .conjunction es :: ps)

/-- A conjunction and its clauses. -/
inductive All : List Lexeme → List Expr → Prop
  | one {ts : List Lexeme} {e : Expr} : Clause ts e → All ts [e]
  | beside {ts us : List Lexeme} {e : Expr} {es : List Expr} :
      Clause ts e → All us es → All (ts ++ us) (e :: es)
  | and {ts us : List Lexeme} {e : Expr} {es : List Expr} :
      Clause ts e → All us es → All (ts ++ .and :: us) (e :: es)

/-- A clause with its signs. -/
inductive Clause : List Lexeme → Expr → Prop
  | not {ts : List Lexeme} {e : Expr} : Clause ts e → Clause (.not :: ts) (.negation e)
  | minus {ts : List Lexeme} {e : Expr} : Clause ts e → Clause (.minus :: ts) (.negation e)
  | plus {ts : List Lexeme} {e : Expr} : Clause ts e → Clause (.plus :: ts) e
  | primary {ts : List Lexeme} {e : Expr} : Primary ts e → Clause ts e

/-- A clause without signs. -/
inductive Primary : List Lexeme → Expr → Prop
  | operand {ts : List Lexeme} {e : Expr} : Operand ts e → Primary ts e
  | inField {ts : List Lexeme} {e : Expr} (name : Text) :
      Operand ts e → Primary (.field name :: ts) (.inField name e)

/-- A word, a phrase or a group. -/
inductive Operand : List Lexeme → Expr → Prop
  | word (t : Text) : Operand [.word t] (.term t)
  | phrase (t : Text) : Operand [.phrase t] (.phrase t)
  | group {ts : List Lexeme} {ps : List Expr} :
      Any ts ps → Operand (.opening :: (ts ++ [.closing])) (.group (joined .disjunction ps))

end

/-- A sentence of the grammar and its expression. -/
def Sentence (ts : List Lexeme) (e : Expr) : Prop := ∃ ps, Any ts ps ∧ e = joined .disjunction ps

/-! ### How derivations begin -/

theorem Operand.starts {ts : List Lexeme} {e : Expr} (h : Operand ts e) (r : List Lexeme) :
    startsOperand (ts ++ r) = true := by
  cases h with
  | word t => rfl
  | phrase t => rfl
  | group h => rfl

theorem lacksOperand_of_startsOperand {ts : List Lexeme} (h : startsOperand ts = true) :
    lacksOperand ts = false := by
  unfold startsOperand at h
  split at h
  · rfl
  · rfl
  · rfl
  · cases h

theorem Clause.starts {ts : List Lexeme} {e : Expr} (h : Clause ts e) (r : List Lexeme) :
    lacksOperand (ts ++ r) = false := by
  cases h with
  | not h => rfl
  | minus h => rfl
  | plus h => rfl
  | primary h =>
      cases h with
      | operand h => exact lacksOperand_of_startsOperand (h.starts r)
      | inField name h => rfl

theorem All.starts {ts : List Lexeme} {es : List Expr} (h : All ts es) (r : List Lexeme) :
    lacksOperand (ts ++ r) = false := by
  cases h with
  | one h => exact h.starts r
  | beside h h' =>
      rw [List.append_assoc]
      exact h.starts _
  | and h h' =>
      rw [List.append_assoc]
      exact h.starts _

theorem Any.starts {ts : List Lexeme} {ps : List Expr} (h : Any ts ps) (r : List Lexeme) :
    lacksOperand (ts ++ r) = false := by
  cases h with
  | one h => exact h.starts r
  | or h h' =>
      rw [List.append_assoc]
      exact h.starts _

theorem lacksOperand_eq_false {ts : List Lexeme} (hend : ¬ endsAll ts = true)
    (hand : ts.head? ≠ some .and) : lacksOperand ts = false := by
  unfold lacksOperand
  split
  · exact absurd rfl hend
  · exact absurd rfl hend
  · exact absurd rfl hend
  · exact absurd rfl hand
  · rfl

theorem head?_ne_closing {ts : List Lexeme} (h : lacksOperand ts = false) :
    ts.head? ≠ some .closing := by
  intro hclosing
  obtain ⟨us, rfl⟩ := List.head?_eq_some_iff.1 hclosing
  cases h

/-! ### Nothing is merged -/

theorem Clause.flat {ts : List Lexeme} {e : Expr} (h : Clause ts e) :
    e.conjuncts = [e] ∧ e.disjuncts = [e] := by
  match h with
  | .not h => exact ⟨rfl, rfl⟩
  | .minus h => exact ⟨rfl, rfl⟩
  | .plus h => exact h.flat
  | .primary (.inField name h) => exact ⟨rfl, rfl⟩
  | .primary (.operand (.word t)) => exact ⟨rfl, rfl⟩
  | .primary (.operand (.phrase t)) => exact ⟨rfl, rfl⟩
  | .primary (.operand (.group h)) => exact ⟨rfl, rfl⟩

theorem All.flat {ts : List Lexeme} {es : List Expr} (h : All ts es) :
    ∀ e ∈ es, e.conjuncts = [e] ∧ e.disjuncts = [e] := by
  match h with
  | .one h =>
      intro e he
      rw [List.mem_singleton.1 he]
      exact h.flat
  | .beside h h' | .and h h' =>
      intro e he
      rcases List.mem_cons.1 he with rfl | he
      · exact h.flat
      · exact h'.flat e he

theorem All.disjuncts_joined {ts : List Lexeme} {es : List Expr} (h : All ts es) :
    (joined .conjunction es).disjuncts = [joined .conjunction es] := by
  match es, h with
  | [], h => rfl
  | [e], h => exact (h.flat e (List.mem_singleton_self e)).2
  | e :: e' :: es, h => rfl

theorem Any.flat {ts : List Lexeme} {ps : List Expr} (h : Any ts ps) :
    ∀ p ∈ ps, p.disjuncts = [p] := by
  match h with
  | .one h =>
      intro p hp
      rw [List.mem_singleton.1 hp]
      exact h.disjuncts_joined
  | .or h h' =>
      intro p hp
      rcases List.mem_cons.1 hp with rfl | hp
      · exact h.disjuncts_joined
      · exact h'.flat p hp

theorem flatMap_eq_self {parts : Expr → List Expr} {es : List Expr} (h : ∀ e ∈ es, parts e = [e]) :
    es.flatMap parts = es := by
  induction es with
  | nil => rfl
  | cons e es ih =>
      rw [List.flatMap_cons, h e List.mem_cons_self,
        ih fun e' he => h e' (List.mem_cons_of_mem e he), List.singleton_append]

theorem All.all_eq_joined {ts : List Lexeme} {es : List Expr} (h : All ts es) :
    Expr.all es = joined .conjunction es := by
  unfold Expr.all
  rw [flatMap_eq_self fun e he => (h.flat e he).1]
  rfl

theorem Any.any_eq_joined {ts : List Lexeme} {ps : List Expr} (h : Any ts ps) :
    Expr.any ps = joined .disjunction ps := by
  unfold Expr.any
  rw [flatMap_eq_self h.flat]
  rfl

/-! ### What is derived is read -/

/-- The first part and the others were read, up to `r`. -/
def ReadsAll (ts : List Lexeme) (es : List Expr) (r : List Lexeme) : Prop :=
  ∃ first rest mid, es = first :: rest ∧ Reads (parseClause ts) first mid ∧
    Reads (parseMoreAll mid) rest r

/-- The first part and the others were read, up to `r`. -/
def ReadsAny (ts : List Lexeme) (ps : List Expr) (r : List Lexeme) : Prop :=
  ∃ first rest mid, ps = first :: rest ∧ Reads (parseAll ts) first mid ∧
    Reads (parseMoreAny mid) rest r

theorem ReadsAll.reads {ts us r : List Lexeme} {es : List Expr} (h : ReadsAll ts es r)
    (hall : All us es) : Reads (parseAll ts) (joined .conjunction es) r := by
  obtain ⟨first, rest, mid, rfl, hfirst, hrest⟩ := h
  exact reads_parseAll_iff.2 ⟨first, mid, hfirst, rest, r, hrest, hall.all_eq_joined.symm, rfl⟩

theorem ReadsAny.reads {ts us r : List Lexeme} {ps : List Expr} (h : ReadsAny ts ps r)
    (hany : Any us ps) : Reads (parseAny ts) (joined .disjunction ps) r := by
  obtain ⟨first, rest, mid, rfl, hfirst, hrest⟩ := h
  exact reads_parseAny_iff.2 ⟨first, mid, hfirst, rest, r, hrest, hany.any_eq_joined.symm, rfl⟩

mutual

theorem Any.reads {ts : List Lexeme} {ps : List Expr} (h : Any ts ps) {r : List Lexeme}
    (hr : endsAll r = true) (hor : r.head? ≠ some .or) : ReadsAny (ts ++ r) ps r := by
  match h with
  | .one h =>
      exact ⟨_, [], r, rfl, (h.reads hr).reads h, (reads_parseMoreAny_iff hor).2 ⟨rfl, rfl⟩⟩
  | .or h h' =>
      obtain ⟨first, rest, mid, rfl, hfirst, hrest⟩ := h'.reads hr hor
      rw [List.append_assoc, List.cons_append]
      refine ⟨_, first :: rest, _, rfl, (h.reads rfl).reads h, ?_⟩
      exact reads_parseMoreAny_or_iff.2 ⟨h'.starts r, first, mid, hfirst, rest, r, hrest, rfl, rfl⟩

theorem All.reads {ts : List Lexeme} {es : List Expr} (h : All ts es) {r : List Lexeme}
    (hr : endsAll r = true) : ReadsAll (ts ++ r) es r := by
  match h with
  | .one h =>
      exact ⟨_, [], r, rfl, h.reads r, (reads_parseMoreAll_iff_of_end hr).2 ⟨rfl, rfl⟩⟩
  | .beside h h' =>
      obtain ⟨first, rest, mid, rfl, hfirst, hrest⟩ := h'.reads hr
      rw [List.append_assoc]
      refine ⟨_, first :: rest, _, rfl, h.reads _, ?_⟩
      exact (reads_parseMoreAll_iff (h'.starts r)).2 ⟨first, mid, hfirst, rest, r, hrest, rfl, rfl⟩
  | .and h h' =>
      obtain ⟨first, rest, mid, rfl, hfirst, hrest⟩ := h'.reads hr
      rw [List.append_assoc, List.cons_append]
      refine ⟨_, first :: rest, _, rfl, h.reads _, ?_⟩
      exact reads_parseMoreAll_and_iff.2
        ⟨h'.starts r, first, mid, hfirst, rest, r, hrest, rfl, rfl⟩

theorem Clause.reads {ts : List Lexeme} {e : Expr} (h : Clause ts e) (r : List Lexeme) :
    Reads (parseClause (ts ++ r)) e r := by
  match h with
  | .not h => exact reads_parseClause_not_iff.2 ⟨h.starts r, _, h.reads r, rfl⟩
  | .minus h => exact reads_parseClause_minus_iff.2 ⟨h.starts r, _, h.reads r, rfl⟩
  | .plus h => exact reads_parseClause_plus_iff.2 ⟨h.starts r, h.reads r⟩
  | .primary h => exact h.reads r

theorem Primary.reads {ts : List Lexeme} {e : Expr} (h : Primary ts e) (r : List Lexeme) :
    Reads (parseClause (ts ++ r)) e r := by
  match h with
  | .operand h => exact h.reads r
  | .inField name h => exact reads_parseClause_field_iff.2 ⟨h.starts r, _, h.reads r, rfl⟩

theorem Operand.reads {ts : List Lexeme} {e : Expr} (h : Operand ts e) (r : List Lexeme) :
    Reads (parseClause (ts ++ r)) e r := by
  match h with
  | .word t => exact reads_parseClause_word_iff.2 ⟨rfl, rfl⟩
  | .phrase t => exact reads_parseClause_phrase_iff.2 ⟨rfl, rfl⟩
  | @Operand.group us _ h =>
      have hinner : Reads (parseAny (us ++ .closing :: r)) _ (.closing :: r) :=
        (h.reads rfl fun hor => by cases hor).reads h
      have hfirst := head?_ne_closing (h.starts (.closing :: r))
      rw [List.cons_append, List.append_assoc]
      exact reads_parseClause_opening_iff.2 (reads_parseGroup_iff.2 ⟨hfirst, _, hinner, rfl⟩)

end

/-! ### What is read is derived -/

/-- No part of a disjunction was read from `ts`, or some after `OR`. -/
def MoreAny (ts : List Lexeme) (ps : List Expr) (r : List Lexeme) : Prop :=
  (ps = [] ∧ r = ts) ∨ ∃ us, ts = .or :: us ++ r ∧ Any us ps

/-- No clause of a conjunction was read from `ts`, or some, maybe after `AND`. -/
def MoreAll (ts : List Lexeme) (es : List Expr) (r : List Lexeme) : Prop :=
  (es = [] ∧ r = ts) ∨ ∃ us, (ts = us ++ r ∨ ts = .and :: us ++ r) ∧ All us es

theorem MoreAny.cons {us mid r : List Lexeme} {es ps : List Expr} (h : MoreAny mid ps r)
    (hall : All us es) :
    ∃ vs, us ++ mid = vs ++ r ∧ Any vs (joined .conjunction es :: ps) := by
  rcases h with ⟨rfl, rfl⟩ | ⟨vs, rfl, hany⟩
  · exact ⟨us, rfl, .one hall⟩
  · refine ⟨us ++ .or :: vs, ?_, .or hall hany⟩
    rw [List.append_assoc, List.cons_append]

theorem MoreAll.cons {us mid r : List Lexeme} {e : Expr} {es : List Expr} (h : MoreAll mid es r)
    (hclause : Clause us e) : ∃ vs, us ++ mid = vs ++ r ∧ All vs (e :: es) := by
  rcases h with ⟨rfl, rfl⟩ | ⟨vs, rfl | rfl, hall⟩
  · exact ⟨us, rfl, .one hclause⟩
  · refine ⟨us ++ vs, ?_, .beside hclause hall⟩
    rw [List.append_assoc]
  · refine ⟨us ++ .and :: vs, ?_, .and hclause hall⟩
    rw [List.append_assoc, List.cons_append]

mutual

theorem any_of_reads {ts r : List Lexeme} {e : Expr} (h : Reads (parseAny ts) e r) :
    ∃ us ps, ts = us ++ r ∧ Any us ps ∧ e = joined .disjunction ps := by
  obtain ⟨first, mid, hfirst, rest, r', hrest, rfl, rfl⟩ := reads_parseAny_iff.1 h
  have hmid : mid.length < ts.length := hfirst.1
  obtain ⟨us, es, rfl, hall, rfl⟩ := all_of_reads hfirst
  obtain ⟨vs, hvs, hany⟩ := (moreAny_of_reads hrest).cons hall
  exact ⟨vs, _, hvs, hany, hany.any_eq_joined⟩
termination_by (ts.length, 5)

theorem moreAny_of_reads {ts r : List Lexeme} {ps : List Expr} (h : Reads (parseMoreAny ts) ps r) :
    MoreAny ts ps r := by
  by_cases hor : ts.head? = some .or
  · obtain ⟨us, rfl⟩ := List.head?_eq_some_iff.1 hor
    obtain ⟨-, first, mid, hfirst, rest, r', hrest, rfl, rfl⟩ := reads_parseMoreAny_or_iff.1 h
    have hmid : mid.length < us.length := hfirst.1
    obtain ⟨us, es, rfl, hall, rfl⟩ := all_of_reads hfirst
    obtain ⟨vs, hvs, hany⟩ := (moreAny_of_reads hrest).cons hall
    exact .inr ⟨vs, congrArg (Lexeme.or :: ·) hvs, hany⟩
  · exact .inl ((reads_parseMoreAny_iff hor).1 h)
termination_by (ts.length, 4)

theorem all_of_reads {ts r : List Lexeme} {e : Expr} (h : Reads (parseAll ts) e r) :
    ∃ us es, ts = us ++ r ∧ All us es ∧ e = joined .conjunction es := by
  obtain ⟨first, mid, hfirst, rest, r', hrest, rfl, rfl⟩ := reads_parseAll_iff.1 h
  have hmid : mid.length < ts.length := hfirst.1
  obtain ⟨us, rfl, hclause⟩ := clause_of_reads hfirst
  obtain ⟨vs, hvs, hall⟩ := (moreAll_of_reads hrest).cons hclause
  exact ⟨vs, _, hvs, hall, hall.all_eq_joined⟩
termination_by (ts.length, 3)

theorem moreAll_of_reads {ts r : List Lexeme} {es : List Expr} (h : Reads (parseMoreAll ts) es r) :
    MoreAll ts es r := by
  by_cases hend : endsAll ts = true
  · exact .inl ((reads_parseMoreAll_iff_of_end hend).1 h)
  · by_cases hand : ts.head? = some .and
    · obtain ⟨us, rfl⟩ := List.head?_eq_some_iff.1 hand
      obtain ⟨-, first, mid, hfirst, rest, r', hrest, rfl, rfl⟩ := reads_parseMoreAll_and_iff.1 h
      have hmid : mid.length < us.length := hfirst.1
      obtain ⟨us, rfl, hclause⟩ := clause_of_reads hfirst
      obtain ⟨vs, hvs, hall⟩ := (moreAll_of_reads hrest).cons hclause
      exact .inr ⟨vs, .inr (congrArg (Lexeme.and :: ·) hvs), hall⟩
    · have hstart : lacksOperand ts = false := lacksOperand_eq_false hend hand
      obtain ⟨first, mid, hfirst, rest, r', hrest, rfl, rfl⟩ := (reads_parseMoreAll_iff hstart).1 h
      have hmid : mid.length < ts.length := hfirst.1
      obtain ⟨us, rfl, hclause⟩ := clause_of_reads hfirst
      obtain ⟨vs, hvs, hall⟩ := (moreAll_of_reads hrest).cons hclause
      exact .inr ⟨vs, .inl hvs, hall⟩
termination_by (ts.length, 2)

theorem clause_of_reads {ts r : List Lexeme} {e : Expr} (h : Reads (parseClause ts) e r) :
    ∃ us, ts = us ++ r ∧ Clause us e := by
  by_cases hs : startsOperand ts = true
  · obtain ⟨us, hus, hoperand⟩ := operand_of_reads hs h
    exact ⟨us, hus, .primary (.operand hoperand)⟩
  · match ts with
    | .not :: ts =>
        obtain ⟨-, inner, hinner, rfl⟩ := reads_parseClause_not_iff.1 h
        obtain ⟨us, rfl, hclause⟩ := clause_of_reads hinner
        exact ⟨_, rfl, .not hclause⟩
    | .minus :: ts =>
        obtain ⟨-, inner, hinner, rfl⟩ := reads_parseClause_minus_iff.1 h
        obtain ⟨us, rfl, hclause⟩ := clause_of_reads hinner
        exact ⟨_, rfl, .minus hclause⟩
    | .plus :: ts =>
        obtain ⟨us, rfl, hclause⟩ := clause_of_reads (reads_parseClause_plus_iff.1 h).2
        exact ⟨_, rfl, .plus hclause⟩
    | .field name :: ts =>
        obtain ⟨hs, inner, hinner, rfl⟩ := reads_parseClause_field_iff.1 h
        obtain ⟨us, rfl, hoperand⟩ := operand_of_reads hs hinner
        exact ⟨_, rfl, .primary (.inField name hoperand)⟩
    | .word t :: ts | .phrase t :: ts | .opening :: ts => exact absurd rfl hs
    | [] | .closing :: ts | .and :: ts | .or :: ts => exact absurd h (not_reads_parseClause rfl)
termination_by (ts.length, 1)

theorem operand_of_reads {ts r : List Lexeme} {e : Expr} (hs : startsOperand ts = true)
    (h : Reads (parseClause ts) e r) : ∃ us, ts = us ++ r ∧ Operand us e := by
  unfold startsOperand at hs
  split at hs
  · obtain ⟨rfl, rfl⟩ := reads_parseClause_word_iff.1 h
    exact ⟨_, rfl, .word _⟩
  · obtain ⟨rfl, rfl⟩ := reads_parseClause_phrase_iff.1 h
    exact ⟨_, rfl, .phrase _⟩
  · obtain ⟨-, inner, hinner, rfl⟩ := reads_parseGroup_iff.1 (reads_parseClause_opening_iff.1 h)
    obtain ⟨us, ps, rfl, hany, rfl⟩ := any_of_reads hinner
    refine ⟨.opening :: (us ++ [.closing]), ?_, .group hany⟩
    rw [List.cons_append, List.append_assoc, List.singleton_append]
  · cases hs
termination_by (ts.length, 0)

end

/-! ### Sentences -/

theorem Sentence.ne_nil {ts : List Lexeme} {e : Expr} (h : Sentence ts e) : ts ≠ [] := by
  rintro rfl
  obtain ⟨ps, hany, -⟩ := h
  cases hany.starts []

/-- The parser reads a row of lexemes to its end exactly if the row is a sentence. -/
theorem reads_all_iff_sentence {ts : List Lexeme} {e : Expr} :
    Reads (parseAny ts) e [] ↔ Sentence ts e := by
  constructor
  · intro h
    obtain ⟨us, ps, hus, hany, he⟩ := any_of_reads h
    rw [List.append_nil] at hus
    subst hus
    exact ⟨ps, hany, he⟩
  · rintro ⟨ps, hany, rfl⟩
    have h := (hany.reads (r := []) rfl nofun).reads hany
    rwa [List.append_nil] at h

/-- A row of lexemes is the sentence of at most one expression. -/
theorem Sentence.unique {ts : List Lexeme} {e e' : Expr} (h : Sentence ts e)
    (h' : Sentence ts e') : e = e' :=
  reads_unique (reads_all_iff_sentence.2 h) (reads_all_iff_sentence.2 h')

end Grammar

/-! ### Texts -/

theorem map_cons_ne_ok_nil {x : Except Error (List Lexeme)} {t : Lexeme} :
    x.map (t :: ·) ≠ .ok [] := by
  intro h
  obtain ⟨ts, -, hts⟩ := Except.map_eq_ok_iff.1 h
  exact List.cons_ne_nil t ts hts

theorem not_forall_isBlank_cons {c : Char} {s : Text} (hc : ¬ Text.isBlank c = true) :
    ¬ ∀ d ∈ c :: s, Text.isBlank d = true :=
  fun h => hc (h c List.mem_cons_self)

/-- Whatever is not blank has a first lexeme or is an error. -/
theorem Lexeme.lexEnd_eq_ok_nil_iff {size : Nat} {s : Text} :
    lexEnd size s = .ok [] ↔ ∀ c ∈ s, Text.isBlank c = true := by
  fun_induction lexEnd size s with
  | case1 => exact iff_of_true rfl nofun
  | case2 c rest hc ih => rw [List.forall_mem_cons, and_iff_right hc, ih]
  -- an unfinished phrase and a colon
  | case7 | case9 => exact iff_of_false nofun (not_forall_isBlank_cons ‹¬ Text.isBlank _ = true›)
  | case3 | case4 | case5 | case6 | case8 | case10 | case11 =>
      exact iff_of_false map_cons_ne_ok_nil (not_forall_isBlank_cons ‹¬ Text.isBlank _ = true›)

theorem parse_eq_ok_none_iff_lex {s : Text} : parse s = .ok none ↔ Lexeme.lex s = .ok [] := by
  unfold parse
  rw [Except.bind_eq_ok_iff]
  constructor
  · rintro ⟨ts, hlex, h⟩
    cases ts with
    | nil => exact hlex
    | cons t ts =>
        obtain ⟨⟨e, r, hr⟩, -, h⟩ := Except.bind_eq_ok_iff.1 h
        cases r with
        | nil => cases h
        | cons t' r => cases h
  · intro hlex
    exact ⟨[], hlex, rfl⟩

theorem parse_eq_ok_some_iff_reads {s : Text} {e : Expr} : parse s = .ok (some e) ↔
    ∃ ts, Lexeme.lex s = .ok ts ∧ ts ≠ [] ∧ Reads (parseAny ts) e [] := by
  unfold parse
  rw [Except.bind_eq_ok_iff]
  refine exists_congr fun ts => and_congr_right fun _ => ?_
  cases ts with
  | nil =>
      refine iff_of_false (fun h => ?_) fun h => h.1 rfl
      cases h
  | cons t ts =>
      rw [and_iff_right (List.cons_ne_nil t ts)]
      constructor
      · intro h
        obtain ⟨⟨e', r, hr⟩, hreads, h⟩ := Except.bind_eq_ok_iff.1 h
        cases r with
        | nil =>
            cases h
            exact ⟨hr, hreads⟩
        | cons t' r => cases h
      · rintro ⟨hr, hreads⟩
        exact Except.bind_eq_ok_iff.2 ⟨_, hreads, rfl⟩

/-- The parser accepts the texts whose lexemes are a sentence of the grammar, with the expression of
the sentence, and gives nothing for blank texts.  Every other text is an error. -/
theorem parse_eq_ok_iff (s : Text) :
    (∀ e, parse s = .ok (some e) ↔
      ∃ ts, Lexeme.lex s = .ok ts ∧ ts ≠ [] ∧ Grammar.Sentence ts e) ∧
    (∀ ts e e', Grammar.Sentence ts e → Grammar.Sentence ts e' → e = e') ∧
    (parse s = .ok none ↔ ∀ c ∈ s, Text.isBlank c = true) ∧
    ((∃ error, parse s = .error error) ↔
      (¬ ∀ c ∈ s, Text.isBlank c = true) ∧
        ¬ ∃ ts e, Lexeme.lex s = .ok ts ∧ Grammar.Sentence ts e) := by
  have hsome : ∀ e, parse s = .ok (some e) ↔
      ∃ ts, Lexeme.lex s = .ok ts ∧ ts ≠ [] ∧ Grammar.Sentence ts e := fun e => by
    rw [parse_eq_ok_some_iff_reads]
    exact exists_congr fun ts =>
      and_congr_right fun _ => and_congr_right fun _ => Grammar.reads_all_iff_sentence
  have hnone : parse s = .ok none ↔ ∀ c ∈ s, Text.isBlank c = true :=
    parse_eq_ok_none_iff_lex.trans Lexeme.lexEnd_eq_ok_nil_iff
  refine ⟨hsome, fun ts e e' => Grammar.Sentence.unique, hnone, ?_⟩
  rw [← hnone]
  constructor
  · rintro ⟨error, herror⟩
    rw [herror]
    refine ⟨nofun, ?_⟩
    rintro ⟨ts, e, hlex, hsentence⟩
    have h := (hsome e).2 ⟨ts, hlex, hsentence.ne_nil, hsentence⟩
    rw [herror] at h
    cases h
  · rintro ⟨hblank, hsentence⟩
    cases h : parse s with
    | error error => exact ⟨error, rfl⟩
    | ok result =>
        cases result with
        | none => exact absurd h hblank
        | some e =>
            obtain ⟨ts, hlex, -, hts⟩ := (hsome e).1 h
            exact absurd ⟨ts, e, hlex, hts⟩ hsentence

end DatasetSearch.Query
