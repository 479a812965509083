import DatasetSearch.Proofs.Query.Grammar

/-! # What the parser can give

`Canonical e` says that an expression has the form in which the parser gives expressions: a
disjunction has two or more parts, each a conjunction of two or more clauses or one clause, nothing
is merged across parentheses, and in every term and field name a backslash stands before a star, a
question mark or a backslash only.

The form is that of the grammar (`Grammar.Any.isConjunction`, by recursion on the derivation).  The
terms and field names are those of the lexemes, in order (`Grammar.Any.names_eq`), and the lexemes
of a text are spelled as they should be (`Lexeme.areSpelled_of_lexEnd`).  So whatever is parsed is
canonical (`Canonical.of_parse`). -/

namespace DatasetSearch.Query

/-! ### Canonical expressions -/

mutual

/-- A disjunction of two or more conjunctions, or one conjunction. -/
inductive IsQuery : Expr → Prop
  | one {e : Expr} : IsConjunction e → IsQuery e
  | any {es : List Expr} :
      2 ≤ es.length → (∀ e ∈ es, IsConjunction e) → IsQuery (.disjunction es)

/-- A conjunction of two or more clauses, or one clause. -/
inductive IsConjunction : Expr → Prop
  | one {e : Expr} : IsClause e → IsConjunction e
  | all {es : List Expr} :
      2 ≤ es.length → (∀ e ∈ es, IsClause e) → IsConjunction (.conjunction es)

/-- A clause. -/
inductive IsClause : Expr → Prop
  | negation {e : Expr} : IsClause e → IsClause (.negation e)
  | operand {e : Expr} : IsOperand e → IsClause e
  | inField {e : Expr} (name : Text) : IsOperand e → IsClause (.inField name e)

/-- A term, a phrase or a group. -/
inductive IsOperand : Expr → Prop
  | term (t : Text) : IsOperand (.term t)
  | phrase (t : Text) : IsOperand (.phrase t)
  | group {e : Expr} : IsQuery e → IsOperand (.group e)

end

namespace Expr

mutual

/-- The terms and field names of an expression, from left to right. -/
def names : Expr → List Text
  | .term t => [t]
  | .phrase _ => []
  | .negation e => names e
  | .conjunction es => namesOfEach es
  | .disjunction es => namesOfEach es
  | .inField name e => name :: names e
  | .group e => names e

/-- The terms and field names of each expression of a list. -/
def namesOfEach : List Expr → List Text
  | [] => []
  | e :: es => names e ++ namesOfEach es

end

theorem mem_namesOfEach {t : Text} {es : List Expr} :
    t ∈ namesOfEach es ↔ ∃ e ∈ es, t ∈ names e := by
  induction es with
  | nil => simp [namesOfEach]
  | cons e es ih => simp [namesOfEach, ih]

end Expr

/-- Every backslash is followed by a star, a question mark or a backslash, which it goes with. -/
def isSpelled : Text → Bool
  | [] => true
  | ['\\'] => false
  | '\\' :: c :: rest => Lexeme.keepsEscape c && isSpelled rest
  | _ :: rest => isSpelled rest

/-- An expression in the form in which the parser gives it. -/
def Canonical (e : Expr) : Prop := IsQuery e ∧ ∀ t ∈ e.names, isSpelled t = true

/-- The word or field name that a lexeme is. -/
def Lexeme.name? : Lexeme → Option Text
  | .word t => some t
  | .field name => some name
  | _ => none

/-! ### The form of a sentence -/

namespace Grammar

open Query.Expr (joined)

theorem Any.ne_nil {ts : List Lexeme} {ps : List Expr} (h : Any ts ps) : ps ≠ [] := by
  cases h with
  | one h => exact List.cons_ne_nil _ _
  | or h h' => exact List.cons_ne_nil _ _

theorem All.ne_nil {ts : List Lexeme} {es : List Expr} (h : All ts es) : es ≠ [] := by
  cases h with
  | one h => exact List.cons_ne_nil _ _
  | beside h h' => exact List.cons_ne_nil _ _
  | and h h' => exact List.cons_ne_nil _ _

/-- One part stands for itself, two or more stand under a node. -/
theorem joined_induction {motive : Expr → Prop} {node : List Expr → Expr} {es : List Expr}
    (hne : es ≠ []) (hone : ∀ e ∈ es, motive e) (hmore : 2 ≤ es.length → motive (node es)) :
    motive (joined node es) := by
  match es with
  | [] => exact absurd rfl hne
  | [e] => exact hone e (List.mem_singleton_self e)
  | e :: e' :: es => exact hmore (by simp)

theorem isConjunction_joined {es : List Expr} (hne : es ≠ []) (h : ∀ e ∈ es, IsClause e) :
    IsConjunction (joined .conjunction es) :=
  joined_induction hne (fun e he => .one (h e he)) fun hlength => .all hlength h

theorem isQuery_joined {ps : List Expr} (hne : ps ≠ []) (h : ∀ p ∈ ps, IsConjunction p) :
    IsQuery (joined .disjunction ps) :=
  joined_induction hne (fun p hp => .one (h p hp)) fun hlength => .any hlength h

mutual

theorem Any.isConjunction {ts : List Lexeme} {ps : List Expr} (h : Any ts ps) :
    ∀ p ∈ ps, IsConjunction p := by
  match h with
  | .one h => exact List.forall_mem_singleton.2 (isConjunction_joined h.ne_nil h.isClause)
  | .or h h' =>
      exact List.forall_mem_cons.2 ⟨isConjunction_joined h.ne_nil h.isClause, h'.isConjunction⟩

theorem All.isClause {ts : List Lexeme} {es : List Expr} (h : All ts es) :
    ∀ e ∈ es, IsClause e := by
  match h with
  | .one h => exact List.forall_mem_singleton.2 h.isClause
  | .beside h h' => exact List.forall_mem_cons.2 ⟨h.isClause, h'.isClause⟩
  | .and h h' => exact List.forall_mem_cons.2 ⟨h.isClause, h'.isClause⟩

theorem Clause.isClause {ts : List Lexeme} {e : Expr} (h : Clause ts e) : IsClause e := by
  match h with
  | .not h => exact .negation h.isClause
  | .minus h => exact .negation h.isClause
  | .plus h => exact h.isClause
  | .primary (.operand h) => exact .operand h.isOperand
  | .primary (.inField name h) => exact .inField name h.isOperand

theorem Operand.isOperand {ts : List Lexeme} {e : Expr} (h : Operand ts e) : IsOperand e := by
  match h with
  | .word t => exact .term t
  | .phrase t => exact .phrase t
  | .group h => exact .group (isQuery_joined h.ne_nil h.isConjunction)

end

/-! ### The names in a sentence -/

theorem names_joined_conjunction (es : List Expr) :
    (joined .conjunction es).names = Expr.namesOfEach es := by
  match es with
  | [] => rfl
  | [e] => exact (List.append_nil _).symm
  | e :: e' :: es => rfl

theorem names_joined_disjunction (es : List Expr) :
    (joined .disjunction es).names = Expr.namesOfEach es := by
  match es with
  | [] => rfl
  | [e] => exact (List.append_nil _).symm
  | e :: e' :: es => rfl

mutual

/-- The names of a sentence's expression are those of its lexemes. -/
theorem Any.names_eq {ts : List Lexeme} {ps : List Expr} (h : Any ts ps) :
    Expr.namesOfEach ps = ts.filterMap Lexeme.name? := by
  match h with
  | .one h =>
      rw [Expr.namesOfEach, Expr.namesOfEach, List.append_nil, names_joined_conjunction, h.names_eq]
  | .or h h' =>
      rw [Expr.namesOfEach, names_joined_conjunction, h.names_eq, h'.names_eq,
        List.filterMap_append, List.filterMap_cons_none rfl]

theorem All.names_eq {ts : List Lexeme} {es : List Expr} (h : All ts es) :
    Expr.namesOfEach es = ts.filterMap Lexeme.name? := by
  match h with
  | .one h => rw [Expr.namesOfEach, Expr.namesOfEach, List.append_nil, h.names_eq]
  | .beside h h' => rw [Expr.namesOfEach, h.names_eq, h'.names_eq, List.filterMap_append]
  | .and h h' =>
      rw [Expr.namesOfEach, h.names_eq, h'.names_eq, List.filterMap_append,
        List.filterMap_cons_none rfl]

theorem Clause.names_eq {ts : List Lexeme} {e : Expr} (h : Clause ts e) :
    e.names = ts.filterMap Lexeme.name? := by
  match h with
  | .not h => rw [Expr.names, h.names_eq, List.filterMap_cons_none rfl]
  | .minus h => rw [Expr.names, h.names_eq, List.filterMap_cons_none rfl]
  | .plus h => rw [h.names_eq, List.filterMap_cons_none rfl]
  | .primary (.operand h) => exact h.names_eq
  | .primary (.inField name h) => exact congrArg (name :: ·) h.names_eq

theorem Operand.names_eq {ts : List Lexeme} {e : Expr} (h : Operand ts e) :
    e.names = ts.filterMap Lexeme.name? := by
  match h with
  | .word t => rfl
  | .phrase t => rfl
  | .group h =>
      rw [Expr.names, names_joined_disjunction, h.names_eq, List.filterMap_cons_none rfl,
        List.filterMap_append, List.filterMap_cons_none rfl, List.filterMap_nil, List.append_nil]

end

end Grammar

/-! ### The spelling of lexemes -/

theorem isSpelled_cons {c : Char} (hc : c ≠ '\\') (t : Text) :
    isSpelled (c :: t) = isSpelled t := by
  rw [isSpelled]
  · rintro rfl
    exact absurd rfl hc
  · rintro d rest rfl
    exact absurd rfl hc

namespace Lexeme

theorem isSpelled_scanWord (s : Text) : isSpelled (scanWord s).text = true := by
  fun_induction scanWord s with
  | case1 | case2 | case4 => rfl
  | case3 c rest t _ rest' hscan ih =>
      rw [hscan] at ih
      show isSpelled (if keepsEscape c then '\\' :: c :: t else c :: t) = true
      by_cases hkeeps : keepsEscape c = true
      · rw [if_pos hkeeps, isSpelled, hkeeps, Bool.true_and]
        exact ih
      · have hc : c ≠ '\\' := fun h => hkeeps (h ▸ rfl)
        rw [if_neg hkeeps, isSpelled_cons hc]
        exact ih
  | case5 c rest hend hescape _ t _ rest' hscan ih =>
      rw [hscan] at ih
      have hc : c ≠ '\\' := fun h => by
        cases rest with
        | nil => exact hend h rfl
        | cons d rest => exact hescape d rest h rfl
      exact (isSpelled_cons hc t).trans ih

/-- The words and field names among the lexemes are spelled as they should be. -/
def AreSpelled (ts : List Lexeme) : Prop := ∀ t ∈ ts.filterMap name?, isSpelled t = true

theorem areSpelled_of_map_cons {l : Lexeme} (hl : ∀ t, l.name? = some t → isSpelled t = true)
    {x : Except Error (List Lexeme)} (h : ∀ ts, x = .ok ts → AreSpelled ts) {ts : List Lexeme}
    (hts : x.map (l :: ·) = .ok ts) : AreSpelled ts := by
  obtain ⟨us, hus, rfl⟩ := Except.map_eq_ok_iff.1 hts
  intro t ht
  obtain ⟨l', hl', hname⟩ := List.mem_filterMap.1 ht
  rcases List.mem_cons.1 hl' with rfl | hl'
  · exact hl t hname
  · exact h us hus t (List.mem_filterMap.2 ⟨l', hl', hname⟩)

theorem name?_ofWord {t u : Text} {escaped : Bool} (h : (ofWord t escaped).name? = some u) :
    u = t := by
  unfold ofWord at h
  repeat' split at h
  all_goals cases h
  all_goals rfl

theorem areSpelled_of_lexEnd {size : Nat} {s : Text} {ts : List Lexeme}
    (h : lexEnd size s = .ok ts) : AreSpelled ts := by
  fun_induction lexEnd size s generalizing ts with
  | case1 =>
      cases h
      exact fun t ht => absurd ht List.not_mem_nil
  | case2 _ _ _ ih => exact ih h
  -- an unfinished phrase and a colon
  | case7 | case9 => cases h
  | case3 | case4 | case5 | case6 | case8 =>
      rename_i ih
      exact areSpelled_of_map_cons (fun t ht => by cases ht) (fun _ => ih) h
  | case10 c rest =>
      rename_i ih
      refine areSpelled_of_map_cons (fun t ht => ?_) (fun _ => ih) h
      cases ht
      exact isSpelled_scanWord (c :: rest)
  | case11 c rest =>
      rename_i ih
      refine areSpelled_of_map_cons (fun t ht => ?_) (fun _ => ih) h
      rw [name?_ofWord ht]
      exact isSpelled_scanWord (c :: rest)

end Lexeme

/-- Whatever is parsed is canonical. -/
theorem Canonical.of_parse {s : Text} {e : Expr} (h : parse s = .ok (some e)) : Canonical e := by
  obtain ⟨ts, hlex, -, hreads⟩ := parse_eq_ok_some_iff_reads.1 h
  obtain ⟨ps, hany, rfl⟩ := Grammar.reads_all_iff_sentence.1 hreads
  refine ⟨Grammar.isQuery_joined hany.ne_nil hany.isConjunction, fun t ht => ?_⟩
  rw [Grammar.names_joined_disjunction, hany.names_eq] at ht
  exact Lexeme.areSpelled_of_lexEnd hlex t ht

end DatasetSearch.Query
