import DatasetSearch.Proofs.Query.Lexing
import DatasetSearch.Proofs.Query.Primary

/-! # What is wrong with a text that is no query

A text whose lexemes cannot be read has a phrase without end or a colon where a word could begin
(`parse_eq_unterminatedPhrase_iff`).  A row of lexemes that is no sentence is refused for its
parentheses or for an operator without an operand, which is one of the lexemes; only the end of the
query is not (`IsRefusal`, kept from each reader to those that call it by `refuses_bind`).  There is
no other error of a text (`parse_error`). -/

namespace DatasetSearch.Query

/-! ### Refusals -/

namespace Lexeme

/-- The operator that a lexeme is reported as when it has no operand. -/
def operator? : Lexeme → Option Text
  | and => some "AND".toList
  | or => some "OR".toList
  | not => some "NOT".toList
  | minus => some "-".toList
  | plus => some "+".toList
  | field name => some (name ++ [':'])
  | word _ | phrase _ | opening | closing => none

end Lexeme

/-- Why a row of lexemes is no sentence. -/
inductive IsRefusal (ts : List Lexeme) : Error → Prop
  | unbalancedParenthesis : IsRefusal ts .unbalancedParenthesis
  | emptyGroup : IsRefusal ts .emptyGroup
  | operator {t : Lexeme} {name : Text} :
      t ∈ ts → t.operator? = some name → IsRefusal ts (.danglingOperator name)
  | endOfQuery : IsRefusal ts (.danglingOperator "end of query".toList)

theorem IsRefusal.mono {ts us : List Lexeme} {err : Error} (h : IsRefusal us err) (hsub : us ⊆ ts) :
    IsRefusal ts err := by
  cases h with
  | unbalancedParenthesis => exact .unbalancedParenthesis
  | emptyGroup => exact .emptyGroup
  | operator ht hname => exact .operator (hsub ht) hname
  | endOfQuery => exact .endOfQuery

/-- The error of an outcome, if it is one, is a refusal of the lexemes. -/
def Refuses {α : Type} (x : Except Error α) (ts : List Lexeme) : Prop :=
  ∀ err, x = .error err → IsRefusal ts err

section outcomes
variable {α β : Type} {P Q : List Lexeme → Prop} {ts us : List Lexeme}

theorem refuses_ok (a : α) : Refuses (.ok a) ts := nofun

theorem refuses_error {err : Error} (h : IsRefusal ts err) :
    Refuses (.error err : Except Error α) ts := by
  rintro err' herr
  cases herr
  exact h

theorem Refuses.mono {x : Except Error α} (h : Refuses x us) (hsub : us ⊆ ts) : Refuses x ts :=
  fun err herr => (h err herr).mono hsub

/-- One reader after another: the second one reads what the first one left. -/
theorem refuses_bind {x : Except Error (α × { r : List Lexeme // P r })}
    {f : α × { r : List Lexeme // P r } → Except Error β} (hx : Refuses x ts)
    (hf : ∀ a r (h : P r), Reads x a r → Refuses (f (a, ⟨r, h⟩)) ts) : Refuses (x >>= f) ts := by
  intro err h
  rcases Except.bind_eq_error_iff.1 h with h | ⟨⟨a, r, hr⟩, hread, h⟩
  · exact hx err h
  · exact hf a r hr ⟨hr, hread⟩ err h

/-- A reader that first makes sure that nothing is missing. -/
theorem refuses_unless {missing : Bool} {err : Error} {x : Except Error α} (h : IsRefusal ts err)
    (hx : Refuses x ts) : Refuses (if missing = true then .error err else x) ts := by
  cases missing with
  | true => exact refuses_error h
  | false => exact hx

end outcomes

/-! ### What is left -/

open Grammar (all_of_reads clause_of_reads)

section rest
variable {ts r : List Lexeme} {e : Expr}

theorem subset_of_reads_all (h : Reads (parseAll ts) e r) : r ⊆ ts := by
  obtain ⟨us, ps, rfl, -⟩ := all_of_reads h
  exact List.subset_append_right us r

theorem subset_of_reads_clause (h : Reads (parseClause ts) e r) : r ⊆ ts := by
  obtain ⟨us, rfl, -⟩ := clause_of_reads h
  exact List.subset_append_right us r

end rest

/-! ### Readers -/

-- By recursion on the lexemes that are left; readers that are called on the same lexemes come in
-- the order in which they call each other.
mutual

theorem refuses_any (ts : List Lexeme) : Refuses (parseAny ts) ts := by
  rw [parseAny]
  refine refuses_bind (refuses_all ts) fun e r hr hread => ?_
  refine refuses_bind ((refuses_moreAny r).mono (subset_of_reads_all hread)) fun es r' hr' _ => ?_
  exact refuses_ok _
termination_by (ts.length, 3)

theorem refuses_moreAny (ts : List Lexeme) : Refuses (parseMoreAny ts) ts := by
  match ts with
  | [] =>
      rw [parseMoreAny]
      · exact refuses_ok _
      all_goals nofun
  | t :: r =>
      cases t with
      | or =>
          have hsub : r ⊆ .or :: r := List.subset_cons_self _ r
          rw [parseMoreAny]
          refine refuses_unless (.operator List.mem_cons_self rfl) ?_
          refine refuses_bind ((refuses_all r).mono hsub) fun e r' hr' hread => ?_
          have hsub' : r' ⊆ .or :: r := fun t ht => hsub (subset_of_reads_all hread ht)
          exact refuses_bind ((refuses_moreAny r').mono hsub') fun es r'' hr'' _ => refuses_ok _
      | _ =>
          rw [parseMoreAny]
          · exact refuses_ok _
          all_goals nofun
termination_by (ts.length, 0)

theorem refuses_all (ts : List Lexeme) : Refuses (parseAll ts) ts := by
  rw [parseAll]
  refine refuses_bind (refuses_clause ts) fun e r hr hread => ?_
  have hsub : r ⊆ ts := subset_of_reads_clause hread
  exact refuses_bind ((refuses_moreAll r).mono hsub) fun es r' hr' _ => refuses_ok _
termination_by (ts.length, 2)

theorem refuses_moreAll (ts : List Lexeme) : Refuses (parseMoreAll ts) ts := by
  match ts with
  | [] =>
      rw [parseMoreAll]
      exact refuses_ok _
  | t :: r =>
      cases t with
      | closing | or =>
          rw [parseMoreAll]
          exact refuses_ok _
      | and =>
          have hsub : r ⊆ .and :: r := List.subset_cons_self _ r
          rw [parseMoreAll]
          refine refuses_unless (.operator List.mem_cons_self rfl) ?_
          refine refuses_bind ((refuses_clause r).mono hsub) fun e r' hr' hread => ?_
          have hsub' : r' ⊆ .and :: r := fun t ht => hsub (subset_of_reads_clause hread ht)
          exact refuses_bind ((refuses_moreAll r').mono hsub') fun es r'' hr'' _ => refuses_ok _
      | _ =>
          rw [parseMoreAll]
          · refine refuses_bind (refuses_clause _) fun e r' hr' hread => ?_
            have hsub := subset_of_reads_clause hread
            exact refuses_bind ((refuses_moreAll r').mono hsub) fun es r'' hr'' _ => refuses_ok _
          all_goals nofun
termination_by (ts.length, 2)

theorem refuses_clause (ts : List Lexeme) : Refuses (parseClause ts) ts := by
  match ts with
  | [] =>
      rw [parseClause]
      exact refuses_error .endOfQuery
  | .word t :: r | .phrase t :: r =>
      rw [parseClause]
      exact refuses_ok _
  | .not :: r | .minus :: r | .plus :: r =>
      rw [parseClause]
      exact refuses_operand rfl
  | .opening :: r =>
      rw [parseClause]
      have hsub : r ⊆ .opening :: r := List.subset_cons_self _ r
      exact refuses_bind ((refuses_group r).mono hsub) fun e r' hr' _ => refuses_ok _
  | .field name :: r =>
      by_cases hr : startsOperand r = true
      · rw [parseClause_field hr]
        have hsub : r ⊆ .field name :: r := List.subset_cons_self _ r
        exact refuses_bind ((refuses_clause r).mono hsub) fun e r' hr' _ => refuses_ok _
      · rw [parseClause_field_error hr]
        exact refuses_error (.operator List.mem_cons_self rfl)
  | .closing :: r =>
      rw [parseClause]
      exact refuses_error .unbalancedParenthesis
  | .and :: r | .or :: r =>
      rw [parseClause]
      exact refuses_error (.operator List.mem_cons_self rfl)
termination_by (ts.length, 1)

theorem refuses_operand {operator : Text} {make : Expr → Expr} {t : Lexeme} {r : List Lexeme}
    (h : t.operator? = some operator) :
    Refuses (parseOperand operator make (t := t) r) (t :: r) := by
  rw [parseOperand]
  refine refuses_unless (.operator List.mem_cons_self h) ?_
  have hsub : r ⊆ t :: r := List.subset_cons_self t r
  exact refuses_bind ((refuses_clause r).mono hsub) fun e r' hr' _ => refuses_ok _
termination_by (r.length, 2)

theorem refuses_group (ts : List Lexeme) : Refuses (parseGroup ts) ts := by
  by_cases hclosing : ts.head? = some .closing
  · obtain ⟨r, rfl⟩ := List.head?_eq_some_iff.1 hclosing
    rw [parseGroup]
    exact refuses_error .emptyGroup
  · rw [parseGroup]
    · refine refuses_bind (refuses_any ts) fun e r hr _ => ?_
      match r, hr with
      | [], hr => exact refuses_error .unbalancedParenthesis
      | t :: r, hr =>
          cases t with
          | closing => exact refuses_ok _
          | _ => exact refuses_error .unbalancedParenthesis
    · rintro r rfl
      exact hclosing rfl
termination_by (ts.length, 4)

end

/-! ### Texts -/

/-- A text is in error because it has no lexemes, or because they are refused. -/
theorem parse_error_cases {s : Text} {err : Error} (h : parse s = .error err) :
    Lexeme.lex s = .error err ∨ ∃ ts, Lexeme.lex s = .ok ts ∧ IsRefusal ts err := by
  rcases Except.bind_eq_error_iff.1 h with hlex | ⟨ts, hlex, h⟩
  · exact .inl hlex
  · refine .inr ⟨ts, hlex, ?_⟩
    cases ts with
    | nil => cases h
    | cons t ts =>
        refine refuses_bind (refuses_any (t :: ts)) (fun e r hr _ => ?_) err h
        cases r with
        | nil => exact refuses_ok _
        | cons u r => exact refuses_error .unbalancedParenthesis

theorem parse_eq_error_of_lex {s : Text} {err : Error} (h : Lexeme.lex s = .error err) :
    parse s = .error err :=
  Except.bind_eq_error_iff.2 (.inl h)

theorem Lexeme.lex_error_cases {s : Text} {err : Error} (h : lex s = .error err) :
    (∃ position, err = .unterminatedPhrase position) ∨ err = .danglingOperator [':'] := by
  rcases exists_of_lexEnd_eq_error h with ⟨a, b, -, herr, -⟩ | herr
  · exact .inl ⟨_, herr⟩
  · exact .inr herr

/-- The place of a phrase without end is that of its quote: what is before the quote can be read,
and after it every quote is escaped. -/
theorem Lexeme.lex_eq_unterminatedPhrase_iff {s : Text} {n : Nat} :
    lex s = .error (.unterminatedPhrase n) ↔
      ∃ a b, s = a ++ '"' :: b ∧ Text.utf8Size a = n ∧ (∃ ts, lex a = .ok ts) ∧
        escapesNext a = false ∧ ∀ u v, b = u ++ '"' :: v → escapesNext u = true := by
  have hsize (a b : Text) : Text.utf8Size (a ++ '"' :: b) - Text.utf8Size ('"' :: b) =
      Text.utf8Size a := by
    rw [Text.utf8Size_append, Nat.add_sub_cancel]
  constructor
  · intro h
    rcases exists_of_lexEnd_eq_error h with ⟨a, b, rfl, herr, ⟨ts, hts⟩, hescapes, hb⟩ | herr
    · refine ⟨a, b, rfl, ?_, ⟨ts, hts _⟩, hescapes, scanPhrase_eq_none_iff.1 hb⟩
      rw [← hsize a b]
      exact (Error.unterminatedPhrase.inj herr).symm
    · cases herr
  · rintro ⟨a, b, rfl, rfl, ⟨ts, hts⟩, hescapes, hb⟩
    -- A quote ends a word, so that what is before it is read as if it stood alone.
    rw [lex, lexEnd_append hescapes rfl hts, lexEnd_unterminated (scanPhrase_eq_none_iff.2 hb),
      hsize a b]
    rfl

/-- A text is reported to have a phrase without end at byte `n` exactly if there is a quote at `n`
that begins one: the text before it can be read and does not escape it, and after it every quote is
escaped.  Where else a text cannot be read, it is for a colon. -/
theorem parse_eq_unterminatedPhrase_iff (s : Text) :
    (∀ n, parse s = .error (.unterminatedPhrase n) ↔
      ∃ a b, s = a ++ '"' :: b ∧ Text.utf8Size a = n ∧ (∃ ts, Lexeme.lex a = .ok ts) ∧
        Lexeme.escapesNext a = false ∧
          ∀ u v, b = u ++ '"' :: v → Lexeme.escapesNext u = true) ∧
    ∀ err, Lexeme.lex s = .error err → parse s = .error err ∧
      ((∃ n, err = .unterminatedPhrase n) ∨ err = .danglingOperator [':']) := by
  refine ⟨fun n => ?_, fun err h => ⟨parse_eq_error_of_lex h, Lexeme.lex_error_cases h⟩⟩
  rw [← Lexeme.lex_eq_unterminatedPhrase_iff]
  refine ⟨fun h => ?_, parse_eq_error_of_lex⟩
  rcases parse_error_cases h with h | ⟨ts, -, h⟩
  · exact h
  · cases h

/-- What can be reported to have no operand, other than a field. -/
def operators : List Text :=
  ["AND", "OR", "NOT", "-", "+", ":", "end of query"].map String.toList

theorem Lexeme.mem_operators_or_field {t : Lexeme} {name : Text} (h : t.operator? = some name) :
    name ∈ operators ∨ ∃ text, t = .field text ∧ name = text ++ [':'] := by
  cases t with
  | field text => exact .inr ⟨text, rfl, (Option.some.inj h).symm⟩
  | word _ | phrase _ | opening | closing => cases h
  | and | or | not | minus | plus =>
      cases h
      exact .inl (by decide)

/-- A text that is no query has a phrase without end, a parenthesis without its other one, an empty
group, or an operator without an operand, which can be a field of the text.  It is never an error
of a field that does not exist or of a wildcard, and no sign is ever overlooked. -/
theorem parse_error (s : Text) :
    (∀ err, parse s = .error err →
      (∃ n, err = .unterminatedPhrase n) ∨ err = .unbalancedParenthesis ∨ err = .emptyGroup ∨
        ∃ operator, err = .danglingOperator operator ∧
          (operator ∈ operators ∨ ∃ ts name, Lexeme.lex s = .ok ts ∧ .field name ∈ ts ∧
            operator = name ++ [':'])) ∧
    (∀ name, parse s ≠ .error (.unknownField name)) ∧
    (∀ term, parse s ≠ .error (.invalidWildcard term)) ∧
    checkedParse s = (parse s).mapError .query ∧ ∀ t, checkedParse s ≠ .error (.sign t) := by
  refine ⟨fun err h => ?_, fun name h => ?_, fun term h => ?_, checkedParse_eq s, fun t h => ?_⟩
  · rcases parse_error_cases h with h | ⟨ts, hlex, h⟩
    · rcases Lexeme.lex_error_cases h with h | h
      · exact .inl h
      · exact .inr (.inr (.inr ⟨_, h, .inl (by decide)⟩))
    · cases h with
      | unbalancedParenthesis => exact .inr (.inl rfl)
      | emptyGroup => exact .inr (.inr (.inl rfl))
      | operator ht hname =>
          refine .inr (.inr (.inr ⟨_, rfl, ?_⟩))
          rcases Lexeme.mem_operators_or_field hname with hsign | ⟨text, rfl, htext⟩
          · exact .inl hsign
          · exact .inr ⟨ts, text, hlex, ht, htext⟩
      | endOfQuery => exact .inr (.inr (.inr ⟨_, rfl, .inl (by decide)⟩))
  · rcases parse_error_cases h with h | ⟨ts, -, h⟩
    · simpa using Lexeme.lex_error_cases h
    · cases h
  · rcases parse_error_cases h with h | ⟨ts, -, h⟩
    · simpa using Lexeme.lex_error_cases h
    · cases h
  · rw [checkedParse_eq] at h
    cases hparse : parse s with
    | ok e =>
        rw [hparse] at h
        cases h
    | error err =>
        rw [hparse] at h
        cases h

end DatasetSearch.Query
