import DatasetSearch.Proofs.Query.Reading

/-! # Clauses in two steps

`parseClause` reads the signs of a clause and what stands behind them in one step, by the lexeme
that is next.  The parser here takes two: `checkedClause` reads signs, and whatever is next after
them is left to `checkedPrimary`, a reader of words, phrases, groups and fields that does not know
what can come.  A sign that it meets is no error of the query but a fault of the parser, which has
overlooked it (`ReadingFault.sign`).

No sign is overlooked: both parsers give the same, errors included, whatever is parsed
(`checkedParse_eq`, by recursion on what is left to read). -/

namespace DatasetSearch.Query

/-! ### The parser -/

/-- What ends the reading of a query. -/
inductive ReadingFault
  /-- The query is no sentence. -/
  | query (error : Error)
  /-- A sign was left to be read as a word, a phrase, a group or a field. -/
  | sign (t : Lexeme)

mutual

/-- A disjunction. -/
def checkedAny (ts : List Lexeme) : Except ReadingFault (Expr × Rest ts) := do
  let (e, ⟨r, hr⟩) ← checkedAll ts
  let (es, ⟨r', hr'⟩) ← checkedMoreAny r
  return (Expr.any (e :: es), ⟨r', by omega⟩)
termination_by 6 * ts.length + 3

/-- The parts of a disjunction after the first. -/
def checkedMoreAny (ts : List Lexeme) : Except ReadingFault (List Expr × Tail ts) :=
  match ts with
  | .or :: r =>
    if lacksOperand r then .error (.query (.danglingOperator ['O', 'R']))
    else do
      let (e, ⟨r', hr'⟩) ← checkedAll r
      let (es, ⟨r'', hr''⟩) ← checkedMoreAny r'
      return (e :: es, ⟨r'', by simp only [List.length_cons]; omega⟩)
  | ts => .ok ([], ⟨ts, Nat.le_refl _⟩)
termination_by 6 * ts.length

/-- A conjunction. -/
def checkedAll (ts : List Lexeme) : Except ReadingFault (Expr × Rest ts) := do
  let (e, ⟨r, hr⟩) ← checkedClause ts
  let (es, ⟨r', hr'⟩) ← checkedMoreAll r
  return (Expr.all (e :: es), ⟨r', by omega⟩)
termination_by 6 * ts.length + 2

/-- The parts of a conjunction after the first. -/
def checkedMoreAll (ts : List Lexeme) : Except ReadingFault (List Expr × Tail ts) :=
  match ts with
  | [] => .ok ([], ⟨[], Nat.le_refl _⟩)
  | .closing :: r => .ok ([], ⟨.closing :: r, Nat.le_refl _⟩)
  | .or :: r => .ok ([], ⟨.or :: r, Nat.le_refl _⟩)
  | .and :: r =>
    if lacksOperand r then .error (.query (.danglingOperator ['A', 'N', 'D']))
    else do
      let (e, ⟨r', hr'⟩) ← checkedClause r
      let (es, ⟨r'', hr''⟩) ← checkedMoreAll r'
      return (e :: es, ⟨r'', by simp only [List.length_cons]; omega⟩)
  | t :: r => do
    let (e, ⟨r', hr'⟩) ← checkedClause (t :: r)
    let (es, ⟨r'', hr''⟩) ← checkedMoreAll r'
    return (e :: es, ⟨r'', by omega⟩)
termination_by 6 * ts.length + 2
decreasing_by all_goals (try simp only [List.length_cons] at *); omega

/-- A clause. -/
def checkedClause (ts : List Lexeme) : Except ReadingFault (Expr × Rest ts) :=
  match ts with
  | .not :: r => checkedOperand ['N', 'O', 'T'] .negation r
  | .minus :: r => checkedOperand ['-'] .negation r
  | .plus :: r => checkedOperand ['+'] (fun e => e) r
  | ts => checkedPrimary ts
termination_by 6 * ts.length + 1

/-- The operand of a sign, as the sign makes it. -/
def checkedOperand (operator : Text) (make : Expr → Expr) {t : Lexeme} (r : List Lexeme) :
    Except ReadingFault (Expr × Rest (t :: r)) :=
  if lacksOperand r then .error (.query (.danglingOperator operator))
  else do
    let (e, ⟨r', hr'⟩) ← checkedClause r
    return (make e, ⟨r', Nat.lt_succ_of_lt hr'⟩)
termination_by 6 * r.length + 2

/-- A clause without signs. -/
def checkedPrimary (ts : List Lexeme) : Except ReadingFault (Expr × Rest ts) :=
  match ts with
  | .word t :: r => .ok (.term t, ⟨r, by simp⟩)
  | .phrase t :: r => .ok (.phrase t, ⟨r, by simp⟩)
  | .opening :: r => do
    let (e, ⟨r', hr'⟩) ← checkedGroup r
    return (e, ⟨r', Nat.lt_succ_of_lt hr'⟩)
  | .field name :: r =>
    if startsOperand r then do
      let (e, ⟨r', hr'⟩) ← checkedPrimary r
      return (.inField name e, ⟨r', Nat.lt_succ_of_lt hr'⟩)
    else .error (.query (.danglingOperator (name ++ [':'])))
  | .closing :: _ => .error (.query .unbalancedParenthesis)
  | .and :: _ => .error (.query (.danglingOperator ['A', 'N', 'D']))
  | .or :: _ => .error (.query (.danglingOperator ['O', 'R']))
  | t :: _ => .error (.sign t)
  | [] => .error (.query (.danglingOperator "end of query".toList))
termination_by 6 * ts.length

/-- A group after its opening parenthesis. -/
def checkedGroup (ts : List Lexeme) : Except ReadingFault (Expr × Rest ts) :=
  match ts with
  | .closing :: _ => .error (.query .emptyGroup)
  | ts => do
    let (e, ⟨r, hr⟩) ← checkedAny ts
    match r, hr with
    | .closing :: r', hr => return (.group e, ⟨r', by simp only [List.length_cons] at hr; omega⟩)
    | _, _ => throw (.query .unbalancedParenthesis)
termination_by 6 * ts.length + 4

end

/-- The expression of a query text, or what ended its reading. -/
def checkedParse (s : Text) : Except ReadingFault (Option Expr) := do
  let ts ← (Lexeme.lex s).mapError .query
  if ts.isEmpty then return none
  let (e, ⟨r, _⟩) ← checkedAny ts
  if r.isEmpty then return some e else throw (.query .unbalancedParenthesis)

/-! ### The same outcome -/

/-- The lexemes begin with a sign. -/
def startsSign : List Lexeme → Bool
  | .not :: _ | .minus :: _ | .plus :: _ => true
  | _ => false

/-- One outcome is the other, errors of the query included. -/
def IsSame {α : Type} (x : Except ReadingFault α) (y : Except Error α) : Prop :=
  x = y.mapError .query

section outcomes
variable {α β : Type} {x : Except ReadingFault α} {y : Except Error α}

theorem isSame_bind {f : α → Except ReadingFault β} {g : α → Except Error β} (h : IsSame x y)
    (hfg : ∀ a, IsSame (f a) (g a)) : IsSame (x >>= f) (y >>= g) := by
  rw [IsSame] at h
  subst h
  cases y with
  | error e => rfl
  | ok a => exact hfg a

/-- Both make sure first that nothing is missing. -/
theorem isSame_unless {missing : Bool} {e : Error} (h : IsSame x y) :
    IsSame (if missing = true then .error (.query e) else x)
      (if missing = true then .error e else y) := by
  cases missing with
  | true => rfl
  | false => exact h

end outcomes

/-! ### Fields -/

theorem startsSign_eq_false {ts : List Lexeme} (h : startsOperand ts = true) :
    startsSign ts = false := by
  unfold startsOperand at h
  split at h
  · rfl
  · rfl
  · rfl
  · cases h

/-- A field is what it is put in front of. -/
theorem parseClause_field {name : Text} {r : List Lexeme} (h : startsOperand r = true) :
    parseClause (.field name :: r) = (do
      let (e, ⟨r', hr'⟩) ← parseClause r
      return (.inField name e, ⟨r', Nat.lt_succ_of_lt hr'⟩)) := by
  match r, h with
  | .word t :: r, _ | .phrase t :: r, _ =>
      rw [parseClause, parseClause]
      rfl
  | .opening :: r, _ =>
      rw [parseClause, parseClause, bind_assoc]
      rfl

theorem parseClause_field_error {name : Text} {r : List Lexeme} (h : ¬ startsOperand r = true) :
    parseClause (.field name :: r) = .error (.danglingOperator (name ++ [':'])) := by
  rw [parseClause]
  · rintro t us rfl
    exact h rfl
  · rintro t us rfl
    exact h rfl
  · rintro us rfl
    exact h rfl

/-! ### Readers -/

mutual

theorem isSame_any (ts : List Lexeme) : IsSame (checkedAny ts) (parseAny ts) := by
  rw [checkedAny, parseAny]
  exact isSame_bind (isSame_all ts) fun ⟨e, r, hr⟩ =>
    isSame_bind (isSame_moreAny r) fun ⟨es, r', hr'⟩ => rfl
termination_by (ts.length, 4)

theorem isSame_moreAny (ts : List Lexeme) : IsSame (checkedMoreAny ts) (parseMoreAny ts) := by
  match ts with
  | [] =>
      rw [checkedMoreAny, parseMoreAny]
      · rfl
      all_goals nofun
  | t :: r =>
      cases t with
      | or =>
          rw [checkedMoreAny, parseMoreAny]
          refine isSame_unless (isSame_bind (isSame_all r) fun ⟨e, r', hr'⟩ => ?_)
          exact isSame_bind (isSame_moreAny r') fun ⟨es, r'', hr''⟩ => rfl
      | _ =>
          rw [checkedMoreAny, parseMoreAny]
          · rfl
          all_goals nofun
termination_by (ts.length, 0)

theorem isSame_all (ts : List Lexeme) : IsSame (checkedAll ts) (parseAll ts) := by
  rw [checkedAll, parseAll]
  exact isSame_bind (isSame_clause ts) fun ⟨e, r, hr⟩ =>
    isSame_bind (isSame_moreAll r) fun ⟨es, r', hr'⟩ => rfl
termination_by (ts.length, 3)

theorem isSame_moreAll (ts : List Lexeme) : IsSame (checkedMoreAll ts) (parseMoreAll ts) := by
  match ts with
  | [] =>
      rw [checkedMoreAll, parseMoreAll]
      rfl
  | t :: r =>
      cases t with
      | closing | or =>
          rw [checkedMoreAll, parseMoreAll]
          rfl
      | and =>
          rw [checkedMoreAll, parseMoreAll]
          refine isSame_unless (isSame_bind (isSame_clause r) fun ⟨e, r', hr'⟩ => ?_)
          exact isSame_bind (isSame_moreAll r') fun ⟨es, r'', hr''⟩ => rfl
      | _ =>
          rw [checkedMoreAll, parseMoreAll]
          · refine isSame_bind (isSame_clause _) fun ⟨e, r', hr'⟩ => ?_
            exact isSame_bind (isSame_moreAll r') fun ⟨es, r'', hr''⟩ => rfl
          all_goals nofun
termination_by (ts.length, 3)

theorem isSame_clause (ts : List Lexeme) : IsSame (checkedClause ts) (parseClause ts) := by
  match ts with
  | .not :: r | .minus :: r | .plus :: r =>
      rw [checkedClause, parseClause]
      exact isSame_operand r
  | .word t :: r | .phrase t :: r | .opening :: r | .field t :: r | .closing :: r | .and :: r
  | .or :: r | [] =>
      rw [checkedClause]
      · exact isSame_primary rfl
      all_goals nofun
termination_by (ts.length, 2)

theorem isSame_operand {operator : Text} {make : Expr → Expr} {t : Lexeme} (r : List Lexeme) :
    IsSame (checkedOperand operator make (t := t) r) (parseOperand operator make r) := by
  rw [checkedOperand, parseOperand]
  exact isSame_unless (isSame_bind (isSame_clause r) fun ⟨e, r', hr'⟩ => rfl)
termination_by (r.length, 3)

/-- Where no sign is next, a clause is what follows the signs. -/
theorem isSame_primary {ts : List Lexeme} (h : startsSign ts = false) :
    IsSame (checkedPrimary ts) (parseClause ts) := by
  match ts with
  | .not :: r | .minus :: r | .plus :: r => cases h
  | .word t :: r | .phrase t :: r | .closing :: r | .and :: r | .or :: r | [] =>
      rw [checkedPrimary, parseClause]
      rfl
  | .opening :: r =>
      rw [checkedPrimary, parseClause]
      exact isSame_bind (isSame_group r) fun ⟨e, r', hr'⟩ => rfl
  | .field name :: r =>
      by_cases hr : startsOperand r = true
      · rw [checkedPrimary, if_pos hr, parseClause_field hr]
        exact isSame_bind (isSame_primary (startsSign_eq_false hr)) fun ⟨e, r', hr'⟩ => rfl
      · rw [checkedPrimary, if_neg hr, parseClause_field_error hr]
        rfl
termination_by (ts.length, 1)

theorem isSame_group (ts : List Lexeme) : IsSame (checkedGroup ts) (parseGroup ts) := by
  by_cases hclosing : ts.head? = some .closing
  · obtain ⟨r, rfl⟩ := List.head?_eq_some_iff.1 hclosing
    rw [checkedGroup, parseGroup]
    rfl
  · have hne : ∀ r, ts = .closing :: r → False := fun r hr => hclosing (hr ▸ rfl)
    rw [checkedGroup, parseGroup]
    · refine isSame_bind (isSame_any ts) fun ⟨e, r, hr⟩ => ?_
      match r, hr with
      | [], hr => rfl
      | t :: r, hr => cases t <;> rfl
    · exact hne
    · exact hne
termination_by (ts.length, 5)

end

/-- Both parsers give the same for every text, so no sign is ever overlooked. -/
theorem checkedParse_eq (s : Text) : checkedParse s = (parse s).mapError .query := by
  refine isSame_bind rfl fun ts => ?_
  cases ts with
  | nil => rfl
  | cons t ts =>
      refine isSame_bind (isSame_any (t :: ts)) fun ⟨e, r, hr⟩ => ?_
      cases r <;> rfl

end DatasetSearch.Query
