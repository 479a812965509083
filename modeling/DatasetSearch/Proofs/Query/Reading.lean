import DatasetSearch.Proofs.Outcome
import DatasetSearch.Query.Parser

/-! # What the readers of a query do

Every reader of the parser takes something off the front of a row of lexemes.  `Reads x a r` says
that a reader's outcome `x` is `a`, with `r` left.  There is one lemma for each reader and each kind
of lexeme that it tells apart; it says what the reader reads in terms of the readers it calls. -/

namespace DatasetSearch.Query

/-- The outcome of a reader is `a`, and `r` is left. -/
def Reads {α : Type} {P : List Lexeme → Prop} (x : Except Error (α × { r : List Lexeme // P r }))
    (a : α) (r : List Lexeme) : Prop :=
  ∃ h : P r, x = .ok (a, ⟨r, h⟩)

section outcomes
variable {α β : Type} {P Q : List Lexeme → Prop}

theorem reads_ok_iff {a b : α} {r r' : List Lexeme} {h : P r'} :
    Reads (.ok (a, ⟨r', h⟩)) b r ↔ b = a ∧ r = r' := by
  constructor
  · rintro ⟨hr, h⟩
    cases h
    exact ⟨rfl, rfl⟩
  · rintro ⟨rfl, rfl⟩
    exact ⟨h, rfl⟩

theorem not_reads_error {e : Error} {b : α} {r : List Lexeme} :
    ¬ Reads (P := P) (.error e) b r := by
  rintro ⟨hr, h⟩
  cases h

theorem reads_unique {x : Except Error (α × { r : List Lexeme // P r })} {a b : α}
    {r r' : List Lexeme} (h : Reads x a r) (h' : Reads x b r') : a = b := by
  obtain ⟨hr, rfl⟩ := h
  obtain ⟨hr', h'⟩ := h'
  cases h'
  rfl

/-- One reader after another: the second one reads what the first one left. -/
theorem reads_bind_iff {x : Except Error (α × { r : List Lexeme // P r })}
    {f : α × { r : List Lexeme // P r } → Except Error (β × { r : List Lexeme // Q r })}
    {b : β} {r : List Lexeme} {G : α → List Lexeme → Prop}
    (hf : ∀ a mid (h : P mid), Reads (f (a, ⟨mid, h⟩)) b r ↔ G a mid) :
    Reads (x >>= f) b r ↔ ∃ a mid, Reads x a mid ∧ G a mid := by
  constructor
  · rintro ⟨hr, h⟩
    obtain ⟨⟨a, mid, hmid⟩, hx, h⟩ := Except.bind_eq_ok_iff.1 h
    exact ⟨a, mid, ⟨hmid, hx⟩, (hf a mid hmid).1 ⟨hr, h⟩⟩
  · rintro ⟨a, mid, ⟨hmid, hx⟩, hG⟩
    obtain ⟨hr, h⟩ := (hf a mid hmid).2 hG
    exact ⟨hr, Except.bind_eq_ok_iff.2 ⟨_, hx, h⟩⟩

/-- A reader whose value is made into another one. -/
theorem reads_bind_make_iff {x : Except Error (α × { r : List Lexeme // P r })}
    {f : α × { r : List Lexeme // P r } → Except Error (β × { r : List Lexeme // Q r })}
    {make : α → β} {b : β} {r : List Lexeme}
    (hf : ∀ a mid (h : P mid), Reads (f (a, ⟨mid, h⟩)) b r ↔ b = make a ∧ r = mid) :
    Reads (x >>= f) b r ↔ ∃ a, Reads x a r ∧ b = make a := by
  rw [reads_bind_iff hf]
  constructor
  · rintro ⟨a, mid, ha, hb, rfl⟩
    exact ⟨a, ha, hb⟩
  · rintro ⟨a, ha, hb⟩
    exact ⟨a, r, ha, hb, rfl⟩

/-- A reader that first makes sure that nothing is missing. -/
theorem reads_unless_iff {missing : Bool} {error : Error} {r : List Lexeme} {a : α} {A : Prop}
    {x : Except Error (α × { r : List Lexeme // P r })} (h : Reads x a r ↔ A) :
    Reads (if missing = true then .error error else x) a r ↔ missing = false ∧ A := by
  cases missing with
  | true => exact iff_of_false not_reads_error fun hr => Bool.noConfusion hr.1
  | false => exact h.trans (and_iff_right rfl).symm

end outcomes

variable {e : Expr} {es : List Expr} {ts r : List Lexeme}

/-! ### Disjunctions -/

theorem reads_parseAny_iff : Reads (parseAny ts) e r ↔
    ∃ first mid, Reads (parseAll ts) first mid ∧
      ∃ rest r', Reads (parseMoreAny mid) rest r' ∧ e = Expr.any (first :: rest) ∧ r = r' := by
  rw [parseAny]
  exact reads_bind_iff fun first mid _ => reads_bind_iff fun rest r' _ => reads_ok_iff

theorem reads_parseMoreAny_or_iff : Reads (parseMoreAny (.or :: ts)) es r ↔
    lacksOperand ts = false ∧ ∃ first mid, Reads (parseAll ts) first mid ∧
      ∃ rest r', Reads (parseMoreAny mid) rest r' ∧ es = first :: rest ∧ r = r' := by
  rw [parseMoreAny]
  exact reads_unless_iff
    (reads_bind_iff fun first mid _ => reads_bind_iff fun rest r' _ => reads_ok_iff)

theorem reads_parseMoreAny_iff (h : ts.head? ≠ some .or) :
    Reads (parseMoreAny ts) es r ↔ es = [] ∧ r = ts := by
  rw [parseMoreAny]
  · exact reads_ok_iff
  · rintro us rfl
    exact h rfl

/-! ### Conjunctions -/

theorem reads_parseAll_iff : Reads (parseAll ts) e r ↔
    ∃ first mid, Reads (parseClause ts) first mid ∧
      ∃ rest r', Reads (parseMoreAll mid) rest r' ∧ e = Expr.all (first :: rest) ∧ r = r' := by
  rw [parseAll]
  exact reads_bind_iff fun first mid _ => reads_bind_iff fun rest r' _ => reads_ok_iff

theorem reads_parseMoreAll_and_iff : Reads (parseMoreAll (.and :: ts)) es r ↔
    lacksOperand ts = false ∧ ∃ first mid, Reads (parseClause ts) first mid ∧
      ∃ rest r', Reads (parseMoreAll mid) rest r' ∧ es = first :: rest ∧ r = r' := by
  rw [parseMoreAll]
  exact reads_unless_iff
    (reads_bind_iff fun first mid _ => reads_bind_iff fun rest r' _ => reads_ok_iff)

/-- A conjunction ends before these lexemes. -/
def endsAll : List Lexeme → Bool
  | [] | .closing :: _ | .or :: _ => true
  | _ => false

theorem reads_parseMoreAll_iff_of_end (h : endsAll ts = true) :
    Reads (parseMoreAll ts) es r ↔ es = [] ∧ r = ts := by
  unfold endsAll at h
  split at h
  · rw [parseMoreAll]
    exact reads_ok_iff
  · rw [parseMoreAll]
    exact reads_ok_iff
  · rw [parseMoreAll]
    exact reads_ok_iff
  · cases h

theorem reads_parseMoreAll_iff (h : lacksOperand ts = false) : Reads (parseMoreAll ts) es r ↔
    ∃ first mid, Reads (parseClause ts) first mid ∧
      ∃ rest r', Reads (parseMoreAll mid) rest r' ∧ es = first :: rest ∧ r = r' := by
  cases ts with
  | nil => cases h
  | cons t ts =>
      cases t with
      | closing => cases h
      | or => cases h
      | and => cases h
      | _ =>
          rw [parseMoreAll]
          · exact reads_bind_iff fun first mid _ => reads_bind_iff fun rest r' _ => reads_ok_iff
          all_goals exact Lexeme.noConfusion

/-! ### Clauses -/

theorem reads_parseClause_word_iff {t : Text} :
    Reads (parseClause (.word t :: ts)) e r ↔ e = .term t ∧ r = ts := by
  rw [parseClause]
  exact reads_ok_iff

theorem reads_parseClause_phrase_iff {t : Text} :
    Reads (parseClause (.phrase t :: ts)) e r ↔ e = .phrase t ∧ r = ts := by
  rw [parseClause]
  exact reads_ok_iff

theorem reads_parseGroup_iff : Reads (parseGroup ts) e r ↔
    ts.head? ≠ some .closing ∧ ∃ inner, Reads (parseAny ts) inner (.closing :: r) ∧
      e = .group inner := by
  by_cases hclosing : ts.head? = some .closing
  · obtain ⟨us, rfl⟩ := List.head?_eq_some_iff.1 hclosing
    rw [parseGroup]
    exact iff_of_false not_reads_error fun h => h.1 hclosing
  · rw [and_iff_right hclosing, parseGroup]
    · refine (reads_bind_iff (G := fun inner mid => mid = .closing :: r ∧ e = .group inner)
        fun inner mid hmid => ?_).trans ?_
      · cases mid with
        | nil => exact iff_of_false not_reads_error fun h => by simp at h
        | cons t mid =>
            cases t with
            | closing =>
                rw [List.cons.injEq, eq_comm (a := mid), and_iff_right rfl, and_comm]
                exact reads_ok_iff
            | _ => exact iff_of_false not_reads_error fun h => by simp at h
      · constructor
        · rintro ⟨inner, mid, hinner, rfl, he⟩
          exact ⟨inner, hinner, he⟩
        · rintro ⟨inner, hinner, he⟩
          exact ⟨inner, _, hinner, rfl, he⟩
    · rintro us rfl
      exact hclosing rfl

theorem reads_parseClause_opening_iff :
    Reads (parseClause (.opening :: ts)) e r ↔ Reads (parseGroup ts) e r := by
  have hmake : Reads (parseClause (.opening :: ts)) e r ↔
      ∃ inner, Reads (parseGroup ts) inner r ∧ e = inner := by
    rw [parseClause]
    exact reads_bind_make_iff fun inner mid _ => reads_ok_iff
  rw [hmake, exists_eq_right']

/-- The lexemes begin with a word, a phrase or a group. -/
def startsOperand : List Lexeme → Bool
  | .word _ :: _ | .phrase _ :: _ | .opening :: _ => true
  | _ => false

theorem reads_parseClause_field_iff {name : Text} : Reads (parseClause (.field name :: ts)) e r ↔
    startsOperand ts = true ∧
      ∃ inner, Reads (parseClause ts) inner r ∧ e = .inField name inner := by
  by_cases h : startsOperand ts = true
  · rw [and_iff_right h]
    unfold startsOperand at h
    split at h
    · rw [exists_congr fun inner => and_congr_left' reads_parseClause_word_iff, parseClause]
      refine reads_ok_iff.trans ?_
      simp [and_comm]
    · rw [exists_congr fun inner => and_congr_left' reads_parseClause_phrase_iff, parseClause]
      refine reads_ok_iff.trans ?_
      simp [and_comm]
    · rw [exists_congr fun inner => and_congr_left' reads_parseClause_opening_iff, parseClause]
      exact reads_bind_make_iff fun inner mid _ => reads_ok_iff
    · cases h
  · rw [parseClause]
    · exact iff_of_false not_reads_error fun hr => h hr.1
    · rintro t us rfl
      exact h rfl
    · rintro t us rfl
      exact h rfl
    · rintro us rfl
      exact h rfl

theorem reads_parseOperand_iff {operator : Text} {make : Expr → Expr} {t : Lexeme} :
    Reads (parseOperand operator make (t := t) ts) e r ↔
      lacksOperand ts = false ∧ ∃ inner, Reads (parseClause ts) inner r ∧ e = make inner := by
  rw [parseOperand]
  exact reads_unless_iff (reads_bind_make_iff fun inner mid _ => reads_ok_iff)

theorem reads_parseClause_not_iff : Reads (parseClause (.not :: ts)) e r ↔
    lacksOperand ts = false ∧ ∃ inner, Reads (parseClause ts) inner r ∧ e = .negation inner := by
  rw [parseClause]
  exact reads_parseOperand_iff

theorem reads_parseClause_minus_iff : Reads (parseClause (.minus :: ts)) e r ↔
    lacksOperand ts = false ∧ ∃ inner, Reads (parseClause ts) inner r ∧ e = .negation inner := by
  rw [parseClause]
  exact reads_parseOperand_iff

theorem reads_parseClause_plus_iff : Reads (parseClause (.plus :: ts)) e r ↔
    lacksOperand ts = false ∧ Reads (parseClause ts) e r := by
  rw [parseClause]
  refine reads_parseOperand_iff.trans (and_congr_right fun _ => ?_)
  rw [exists_eq_right']

/-- No clause begins where an operand is missing. -/
theorem not_reads_parseClause (h : lacksOperand ts = true) : ¬ Reads (parseClause ts) e r := by
  unfold lacksOperand at h
  split at h
  · rw [parseClause]
    exact not_reads_error
  · rw [parseClause]
    exact not_reads_error
  · rw [parseClause]
    exact not_reads_error
  · rw [parseClause]
    exact not_reads_error
  · cases h

end DatasetSearch.Query
