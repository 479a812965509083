import DatasetSearch.Text.Basic

/-!
# Parsing queries

From the text of a query to its expression, in two steps: the text is cut into lexemes, and the
lexemes are read by recursive descent.
-/

namespace DatasetSearch

/-! ## Query expressions

A query is a tree of terms and quoted phrases under negation, conjunction, disjunction, restriction
to one field, and parentheses.  Parentheses stay in the tree as groups, so a conjunction inside
them is not merged into the one around it; `Expr.all` and `Expr.any` merge what is not in
parentheses and write no conjunction or disjunction of one part. -/

namespace Query

/-- A query expression.  A term keeps the backslash of an escaped star, question mark or backslash;
a phrase has no escapes left. -/
inductive Expr
  | term (t : Text)
  | phrase (t : Text)
  | negation (e : Expr)
  | conjunction (parts : List Expr)
  | disjunction (parts : List Expr)
  | inField (name : Text) (e : Expr)
  | group (e : Expr)
  deriving Repr, Inhabited

namespace Expr

/-- The parts of a conjunction; any other expression is its own only part. -/
def conjuncts : Expr → List Expr
  | conjunction parts => parts
  | e => [e]

/-- The parts of a disjunction; any other expression is its own only part. -/
def disjuncts : Expr → List Expr
  | disjunction parts => parts
  | e => [e]

/-- All of the expressions, with the parts of conjunctions among them on the same level. -/
def all (es : List Expr) : Expr :=
  match es.flatMap conjuncts with
  | [e] => e
  | parts => conjunction parts

/-- Any of the expressions, with the parts of disjunctions among them on the same level. -/
def any (es : List Expr) : Expr :=
  match es.flatMap disjuncts with
  | [e] => e
  | parts => disjunction parts

end Expr

/-- A term with a star or a question mark that no backslash escapes. -/
def isWildcard : Text → Bool
  | [] => false
  | ['\\'] => false
  | '\\' :: _ :: rest => isWildcard rest
  | c :: rest => c = '*' || c = '?' || isWildcard rest

/-! ## Query errors

Why a query has no answer: its text is not a sentence of the query language, it names a field that
does not exist, or it has a wildcard term that is refused. -/

/-- A wildcard term and the reason for which it is refused. -/
structure Refusal where
  term : Text
  reason : Text
  deriving DecidableEq, Repr

/-- Why a query has no answer. -/
inductive Error
  | unterminatedPhrase (position : Nat)
  | unbalancedParenthesis
  | danglingOperator (operator : Text)
  | emptyGroup
  | unknownField (name : Text)
  | invalidWildcard (refusal : Refusal)
  deriving DecidableEq, Repr

namespace Error

/-- The error in words. -/
def message : Error → String
  | unterminatedPhrase position =>
    "unterminated phrase starting at byte " ++ String.ofList (Text.ofNat position)
  | unbalancedParenthesis => "unbalanced parenthesis"
  | danglingOperator operator =>
    "operator '" ++ String.ofList operator ++ "' is missing an operand"
  | emptyGroup => "empty group"
  | unknownField name => "unknown field '" ++ String.ofList name ++ "'"
  | invalidWildcard refusal =>
    "invalid wildcard term '" ++ String.ofList refusal.term ++ "': " ++
      String.ofList refusal.reason

end Error

/-! ## The lexemes of a query

A query text is a row of words, quoted phrases, field names, parentheses and operators.

* A word ends at white space, a parenthesis, a quote or a colon.  In a word a backslash takes the
  next character literally; it stays in the word only before a star, a question mark or a
  backslash.  A word right before a colon is a field name.
* A plus or minus sign is an operator only where a word could begin.  `AND`, `OR`, `NOT` and their
  signs `&&`, `||`, `!` are operators unless something in them is escaped.
* A phrase runs to the next quote that no backslash escapes.

`lex` fails only on a phrase without end and on a colon where a word could begin. -/

/-- A part of a query text. -/
inductive Lexeme
  | word (t : Text)
  | phrase (t : Text)
  | field (name : Text)
  | opening
  | closing
  | plus
  | minus
  | and
  | or
  | not
  deriving DecidableEq, Repr

namespace Lexeme

/-- A character at which a word ends. -/
def isBoundary (c : Char) : Bool :=
  Text.isBlank c || c = '(' || c = ')' || c = '"' || c = ':'

/-- A character that keeps its backslash. -/
def keepsEscape (c : Char) : Bool := c = '*' || c = '?' || c = '\\'

/-- A word that was read: its text, whether anything in it was escaped, and what follows it. -/
structure Word where
  text : Text
  escaped : Bool
  rest : Text

/-- The word at the front of a text. -/
def scanWord : Text → Word
  | [] => ⟨[], false, []⟩
  | ['\\'] => ⟨[], false, []⟩
  | '\\' :: c :: rest =>
    match scanWord rest with
    | ⟨t, _, rest'⟩ => ⟨if keepsEscape c then '\\' :: c :: t else c :: t, true, rest'⟩
  | c :: rest =>
    if isBoundary c then ⟨[], false, c :: rest⟩
    else match scanWord rest with
      | ⟨t, escaped, rest'⟩ => ⟨c :: t, escaped, rest'⟩

/-- The phrase at the front of a text, after its opening quote, and what follows its closing
quote. -/
def scanPhrase : Text → Option (Text × Text)
  | [] => none
  | ['\\'] => none
  | '\\' :: c :: rest => (scanPhrase rest).map fun p => (c :: p.1, p.2)
  | '"' :: rest => some ([], rest)
  | c :: rest => (scanPhrase rest).map fun p => (c :: p.1, p.2)

theorem length_scanWord_le (s : Text) : (scanWord s).rest.length ≤ s.length := by
  fun_induction scanWord s with
  | case1 | case2 | case4 => simp
  | case3 | case5 => simp_all only [List.length_cons]; omega

/-- A word is not empty unless it ends at once, so reading one makes progress. -/
theorem length_scanWord_lt {c : Char} {s : Text} (h : isBoundary c = false) :
    (scanWord (c :: s)).rest.length < (c :: s).length := by
  have hs := length_scanWord_le s
  unfold scanWord
  split
  · simp
  · simp
  · rename_i d rest heq
    obtain ⟨-, rfl⟩ := List.cons.inj heq
    have := length_scanWord_le rest
    simp only [List.length_cons]; omega
  · rename_i d rest _ heq
    obtain ⟨rfl, rfl⟩ := List.cons.inj heq
    simp only [h, Bool.false_eq_true, if_false, List.length_cons]; omega

theorem length_scanPhrase_lt {s t rest : Text} (h : scanPhrase s = some (t, rest)) :
    rest.length < s.length := by
  fun_induction scanPhrase s generalizing t rest with
  | case1 | case2 => simp at h
  | case3 c r ih =>
    obtain ⟨p, hp, he⟩ := Option.map_eq_some_iff.1 h
    have := ih hp
    rw [← (Prod.mk.inj he).2]
    simp only [List.length_cons]; omega
  | case4 r =>
    obtain ⟨-, rfl⟩ := Prod.mk.inj (Option.some.inj h)
    simp
  | case5 c r _ _ _ ih =>
    obtain ⟨p, hp, he⟩ := Option.map_eq_some_iff.1 h
    have := ih hp
    rw [← (Prod.mk.inj he).2]
    simp only [List.length_cons]; omega

/-- A word by itself: an operator if it is spelled like one without escapes. -/
def ofWord (t : Text) (escaped : Bool) : Lexeme :=
  if escaped then word t
  else if t = ['A', 'N', 'D'] ∨ t = ['&', '&'] then and
  else if t = ['O', 'R'] ∨ t = ['|', '|'] then or
  else if t = ['N', 'O', 'T'] ∨ t = ['!'] then not
  else word t

/-- The lexemes of the end `s` of a text of `size` bytes. -/
def lexEnd (size : Nat) (s : Text) : Except Error (List Lexeme) :=
  match s with
  | [] => .ok []
  | c :: rest =>
    if Text.isBlank c then lexEnd size rest
    else if c = '(' then (lexEnd size rest).map (opening :: ·)
    else if c = ')' then (lexEnd size rest).map (closing :: ·)
    else if c = '+' then (lexEnd size rest).map (plus :: ·)
    else if c = '-' then (lexEnd size rest).map (minus :: ·)
    else if c = '"' then
      match _h : scanPhrase rest with
      | none => .error (.unterminatedPhrase (size - Text.utf8Size s))
      | some (t, rest') => (lexEnd size rest').map (phrase t :: ·)
    else if c = ':' then .error (.danglingOperator [':'])
    else
      let w := scanWord (c :: rest)
      match _hw : w.rest with
      | ':' :: rest' => (lexEnd size rest').map (field w.text :: ·)
      | rest' => (lexEnd size rest').map (ofWord w.text w.escaped :: ·)
termination_by s.length
decreasing_by
  all_goals simp only [List.length_cons]
  any_goals omega
  · have := length_scanPhrase_lt _h; omega
  all_goals
    have hb : isBoundary c = false := by simp_all [isBoundary]
    have := length_scanWord_lt (s := rest) hb
    have hw' : (scanWord (c :: rest)).rest = _ := _hw
    simp only [hw', List.length_cons] at this
    omega

/-- The lexemes of a text. -/
def lex (s : Text) : Except Error (List Lexeme) := lexEnd (Text.utf8Size s) s

end Lexeme

/-! ## The parser

A query is a disjunction of conjunctions of clauses.  `OR` separates the parts of a disjunction; the
clauses of a conjunction stand side by side or are separated by `AND`.  A clause is a term, a
phrase, a disjunction in parentheses, one of these in a field, or a clause after `NOT`, `-` or `+`;
the plus sign leaves no trace.

Every function here reads an expression off the front of a row of lexemes and returns what is left
with a proof that it is shorter.  The error is that of the first lexeme at which no sentence can go
on; an operator that is followed by nothing to operate on is reported as such. -/

/-- What is left of `ts` after at least one lexeme was read. -/
abbrev Rest (ts : List Lexeme) := { r : List Lexeme // r.length < ts.length }

/-- What is left of `ts` after any number of lexemes was read. -/
abbrev Tail (ts : List Lexeme) := { r : List Lexeme // r.length ≤ ts.length }

/-- No operand can follow: the lexemes end, or a closing parenthesis, `OR` or `AND` is next. -/
def lacksOperand : List Lexeme → Bool
  | [] | .closing :: _ | .or :: _ | .and :: _ => true
  | _ => false

mutual

/-- A disjunction. -/
def parseAny (ts : List Lexeme) : Except Error (Expr × Rest ts) := do
  let (e, ⟨r, hr⟩) ← parseAll ts
  let (es, ⟨r', hr'⟩) ← parseMoreAny r
  return (Expr.any (e :: es), ⟨r', by omega⟩)
termination_by 6 * ts.length + 3

/-- The parts of a disjunction after the first. -/
def parseMoreAny (ts : List Lexeme) : Except Error (List Expr × Tail ts) :=
  match ts with
  | .or :: r =>
    if lacksOperand r then .error (.danglingOperator ['O', 'R'])
    else do
      let (e, ⟨r', hr'⟩) ← parseAll r
      let (es, ⟨r'', hr''⟩) ← parseMoreAny r'
      return (e :: es, ⟨r'', by simp only [List.length_cons]; omega⟩)
  | ts => .ok ([], ⟨ts, Nat.le_refl _⟩)
termination_by 6 * ts.length

/-- A conjunction. -/
def parseAll (ts : List Lexeme) : Except Error (Expr × Rest ts) := do
  let (e, ⟨r, hr⟩) ← parseClause ts
  let (es, ⟨r', hr'⟩) ← parseMoreAll r
  return (Expr.all (e :: es), ⟨r', by omega⟩)
termination_by 6 * ts.length + 2

/-- The parts of a conjunction after the first. -/
def parseMoreAll (ts : List Lexeme) : Except Error (List Expr × Tail ts) :=
  match ts with
  | [] => .ok ([], ⟨[], Nat.le_refl _⟩)
  | .closing :: r => .ok ([], ⟨.closing :: r, Nat.le_refl _⟩)
  | .or :: r => .ok ([], ⟨.or :: r, Nat.le_refl _⟩)
  | .and :: r =>
    if lacksOperand r then .error (.danglingOperator ['A', 'N', 'D'])
    else do
      let (e, ⟨r', hr'⟩) ← parseClause r
      let (es, ⟨r'', hr''⟩) ← parseMoreAll r'
      return (e :: es, ⟨r'', by simp only [List.length_cons]; omega⟩)
  | t :: r => do
    let (e, ⟨r', hr'⟩) ← parseClause (t :: r)
    let (es, ⟨r'', hr''⟩) ← parseMoreAll r'
    return (e :: es, ⟨r'', by omega⟩)
termination_by 6 * ts.length + 1
decreasing_by all_goals (try simp only [List.length_cons] at *); omega

/-- A clause. -/
def parseClause (ts : List Lexeme) : Except Error (Expr × Rest ts) :=
  match ts with
  | [] => .error (.danglingOperator "end of query".toList)
  | .word t :: r => .ok (.term t, ⟨r, by simp⟩)
  | .phrase t :: r => .ok (.phrase t, ⟨r, by simp⟩)
  | .opening :: r => do
    let (e, ⟨r', hr'⟩) ← parseGroup r
    return (e, ⟨r', by simp only [List.length_cons]; omega⟩)
  | .field name :: .word t :: r =>
    .ok (.inField name (.term t), ⟨r, by simp only [List.length_cons]; omega⟩)
  | .field name :: .phrase t :: r =>
    .ok (.inField name (.phrase t), ⟨r, by simp only [List.length_cons]; omega⟩)
  | .field name :: .opening :: r => do
    let (e, ⟨r', hr'⟩) ← parseGroup r
    return (.inField name e, ⟨r', by simp only [List.length_cons]; omega⟩)
  | .field name :: _ => .error (.danglingOperator (name ++ [':']))
  | .not :: r => parseOperand ['N', 'O', 'T'] .negation r
  | .minus :: r => parseOperand ['-'] .negation r
  | .plus :: r => parseOperand ['+'] (fun e => e) r
  | .closing :: _ => .error .unbalancedParenthesis
  | .and :: _ => .error (.danglingOperator ['A', 'N', 'D'])
  | .or :: _ => .error (.danglingOperator ['O', 'R'])
termination_by 6 * ts.length

/-- The operand of a sign, as the sign makes it. -/
def parseOperand (operator : Text) (make : Expr → Expr) {t : Lexeme} (r : List Lexeme) :
    Except Error (Expr × Rest (t :: r)) :=
  if lacksOperand r then .error (.danglingOperator operator)
  else do
    let (e, ⟨r', hr'⟩) ← parseClause r
    return (make e, ⟨r', by simp only [List.length_cons]; omega⟩)
termination_by 6 * r.length + 1

/-- A group after its opening parenthesis. -/
def parseGroup (ts : List Lexeme) : Except Error (Expr × Rest ts) :=
  match ts with
  | .closing :: _ => .error .emptyGroup
  | ts => do
    let (e, ⟨r, hr⟩) ← parseAny ts
    match r, hr with
    | .closing :: r', hr => return (.group e, ⟨r', by simp only [List.length_cons] at hr; omega⟩)
    | _, _ => throw .unbalancedParenthesis
termination_by 6 * ts.length + 4

end

/-- The expression of a query text; none if the text is blank. -/
def parse (s : Text) : Except Error (Option Expr) := do
  let ts ← Lexeme.lex s
  if ts.isEmpty then return none
  let (e, ⟨r, _⟩) ← parseAny ts
  if r.isEmpty then return some e else throw .unbalancedParenthesis

end Query

end DatasetSearch
