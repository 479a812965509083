import DatasetSearch.Document
import DatasetSearch.Query.Glob
import DatasetSearch.Query.Parser
import DatasetSearch.Text.Token

/-!
# Search plans

A plan is what a query means to the index.  Compiling an expression gives its plan; the terms of the
expression say what is highlighted.
-/

namespace DatasetSearch

/-! ## Plans

A plan is what a query asks of a document, field by field: a word, a row of words, or a wildcard
pattern in one field, weighted and combined by lists of clauses.

A list of clauses holds if all its `must` clauses hold and none of its `mustNot` clauses does and,
where it has no `must` clause, one of its `should` clauses holds (`Occur.decide`). -/

open Query (Pattern)

/-- The part that a clause plays in its list. -/
inductive Occur
  | must
  | should
  | mustNot
  deriving DecidableEq, Repr

/-- What a query asks of a document. -/
inductive Plan
  | word (f : Field) (t : Text)
  | phrase (f : Field) (ts : List Text)
  | wildcard (f : Field) (p : Pattern)
  | boost (w : Weight) (plan : Plan)
  | clauses (cs : List (Occur × Plan))
  | nothing
  deriving Repr, Inhabited

/-- How many `should` clauses a list asks for by itself: one if it consists of nothing else. -/
def Occur.leastShould {α : Type} (cs : List (Occur × α)) : Nat :=
  if cs.all fun c => c.1 = .should then 1 else 0

/-- Whether a list of clauses holds, from whether each of them does.  A list without a `must` clause
holds through a `should` clause, also where it asks for none by itself. -/
def Occur.decide (cs : List (Occur × Bool)) : Bool :=
  cs.all (fun c => match c.1 with
    | .must => c.2
    | .should => true
    | .mustNot => !c.2) &&
  (leastShould cs ≤ cs.countP fun c => c.1 = .should && c.2) &&
  (cs.any (fun c => c.1 = .must) || cs.any fun c => c.1 = .should && c.2)

/-- The number of places at which the words stand one after the other in the list. -/
def occurrences (ts : List Text) : List Text → Nat
  | [] => if ts.isEmpty then 1 else 0
  | w :: ws => (if ts.isPrefixOf (w :: ws) then 1 else 0) + occurrences ts ws

namespace Plan

variable (words : Field → List Text)

mutual

/-- A document with the given words in its fields is one that the plan asks for. -/
def holds : Plan → Bool
  | word f t => (words f).contains t
  | phrase f ts => occurrences ts (words f) ≠ 0
  | wildcard f p => (words f).any p.matchesToken
  | boost _ plan => holds plan
  | clauses cs => Occur.decide (holdsEach cs)
  | nothing => false

/-- For each clause, whether it holds. -/
def holdsEach : List (Occur × Plan) → List (Occur × Bool)
  | [] => []
  | (o, plan) :: cs => (o, holds plan) :: holdsEach cs

end

end Plan

/-! ## From expressions to plans

An expression is planned over a list of target fields; a field restriction narrows the list to one.
Terms and phrases become one `should` clause for each target, weighted by the field.  What has no
word in it asks for nothing and is dropped; a list of clauses that are all negated asks for what no
document has; a list of one clause is that clause.

Planning fails at the first field that does not exist or wildcard term that is refused, from left to
right. -/

open Query

/-- The weight of a whole query. -/
def queryWeight : Weight := ⟨50⟩

namespace Plan

/-- One weighted clause for each target field. -/
def perField (targets : List Field) (leaf : Field → Plan) : Plan :=
  clauses (targets.map fun f => (.should, boost f.weight (leaf f)))

/-- The plan of a text: its one word, or its words as a phrase; none if it has no word. -/
def ofWords? (targets : List Field) : List Text → Option Plan
  | [] => none
  | [t] => some (perField targets fun f => word f t)
  | ts => some (perField targets fun f => phrase f ts)

/-- The plan of a list of clauses; none if there is no clause. -/
def ofClauses? (cs : List (Occur × Plan)) : Option Plan :=
  if cs.isEmpty then none
  else if cs.all fun c => c.1 = .mustNot then some nothing
  else match cs with
    | [(_, plan)] => some plan
    | cs => some (clauses cs)

/-- The clause of a plan, if there is a plan. -/
def clause (o : Occur) : Option Plan → List (Occur × Plan)
  | none => []
  | some plan => [(o, plan)]

variable [Automata]

mutual

/-- The plan of an expression over the target fields; none if it asks for nothing. -/
def ofExpr? (targets : List Field) : Expr → Except Error (Option Plan)
  | .term t =>
    if isWildcard t then
      match (Pattern.ofTerm t).refusal? with
      | some reason => .error (.invalidWildcard ⟨t, reason⟩)
      | none => .ok (some (perField targets fun f => wildcard f (.ofTerm t)))
    else .ok (ofWords? targets (Text.words t))
  | .phrase t => .ok (ofWords? targets (Text.words t))
  | .inField name e => match Field.ofLabel? name with
    | some f => ofExpr? [f] e
    | none => .error (.unknownField name)
  | .group e => ofExpr? targets e
  | .conjunction es => (clausesOf targets .must es).map ofClauses?
  | .disjunction es => (clausesOf targets .should es).map ofClauses?
  | .negation e => (ofExpr? targets e).map fun plan => ofClauses? (clause .mustNot plan)

/-- The clauses of a list of expressions, of which those not negated are `o` clauses. -/
def clausesOf (targets : List Field) (o : Occur) : List Expr →
    Except Error (List (Occur × Plan))
  | [] => .ok []
  | .negation e :: es => do
    let plan ← ofExpr? targets e
    let cs ← clausesOf targets o es
    return clause .mustNot plan ++ cs
  | e :: es => do
    let plan ← ofExpr? targets e
    let cs ← clausesOf targets o es
    return clause o plan ++ cs

end

/-- The plan of a query over all fields. -/
def ofQuery? (e : Expr) : Except Error (Option Plan) :=
  (ofExpr? Field.all e).map (·.map (boost queryWeight))

end Plan

/-! ## The terms of a query

The words, wildcard patterns and phrases that a query asks for, as ascending sets.  What stands
under a negation is not asked for; fields and groups make no difference. -/

open Query

/-- An ascending list with one more element, unless it has it already. -/
def insertNew {α : Type} [LT α] [DecidableLT α] (a : α) : List α → List α
  | [] => [a]
  | b :: bs => if a < b then a :: b :: bs else if b < a then b :: insertNew a bs else b :: bs

/-- The terms of a query. -/
structure Terms where
  exact : List Text := []
  wildcards : List Pattern := []
  phrases : List (List Text) := []
  deriving DecidableEq, Repr, Inhabited

namespace Terms

/-- The terms with those of a text: its only word, or its words as a phrase. -/
def addWords (t : Terms) : List Text → Terms
  | [] => t
  | [w] => { t with exact := insertNew w t.exact }
  | ws => { t with phrases := insertNew ws t.phrases }

mutual

/-- The terms with those of an expression. -/
def addExpr (t : Terms) : Expr → Terms
  | .term w =>
    if isWildcard w then { t with wildcards := insertNew (.ofTerm w) t.wildcards }
    else t.addWords (Text.words w)
  | .phrase w => t.addWords (Text.words w)
  | .inField _ e => addExpr t e
  | .group e => addExpr t e
  | .conjunction es => addExprs t es
  | .disjunction es => addExprs t es
  | .negation _ => t

/-- The terms with those of each expression of a list. -/
def addExprs (t : Terms) : List Expr → Terms
  | [] => t
  | e :: es => addExprs (addExpr t e) es

end

/-- The terms of an expression. -/
def ofExpr (e : Expr) : Terms := addExpr {} e

/-- The term that a token matches: the token itself if it is one of the exact terms, else a tilde
and the first pattern that fits it. -/
def matching (t : Terms) (token : Text) : Option Text :=
  if t.exact.contains token then some token
  else (t.wildcards.find? (·.matchesToken token)).map fun p => '~' :: p.text

end Terms

end DatasetSearch
