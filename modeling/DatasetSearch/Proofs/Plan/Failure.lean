import DatasetSearch.Plan
import DatasetSearch.Proofs.Outcome

/-! # Which queries cannot be planned

A query fails to be planned on a restriction to a field that does not exist or a wildcard term whose
regular expression is refused, wherever it stands: under a negation, in a group, or beside parts
that ask for nothing.  `Expr.nodes` lists an expression and all that is in it, from left to right,
and planning comes to the nodes in this order (`failure?_ofExpr?`).  So the error is that of the
first node with a fault (`Plan.ofQuery?_eq_error_iff_first`), and without one there is an
outcome. -/

namespace DatasetSearch

open Query

/-! ### Faults -/

theorem Field.ofLabel?_eq_none_iff {name : Text} :
    ofLabel? name = none ↔ ∀ f : Field, f.label.toList ≠ name := by
  rw [ofLabel?, List.find?_eq_none]
  exact ⟨fun h f hf => h f (mem_all f) (decide_eq_true hf),
    fun h f _ hf => h f (of_decide_eq_true hf)⟩

namespace Query.Expr

variable [Automata]

/-- What is wrong with an expression by itself, whatever is in it. -/
inductive Fault : Expr → Error → Prop
  | unknownField {name : Text} (e : Expr) :
      (∀ f : Field, f.label.toList ≠ name) → Fault (.inField name e) (.unknownField name)
  | invalidWildcard {t reason : Text} : isWildcard t = true →
      Automata.refusal? (Pattern.ofTerm t).regex = some reason →
      Fault (.term t) (.invalidWildcard ⟨t, reason⟩)

/-- The fault of an expression, if it has one. -/
def fault? : Expr → Option Error
  | .term t =>
    if isWildcard t then (Pattern.ofTerm t).refusal?.map fun reason => .invalidWildcard ⟨t, reason⟩
    else none
  | .inField name _ => if (Field.ofLabel? name).isNone then some (.unknownField name) else none
  | _ => none

theorem fault?_eq_some_iff {e : Expr} {err : Error} : e.fault? = some err ↔ e.Fault err := by
  cases e with
  | term t =>
      rw [fault?, Option.ite_none_right_eq_some, Option.map_eq_some_iff]
      constructor
      · rintro ⟨hwild, reason, hrefused, rfl⟩
        exact .invalidWildcard hwild hrefused
      · intro h
        cases h with
        | invalidWildcard hwild hrefused => exact ⟨hwild, _, hrefused, rfl⟩
  | inField name e =>
      rw [fault?, Option.ite_none_right_eq_some, Option.isNone_iff_eq_none,
        Field.ofLabel?_eq_none_iff, Option.some_inj]
      constructor
      · rintro ⟨hname, rfl⟩
        exact .unknownField e hname
      · intro h
        cases h with
        | unknownField e hname => exact ⟨hname, rfl⟩
  | _ => exact iff_of_false nofun nofun

theorem fault?_eq_none_iff {e : Expr} : e.fault? = none ↔ ∀ err, ¬ e.Fault err := by
  rw [Option.eq_none_iff_forall_ne_some]
  exact forall_congr' fun err => not_congr fault?_eq_some_iff

mutual

/-- The expression and all that is in it, from left to right, each before what is in it. -/
def nodes : Expr → List Expr
  | .term t => [.term t]
  | .phrase t => [.phrase t]
  | .negation e => .negation e :: nodes e
  | .conjunction es => .conjunction es :: nodesOfEach es
  | .disjunction es => .disjunction es :: nodesOfEach es
  | .inField name e => .inField name e :: nodes e
  | .group e => .group e :: nodes e

/-- The nodes of each expression of a list. -/
def nodesOfEach : List Expr → List Expr
  | [] => []
  | e :: es => nodes e ++ nodesOfEach es

end

end Query.Expr

/-! ### Planning -/

namespace Plan

variable [Automata]

mutual

/-- Over any target fields, planning fails with the fault of the first node that has one. -/
theorem failure?_ofExpr? (targets : List Field) (e : Expr) :
    (ofExpr? targets e).failure? = e.nodes.findSome? Expr.fault? := by
  match e with
  | .term t =>
      rw [ofExpr?, Expr.nodes, List.findSome?_singleton, Expr.fault?]
      cases isWildcard t with
      | false => rfl
      | true =>
          cases (Pattern.ofTerm t).refusal? with
          | none => rfl
          | some reason => rfl
  | .phrase t => rfl
  | .inField name e =>
      rw [ofExpr?, Expr.nodes, List.findSome?_cons, Expr.fault?]
      cases Field.ofLabel? name with
      | none => rfl
      | some f => exact failure?_ofExpr? [f] e
  | .group e =>
      rw [ofExpr?]
      exact failure?_ofExpr? targets e
  | .conjunction es =>
      rw [ofExpr?, Except.failure?_map]
      exact failure?_clausesOf targets .must es
  | .disjunction es =>
      rw [ofExpr?, Except.failure?_map]
      exact failure?_clausesOf targets .should es
  | .negation e =>
      rw [ofExpr?, Except.failure?_map]
      exact failure?_ofExpr? targets e

/-- The same for the clauses of a list: no clause hides or reorders the errors of the others. -/
theorem failure?_clausesOf (targets : List Field) (o : Occur) (es : List Expr) :
    (clausesOf targets o es).failure? = (Expr.nodesOfEach es).findSome? Expr.fault? := by
  match es with
  | [] => rfl
  | e :: es =>
      have hrest (first : List (Occur × Plan)) :
          (clausesOf targets o es >>= fun cs => pure (first ++ cs)).failure? =
            (Expr.nodesOfEach es).findSome? Expr.fault? := by
        rw [Except.failure?_bind (y := none) fun cs => rfl, Option.or_none,
          failure?_clausesOf targets o es]
      rw [Expr.nodesOfEach, List.findSome?_append]
      by_cases hn : ∃ inner, e = .negation inner
      · obtain ⟨inner, rfl⟩ := hn
        rw [clausesOf, Except.failure?_bind fun plan => hrest (clause .mustNot plan),
          failure?_ofExpr? targets inner]
        rfl
      · have hpositive : ∀ inner, e ≠ .negation inner := fun inner he => hn ⟨inner, he⟩
        rw [clausesOf, Except.failure?_bind fun plan => hrest (clause o plan),
          failure?_ofExpr? targets e]
        exact hpositive

end

theorem failure?_ofQuery? (e : Expr) :
    (ofQuery? e).failure? = e.nodes.findSome? Expr.fault? := by
  rw [ofQuery?, Except.failure?_map, failure?_ofExpr?]

/-- Planning a query fails exactly if some node of it has a fault, with the error of the first such
node; otherwise there is an outcome, whatever else is in the query. -/
theorem ofQuery?_eq_error_iff_first (e : Expr) :
    ((∃ err, ofQuery? e = .error err) ↔ ∃ node ∈ e.nodes, ∃ err, node.Fault err) ∧
      (∀ err, ofQuery? e = .error err ↔ ∃ before node after, e.nodes = before ++ node :: after ∧
        node.Fault err ∧ ∀ earlier ∈ before, ∀ err', ¬ earlier.Fault err') ∧
      ((∃ plan, ofQuery? e = .ok plan) ↔ ∀ node ∈ e.nodes, ∀ err, ¬ node.Fault err) := by
  have hsucceeds : (∃ plan, ofQuery? e = .ok plan) ↔
      ∀ node ∈ e.nodes, ∀ err, ¬ node.Fault err := by
    rw [← Except.failure?_eq_none_iff, failure?_ofQuery?, List.findSome?_eq_none_iff]
    exact forall₂_congr fun node _ => Expr.fault?_eq_none_iff
  have hfails : (∃ err, ofQuery? e = .error err) ↔ ¬ ∃ plan, ofQuery? e = .ok plan := by
    cases ofQuery? e with
    | error err => exact iff_of_true ⟨err, rfl⟩ nofun
    | ok plan => exact iff_of_false nofun fun h => h ⟨plan, rfl⟩
  refine ⟨?_, fun err => ?_, hsucceeds⟩
  · rw [hfails, hsucceeds]
    simp only [Classical.not_forall, Classical.not_not, exists_prop]
  · rw [← Except.failure?_eq_some_iff, failure?_ofQuery?, List.findSome?_eq_some_iff]
    simp only [Expr.fault?_eq_some_iff, Expr.fault?_eq_none_iff]

/-- The field that does not exist is found under a negation and beside a phrase without words. -/
example : ofQuery? (.conjunction [.phrase ['?', '!'],
    .negation (.group (.inField ['b', 'o', 'd', 'y'] (.term ['x'])))]) =
      .error (.unknownField ['b', 'o', 'd', 'y']) := by cbv

end Plan

end DatasetSearch
