import DatasetSearch.Proofs.Index.Words
import DatasetSearch.Proofs.Plan.Leaves

/-! # The shape of plans

`Plan.HasShape` says what stands where in the plan of a query.  The weight of queries is around it
all.  Each leaf stands under the weight of its field, in a list with one clause for every field that
the term or phrase is looked for in.  Any other list has two clauses or more, some of them not
negated, and these are all required or all optional.

`Plan.Formed` is what planning keeps from the parts of an expression to the whole
(`formed_ofExpr?`).  A plan that stands in a formed one is formed, or belongs to the list of a leaf
(`role_of_stands`), which gives the shape. -/

namespace DatasetSearch

open Query

/-! ### Where a plan stands -/

namespace Plan

/-- The plan stands in `root`; the list has the plans around it, from the inside out. -/
inductive Stands (root : Plan) : List Plan → Plan → Prop
  | root : Stands root [] root
  | boost {around : List Plan} {w : Weight} {plan : Plan} :
      Stands root around (boost w plan) → Stands root (boost w plan :: around) plan
  | clause {around : List Plan} {cs : List (Occur × Plan)} {o : Occur} {plan : Plan} :
      Stands root around (clauses cs) → (o, plan) ∈ cs → Stands root (clauses cs :: around) plan

/-- The field that a leaf looks into; any other plan looks into none by itself. -/
def field? : Plan → Option Field
  | word f _ => some f
  | phrase f _ => some f
  | wildcard f _ => some f
  | _ => none

end Plan

namespace Query

/-- The plan of a leaf in one field. -/
def Leaf.planIn (f : Field) : Leaf → Plan
  | wildcard p => .wildcard f p
  | words [t] => .word f t
  | words ts => .phrase f ts

theorem Leaf.field?_planIn (f : Field) (leaf : Leaf) : (leaf.planIn f).field? = some f := by
  unfold planIn
  split <;> rfl

/-- Only a leaf of one word is planned as a word. -/
theorem Leaf.eq_of_planIn_eq_word {f : Field} {leaf : Leaf} {t : Text}
    (h : leaf.planIn f = .word f t) : leaf = .words [t] := by
  match leaf with
  | .wildcard p => cases h
  | .words [] => cases h
  | .words [t] =>
      cases h
      rfl
  | .words (t :: t' :: ts) => cases h

/-- Only a leaf of no words, or of two or more, is planned as a phrase. -/
theorem Leaf.eq_of_planIn_eq_phrase {f : Field} {leaf : Leaf} {ts : List Text}
    (h : leaf.planIn f = .phrase f ts) : leaf = .words ts ∧ (ts = [] ∨ 2 ≤ ts.length) := by
  match leaf with
  | .wildcard p => cases h
  | .words [] =>
      cases h
      exact ⟨rfl, .inl rfl⟩
  | .words [t] => cases h
  | .words (t :: t' :: ts) =>
      cases h
      exact ⟨rfl, .inr (Nat.le_add_left 2 ts.length)⟩

namespace Expr

mutual

/-- The leaves of an expression, negated or not, each with the fields in which it is looked for. -/
def aims (fields : List Field) : Expr → List (List Field × Leaf)
  | .term t => [(fields, .ofTerm t)]
  | .phrase t => [(fields, .words (Text.words t))]
  | .negation e => aims fields e
  | .conjunction es => aimsOfEach fields es
  | .disjunction es => aimsOfEach fields es
  | .inField name e => match Field.ofLabel? name with
    | some f => aims [f] e
    | none => []
  | .group e => aims fields e

/-- The aims of each expression of a list. -/
def aimsOfEach (fields : List Field) : List Expr → List (List Field × Leaf)
  | [] => []
  | e :: es => aims fields e ++ aimsOfEach fields es

end

mutual

/-- A leaf is proper, and is looked for in the fields of the whole or in a single one. -/
theorem of_mem_aims (fields : List Field) (e : Expr) {targets : List Field} {leaf : Leaf}
    (h : (targets, leaf) ∈ e.aims fields) :
    (targets = fields ∨ ∃ f, targets = [f]) ∧ leaf.IsProper := by
  match e with
  | .term t =>
      obtain ⟨rfl, rfl⟩ := Prod.mk.inj (List.mem_singleton.1 h)
      exact ⟨.inl rfl, Leaf.isProper_ofTerm t⟩
  | .phrase t =>
      obtain ⟨rfl, rfl⟩ := Prod.mk.inj (List.mem_singleton.1 h)
      exact ⟨.inl rfl, fun w => Text.ne_nil_of_mem_words⟩
  | .negation e => exact of_mem_aims fields e h
  | .conjunction es => exact of_mem_aimsOfEach fields es h
  | .disjunction es => exact of_mem_aimsOfEach fields es h
  | .inField name e =>
      rw [aims] at h
      split at h
      · rename_i f _
        obtain ⟨htargets, hproper⟩ := of_mem_aims [f] e h
        exact ⟨.inr (htargets.elim (fun hf => ⟨f, hf⟩) id), hproper⟩
      · cases h
  | .group e => exact of_mem_aims fields e h

theorem of_mem_aimsOfEach (fields : List Field) (es : List Expr) {targets : List Field}
    {leaf : Leaf} (h : (targets, leaf) ∈ aimsOfEach fields es) :
    (targets = fields ∨ ∃ f, targets = [f]) ∧ leaf.IsProper := by
  match es with
  | [] => cases h
  | e :: es =>
      rw [aimsOfEach] at h
      rcases List.mem_append.1 h with h | h
      · exact of_mem_aims fields e h
      · exact of_mem_aimsOfEach fields es h

end

end Expr

end Query

namespace Plan

/-! ### What planning keeps -/

/-- The plan of a part of an expression with the given aims. -/
inductive Formed (aims : List (List Field × Leaf)) : Plan → Prop
  | nothing : Formed aims nothing
  | leaf {targets : List Field} (asked : Leaf) : (targets, asked) ∈ aims → asked ≠ .words [] →
      Formed aims (perField targets asked.planIn)
  | list {cs : List (Occur × Plan)} (o : Occur) : 2 ≤ cs.length → (∃ c ∈ cs, c.1 ≠ .mustNot) →
      (∀ c ∈ cs, c.1 = o ∨ c.1 = .mustNot) → (∀ c ∈ cs, Formed aims c.2) →
      Formed aims (clauses cs)

theorem Formed.mono {aims more : List (List Field × Leaf)} {plan : Plan} (h : Formed aims plan)
    (hsubset : aims ⊆ more) : Formed more plan := by
  induction h with
  | nothing => exact .nothing
  | leaf asked hmem hne => exact .leaf asked (hsubset hmem) hne
  | list o hlength hpositive hkinds _ ih => exact .list o hlength hpositive hkinds ih

/-- A list of negated clauses becomes what no document has. -/
theorem ofClauses?_of_negative {cs : List (Occur × Plan)} (hne : cs ≠ [])
    (h : ∀ c ∈ cs, c.1 = .mustNot) : ofClauses? cs = some nothing := by
  have hall : (cs.all fun c => c.1 = .mustNot) = true :=
    List.all_eq_true.2 fun c hc => decide_eq_true (h c hc)
  unfold ofClauses?
  rw [if_neg (mt List.isEmpty_iff.1 hne), if_pos hall]

/-- Any other list becomes its only clause or a list of two or more. -/
theorem ofClauses?_eq_some {cs : List (Occur × Plan)} {plan : Plan}
    (h : ofClauses? cs = some plan) : plan = nothing ∨ (∃ o, cs = [(o, plan)]) ∨
      plan = clauses cs ∧ 2 ≤ cs.length ∧ ∃ c ∈ cs, c.1 ≠ .mustNot := by
  unfold ofClauses? at h
  split at h
  · cases h
  · rename_i hne
    split at h
    · cases h
      exact .inl rfl
    · rename_i hsome
      have hpositive : ∃ c ∈ cs, c.1 ≠ .mustNot := by simpa using hsome
      split at h
      · rename_i o only
        cases h
        exact .inr (.inl ⟨o, rfl⟩)
      · rename_i hmany
        cases h
        refine .inr (.inr ⟨rfl, ?_, hpositive⟩)
        match cs with
        | [] => exact absurd rfl hne
        | [(o, only)] => exact absurd rfl (hmany o only)
        | c :: c' :: cs => exact Nat.le_add_left 2 cs.length

theorem mem_clause {o : Occur} {plan : Option Plan} {c : Occur × Plan} :
    c ∈ clause o plan ↔ c.1 = o ∧ plan = some c.2 := by
  cases plan with
  | none => exact iff_of_false List.not_mem_nil fun h => nomatch h.2
  | some plan =>
      rw [clause, List.mem_singleton, Prod.ext_iff, Option.some_inj, eq_comm (a := plan)]

variable {aims : List (List Field × Leaf)}

theorem formed_ofClauses? {o : Occur} {cs : List (Occur × Plan)} {plan : Plan}
    (hcs : ∀ c ∈ cs, (c.1 = o ∨ c.1 = .mustNot) ∧ Formed aims c.2)
    (h : ofClauses? cs = some plan) : Formed aims plan := by
  rcases ofClauses?_eq_some h with rfl | ⟨o', rfl⟩ | ⟨rfl, hlength, hpositive⟩
  · exact .nothing
  · exact (hcs _ (List.mem_singleton_self _)).2
  · exact .list o hlength hpositive (fun c hc => (hcs c hc).1) fun c hc => (hcs c hc).2

theorem formed_ofWords? {targets : List Field} {ts : List Text} {plan : Plan}
    (h : ofWords? targets ts = some plan) : Formed [(targets, .words ts)] plan := by
  match ts with
  | [] => cases h
  | [t] =>
      cases h
      exact .leaf (.words [t]) (List.mem_singleton_self _) nofun
  | t :: t' :: ts =>
      cases h
      exact .leaf (.words (t :: t' :: ts)) (List.mem_singleton_self _) nofun

section

variable [Automata]

mutual

theorem formed_ofExpr? (fields : List Field) (e : Expr) {plan : Plan}
    (h : ofExpr? fields e = .ok (some plan)) : Formed (e.aims fields) plan := by
  match e with
  | .term t =>
      rw [ofExpr?] at h
      rw [Expr.aims, Leaf.ofTerm]
      split at h
      · rename_i hwild
        rw [if_pos hwild]
        split at h
        · cases h
        · cases h
          exact .leaf (.wildcard (.ofTerm t)) (List.mem_singleton_self _) nofun
      · rename_i hwild
        rw [if_neg hwild]
        exact formed_ofWords? (Except.ok.inj h)
  | .phrase t =>
      rw [ofExpr?] at h
      exact formed_ofWords? (Except.ok.inj h)
  | .negation e =>
      rw [ofExpr?] at h
      obtain ⟨inner, hinner, h⟩ := Except.map_eq_ok_iff.1 h
      refine formed_ofClauses? (o := .mustNot) (fun c hc => ?_) h
      obtain ⟨ho, rfl⟩ := mem_clause.1 hc
      exact ⟨.inl ho, formed_ofExpr? fields e hinner⟩
  | .conjunction es =>
      rw [ofExpr?] at h
      obtain ⟨cs, hcs, h⟩ := Except.map_eq_ok_iff.1 h
      exact formed_ofClauses? (formed_clausesOf fields es hcs) h
  | .disjunction es =>
      rw [ofExpr?] at h
      obtain ⟨cs, hcs, h⟩ := Except.map_eq_ok_iff.1 h
      exact formed_ofClauses? (formed_clausesOf fields es hcs) h
  | .inField name e =>
      rw [ofExpr?] at h
      rw [Expr.aims]
      cases hf : Field.ofLabel? name with
      | none =>
          rw [hf] at h
          cases h
      | some f =>
          rw [hf] at h
          exact formed_ofExpr? [f] e h
  | .group e =>
      rw [ofExpr?] at h
      exact formed_ofExpr? fields e h
termination_by sizeOf e

theorem formed_clausesOf (fields : List Field) {o : Occur} (es : List Expr)
    {cs : List (Occur × Plan)} (h : clausesOf fields o es = .ok cs) :
    ∀ c ∈ cs, (c.1 = o ∨ c.1 = .mustNot) ∧ Formed (Expr.aimsOfEach fields es) c.2 := by
  match es with
  | [] =>
      cases h
      exact nofun
  | e :: es =>
      have hrest {first rest : List (Occur × Plan)} (hrest : clausesOf fields o es = .ok rest)
          (hfirst : ∀ c ∈ first, (c.1 = o ∨ c.1 = .mustNot) ∧ Formed (e.aims fields) c.2) :
          ∀ c ∈ first ++ rest,
            (c.1 = o ∨ c.1 = .mustNot) ∧ Formed (Expr.aimsOfEach fields (e :: es)) c.2 := by
        intro c hc
        rw [Expr.aimsOfEach]
        rcases List.mem_append.1 hc with hc | hc
        · exact (hfirst c hc).imp_right fun hc => hc.mono (List.subset_append_left _ _)
        · exact (formed_clausesOf fields es hrest c hc).imp_right fun hc =>
            hc.mono (List.subset_append_right _ _)
      by_cases hn : ∃ inner, e = .negation inner
      · obtain ⟨inner, rfl⟩ := hn
        rw [clausesOf] at h
        obtain ⟨plan, hplan, h⟩ := Except.bind_eq_ok_iff.1 h
        obtain ⟨rest, hcs, h⟩ := Except.bind_eq_ok_iff.1 h
        cases h
        refine hrest hcs fun c hc => ?_
        obtain ⟨ho, rfl⟩ := mem_clause.1 hc
        exact ⟨.inr ho, formed_ofExpr? fields inner hplan⟩
      · rw [clausesOf_cons fun inner he => hn ⟨inner, he⟩] at h
        obtain ⟨plan, hplan, h⟩ := Except.bind_eq_ok_iff.1 h
        obtain ⟨rest, hcs, h⟩ := Except.bind_eq_ok_iff.1 h
        cases h
        refine hrest hcs fun c hc => ?_
        obtain ⟨ho, rfl⟩ := mem_clause.1 hc
        exact ⟨.inl ho, formed_ofExpr? fields e hplan⟩
termination_by sizeOf es

end

end

/-! ### What stands in a plan -/

/-- What part something has in the plan of a query, from the plans around it. -/
inductive Role (aims : List (List Field × Leaf)) (inner : Plan) : List Plan → Plan → Prop
  | whole : Role aims inner [] (boost queryWeight inner)
  | formed (around : List Plan) {plan : Plan} : Formed aims plan → Role aims inner around plan
  | weighted (outer : List Plan) {targets : List Field} {leaf : Leaf} {f : Field} :
      (targets, leaf) ∈ aims → leaf ≠ .words [] → f ∈ targets →
      Role aims inner (perField targets leaf.planIn :: outer) (boost f.weight (leaf.planIn f))
  | leaf (outer : List Plan) {targets : List Field} {leaf : Leaf} {f : Field} :
      (targets, leaf) ∈ aims → leaf ≠ .words [] → f ∈ targets →
      Role aims inner
        (boost f.weight (leaf.planIn f) :: perField targets leaf.planIn :: outer) (leaf.planIn f)

theorem Formed.field?_eq_none {plan : Plan} (h : Formed aims plan) : plan.field? = none := by
  cases h <;> rfl

theorem Formed.ne_boost {plan inner : Plan} {w : Weight} (h : Formed aims plan) :
    plan ≠ boost w inner := by
  cases h <;> exact nofun

variable {inner part : Plan} {around : List Plan}

/-- A leaf stands in the list of its fields under its weight. -/
theorem Role.of_field? {f : Field} (h : Role aims inner around part) (hf : part.field? = some f) :
    ∃ targets leaf outer, (targets, leaf) ∈ aims ∧ leaf ≠ .words [] ∧ f ∈ targets ∧
      part = leaf.planIn f ∧
      around = boost f.weight part :: perField targets leaf.planIn :: outer := by
  cases h with
  | whole => cases hf
  | formed _ h =>
      rw [h.field?_eq_none] at hf
      cases hf
  | weighted => cases hf
  | leaf outer hmem hne hf' =>
      rw [Leaf.field?_planIn, Option.some_inj] at hf
      subst hf
      exact ⟨_, _, outer, hmem, hne, hf', rfl, rfl⟩

/-- A list of clauses is that of a leaf, or is formed of two clauses or more. -/
theorem Role.of_clauses {cs : List (Occur × Plan)} (h : Role aims inner around (clauses cs)) :
    (∃ targets leaf, (targets, leaf) ∈ aims ∧ leaf ≠ .words [] ∧
      cs = targets.map fun f => (.should, boost f.weight (leaf.planIn f))) ∨
    (2 ≤ cs.length ∧ (∃ c ∈ cs, c.1 ≠ .mustNot) ∧ (∃ o, ∀ c ∈ cs, c.1 = o ∨ c.1 = .mustNot) ∧
      ∀ c ∈ cs, Formed aims c.2) := by
  generalize hplan : clauses cs = plan at h
  cases h with
  | whole => cases hplan
  | formed _ h =>
      cases h with
      | nothing => cases hplan
      | leaf asked hmem hne => exact .inl ⟨_, asked, hmem, hne, Plan.clauses.inj hplan⟩
      | list o hlength hpositive hkinds hcs =>
          cases hplan
          exact .inr ⟨hlength, hpositive, ⟨o, hkinds⟩, hcs⟩
  | weighted => cases hplan
  | leaf _ _ _ _ =>
      have hfield := congrArg field? hplan
      rw [Leaf.field?_planIn] at hfield
      cases hfield

/-- Some clauses of a list are not negated, and these are of one kind. -/
theorem Role.exists_kind {cs : List (Occur × Plan)} (h : Role aims inner around (clauses cs))
    (haims : ∀ targets leaf, (targets, leaf) ∈ aims → targets ≠ []) :
    (∃ c ∈ cs, c.1 ≠ .mustNot) ∧ ∃ o, ∀ c ∈ cs, c.1 = o ∨ c.1 = .mustNot := by
  rcases h.of_clauses with ⟨targets, leaf, hmem, -, rfl⟩ | ⟨-, hpositive, hkinds, -⟩
  · obtain ⟨f, hf⟩ := List.exists_mem_of_ne_nil _ (haims targets leaf hmem)
    exact ⟨⟨_, List.mem_map_of_mem hf, Occur.noConfusion⟩,
      .should, List.forall_mem_map.2 fun g _ => .inl rfl⟩
  · exact ⟨hpositive, hkinds⟩

theorem not_mixed {cs : List (Occur × Plan)} {o : Occur}
    (h : ∀ c ∈ cs, c.1 = o ∨ c.1 = .mustNot) :
    ¬ ((∃ c ∈ cs, c.1 = .must) ∧ ∃ c ∈ cs, c.1 = .should) := by
  rintro ⟨⟨c, hc, hmust⟩, d, hd, hshould⟩
  have hc := (h c hc).resolve_right (hmust ▸ Occur.noConfusion)
  have hd := (h d hd).resolve_right (hshould ▸ Occur.noConfusion)
  rw [← hc, hmust, hshould] at hd
  cases hd

/-- Everything that stands in the plan of a query has a part in it. -/
theorem role_of_stands (hinner : Formed aims inner)
    (h : (boost queryWeight inner).Stands around part) : Role aims inner around part := by
  induction h with
  | root => exact .whole
  | @boost around w plan _ ih =>
      generalize hboost : boost w plan = outer at ih
      cases ih with
      | whole =>
          cases hboost
          exact .formed _ hinner
      | formed _ h => exact absurd hboost.symm h.ne_boost
      | weighted outer hmem hne hf =>
          cases hboost
          exact .leaf outer hmem hne hf
      | leaf _ _ _ _ =>
          have hfield := congrArg field? hboost
          rw [Leaf.field?_planIn] at hfield
          cases hfield
  | @clause around cs o plan _ hc ih =>
      rcases ih.of_clauses with ⟨targets, leaf, hmem, hne, rfl⟩ | ⟨-, -, -, hcs⟩
      · obtain ⟨f, hf, heq⟩ := List.mem_map.1 hc
        cases heq
        exact .weighted around hmem hne hf
      · exact .formed _ (hcs _ hc)

/-! ### The shape -/

/-- What stands where in the plan of an expression. -/
structure HasShape (e : Expr) (plan : Plan) : Prop where
  root : ∃ inner, plan = boost ⟨50⟩ inner
  leaf : ∀ around leaf f, plan.Stands around leaf → leaf.field? = some f →
    ∃ targets asked outer, (targets, asked) ∈ e.aims Field.all ∧
      (targets = Field.all ∨ targets = [f]) ∧ f ∈ targets ∧ leaf = asked.planIn f ∧
      around = boost f.weight leaf ::
        clauses (targets.map fun g => (.should, boost g.weight (asked.planIn g))) :: outer
  word : ∀ around f t, plan.Stands around (word f t) → t ≠ []
  phrase : ∀ around f ts, plan.Stands around (phrase f ts) → 2 ≤ ts.length ∧ ∀ t ∈ ts, t ≠ []
  list : ∀ around cs, plan.Stands around (clauses cs) → cs ≠ [] ∧ (∃ c ∈ cs, c.1 ≠ .mustNot) ∧
    ¬ ((∃ c ∈ cs, c.1 = .must) ∧ ∃ c ∈ cs, c.1 = .should)
  single : ∀ around c, plan.Stands around (clauses [c]) →
    ∃ f leaf, leaf.field? = some f ∧ c = (.should, boost f.weight leaf)

/-- The plan of every query that can be planned and asks for something has the shape, and a list of
negated clauses is no part of it: it becomes what no document has. -/
theorem hasShape_of_ofQuery? [Automata] {e : Expr} {plan : Plan}
    (h : ofQuery? e = .ok (some plan)) :
    HasShape e plan ∧ ∀ cs : List (Occur × Plan), cs ≠ [] → (∀ c ∈ cs, c.1 = .mustNot) →
      ofClauses? cs = some nothing := by
  obtain ⟨inner?, hinner?, h⟩ := Except.map_eq_ok_iff.1 h
  obtain ⟨inner, rfl, rfl⟩ := Option.map_eq_some_iff.1 h
  have hrole {around : List Plan} {part : Plan}
      (hstands : (boost queryWeight inner).Stands around part) :
      Role (e.aims Field.all) inner around part :=
    role_of_stands (formed_ofExpr? Field.all e hinner?) hstands
  have haims {targets : List Field} {asked : Leaf} (hmem : (targets, asked) ∈ e.aims Field.all) :=
    Expr.of_mem_aims Field.all e hmem
  refine ⟨⟨⟨inner, rfl⟩, fun around leaf f hstands hf => ?_, fun around f t hstands => ?_,
    fun around f ts hstands => ?_, fun around cs hstands => ?_, fun around c hstands => ?_⟩,
    fun cs => ofClauses?_of_negative⟩
  · obtain ⟨targets, asked, outer, hmem, -, hin, hleaf, haround⟩ := (hrole hstands).of_field? hf
    have hsingle : targets = Field.all ∨ targets = [f] := by
      rcases (haims hmem).1 with hall | ⟨g, rfl⟩
      · exact .inl hall
      · rw [List.mem_singleton.1 hin]
        exact .inr rfl
    exact ⟨targets, asked, outer, hmem, hsingle, hin, hleaf, haround⟩
  · obtain ⟨targets, asked, outer, hmem, -, -, hleaf, -⟩ := (hrole hstands).of_field? rfl
    cases Leaf.eq_of_planIn_eq_word hleaf.symm
    exact (haims hmem).2 t (List.mem_singleton_self t)
  · obtain ⟨targets, asked, outer, hmem, hne, -, hleaf, -⟩ := (hrole hstands).of_field? rfl
    obtain ⟨rfl, hlength⟩ := Leaf.eq_of_planIn_eq_phrase hleaf.symm
    have hsome : ts ≠ [] := fun hnil => hne (congrArg Leaf.words hnil)
    exact ⟨hlength.resolve_left hsome, (haims hmem).2⟩
  · have hne : ∀ targets asked, (targets, asked) ∈ e.aims Field.all → targets ≠ [] := by
      intro targets asked hmem
      rcases (haims hmem).1 with rfl | ⟨g, rfl⟩
      · exact List.cons_ne_nil _ _
      · exact List.cons_ne_nil _ _
    obtain ⟨⟨c, hc, hpositive⟩, o, ho⟩ := (hrole hstands).exists_kind hne
    exact ⟨List.ne_nil_of_mem hc, ⟨c, hc, hpositive⟩, not_mixed ho⟩
  · rcases (hrole hstands).of_clauses with ⟨targets, asked, -, -, hc⟩ | ⟨hlength, -⟩
    · obtain ⟨f, -, rfl⟩ := List.map_eq_singleton_iff.1 hc.symm
      exact ⟨f, _, Leaf.field?_planIn f asked, rfl⟩
    · exact absurd hlength (Nat.not_succ_le_self 1)

set_option maxRecDepth 2000 in
/-- A negated part is kept in the outer list, and the inner list of negated parts is what no
document has. -/
theorem hasShape_of_ofQuery?_of_negations :
    let e : Expr := .conjunction [.inField "name".toList (.phrase ['a', '-', 'b']),
      .negation (.term ['c']), .group (.disjunction [.negation (.term ['d']), .phrase []])]
    let plan : Plan := boost ⟨50⟩ (clauses [
      (.must, perField [.name] fun f => Plan.phrase f [['a'], ['b']]),
      (.mustNot, perField Field.all fun f => Plan.word f ['c']), (.must, nothing)])
    ofQuery? e = .ok (some plan) ∧ HasShape e plan := by
  intro e plan
  have hplan : ofQuery? e = .ok (some plan) := by cbv
  exact ⟨hplan, (hasShape_of_ofQuery? hplan).1⟩

end Plan

end DatasetSearch
