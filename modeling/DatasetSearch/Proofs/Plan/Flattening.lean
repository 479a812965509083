import DatasetSearch.Proofs.Plan.Failure
import DatasetSearch.Proofs.Plan.Leaves
import DatasetSearch.Proofs.Query.Grammar

/-! # Lists on one level

`Expr.all` and `Expr.any` put the parts of an inner list on the level of the list around it, and
write no list of one part.  There a negated part takes documents away from the whole list.  In a
conjunction it did so in the inner list already, unless that had negated parts alone and held of no
document; in a disjunction it did not.  These cases apart, the list on one level asks for the same
documents (`sameHits_all_and_any`).

Two lists of parts mean the same if they agree on whether there is a part at all, whether some part
is as one part has to be, and whether all parts are as every part has to be (`Part.Agree`).  What
has to be is different for conjunctions (`Part.combine_all_iff`) and disjunctions
(`Part.combine_any_iff`); in both, the parts of an inner list agree with the one part that the inner
list is (`agree_conjuncts`, `agree_disjuncts`). -/

namespace DatasetSearch

open Query

namespace Query

/-! ### Lists of parts -/

namespace Part

variable {quantify : List Part → (Part → Bool) → Bool} {ps qs : List Part}

theorem combine_eq_none_iff : combine quantify ps = none ↔ ps = [] := by
  unfold combine
  dsimp only
  split
  · rename_i h
    exact iff_of_true rfl (List.isEmpty_iff.1 h)
  · rename_i h
    have hne : ps ≠ [] := mt List.isEmpty_iff.2 h
    split
    · exact iff_of_false nofun hne
    · exact iff_of_false nofun hne

/-- A list holds if some part is not negated, the quantifier finds enough of these parts to hold,
and no negated part does. -/
theorem combine_iff : combine quantify ps = some true ↔
    (∃ p ∈ ps, p.negated = false) ∧ quantify (ps.filter fun p => !p.negated) holds = true ∧
      ∀ p ∈ ps, p.negated = true → p.holds = false := by
  have hpositive : (ps.filter fun p => !p.negated).isEmpty = false ↔
      ∃ p ∈ ps, p.negated = false := by
    simp [← Bool.not_eq_true]
  have hnegative : ((ps.filter fun p => p.negated).any holds) = false ↔
      ∀ p ∈ ps, p.negated = true → p.holds = false := by
    simp
  rw [← hpositive, ← hnegative]
  unfold combine
  dsimp only
  split
  · rename_i h
    simp [List.isEmpty_iff.1 h]
  · split
    · rename_i h
      simp [h]
    · rename_i h
      simp [h]

theorem combine_all_iff : combine List.all ps = some true ↔
    (∃ p ∈ ps, p.negated = false) ∧ ∀ p ∈ ps, p.holds = !p.negated := by
  rw [combine_iff, List.all_eq_true]
  refine and_congr_right fun _ => ?_
  constructor
  · rintro ⟨hpositive, hnegative⟩ p hp
    cases hn : p.negated with
    | true => exact hnegative p hp hn
    | false => exact hpositive p (List.mem_filter.2 ⟨hp, by rw [hn]; rfl⟩)
  · intro h
    refine ⟨fun p hp => ?_, fun p hp hn => ?_⟩
    · obtain ⟨hp, hn⟩ := List.mem_filter.1 hp
      exact (h p hp).trans hn
    · rw [h p hp, hn]
      rfl

theorem combine_any_iff : combine List.any ps = some true ↔
    (∃ p ∈ ps, p.negated = false ∧ p.holds = true) ∧
      ∀ p ∈ ps, p.negated = true → p.holds = false := by
  have hany : (ps.filter fun p => !p.negated).any holds = true ↔
      ∃ p ∈ ps, p.negated = false ∧ p.holds = true := by
    simp
  rw [combine_iff, hany, ← and_assoc]
  refine and_congr_left fun _ => ?_
  constructor
  · rintro ⟨-, h⟩
    exact h
  · rintro ⟨p, hp, hn, hholds⟩
    exact ⟨⟨p, hp, hn⟩, p, hp, hn, hholds⟩

/-- Two lists of parts agree on whether there is a part, whether some part is as one has to be, and
whether all parts are as every one has to be. -/
structure Agree (one every : Part → Prop) (ps qs : List Part) : Prop where
  nil : ps = [] ↔ qs = []
  one : (∃ p ∈ ps, one p) ↔ ∃ q ∈ qs, one q
  every : (∀ p ∈ ps, every p) ↔ ∀ q ∈ qs, every q

variable {one every : Part → Prop}

theorem Agree.refl (ps : List Part) : Agree one every ps ps := ⟨Iff.rfl, Iff.rfl, Iff.rfl⟩

/-- Lists agree if they are made of lists that do. -/
theorem Agree.flatMap {es : List Expr} {f g : Expr → List Part}
    (h : ∀ e ∈ es, Agree one every (f e) (g e)) :
    Agree one every (es.flatMap f) (es.flatMap g) where
  nil := by
    rw [List.flatMap_eq_nil_iff, List.flatMap_eq_nil_iff]
    exact forall₂_congr fun e he => (h e he).nil
  one := by
    simp only [List.mem_flatMap]
    constructor
    · rintro ⟨p, ⟨e, he, hp⟩, hone⟩
      obtain ⟨q, hq, hone⟩ := (h e he).one.1 ⟨p, hp, hone⟩
      exact ⟨q, ⟨e, he, hq⟩, hone⟩
    · rintro ⟨q, ⟨e, he, hq⟩, hone⟩
      obtain ⟨p, hp, hone⟩ := (h e he).one.2 ⟨q, hq, hone⟩
      exact ⟨p, ⟨e, he, hp⟩, hone⟩
  every := by
    simp only [List.forall_mem_flatMap]
    exact forall₂_congr fun e he => (h e he).every

/-- A list holds in the same cases as one that agrees with it. -/
theorem Agree.combine_eq (h : Agree one every ps qs)
    (hiff : ∀ rs, combine quantify rs = some true ↔ (∃ r ∈ rs, one r) ∧ ∀ r ∈ rs, every r) :
    combine quantify ps = combine quantify qs := by
  have hnone : combine quantify ps = none ↔ combine quantify qs = none := by
    rw [combine_eq_none_iff, combine_eq_none_iff, h.nil]
  have htrue : combine quantify ps = some true ↔ combine quantify qs = some true := by
    rw [hiff, hiff, h.one, h.every]
  revert hnone htrue
  rcases combine quantify ps with _ | _ | _ <;> rcases combine quantify qs with _ | _ | _ <;> simp

end Part

/-! ### Parts of expressions -/

namespace Expr

variable {words : Field → List Text} {fields : List Field}

theorem parts_append (es es' : List Expr) :
    parts words fields (es ++ es') = parts words fields es ++ parts words fields es' := by
  induction es with
  | nil => rfl
  | cons e es ih =>
      by_cases hn : ∃ inner, e = .negation inner
      · obtain ⟨inner, rfl⟩ := hn
        rw [List.cons_append, parts, parts, ih, List.append_assoc]
      · have hpositive : ∀ inner, e ≠ .negation inner := fun inner he => hn ⟨inner, he⟩
        rw [List.cons_append, Plan.parts_cons hpositive, Plan.parts_cons hpositive, ih,
          List.append_assoc]

/-- The parts of a list are those of its elements. -/
theorem parts_eq_flatMap (es : List Expr) :
    parts words fields es = es.flatMap fun e => parts words fields [e] := by
  induction es with
  | nil => rfl
  | cons e es ih => rw [List.flatMap_cons, ← ih, ← parts_append, List.singleton_append]

theorem parts_flatMap (f : Expr → List Expr) (es : List Expr) :
    parts words fields (es.flatMap f) = es.flatMap fun e => parts words fields (f e) := by
  induction es with
  | nil => rfl
  | cons e es ih => rw [List.flatMap_cons, parts_append, ih, List.flatMap_cons]

theorem parts_singleton {e : Expr} (he : ∀ inner, e ≠ .negation inner) :
    parts words fields [e] = Part.ofMeaning false (e.meaning words fields) := by
  rw [Plan.parts_cons he]
  exact List.append_nil _

/-- A list of one part means what the part means. -/
theorem combine_singleton (quantify : List Part → (Part → Bool) → Bool)
    (hquantify : ∀ p : Part, quantify [p] Part.holds = p.holds) (e : Expr) :
    Part.combine quantify (parts words fields [e]) = e.meaning words fields := by
  have hone (holds : Bool) : Part.combine quantify [⟨false, holds⟩] = some holds := by
    simp [Part.combine, hquantify]
  by_cases hn : ∃ inner, e = .negation inner
  · obtain ⟨inner, rfl⟩ := hn
    rw [parts, meaning]
    cases inner.meaning words fields with
    | none => rfl
    | some holds => rfl
  · rw [parts_singleton fun inner he => hn ⟨inner, he⟩]
    cases e.meaning words fields with
    | none => rfl
    | some holds => exact hone holds

theorem parts_singleton_eq_nil_iff (e : Expr) :
    parts words fields [e] = [] ↔ e.meaning words fields = none := by
  rw [← combine_singleton List.all (fun p => by simp) e, Part.combine_eq_none_iff]

/-- One part that stands for itself means what it would in a list. -/
theorem meaning_joined (quantify : List Part → (Part → Bool) → Bool) (node : List Expr → Expr)
    (hquantify : ∀ p : Part, quantify [p] Part.holds = p.holds)
    (hnode : ∀ es, (node es).meaning words fields = Part.combine quantify (parts words fields es))
    (es : List Expr) :
    (joined node es).meaning words fields = Part.combine quantify (parts words fields es) := by
  unfold joined
  split
  · rename_i e
    rw [combine_singleton quantify hquantify]
  · exact hnode es

theorem meaning_all (es : List Expr) : (all es).meaning words fields =
    Part.combine List.all (parts words fields (es.flatMap conjuncts)) :=
  meaning_joined List.all .conjunction (fun p => by simp) (fun _ => rfl) _

theorem meaning_any (es : List Expr) : (any es).meaning words fields =
    Part.combine List.any (parts words fields (es.flatMap disjuncts)) :=
  meaning_joined List.any .disjunction (fun p => by simp) (fun _ => rfl) _

/-! ### Inner lists -/

/-- An inner conjunction without parts, or with one that is not negated, agrees with its parts: some
part is not negated, and all are as they have to be. -/
theorem agree_conjuncts {e : Expr} (h : ∀ inner, e = .conjunction inner →
    (∃ p ∈ parts words fields inner, p.negated = false) ∨ parts words fields inner = []) :
    Part.Agree (fun p => p.negated = false) (fun p => p.holds = !p.negated)
      (parts words fields [e]) (parts words fields e.conjuncts) := by
  cases e with
  | conjunction inner =>
      rw [parts_singleton fun _ => Expr.noConfusion, meaning, conjuncts]
      rcases h inner rfl with hpositive | hnil
      · have hne : parts words fields inner ≠ [] := by
          obtain ⟨p, hp, -⟩ := hpositive
          exact List.ne_nil_of_mem hp
        obtain ⟨holds, hholds⟩ := Option.ne_none_iff_exists'.1 (mt Part.combine_eq_none_iff.1 hne)
        have htrue : Part.combine List.all (parts words fields inner) = some true ↔ _ :=
          Part.combine_all_iff
        rw [hholds, Option.some_inj, and_iff_right hpositive] at htrue
        rw [hholds]
        exact ⟨iff_of_false (List.cons_ne_nil _ _) hne,
          iff_of_true ⟨_, List.mem_singleton_self _, rfl⟩ hpositive,
          List.forall_mem_singleton.trans htrue⟩
      · rw [hnil]
        exact .refl []
  | _ => exact .refl _

theorem negated_eq_false_of_mem_parts {es : List Expr} (h : ∀ inner, .negation inner ∉ es)
    {p : Part} (hp : p ∈ parts words fields es) : p.negated = false := by
  rw [parts_eq_flatMap] at hp
  obtain ⟨e, he, hp⟩ := List.mem_flatMap.1 hp
  rw [parts_singleton fun inner hn => h inner (hn ▸ he)] at hp
  exact (Part.mem_ofMeaning.1 hp).1

/-- An inner disjunction without negated parts agrees with its parts: some part holds that is not
negated, and no negated one does. -/
theorem agree_disjuncts {e : Expr}
    (h : ∀ inner, e = .disjunction inner → ∀ d, .negation d ∉ inner) :
    Part.Agree (fun p => p.negated = false ∧ p.holds = true)
      (fun p => p.negated = true → p.holds = false)
      (parts words fields [e]) (parts words fields e.disjuncts) := by
  cases e with
  | disjunction inner =>
      have hpositive : ∀ p ∈ parts words fields inner, p.negated = true → p.holds = false := by
        intro p hp hn
        rw [negated_eq_false_of_mem_parts (h inner rfl) hp] at hn
        cases hn
      rw [parts_singleton fun _ => Expr.noConfusion, meaning, disjuncts]
      by_cases hnil : parts words fields inner = []
      · rw [hnil]
        exact .refl []
      · obtain ⟨holds, hholds⟩ :=
          Option.ne_none_iff_exists'.1 (mt Part.combine_eq_none_iff.1 hnil)
        have htrue : Part.combine List.any (parts words fields inner) = some true ↔ _ :=
          Part.combine_any_iff
        rw [hholds, Option.some_inj, and_iff_left hpositive] at htrue
        rw [hholds]
        refine ⟨iff_of_false (List.cons_ne_nil _ _) hnil, ?_, iff_of_true ?_ hpositive⟩
        · rw [← htrue]
          simp [Part.ofMeaning]
        · exact List.forall_mem_singleton.2 fun h => Bool.noConfusion h
  | _ => exact .refl _

/-- The list on one level has the meaning of the conjunction. -/
theorem meaning_all_eq {es : List Expr} (h : ∀ inner, .conjunction inner ∈ es →
    (∃ p ∈ parts words fields inner, p.negated = false) ∨ parts words fields inner = []) :
    (all es).meaning words fields = (conjunction es).meaning words fields := by
  rw [meaning_all, meaning, parts_flatMap, parts_eq_flatMap es]
  exact ((Part.Agree.flatMap fun e he => agree_conjuncts fun inner hinner =>
    h inner (hinner ▸ he)).combine_eq fun _ => Part.combine_all_iff).symm

/-- The list on one level has the meaning of the disjunction. -/
theorem meaning_any_eq {es : List Expr}
    (h : ∀ inner, .disjunction inner ∈ es → ∀ d, .negation d ∉ inner) :
    (any es).meaning words fields = (disjunction es).meaning words fields := by
  rw [meaning_any, meaning, parts_flatMap, parts_eq_flatMap es]
  exact ((Part.Agree.flatMap fun e he => agree_disjuncts fun inner hinner =>
    h inner (hinner ▸ he)).combine_eq fun _ => Part.combine_any_iff).symm

/-! ### What can be planned -/

theorem mem_nodesOfEach {node : Expr} {es : List Expr} :
    node ∈ nodesOfEach es ↔ ∃ e ∈ es, node ∈ e.nodes := by
  induction es with
  | nil => exact iff_of_false nofun fun ⟨_, he, _⟩ => nomatch he
  | cons e es ih => rw [nodesOfEach, List.mem_append, ih, List.exists_mem_cons_iff]

section

variable [Automata]

/-- The expression can be planned. -/
def IsPlanned (e : Expr) : Prop := ∃ plan, Plan.ofQuery? e = .ok plan

theorem isPlanned_iff {e : Expr} : e.IsPlanned ↔ ∀ node ∈ e.nodes, node.fault? = none := by
  rw [IsPlanned, ← Except.failure?_eq_none_iff, Plan.failure?_ofQuery?, List.findSome?_eq_none_iff]

theorem forall_mem_nodesOfEach {es : List Expr} :
    (∀ node ∈ nodesOfEach es, node.fault? = none) ↔ ∀ e ∈ es, e.IsPlanned := by
  simp only [mem_nodesOfEach, isPlanned_iff]
  exact ⟨fun h e he node hnode => h node ⟨e, he, hnode⟩,
    fun h node ⟨e, he, hnode⟩ => h e he node hnode⟩

/-- A list can be planned if its parts can. -/
theorem isPlanned_conjunction {es : List Expr} :
    (conjunction es).IsPlanned ↔ ∀ e ∈ es, e.IsPlanned := by
  rw [isPlanned_iff, nodes, List.forall_mem_cons, forall_mem_nodesOfEach]
  exact and_iff_right rfl

theorem isPlanned_disjunction {es : List Expr} :
    (disjunction es).IsPlanned ↔ ∀ e ∈ es, e.IsPlanned := by
  rw [isPlanned_iff, nodes, List.forall_mem_cons, forall_mem_nodesOfEach]
  exact and_iff_right rfl

theorem isPlanned_joined {node : List Expr → Expr} {parts : Expr → List Expr} {es : List Expr}
    (hnode : ∀ es, (node es).IsPlanned ↔ ∀ e ∈ es, e.IsPlanned)
    (hparts : ∀ e ∈ es, ∀ c ∈ parts e, c.IsPlanned) :
    (joined node (es.flatMap parts)).IsPlanned := by
  rw [← List.forall_mem_flatMap] at hparts
  unfold joined
  split
  · rename_i e he
    exact hparts e (he ▸ List.mem_singleton_self e)
  · exact (hnode _).2 hparts

theorem isPlanned_all {es : List Expr} (h : ∀ e ∈ es, e.IsPlanned) : (all es).IsPlanned := by
  refine isPlanned_joined (fun _ => isPlanned_conjunction) fun e he c hc => ?_
  cases e with
  | conjunction inner => exact isPlanned_conjunction.1 (h _ he) c hc
  | _ => exact List.mem_singleton.1 hc ▸ h _ he

theorem isPlanned_any {es : List Expr} (h : ∀ e ∈ es, e.IsPlanned) : (any es).IsPlanned := by
  refine isPlanned_joined (fun _ => isPlanned_disjunction) fun e he c hc => ?_
  cases e with
  | disjunction inner => exact isPlanned_disjunction.1 (h _ he) c hc
  | _ => exact List.mem_singleton.1 hc ▸ h _ he

/-! ### Queries -/

/-- Something is left to search for. -/
def Survives (e : Expr) : Prop := ∃ plan, Plan.ofQuery? e = .ok (some plan)

theorem survives_iff {e : Expr} (h : e.IsPlanned) (words : Field → List Text) :
    e.Survives ↔ e.meaning words Field.all ≠ none := by
  obtain ⟨plan, hplan⟩ := h
  rw [Ne, ← (Plan.holds_ofQuery? hplan words).1, Survives, hplan]
  cases plan with
  | none => exact iff_of_false (fun ⟨_, h⟩ => nomatch h) fun h => h rfl
  | some p => exact iff_of_true ⟨p, rfl⟩ nofun

/-- Both expressions can be planned, and their plans hold of the same documents or both ask for
nothing. -/
def SameHits (e e' : Expr) : Prop :=
  ∃ plan plan', Plan.ofQuery? e = .ok plan ∧ Plan.ofQuery? e' = .ok plan' ∧
    ∀ words, plan.map (Plan.holds words) = plan'.map (Plan.holds words)

theorem sameHits_of_meaning {e e' : Expr} (h : e.IsPlanned) (h' : e'.IsPlanned)
    (hmeaning : ∀ words, e.meaning words Field.all = e'.meaning words Field.all) :
    SameHits e e' := by
  obtain ⟨plan, hplan⟩ := h
  obtain ⟨plan', hplan'⟩ := h'
  have hboost (words : Field → List Text) {e : Expr} {plan : Option Plan}
      (h : Plan.ofQuery? e = .ok plan) :
      plan.map (Plan.holds words) = e.meaning words Field.all := by
    obtain ⟨hnone, hsome⟩ := Plan.holds_ofQuery? h words
    cases plan with
    | none => exact (hnone.1 rfl).symm
    | some p => exact (hsome p rfl).symm
  exact ⟨plan, plan', hplan, hplan', fun words => by
    rw [hboost words hplan, hboost words hplan', hmeaning]⟩

/-- A part of the list that is not negated survives, or none does. -/
def KeepsPositive (es : List Expr) : Prop :=
  (∃ e ∈ es, (∀ inner, e ≠ .negation inner) ∧ e.Survives) ∨ ∀ e ∈ es, ¬ e.Survives

theorem KeepsPositive.parts {es : List Expr} (h : KeepsPositive es)
    (hplanned : ∀ e ∈ es, e.IsPlanned) (words : Field → List Text) :
    (∃ p ∈ Expr.parts words Field.all es, p.negated = false) ∨
      Expr.parts words Field.all es = [] := by
  rw [parts_eq_flatMap]
  rcases h with ⟨e, he, hpositive, hsurvives⟩ | hnone
  · obtain ⟨holds, hholds⟩ :=
      Option.ne_none_iff_exists'.1 ((survives_iff (hplanned e he) words).1 hsurvives)
    refine .inl ⟨⟨false, holds⟩, List.mem_flatMap.2 ⟨e, he, ?_⟩, rfl⟩
    rw [parts_singleton hpositive, hholds]
    exact List.mem_singleton_self _
  · refine .inr (List.flatMap_eq_nil_iff.2 fun e he => ?_)
    rw [parts_singleton_eq_nil_iff]
    exact of_not_not fun hsome => hnone e he ((survives_iff (hplanned e he) words).2 hsome)

/-- A list of expressions that can be planned finds the same documents on one level: all of them, if
every conjunction among them keeps a part that is not negated or keeps none, and any of them, if no
disjunction among them has a negated part. -/
theorem sameHits_all_and_any {es : List Expr} (h : ∀ e ∈ es, e.IsPlanned) :
    ((∀ inner, .conjunction inner ∈ es → KeepsPositive inner) →
      SameHits (all es) (.conjunction es)) ∧
    ((∀ inner, .disjunction inner ∈ es → ∀ e, .negation e ∉ inner) →
      SameHits (any es) (.disjunction es)) := by
  refine ⟨fun hall => ?_, fun hany => ?_⟩
  · refine sameHits_of_meaning (isPlanned_all h) (isPlanned_conjunction.2 h) fun words => ?_
    exact meaning_all_eq fun inner hinner =>
      (hall inner hinner).parts (isPlanned_conjunction.1 (h _ hinner)) words
  · refine sameHits_of_meaning (isPlanned_any h) (isPlanned_disjunction.2 h) fun words => ?_
    exact meaning_any_eq hany

end

set_option maxRecDepth 2000 in
/-- A conjunction with a negated part, one whose only part has no word, a disjunction and a negated
part. -/
theorem sameHits_all_and_any_of_negations :
    let sea : Expr := .term ['s', 'e', 'a']
    let ice : Expr := .negation (.term ['i', 'c', 'e'])
    let blank : Expr := .phrase ['?', '!']
    let bay : Expr := .inField ['n', 'a', 'm', 'e'] (.term ['b', 'a', 'y'])
    let fog : Expr := .negation (.phrase ['f', 'o', 'g'])
    let es : List Expr :=
      [.conjunction [sea, ice], .conjunction [blank], .disjunction [bay, blank], fog]
    (∀ e ∈ es, e.IsPlanned) ∧
      (∀ inner, .conjunction inner ∈ es → KeepsPositive inner) ∧
      (∀ inner, .disjunction inner ∈ es → ∀ e, .negation e ∉ inner) ∧
      SameHits (.conjunction [sea, ice, blank, .disjunction [bay, blank], fog])
        (.conjunction es) ∧
      SameHits (.disjunction [.conjunction [sea, ice], .conjunction [blank], bay, blank, fog])
        (.disjunction es) := by
  intro sea ice blank bay fog es
  have hplanned : ∀ e ∈ es, e.IsPlanned := by
    have hnodes : (nodesOfEach es).all (fun node => node.fault?.isNone) = true := by cbv
    refine forall_mem_nodesOfEach.1 fun node hnode => ?_
    exact Option.isNone_iff_eq_none.1 (List.all_eq_true.1 hnodes node hnode)
  have hsea : sea.Survives :=
    ⟨.boost queryWeight (.perField Field.all fun f => .word f ['s', 'e', 'a']), by cbv⟩
  have hblank : ¬ blank.Survives := by
    have hnone : Plan.ofQuery? blank = .ok none := by cbv
    rintro ⟨plan, hplan⟩
    rw [hnone] at hplan
    cases hplan
  have hconjunction : ∀ inner, .conjunction inner ∈ es → KeepsPositive inner := by
    intro inner hinner
    have hcases : inner = [sea, ice] ∨ inner = [blank] := by
      simpa [es, bay, fog] using hinner
    rcases hcases with rfl | rfl
    · exact .inl ⟨sea, List.mem_cons_self, fun _ h => Expr.noConfusion h, hsea⟩
    · exact .inr (List.forall_mem_singleton.2 hblank)
  have hdisjunction : ∀ inner, .disjunction inner ∈ es → ∀ e, .negation e ∉ inner := by
    intro inner hinner e he
    have hcase : inner = [bay, blank] := by
      simpa [es, bay, fog] using hinner
    rw [hcase] at he
    simp [bay, blank] at he
  obtain ⟨hall, hany⟩ := sameHits_all_and_any hplanned
  exact ⟨hplanned, hconjunction, hdisjunction, hall hconjunction, hany hdisjunction⟩

/-- On one level a conjunction of negated parts alone takes no more than their documents away. -/
example :
    let es : List Expr := [.term ['s', 'e', 'a'], .conjunction [.negation (.term ['i', 'c', 'e'])]]
    let words : Field → List Text := fun _ => [['s', 'e', 'a']]
    (all es).meaning words Field.all = some true ∧
      (conjunction es).meaning words Field.all = some false := by
  cbv

end Expr

end Query

end DatasetSearch
