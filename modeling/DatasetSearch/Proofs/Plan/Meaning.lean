import DatasetSearch.Library
import DatasetSearch.Plan
import DatasetSearch.Proofs.Outcome
import Mathlib

/-! # What a query means

`Query.Expr.meaning` says of an expression and a document whether the document is asked for, or that
the expression asks for nothing at all, without plans and clauses:

* a wildcard term asks for a token that fits it, in one of the fields;
* any other text asks for its words one after the other in one of the fields, and for nothing if it
  has no word;
* in a list the parts that ask for nothing do not count; a list of negated parts alone holds of no
  document.

Planning keeps this meaning (`holds_ofQuery?`): by induction over the expression, over any target
fields, the clauses of a list are the parts that count (`holdsEach_clausesOf`), and `ofClauses?`
decides them as the list does (`holds_ofClauses?`). -/

namespace DatasetSearch

open Query

/-! ### Lists of clauses -/

namespace Occur

/-- How many `should` clauses have to hold: one where nothing must hold. -/
def required (cs : List (Occur × Bool)) : Nat := if ∃ c ∈ cs, c.1 = .must then 0 else 1

theorem leastShould_le_one (cs : List (Occur × Bool)) : leastShould cs ≤ 1 := by
  unfold leastShould
  split
  · exact Nat.le_refl 1
  · exact Nat.zero_le 1

theorem leastShould_of_must {cs : List (Occur × Bool)} (h : ∃ c ∈ cs, c.1 = .must) :
    leastShould cs = 0 := by
  obtain ⟨c, hc, hmust⟩ := h
  refine if_neg fun hall => ?_
  have hshould := of_decide_eq_true (List.all_eq_true.1 hall c hc)
  rw [hmust] at hshould
  cases hshould

/-- A list of clauses holds if all that must hold do, none that must not does, and as many of the
others as are required. -/
theorem decide_iff (cs : List (Occur × Bool)) : Occur.decide cs = true ↔
    (∀ c ∈ cs, c.1 = .must → c.2 = true) ∧ (∀ c ∈ cs, c.1 = .mustNot → c.2 = false) ∧
      required cs ≤ cs.countP fun c => c.1 = .should && c.2 := by
  unfold Occur.decide required
  rw [Bool.and_eq_true, Bool.and_eq_true, and_assoc, ← and_assoc (c := _ ≤ _)]
  refine and_congr ?_ ?_
  · rw [List.all_eq_true, ← forall₂_and]
    refine forall₂_congr fun c _ => ?_
    cases c.1 with
    | must => simp
    | should => simp
    | mustNot => simp
  · by_cases h : ∃ c ∈ cs, c.1 = .must
    · simp [h, leastShould_of_must h]
    · have hleast := leastShould_le_one cs
      have hsome : (cs.any fun c => c.1 = .should && c.2) = true ↔
          1 ≤ cs.countP fun c => c.1 = .should && c.2 := by
        rw [Nat.one_le_iff_ne_zero, ← Nat.pos_iff_ne_zero, List.countP_pos_iff, List.any_eq_true]
      have hnone : (cs.any fun c => c.1 = .must) = false :=
        List.any_eq_false.2 fun c hc hmust => h ⟨c, hc, of_decide_eq_true hmust⟩
      rw [if_neg h, hnone, Bool.false_or, decide_eq_true_iff, hsome]
      omega

/-- Clauses that are all negated hold of nothing. -/
theorem decide_of_negative {cs : List (Occur × Bool)} (h : ∀ c ∈ cs, c.1 = .mustNot) :
    Occur.decide cs = false := by
  rw [← Bool.not_eq_true, decide_iff]
  rintro ⟨-, -, hleast⟩
  have hmust : ¬ ∃ c ∈ cs, c.1 = .must := by
    rintro ⟨c, hc, hm⟩
    rw [h c hc] at hm
    cases hm
  rw [required, if_neg hmust, Nat.one_le_iff_ne_zero, ← Nat.pos_iff_ne_zero,
    List.countP_pos_iff] at hleast
  obtain ⟨c, hc, hs⟩ := hleast
  simp [h c hc] at hs

end Occur

namespace Query

/-- A part of a list that asks for something: whether it is negated, and whether the document has
what it names. -/
structure Part where
  negated : Bool
  holds : Bool

namespace Part

/-- The part of a list that an expression makes, from its meaning. -/
def ofMeaning (negated : Bool) : Option Bool → List Part
  | none => []
  | some holds => [⟨negated, holds⟩]

/-- The meaning of a list of parts, of which all or any have to hold as far as they are not
negated. -/
def combine (quantify : List Part → (Part → Bool) → Bool) (parts : List Part) : Option Bool :=
  let positive := parts.filter fun p => !p.negated
  let negative := parts.filter fun p => p.negated
  if parts.isEmpty then none
  else if positive.isEmpty then some false
  else some (quantify positive holds && !negative.any holds)

end Part

namespace Expr

variable (words : Field → List Text)

/-- The words of a text stand one after the other in one of the fields. -/
def meaningOfWords (fields : List Field) (ts : List Text) : Option Bool :=
  if ts.isEmpty then none else some (fields.any fun f => ts <:+: words f)

mutual

/-- Whether a document with the given words is asked for in one of the fields; none if nothing is
asked for. -/
def meaning (fields : List Field) : Expr → Option Bool
  | .term t =>
    if isWildcard t then some (fields.any fun f => (words f).any (Pattern.ofTerm t).matchesToken)
    else meaningOfWords words fields (Text.words t)
  | .phrase t => meaningOfWords words fields (Text.words t)
  | .inField name e => (Field.ofLabel? name).bind fun f => meaning [f] e
  | .group e => meaning fields e
  | .conjunction es => Part.combine List.all (parts fields es)
  | .disjunction es => Part.combine List.any (parts fields es)
  | .negation e => Part.combine List.all (Part.ofMeaning true (meaning fields e))

/-- The parts of a list that ask for something. -/
def parts (fields : List Field) : List Expr → List Part
  | [] => []
  | .negation e :: es => Part.ofMeaning true (meaning fields e) ++ parts fields es
  | e :: es => Part.ofMeaning false (meaning fields e) ++ parts fields es

end

end Expr

end Query

/-! ### Words and phrases -/

/-- Words occur in a list if they stand in it one after the other. -/
theorem occurrences_ne_zero_iff (ts ws : List Text) : occurrences ts ws ≠ 0 ↔ ts <:+: ws := by
  induction ws with
  | nil =>
      cases ts with
      | nil => simp [occurrences]
      | cons t ts => simp [occurrences]
  | cons w ws ih =>
      rw [occurrences, List.infix_cons_iff, ← ih, ← List.isPrefixOf_iff_prefix]
      split
      · simp_all
      · simp_all

namespace Plan

variable {words : Field → List Text}

theorem holdsEach_eq_map (cs : List (Occur × Plan)) :
    holdsEach words cs = cs.map fun c => (c.1, c.2.holds words) := by
  induction cs with
  | nil => rfl
  | cons c cs ih => rw [holdsEach, ih, List.map_cons]

theorem holds_perField (fields : List Field) (leaf : Field → Plan) :
    (perField fields leaf).holds words = fields.any fun f => (leaf f).holds words := by
  rw [perField, holds, holdsEach_eq_map, List.map_map, Bool.eq_iff_iff, Occur.decide_iff]
  have hnone : ¬ ∃ c ∈ fields.map ((fun c => (c.1, c.2.holds words)) ∘
      fun f => (Occur.should, boost f.weight (leaf f))), c.1 = .must := by simp
  rw [Occur.required, if_neg hnone, Nat.one_le_iff_ne_zero, ← Nat.pos_iff_ne_zero,
    List.countP_pos_iff]
  simp [holds]

theorem holds_ofWords? (fields : List Field) (ts : List Text) :
    (ofWords? fields ts).map (holds words) = Expr.meaningOfWords words fields ts := by
  match ts with
  | [] => rfl
  | [t] =>
      have hword (f : Field) : (word f t).holds words = decide ([t] <:+: words f) := by
        rw [holds, Bool.eq_iff_iff, List.contains_iff_mem, decide_eq_true_iff,
          List.singleton_infix_iff]
      show some ((perField fields fun f => word f t).holds words) = some _
      simp only [holds_perField, hword]
  | t :: t' :: ts =>
      have hphrase (f : Field) :
          (phrase f (t :: t' :: ts)).holds words = decide (t :: t' :: ts <:+: words f) := by
        rw [holds, Bool.eq_iff_iff, decide_eq_true_iff, decide_eq_true_iff,
          occurrences_ne_zero_iff]
      show some ((perField fields fun f => phrase f (t :: t' :: ts)).holds words) = some _
      simp only [holds_perField, hphrase]

/-! ### Lists of parts -/

/-- A list of clauses becomes a plan that decides them; nothing is decided where there is no
clause. -/
theorem holds_ofClauses? (cs : List (Occur × Plan)) :
    (ofClauses? cs).map (holds words) =
      if cs.isEmpty then none else some (Occur.decide (holdsEach words cs)) := by
  unfold ofClauses?
  split
  · rfl
  · split
    · rename_i hall
      have hnegative : ∀ c ∈ holdsEach words cs, c.1 = .mustNot := by
        intro c hc
        rw [holdsEach_eq_map] at hc
        obtain ⟨d, hd, rfl⟩ := List.mem_map.1 hc
        simpa using List.all_eq_true.1 hall d hd
      rw [Occur.decide_of_negative hnegative]
      rfl
    · rename_i hall
      split
      · rename_i o plan _
        have hpositive : o ≠ .mustNot := by simpa using hall
        show some (plan.holds words) = some (Occur.decide [(o, plan.holds words)])
        cases o <;> simp_all [Occur.decide, Occur.leastShould]
      · rfl

/-- The clause of a part, in a list whose parts are `o` clauses unless they are negated. -/
def clauseOf (o : Occur) (p : Part) : Occur × Bool := (if p.negated then .mustNot else o, p.holds)

/-- Parts are combined as their clauses are decided, if they are where some part is not negated. -/
theorem combine_eq {quantify : List Part → (Part → Bool) → Bool} {o : Occur} (ps : List Part)
    (h : ∀ p ∈ ps, p.negated = false → Occur.decide (ps.map (clauseOf o)) =
      (quantify (ps.filter fun p => !p.negated) Part.holds &&
        !(ps.filter fun p => p.negated).any Part.holds)) :
    Part.combine quantify ps =
      if ps.isEmpty then none else some (Occur.decide (ps.map (clauseOf o))) := by
  unfold Part.combine
  split
  · rfl
  · by_cases hp : ∃ p ∈ ps, p.negated = false
    · obtain ⟨p, hp, hn⟩ := hp
      have hsome : ¬ (ps.filter fun p => !p.negated).isEmpty = true := by
        rw [List.isEmpty_iff, List.filter_eq_nil_iff]
        intro hnone
        exact hnone p hp (by rw [hn]; rfl)
      rw [h p hp hn, if_neg hsome]
    · have hnone : (ps.filter fun p => !p.negated).isEmpty = true := by
        simpa using hp
      have hnegative : ∀ c ∈ ps.map (clauseOf o), c.1 = .mustNot := by
        intro c hc
        obtain ⟨p, hmem, rfl⟩ := List.mem_map.1 hc
        have hn : p.negated = true := by simpa using fun hf => hp ⟨p, hmem, hf⟩
        rw [clauseOf, if_pos hn]
      rw [Occur.decide_of_negative hnegative, if_pos hnone]

theorem not_any_negative_iff {o : Occur} (ho : o ≠ .mustNot) (ps : List Part) :
    (∀ c ∈ ps.map (clauseOf o), c.1 = .mustNot → c.2 = false) ↔
      (!(ps.filter fun p => p.negated).any Part.holds) = true := by
  rw [List.forall_mem_map, Bool.not_eq_true', List.any_eq_false]
  simp only [List.mem_filter, and_imp, Bool.not_eq_true]
  refine forall₂_congr fun p _ => ?_
  cases hn : p.negated <;> simp [clauseOf, hn, ho]

theorem combine_all (ps : List Part) : Part.combine List.all ps =
    if ps.isEmpty then none else some (Occur.decide (ps.map (clauseOf .must))) := by
  refine combine_eq ps fun p hp hn => ?_
  have hmust : ∃ c ∈ ps.map (clauseOf .must), c.1 = .must := by
    refine ⟨clauseOf .must p, List.mem_map_of_mem hp, ?_⟩
    simp [clauseOf, hn]
  have hall : (∀ c ∈ ps.map (clauseOf .must), c.1 = .must → c.2 = true) ↔
      (ps.filter fun p => !p.negated).all Part.holds = true := by
    rw [List.forall_mem_map, List.all_eq_true]
    simp only [List.mem_filter, and_imp]
    refine forall₂_congr fun p _ => ?_
    cases hn : p.negated <;> simp [clauseOf, hn]
  rw [Bool.eq_iff_iff, Occur.decide_iff, Occur.required, if_pos hmust, hall,
    not_any_negative_iff Occur.noConfusion, Bool.and_eq_true, and_iff_left (Nat.zero_le _)]

theorem combine_any (ps : List Part) : Part.combine List.any ps =
    if ps.isEmpty then none else some (Occur.decide (ps.map (clauseOf .should))) := by
  refine combine_eq ps fun p hp hn => ?_
  have hclause (p : Part) : (clauseOf .should p).1 ≠ .must := by
    unfold clauseOf
    split <;> exact Occur.noConfusion
  have hmust : ¬ ∃ c ∈ ps.map (clauseOf .should), c.1 = .must := by
    rintro ⟨c, hc, hm⟩
    obtain ⟨p, -, rfl⟩ := List.mem_map.1 hc
    exact hclause p hm
  have hall : ∀ c ∈ ps.map (clauseOf .should), c.1 = .must → c.2 = true :=
    fun c hc hm => absurd ⟨c, hc, hm⟩ hmust
  have hany : 1 ≤ (ps.map (clauseOf .should)).countP (fun c => c.1 = .should && c.2) ↔
      (ps.filter fun p => !p.negated).any Part.holds = true := by
    rw [Nat.one_le_iff_ne_zero, ← Nat.pos_iff_ne_zero, List.countP_pos_iff, List.any_eq_true]
    simp only [List.mem_map, exists_exists_and_eq_and, List.mem_filter, and_assoc]
    refine exists_congr fun p => and_congr_right fun _ => ?_
    cases hn : p.negated <;> simp [clauseOf, hn]
  rw [Bool.eq_iff_iff, Occur.decide_iff, Occur.required, if_neg hmust, hany,
    not_any_negative_iff Occur.noConfusion, Bool.and_eq_true, and_iff_right hall, and_comm]

/-! ### Expressions -/

/-- The clause of a plan is that of the part that its expression makes. -/
theorem holdsEach_clause (o : Occur) (negated : Bool) (plan : Option Plan) :
    holdsEach words (clause (if negated then .mustNot else o) plan) =
      (Part.ofMeaning negated (plan.map (holds words))).map (clauseOf o) := by
  cases plan with
  | none => rfl
  | some plan => rfl

theorem parts_cons {e : Expr} (he : ∀ inner, e ≠ .negation inner) (fields : List Field)
    (es : List Expr) : Expr.parts words fields (e :: es) =
      Part.ofMeaning false (e.meaning words fields) ++ Expr.parts words fields es := by
  cases e with
  | negation inner => exact absurd rfl (he inner)
  | _ => rfl

theorem holdsEach_append (cs cs' : List (Occur × Plan)) :
    holdsEach words (cs ++ cs') = holdsEach words cs ++ holdsEach words cs' := by
  rw [holdsEach_eq_map, List.map_append, ← holdsEach_eq_map, ← holdsEach_eq_map]

/-- A list of clauses that are those of some parts is decided as the parts are combined. -/
theorem holds_ofClauses?_of_parts {o : Occur} {cs : List (Occur × Plan)} {ps : List Part}
    (h : holdsEach words cs = ps.map (clauseOf o)) : (ofClauses? cs).map (holds words) =
      if ps.isEmpty then none else some (Occur.decide (ps.map (clauseOf o))) := by
  have hempty : cs.isEmpty = ps.isEmpty := by
    rw [← List.isEmpty_map (f := clauseOf o), ← h, holdsEach_eq_map, List.isEmpty_map]
  rw [holds_ofClauses?, hempty, h]

section

variable [Automata]

theorem clausesOf_cons {e : Expr} (he : ∀ inner, e ≠ .negation inner) (fields : List Field)
    (o : Occur) (es : List Expr) : clausesOf fields o (e :: es) = (do
      let plan ← ofExpr? fields e
      let cs ← clausesOf fields o es
      return clause o plan ++ cs) := by
  cases e with
  | negation inner => exact absurd rfl (he inner)
  | _ => rfl

mutual

/-- Over any target fields, an expression that can be planned asks for what its plan asks for. -/
theorem holds_ofExpr? (fields : List Field) (e : Expr) {plan : Option Plan}
    (h : ofExpr? fields e = .ok plan) : plan.map (holds words) = e.meaning words fields := by
  match e with
  | .term t =>
      rw [ofExpr?] at h
      rw [Expr.meaning]
      split at h
      · rename_i hwild
        split at h
        · cases h
        · cases h
          rw [if_pos hwild, Option.map_some, holds_perField]
          rfl
      · rename_i hwild
        cases h
        rw [if_neg hwild, holds_ofWords?]
  | .phrase t =>
      rw [ofExpr?] at h
      cases h
      rw [Expr.meaning, holds_ofWords?]
  | .inField name e =>
      rw [ofExpr?] at h
      rw [Expr.meaning]
      cases hf : Field.ofLabel? name with
      | none =>
          rw [hf] at h
          cases h
      | some f =>
          rw [hf] at h
          exact holds_ofExpr? [f] e h
  | .group e =>
      rw [ofExpr?] at h
      rw [Expr.meaning]
      exact holds_ofExpr? fields e h
  | .conjunction es =>
      rw [ofExpr?] at h
      obtain ⟨cs, hcs, rfl⟩ := Except.map_eq_ok_iff.1 h
      rw [Expr.meaning, combine_all]
      exact holds_ofClauses?_of_parts (holdsEach_clausesOf fields es hcs)
  | .disjunction es =>
      rw [ofExpr?] at h
      obtain ⟨cs, hcs, rfl⟩ := Except.map_eq_ok_iff.1 h
      rw [Expr.meaning, combine_any]
      exact holds_ofClauses?_of_parts (holdsEach_clausesOf fields es hcs)
  | .negation e =>
      rw [ofExpr?] at h
      obtain ⟨inner, hinner, rfl⟩ := Except.map_eq_ok_iff.1 h
      rw [Expr.meaning, combine_all, ← holds_ofExpr? fields e hinner]
      exact holds_ofClauses?_of_parts (holdsEach_clause .must true inner)

/-- The clauses of a list of expressions are those of its parts. -/
theorem holdsEach_clausesOf (fields : List Field) {o : Occur} (es : List Expr)
    {cs : List (Occur × Plan)} (h : clausesOf fields o es = .ok cs) :
    holdsEach words cs = (Expr.parts words fields es).map (clauseOf o) := by
  match es with
  | [] =>
      cases h
      rfl
  | e :: es =>
      by_cases hn : ∃ inner, e = .negation inner
      · obtain ⟨inner, rfl⟩ := hn
        rw [clausesOf] at h
        obtain ⟨plan, hplan, h⟩ := Except.bind_eq_ok_iff.1 h
        obtain ⟨rest, hrest, h⟩ := Except.bind_eq_ok_iff.1 h
        cases h
        have hpart : holdsEach words (clause .mustNot plan) = _ := holdsEach_clause o true plan
        rw [Expr.parts, holdsEach_append, holdsEach_clausesOf fields es hrest, hpart,
          holds_ofExpr? fields inner hplan, List.map_append]
      · have hpositive : ∀ inner, e ≠ .negation inner := fun inner he => hn ⟨inner, he⟩
        rw [clausesOf_cons hpositive] at h
        obtain ⟨plan, hplan, h⟩ := Except.bind_eq_ok_iff.1 h
        obtain ⟨rest, hrest, h⟩ := Except.bind_eq_ok_iff.1 h
        cases h
        have hpart : holdsEach words (clause o plan) = _ := holdsEach_clause o false plan
        rw [parts_cons hpositive, holdsEach_append,
          holdsEach_clausesOf fields es hrest, hpart, holds_ofExpr? fields e hplan,
          List.map_append]

end

/-- A query that can be planned has no plan exactly if it asks for nothing, and a plan of it holds
of the documents that it asks for. -/
theorem holds_ofQuery? {e : Expr} {plan : Option Plan} (h : ofQuery? e = .ok plan)
    (words : Field → List Text) :
    (plan = none ↔ e.meaning words Field.all = none) ∧
      ∀ p, plan = some p → e.meaning words Field.all = some (p.holds words) := by
  obtain ⟨inner, hinner, rfl⟩ := Except.map_eq_ok_iff.1 h
  rw [← holds_ofExpr? Field.all e hinner]
  cases inner with
  | none =>
      refine ⟨⟨fun _ => rfl, fun _ => rfl⟩, fun p hp => ?_⟩
      cases hp
  | some inner =>
      refine ⟨⟨fun hp => ?_, fun hm => ?_⟩, fun p hp => ?_⟩
      · cases hp
      · cases hm
      · cases hp
        rfl

end

set_option maxRecDepth 2000 in
/-- A conjunction with a word, a group of alternatives of which one is negated and one is a phrase
in a field, and a phrase without words. -/
theorem holds_ofQuery?_of_group :
    let e : Expr := .conjunction [.term ['S', 'e', 'a'],
      .group (.disjunction [.negation (.term ['i', 'c', 'e']),
        .inField ['n', 'a', 'm', 'e'] (.phrase ['a', '-', 'b'])]), .phrase ['?', '!']]
    let plan : Plan := boost queryWeight (clauses [
      (.must, perField Field.all fun f => word f ['s', 'e', 'a']),
      (.must, clauses [(.mustNot, perField Field.all fun f => word f ['i', 'c', 'e']),
        (.should, perField [.name] fun f => phrase f [['a'], ['b']])])])
    let words : Field → List Text := fun _ => [['s', 'e', 'a'], ['a'], ['b']]
    ofQuery? e = .ok (some plan) ∧ e.meaning words Field.all = some true := by
  intro e plan words
  have hplan : ofQuery? e = .ok (some plan) := by cbv
  have hholds : plan.holds words = true := by cbv
  have hmeaning := (holds_ofQuery? hplan words).2 plan rfl
  rw [hholds] at hmeaning
  exact ⟨hplan, hmeaning⟩

end Plan

end DatasetSearch
