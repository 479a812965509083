import DatasetSearch.Plan
import DatasetSearch.Proofs.Plan.Meaning

/-! # The leaves of a query

A leaf is what a term or a phrase asks for by itself.  `Expr.leaves` lists those that stand under no
negation, whatever the fields.  The terms of a query are theirs (`areOf_ofExpr`), and a document
that is asked for has one of them in one of its fields (`exists_covers_of_meaning`): a list of parts
asks for a part that is not negated, and so on down to a leaf. -/

namespace DatasetSearch

open Query

namespace Query

/-- What a term or a phrase asks for: a word that fits a pattern, or words one after the other. -/
inductive Leaf
  | wildcard (p : Pattern)
  | words (ts : List Text)
  deriving DecidableEq, Repr

namespace Leaf

/-- What a term asks for. -/
def ofTerm (t : Text) : Leaf := if isWildcard t then wildcard (.ofTerm t) else words (Text.words t)

/-- The word at place `i` belongs to what the leaf asks for. -/
def Covers (ws : List Text) (i : Nat) : Leaf → Prop
  | wildcard p => ∃ w, ws[i]? = some w ∧ p.matchesToken w = true
  | words ts => ∃ j, j ≤ i ∧ i < j + ts.length ∧ ts <+: ws.drop j

/-- A text without words covers nothing. -/
theorem not_covers_nil (ws : List Text) (i : Nat) : ¬ (words []).Covers ws i := by
  rintro ⟨j, hle, hlt, -⟩
  exact absurd hlt (Nat.not_lt.2 hle)

theorem Covers.lt_length {leaf : Leaf} {ws : List Text} {i : Nat} (h : leaf.Covers ws i) :
    i < ws.length := by
  cases leaf with
  | wildcard p =>
      obtain ⟨w, hw, -⟩ := h
      exact (List.getElem?_eq_some_iff.1 hw).1
  | words ts =>
      obtain ⟨j, hle, hlt, hfront⟩ := h
      have hlength := hfront.length_le
      rw [List.length_drop] at hlength
      omega

/-- A single word covers the places where it stands. -/
theorem covers_singleton {w : Text} {ws : List Text} {i : Nat} :
    (words [w]).Covers ws i ↔ ws[i]? = some w := by
  constructor
  · rintro ⟨j, hle, hlt, t, ht⟩
    obtain rfl : j = i := by
      rw [List.length_singleton] at hlt
      omega
    rw [← Nat.add_zero j, ← List.getElem?_drop, ← ht]
    rfl
  · intro h
    obtain ⟨hi, rfl⟩ := List.getElem?_eq_some_iff.1 h
    refine ⟨i, Nat.le_refl i, Nat.lt_succ_self i, ws.drop (i + 1), ?_⟩
    rw [List.singleton_append]
    exact List.cons_getElem_drop_succ

/-- Words that stand in a list one after the other cover some place. -/
theorem exists_covers_of_infix {ts ws : List Text} (hne : ts ≠ []) (h : ts <:+: ws) :
    ∃ i, (words ts).Covers ws i := by
  obtain ⟨s, u, rfl⟩ := h
  have hpos : 0 < ts.length := List.length_pos_iff.2 hne
  refine ⟨s.length, s.length, Nat.le_refl _, Nat.lt_add_of_pos_right hpos, ?_⟩
  rw [List.append_assoc, List.drop_left]
  exact List.prefix_append ts u

end Leaf

namespace Expr

mutual

/-- The leaves of an expression that stand under no negation. -/
def leaves : Expr → List Leaf
  | .term t => [.ofTerm t]
  | .phrase t => [.words (Text.words t)]
  | .negation _ => []
  | .conjunction es => leavesOfEach es
  | .disjunction es => leavesOfEach es
  | .inField _ e => leaves e
  | .group e => leaves e

/-- The leaves of each expression of a list. -/
def leavesOfEach : List Expr → List Leaf
  | [] => []
  | e :: es => leaves e ++ leavesOfEach es

end

/-! ### A document that is asked for -/

variable {words : Field → List Text}

theorem exists_covers_of_meaningOfWords {fields : List Field} {ts : List Text}
    (h : meaningOfWords words fields ts = some true) :
    ∃ f i, (Leaf.words ts).Covers (words f) i := by
  unfold meaningOfWords at h
  split at h
  · cases h
  · rename_i hne
    obtain ⟨f, -, hf⟩ := List.any_eq_true.1 (Option.some.inj h)
    obtain ⟨i, hi⟩ :=
      Leaf.exists_covers_of_infix (mt List.isEmpty_iff.2 hne) (of_decide_eq_true hf)
    exact ⟨f, i, hi⟩

theorem exists_covers_of_wildcard {fields : List Field} {p : Pattern}
    (h : (fields.any fun f => (words f).any p.matchesToken) = true) :
    ∃ f i, (Leaf.wildcard p).Covers (words f) i := by
  obtain ⟨f, -, hf⟩ := List.any_eq_true.1 h
  obtain ⟨w, hw, hfits⟩ := List.any_eq_true.1 hf
  obtain ⟨i, hi⟩ := List.mem_iff_getElem?.1 hw
  exact ⟨f, i, w, hi, hfits⟩

end Expr

/-- A list of parts that holds has a part that holds and is not negated. -/
theorem Part.exists_of_combine {quantify : List Part → (Part → Bool) → Bool} {ps : List Part}
    (hquantify : ∀ qs : List Part, qs ≠ [] → quantify qs holds = true → ∃ q ∈ qs, q.holds = true)
    (h : combine quantify ps = some true) : ∃ p ∈ ps, p.negated = false ∧ p.holds = true := by
  unfold combine at h
  dsimp only at h
  split at h
  · cases h
  · split at h
    · cases h
    · rename_i hne
      have hall := (Bool.and_eq_true_iff.1 (Option.some.inj h)).1
      obtain ⟨p, hp, hholds⟩ := hquantify _ (mt List.isEmpty_iff.2 hne) hall
      obtain ⟨hmem, hnegated⟩ := List.mem_filter.1 hp
      rw [Bool.not_eq_true'] at hnegated
      exact ⟨p, hmem, hnegated, hholds⟩

theorem Part.exists_of_combine_all {ps : List Part} (h : combine List.all ps = some true) :
    ∃ p ∈ ps, p.negated = false ∧ p.holds = true := by
  refine exists_of_combine (fun qs hne hall => ?_) h
  obtain ⟨q, hq⟩ := List.exists_mem_of_ne_nil qs hne
  exact ⟨q, hq, List.all_eq_true.1 hall q hq⟩

theorem Part.exists_of_combine_any {ps : List Part} (h : combine List.any ps = some true) :
    ∃ p ∈ ps, p.negated = false ∧ p.holds = true :=
  exists_of_combine (fun _ _ hany => List.any_eq_true.1 hany) h

theorem Part.mem_ofMeaning {negated : Bool} {meaning : Option Bool} {p : Part} :
    p ∈ ofMeaning negated meaning ↔ p.negated = negated ∧ meaning = some p.holds := by
  cases meaning with
  | none => simp [ofMeaning]
  | some holds =>
      cases p with
      | mk n b => simp [ofMeaning, eq_comm]

namespace Expr

variable {words : Field → List Text}

mutual

/-- A document that is asked for has a leaf of the query in one of its fields. -/
theorem exists_covers_of_meaning (fields : List Field) (e : Expr)
    (h : e.meaning words fields = some true) :
    ∃ leaf ∈ e.leaves, ∃ f i, leaf.Covers (words f) i := by
  match e with
  | .term t =>
      rw [meaning] at h
      refine ⟨.ofTerm t, List.mem_singleton_self _, ?_⟩
      unfold Leaf.ofTerm
      split at h
      · rename_i hwild
        rw [if_pos hwild]
        exact exists_covers_of_wildcard (Option.some.inj h)
      · rename_i hwild
        rw [if_neg hwild]
        exact exists_covers_of_meaningOfWords h
  | .phrase t =>
      rw [meaning] at h
      exact ⟨_, List.mem_singleton_self _, exists_covers_of_meaningOfWords h⟩
  | .inField name e =>
      rw [meaning] at h
      obtain ⟨f, -, h⟩ := Option.bind_eq_some_iff.1 h
      exact exists_covers_of_meaning [f] e h
  | .group e =>
      rw [meaning] at h
      exact exists_covers_of_meaning fields e h
  | .conjunction es =>
      rw [meaning] at h
      obtain ⟨p, hp, hnegated, hholds⟩ := Part.exists_of_combine_all h
      exact exists_covers_of_parts fields es hp hnegated hholds
  | .disjunction es =>
      rw [meaning] at h
      obtain ⟨p, hp, hnegated, hholds⟩ := Part.exists_of_combine_any h
      exact exists_covers_of_parts fields es hp hnegated hholds
  | .negation e =>
      rw [meaning] at h
      obtain ⟨p, hp, hnegated, -⟩ := Part.exists_of_combine_all h
      rw [(Part.mem_ofMeaning.1 hp).1] at hnegated
      cases hnegated

theorem exists_covers_of_parts (fields : List Field) (es : List Expr) {p : Part}
    (hp : p ∈ parts words fields es) (hnegated : p.negated = false) (hholds : p.holds = true) :
    ∃ leaf ∈ leavesOfEach es, ∃ f i, leaf.Covers (words f) i := by
  match es with
  | [] => cases hp
  | e :: es =>
      have hrest (hp : p ∈ parts words fields es) :
          ∃ leaf ∈ leavesOfEach (e :: es), ∃ f i, leaf.Covers (words f) i := by
        obtain ⟨leaf, hleaf, hcovers⟩ := exists_covers_of_parts fields es hp hnegated hholds
        exact ⟨leaf, List.mem_append_right _ hleaf, hcovers⟩
      by_cases hn : ∃ inner, e = .negation inner
      · obtain ⟨inner, rfl⟩ := hn
        rw [parts, List.mem_append] at hp
        rcases hp with hp | hp
        · rw [(Part.mem_ofMeaning.1 hp).1] at hnegated
          cases hnegated
        · exact hrest hp
      · rw [Plan.parts_cons fun inner he => hn ⟨inner, he⟩, List.mem_append] at hp
        rcases hp with hp | hp
        · have hmeaning := (Part.mem_ofMeaning.1 hp).2
          rw [hholds] at hmeaning
          obtain ⟨leaf, hleaf, hcovers⟩ := exists_covers_of_meaning fields e hmeaning
          exact ⟨leaf, List.mem_append_left _ hleaf, hcovers⟩
        · exact hrest hp

end

end Expr

end Query

/-! ### The terms of the leaves -/

theorem mem_insertNew {α : Type} [LT α] [DecidableLT α] [Std.Trichotomous (α := α) (· < ·)]
    {a x : α} {l : List α} : x ∈ insertNew a l ↔ x = a ∨ x ∈ l := by
  induction l with
  | nil => exact List.mem_singleton.trans (or_iff_left List.not_mem_nil).symm
  | cons b bs ih =>
      rw [insertNew]
      split
      · exact List.mem_cons
      · rename_i hlt
        split
        · rw [List.mem_cons, ih, List.mem_cons]
          exact or_left_comm
        · rename_i hgt
          obtain rfl := Std.Trichotomous.trichotomous a b hlt hgt
          rw [List.mem_cons, ← or_assoc, or_self]

instance : Std.Trichotomous (α := Pattern) (· < ·) where
  trichotomous p q h h' := by
    cases p with
    | mk s =>
        cases q with
        | mk t => exact congrArg Pattern.mk (Std.Trichotomous.trichotomous s t h h')

namespace Terms

/-- The terms with that of a leaf. -/
def addLeaf (t : Terms) : Leaf → Terms
  | .wildcard p => { t with wildcards := insertNew p t.wildcards }
  | .words ts => t.addWords ts

mutual

theorem addExpr_eq_foldl (t : Terms) (e : Expr) : t.addExpr e = e.leaves.foldl addLeaf t := by
  match e with
  | .term w =>
      rw [addExpr, Expr.leaves, List.foldl_cons, List.foldl_nil, Leaf.ofTerm]
      split
      · rfl
      · rfl
  | .phrase w => rfl
  | .negation e => rfl
  | .inField name e => exact addExpr_eq_foldl t e
  | .group e => exact addExpr_eq_foldl t e
  | .conjunction es => exact addExprs_eq_foldl t es
  | .disjunction es => exact addExprs_eq_foldl t es

theorem addExprs_eq_foldl (t : Terms) (es : List Expr) :
    t.addExprs es = (Expr.leavesOfEach es).foldl addLeaf t := by
  match es with
  | [] => rfl
  | e :: es =>
      rw [addExprs, Expr.leavesOfEach, List.foldl_append, addExpr_eq_foldl t e,
        addExprs_eq_foldl _ es]

end

/-- The terms are those of the leaves: single words, patterns, and rows of two words or more. -/
structure AreOf (t : Terms) (leaves : List Leaf) : Prop where
  exact : ∀ w, w ∈ t.exact ↔ .words [w] ∈ leaves
  wildcards : ∀ p, p ∈ t.wildcards ↔ .wildcard p ∈ leaves
  phrases : ∀ ts, ts ∈ t.phrases ↔ .words ts ∈ leaves ∧ 2 ≤ ts.length

theorem areOf_nil : ({} : Terms).AreOf [] := by
  constructor <;> simp

theorem AreOf.addLeaf {t : Terms} {leaves : List Leaf} (h : t.AreOf leaves) (leaf : Leaf) :
    (t.addLeaf leaf).AreOf (leaves ++ [leaf]) := by
  have hmem (x : Leaf) : x ∈ leaves ++ [leaf] ↔ x = leaf ∨ x ∈ leaves := by
    rw [List.mem_append, List.mem_singleton, or_comm]
  have hother {x : Leaf} (hx : x ≠ leaf) : x ∈ leaves ↔ x ∈ leaves ++ [leaf] := by
    rw [hmem, or_iff_right hx]
  match leaf with
  | .wildcard p =>
      refine ⟨fun w => (h.exact w).trans (hother nofun), fun q => ?_,
        fun ts => (h.phrases ts).trans (and_congr_left' (hother nofun))⟩
      show q ∈ insertNew p t.wildcards ↔ _
      rw [mem_insertNew, hmem, h.wildcards q, Leaf.wildcard.injEq]
  | .words [] =>
      refine ⟨fun w => (h.exact w).trans (hother nofun),
        fun q => (h.wildcards q).trans (hother nofun), fun ts => ?_⟩
      refine (h.phrases ts).trans (and_congr_left fun hlength => hother ?_)
      rintro ⟨rfl⟩
      exact absurd hlength (by decide)
  | .words [v] =>
      refine ⟨fun w => ?_, fun q => (h.wildcards q).trans (hother nofun), fun ts => ?_⟩
      · show w ∈ insertNew v t.exact ↔ _
        rw [mem_insertNew, hmem, h.exact w, Leaf.words.injEq, List.singleton_inj]
      · refine (h.phrases ts).trans (and_congr_left fun hlength => hother ?_)
        rintro ⟨rfl⟩
        exact absurd hlength (by simp)
  | .words (v :: v' :: vs) =>
      refine ⟨fun w => (h.exact w).trans (hother nofun),
        fun q => (h.wildcards q).trans (hother nofun), fun ts => ?_⟩
      show ts ∈ insertNew (v :: v' :: vs) t.phrases ↔ _
      rw [mem_insertNew, hmem, h.phrases ts, or_and_right, Leaf.words.injEq]
      refine or_congr_left ⟨fun hts => ⟨hts, ?_⟩, And.left⟩
      rw [hts]
      exact Nat.le_add_left 2 vs.length

theorem AreOf.foldl {t : Terms} {leaves : List Leaf} (h : t.AreOf leaves) (more : List Leaf) :
    (more.foldl Terms.addLeaf t).AreOf (leaves ++ more) := by
  induction more generalizing t leaves with
  | nil => rwa [List.append_nil]
  | cons leaf more ih =>
      rw [List.foldl_cons, ← List.singleton_append, ← List.append_assoc]
      exact ih (h.addLeaf leaf)

/-- The terms of an expression are those of its leaves. -/
theorem areOf_ofExpr (e : Expr) : (ofExpr e).AreOf e.leaves := by
  rw [ofExpr, addExpr_eq_foldl]
  exact areOf_nil.foldl e.leaves

end Terms

end DatasetSearch
