import DatasetSearch.Highlight
import DatasetSearch.Proofs.Plan.Leaves

/-!
# Marked tokens

Which tokens of a text are marked, first by the terms of a query and then by the leaves of its
expression.
-/

namespace DatasetSearch

/-! ## Which tokens are marked

A phrase is looked for from left to right, and `covered` carries how much of the last occurrence is
still to come; so it flags the places of all occurrences, also where they overlap
(`getElem?_covered_iff`).  A token of a text is marked exactly if a leaf of the query covers its
place (`isMarked_iff_exists_covers`). -/

open Query

namespace Terms

/-! ### Phrases -/

theorem length_covered (phrase : List Text) (left : Nat) (ws : List Text) :
    (covered phrase left ws).length = ws.length := by
  induction ws generalizing left with
  | nil => rfl
  | cons w ws ih => exact congrArg Nat.succ (ih _)

theorem covers_cons_iff {ts ws : List Text} {w : Text} {i : Nat} :
    (Leaf.words ts).Covers (w :: ws) i ↔
      (ts <+: w :: ws ∧ i < ts.length) ∨ ∃ k, i = k + 1 ∧ (Leaf.words ts).Covers ws k := by
  constructor
  · rintro ⟨j, hle, hlt, hfront⟩
    cases j with
    | zero => exact .inl ⟨hfront, by omega⟩
    | succ j => exact .inr ⟨i - 1, by omega, j, by omega, by omega, hfront⟩
  · rintro (⟨hfront, hlt⟩ | ⟨k, rfl, j, hle, hlt, hfront⟩)
    · exact ⟨0, Nat.zero_le i, by omega, hfront⟩
    · exact ⟨j + 1, by omega, by omega, hfront⟩

/-- A place is flagged if it is among the `left` first or in an occurrence of the phrase. -/
theorem getElem?_covered_iff {phrase : List Text} {left : Nat} (hleft : left ≤ phrase.length)
    (ws : List Text) (i : Nat) : (covered phrase left ws)[i]? = some true ↔
      i < ws.length ∧ (i < left ∨ (Leaf.words phrase).Covers ws i) := by
  induction ws generalizing left i with
  | nil => exact iff_of_false nofun fun h => Nat.not_lt_zero i h.1
  | cons w ws ih =>
      obtain ⟨left', hleft'⟩ :
          ∃ n, n = if phrase.isPrefixOf (w :: ws) then phrase.length else left := ⟨_, rfl⟩
      -- an occurrence that begins here is longer than what is left of the last one
      have hle : left' ≤ phrase.length ∧
          ∀ k, k < left' ↔ k < left ∨ (phrase <+: w :: ws ∧ k < phrase.length) := by
        rw [hleft', ← List.isPrefixOf_iff_prefix]
        split
        · rename_i hfront
          exact ⟨Nat.le_refl _, fun k => by rw [and_iff_right hfront]; omega⟩
        · rename_i hfront
          exact ⟨hleft, fun k => by rw [or_iff_left fun h => hfront h.1]⟩
      rw [covers_cons_iff, ← or_assoc, ← hle.2]
      show (decide (0 < if phrase.isPrefixOf (w :: ws) then phrase.length else left) ::
        covered phrase ((if phrase.isPrefixOf (w :: ws) then phrase.length else left) - 1)
          ws)[i]? = some true ↔ _
      rw [← hleft']
      cases i with
      | zero => simp
      | succ i =>
          have hrest : left' - 1 ≤ phrase.length := (Nat.sub_le _ _).trans hle.1
          rw [List.getElem?_cons_succ, ih hrest, List.length_cons, Nat.succ_lt_succ_iff]
          refine and_congr_right fun _ => or_congr (by omega) ⟨fun h => ⟨i, rfl, h⟩, ?_⟩
          rintro ⟨k, hk, h⟩
          cases hk
          exact h

/-- The flags of a phrase are set where it covers a place. -/
theorem getElem?_covered_zero_iff (phrase ws : List Text) (i : Nat) :
    (covered phrase 0 ws)[i]? = some true ↔ i < ws.length ∧ (Leaf.words phrase).Covers ws i := by
  rw [getElem?_covered_iff (Nat.zero_le _), or_iff_right (Nat.not_lt_zero i)]

theorem getElem?_zipWith_or_iff {flags flags' : List Bool} (h : flags.length = flags'.length)
    (i : Nat) : (List.zipWith (· || ·) flags flags')[i]? = some true ↔
      flags[i]? = some true ∨ flags'[i]? = some true := by
  rw [List.getElem?_zipWith_eq_some]
  constructor
  · rintro ⟨b, b', hb, hb', hor⟩
    rw [hb, hb']
    simpa using hor
  · by_cases hi : i < flags.length
    · have hi' : i < flags'.length := h ▸ hi
      rw [List.getElem?_eq_getElem hi, List.getElem?_eq_getElem hi']
      intro hor
      exact ⟨_, _, rfl, rfl, by simpa using hor⟩
    · have hi' : ¬ i < flags'.length := h ▸ hi
      rw [List.getElem?_eq_none (Nat.not_lt.1 hi), List.getElem?_eq_none (Nat.not_lt.1 hi')]
      simp

theorem length_foldl_covered {ws : List Text} {flags : List Bool}
    (hflags : flags.length = ws.length) (phrases : List (List Text)) :
    (phrases.foldl (fun flags phrase => List.zipWith (· || ·) flags (covered phrase 0 ws))
      flags).length = ws.length := by
  induction phrases generalizing flags with
  | nil => exact hflags
  | cons phrase phrases ih =>
      refine ih ?_
      rw [List.length_zipWith, length_covered, hflags, Nat.min_self]

theorem getElem?_foldl_covered_iff (ws : List Text) (i : Nat) {flags : List Bool}
    (hflags : flags.length = ws.length) (phrases : List (List Text)) :
    (phrases.foldl (fun flags phrase => List.zipWith (· || ·) flags (covered phrase 0 ws))
        flags)[i]? = some true ↔
      flags[i]? = some true ∨
        i < ws.length ∧ ∃ phrase ∈ phrases, (Leaf.words phrase).Covers ws i := by
  induction phrases generalizing flags with
  | nil => simp
  | cons phrase phrases ih =>
      have hlength : flags.length = (covered phrase 0 ws).length := by rw [length_covered, hflags]
      have hzip : (List.zipWith (· || ·) flags (covered phrase 0 ws)).length = ws.length :=
        length_foldl_covered hflags [phrase]
      rw [List.foldl_cons, ih hzip, getElem?_zipWith_or_iff hlength, getElem?_covered_zero_iff,
        or_assoc, ← and_or_left, List.exists_mem_cons_iff]

/-- The flags of several phrases are set where one of them covers a place. -/
theorem getElem?_inPhrases_iff (phrases : List (List Text)) (ws : List Text) (i : Nat) :
    (inPhrases phrases ws)[i]? = some true ↔
      i < ws.length ∧ ∃ phrase ∈ phrases, (Leaf.words phrase).Covers ws i := by
  have hnone : (ws.map fun _ => false)[i]? ≠ some true := by
    rw [List.getElem?_map]
    cases ws[i]? with
    | none => exact nofun
    | some w => exact nofun
  rw [inPhrases, getElem?_foldl_covered_iff ws i (List.length_map _), or_iff_right hnone]

/-! ### Tokens -/

theorem isSome_matching_iff (t : Terms) (token : Text) : (t.matching token).isSome = true ↔
    token ∈ t.exact ∨ ∃ p ∈ t.wildcards, p.matchesToken token = true := by
  unfold matching
  split
  · rename_i h
    exact iff_of_true rfl (.inl (List.contains_iff_mem.1 h))
  · rename_i h
    rw [Option.isSome_map, List.find?_isSome, or_iff_right (mt List.contains_iff_mem.2 h)]

theorem length_inPhrases (phrases : List (List Text)) (ws : List Text) :
    (inPhrases phrases ws).length = ws.length :=
  length_foldl_covered (List.length_map _) phrases

theorem length_markTokens (t : Terms) (tokens : List Token) :
    (t.markTokens tokens).length = tokens.length := by
  rw [markTokens, List.length_zipWith, length_inPhrases, List.length_map, Nat.min_self]

/-- A token is marked if a phrase covers its place or it is itself looked for. -/
theorem isMarked_iff {t : Terms} {tokens : List Token} {i : Nat} {m : MarkedToken}
    (h : (t.markTokens tokens)[i]? = some m) :
    tokens[i]? = some m.token ∧
      (m.isMarked = true ↔
        (∃ phrase ∈ t.phrases, (Leaf.words phrase).Covers (tokens.map Token.text) i) ∨
          m.token.text ∈ t.exact ∨ ∃ p ∈ t.wildcards, p.matchesToken m.token.text = true) := by
  obtain ⟨token, inPhrase, htoken, hflag, rfl⟩ := List.getElem?_zipWith_eq_some.1 h
  have hi : i < (tokens.map Token.text).length := by
    rw [List.length_map]
    exact (List.getElem?_eq_some_iff.1 htoken).1
  have hphrases := getElem?_inPhrases_iff t.phrases (tokens.map Token.text) i
  rw [hflag, and_iff_right hi, Option.some_inj] at hphrases
  refine ⟨htoken, ?_⟩
  rw [← hphrases, ← isSome_matching_iff]
  show (if inPhrase = true then some token.text else t.matching token.text).isSome = true ↔ _
  cases inPhrase with
  | false => exact (or_iff_right Bool.false_ne_true).symm
  | true => exact iff_of_true rfl (.inl rfl)

/-- A token of a text is marked exactly if a leaf of the query covers its place. -/
theorem isMarked_iff_exists_covers (e : Expr) {tokens : List Token} {i : Nat} {m : MarkedToken}
    (h : ((ofExpr e).markTokens tokens)[i]? = some m) :
    m.isMarked = true ↔ ∃ leaf ∈ e.leaves, leaf.Covers (tokens.map Token.text) i := by
  obtain ⟨htoken, hmarked⟩ := isMarked_iff h
  have hword : (tokens.map Token.text)[i]? = some m.token.text := by
    rw [List.getElem?_map, htoken]
    rfl
  have hterms := areOf_ofExpr e
  rw [hmarked]
  constructor
  · rintro (⟨phrase, hphrase, hcovers⟩ | hexact | ⟨p, hp, hfits⟩)
    · exact ⟨_, ((hterms.phrases phrase).1 hphrase).1, hcovers⟩
    · exact ⟨_, (hterms.exact _).1 hexact, Leaf.covers_singleton.2 hword⟩
    · exact ⟨_, (hterms.wildcards p).1 hp, _, hword, hfits⟩
  · rintro ⟨leaf, hleaf, hcovers⟩
    match leaf with
    | .wildcard p =>
        obtain ⟨w, hw, hfits⟩ := hcovers
        rw [hword] at hw
        cases hw
        exact .inr (.inr ⟨p, (hterms.wildcards p).2 hleaf, hfits⟩)
    | .words [] => exact absurd hcovers (Leaf.not_covers_nil _ i)
    | .words [w] =>
        rw [Leaf.covers_singleton, hword] at hcovers
        cases hcovers
        exact .inr (.inl ((hterms.exact _).2 hleaf))
    | .words (w :: w' :: ws) =>
        have hphrase := (hterms.phrases (w :: w' :: ws)).2 ⟨hleaf, Nat.le_add_left 2 ws.length⟩
        exact .inl ⟨_, hphrase, hcovers⟩

/-- A leaf of the query that covers a place of a text marks a token of it. -/
theorem exists_isMarked_of_covers {e : Expr} {leaf : Leaf} (hleaf : leaf ∈ e.leaves) {text : Text}
    {i : Nat} (h : leaf.Covers (Text.words text) i) :
    ∃ m ∈ (ofExpr e).markTokens text.tokens, m.isMarked = true := by
  have hi : i < ((ofExpr e).markTokens text.tokens).length := by
    have := h.lt_length
    rwa [Text.words, List.length_map, ← length_markTokens (ofExpr e)] at this
  have hm := List.getElem?_eq_getElem hi
  exact ⟨_, List.getElem_mem hi, (isMarked_iff_exists_covers e hm).2 ⟨leaf, hleaf, h⟩⟩

end Terms

/-! ## Leaves account for marks

A token of a text is marked if and only if a leaf of the query that stands under no negation
accounts for its place (`Leaf.Covers`): a pattern that fits it, a single word that it is, or two
words or more that stand in the text one after the other and take in its place.  What stands under
a negation has no leaves, so it may be anything (`SameButNegated`); and a word of a phrase is marked
as a part of the whole phrase only. -/

open Query

namespace Query.Expr

mutual

/-- The expressions are the same but for what stands under negations. -/
inductive SameButNegated : Expr → Expr → Prop
  | term (t : Text) : SameButNegated (.term t) (.term t)
  | phrase (t : Text) : SameButNegated (.phrase t) (.phrase t)
  | negation (e e' : Expr) : SameButNegated (.negation e) (.negation e')
  | conjunction {es es' : List Expr} :
      SameButNegatedEach es es' → SameButNegated (.conjunction es) (.conjunction es')
  | disjunction {es es' : List Expr} :
      SameButNegatedEach es es' → SameButNegated (.disjunction es) (.disjunction es')
  | inField (name : Text) {e e' : Expr} :
      SameButNegated e e' → SameButNegated (.inField name e) (.inField name e')
  | group {e e' : Expr} : SameButNegated e e' → SameButNegated (.group e) (.group e')

/-- The expressions of two lists are so, one by one. -/
inductive SameButNegatedEach : List Expr → List Expr → Prop
  | nil : SameButNegatedEach [] []
  | cons {e e' : Expr} {es es' : List Expr} : SameButNegated e e' → SameButNegatedEach es es' →
      SameButNegatedEach (e :: es) (e' :: es')

end

mutual

theorem SameButNegated.leaves_eq {e e' : Expr} (h : SameButNegated e e') :
    e'.leaves = e.leaves := by
  match h with
  | .term _ | .phrase _ | .negation _ _ => rfl
  | .conjunction h | .disjunction h => exact h.leavesOfEach_eq
  | .inField _ h | .group h => exact h.leaves_eq

theorem SameButNegatedEach.leavesOfEach_eq {es es' : List Expr} (h : SameButNegatedEach es es') :
    leavesOfEach es' = leavesOfEach es := by
  match h with
  | .nil => rfl
  | .cons h hs => rw [leavesOfEach, leavesOfEach, h.leaves_eq, hs.leavesOfEach_eq]

end

end Query.Expr

namespace Terms

/-- The token at a place of the text is marked. -/
def Marks (t : Terms) (text : Text) (i : Nat) : Prop :=
  ∃ m, (t.markTokens text.tokens)[i]? = some m ∧ m.isMarked = true

theorem marks_iff_exists_covers (e : Expr) (text : Text) (i : Nat) :
    (ofExpr e).Marks text i ↔ ∃ leaf ∈ e.leaves, leaf.Covers (Text.words text) i := by
  constructor
  · rintro ⟨m, hm, hmarked⟩
    exact (isMarked_iff_exists_covers e hm).1 hmarked
  · rintro ⟨leaf, hleaf, hcovers⟩
    have hi : i < ((ofExpr e).markTokens text.tokens).length := by
      have := hcovers.lt_length
      rwa [Text.words, List.length_map, ← length_markTokens (ofExpr e)] at this
    have hm := List.getElem?_eq_getElem hi
    exact ⟨_, hm, (isMarked_iff_exists_covers e hm).2 ⟨leaf, hleaf, hcovers⟩⟩

/-- The terms come from the leaves alone. -/
theorem ofExpr_eq_of_sameButNegated {e e' : Expr} (h : e.SameButNegated e') :
    ofExpr e' = ofExpr e := by
  rw [ofExpr, ofExpr, addExpr_eq_foldl, addExpr_eq_foldl, h.leaves_eq]

/-- The token at place `i` of a text is marked if and only if a leaf of the query under no negation
accounts for it.  So nothing under a negation makes a difference to any highlight, and a token that
is no single word or pattern's match is marked only within words that stand there as a whole. -/
theorem marks_iff_leaves (e : Expr) (text : Text) :
    (∀ i, (ofExpr e).Marks text i ↔ ∃ leaf ∈ e.leaves, leaf.Covers (Text.words text) i) ∧
      (∀ e', e.SameButNegated e' → ∀ size,
        (ofExpr e').highlightSized size text = (ofExpr e).highlightSized size text) ∧
      ∀ i, (ofExpr e).Marks text i →
        (∀ w, (Text.words text)[i]? = some w → .words [w] ∉ e.leaves ∧
          ∀ p, .wildcard p ∈ e.leaves → p.matchesToken w = false) →
        ∃ ts, .words ts ∈ e.leaves ∧ 2 ≤ ts.length ∧
          ∃ j, j ≤ i ∧ i < j + ts.length ∧ ts <+: (Text.words text).drop j := by
  refine ⟨marks_iff_exists_covers e text, fun e' hsame size => ?_, fun i hmarks hnone => ?_⟩
  · rw [ofExpr_eq_of_sameButNegated hsame]
  · obtain ⟨leaf, hleaf, hcovers⟩ := (marks_iff_exists_covers e text i).1 hmarks
    match leaf with
    | .wildcard p =>
        obtain ⟨w, hw, hfits⟩ := hcovers
        rw [(hnone w hw).2 p hleaf] at hfits
        cases hfits
    | .words [] => exact absurd hcovers (Leaf.not_covers_nil _ i)
    | .words [w] => exact absurd hleaf (hnone w (Leaf.covers_singleton.1 hcovers)).1
    | .words (w :: w' :: ts) => exact ⟨_, hleaf, Nat.le_add_left 2 ts.length, hcovers⟩

set_option maxRecDepth 2000 in
/-- Occurrences of a phrase overlap, and the words after them are not marked, whatever stands under
the negation. -/
theorem marks_iff_leaves_of_overlap :
    let phrase : Expr := .phrase ['a', '-', 'b', '-', 'a']
    let e : Expr := .conjunction [.group phrase, .negation (.term ['c'])]
    let e' : Expr := .conjunction [.group phrase, .negation (.term ['b'])]
    let text : Text := ['a', ' ', 'B', ' ', 'a', ' ', 'b', ' ', 'a', ' ', 'b', ' ', 'c']
    e.SameButNegated e' ∧ (ofExpr e).Marks text 3 ∧ ¬ (ofExpr e).Marks text 5 ∧
      ¬ (ofExpr e).Marks text 6 ∧
      ∀ size, (ofExpr e').highlightSized size text = (ofExpr e).highlightSized size text := by
  intro phrase e e' text
  have hwords : Text.words text = [['a'], ['b'], ['a'], ['b'], ['a'], ['b'], ['c']] := by cbv
  have hleaves : e.leaves = [.words [['a'], ['b'], ['a']]] := by cbv
  have hsame : e.SameButNegated e' :=
    .conjunction (.cons (.group (.phrase _)) (.cons (.negation _ _) .nil))
  obtain ⟨hmarks, hhighlights, hwhole⟩ := marks_iff_leaves e text
  have hnone (i : Nat) (hi : ∀ j, j ≤ i → i < j + 3 →
      ¬ [['a'], ['b'], ['a']] <+: (Text.words text).drop j) : ¬ (ofExpr e).Marks text i := by
    intro hmarked
    obtain ⟨ts, hts, -, j, hle, hlt, hfront⟩ := hwhole i hmarked (by simp [hleaves])
    rw [hleaves, List.mem_singleton, Leaf.words.injEq] at hts
    subst hts
    exact hi j hle hlt hfront
  refine ⟨hsame, (hmarks 3).2 ⟨.words [['a'], ['b'], ['a']], ?_, 2, ?_⟩, hnone 5 ?_, hnone 6 ?_,
    hhighlights e' hsame⟩
  · exact hleaves ▸ List.mem_singleton_self _
  · rw [hwords]; decide
  · intro j hle hlt
    obtain rfl | rfl | rfl : j = 3 ∨ j = 4 ∨ j = 5 := by omega
    all_goals rw [hwords]; decide
  · intro j hle hlt
    obtain rfl | rfl | rfl : j = 4 ∨ j = 5 ∨ j = 6 := by omega
    all_goals rw [hwords]; decide

end Terms

end DatasetSearch
