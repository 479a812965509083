import DatasetSearch.Index.Search
import DatasetSearch.Proofs.Plan.Leaves
import DatasetSearch.Proofs.Query.Glob
import DatasetSearch.Proofs.Text.Casing

/-! # The words an index has

An index has the words of a text at their places, but for those that do not fit.  What a query
finds in it stands in the text at the same place (`Leaf.covers_of_covers_indexedWords`): no word of
a query is empty, and a pattern that fits an empty place consists of stars and fits every word.

So a pattern finds the words that fit (`exists_mem_indexedWords_iff`), which are those that its
regular expression accepts (`Plan.holds_wildcard_iff_regex`), and a phrase is found where it stands
in the text if all its words fit (`infix_indexedWords_iff`). -/

namespace DatasetSearch

open Query

/-! ### Words are not empty -/

namespace Text

theorem lowerChar_ne_nil (c : Char) : lowerChar c ≠ [] := by
  unfold lowerChar
  split
  · exact List.cons_ne_nil _ _
  · exact List.cons_ne_nil _ _

theorem lower_ne_nil {t : Text} (h : t ≠ []) : lower t ≠ [] := by
  cases t with
  | nil => exact absurd rfl h
  | cons c rest =>
      rw [lower, lowerAfter]
      split
      · exact List.cons_ne_nil _ _
      · exact List.append_ne_nil_of_left_ne_nil (lowerChar_ne_nil c) _

theorem ne_nil_of_mem_tokensFrom {position : Nat} {t : Text} {token : Token}
    (h : token ∈ tokensFrom position t) : token.text ≠ [] := by
  fun_induction tokensFrom position t with
  | case1 => cases h
  | case2 position c rest hc run ih =>
      rcases List.mem_cons.1 h with rfl | h
      · exact List.append_ne_nil_of_left_ne_nil (lowerChar_ne_nil c) _
      · exact ih h
  | case3 position c rest hc ih => exact ih h

theorem ne_nil_of_mem_words {w t : Text} (h : w ∈ words t) : w ≠ [] := by
  obtain ⟨token, htoken, rfl⟩ := List.mem_map.1 h
  exact ne_nil_of_mem_tokensFrom htoken

/-- Letters and digits have no line feed for a lower-case form. -/
theorem newline_notMem_lowerWord {t : Text} (ht : ∀ c ∈ t, isAlphanumeric c = true) :
    '\n' ∉ lowerWord t := by
  intro h
  obtain ⟨c, hc, hform⟩ := List.mem_flatMap.1 h
  rcases eq_or_of_mem_lowerChar hform with rfl | hle | heq
  · have hblank := not_isAlphanumeric_of_isBlank (c := '\n') (by decide)
    rw [ht _ hc] at hblank
    cases hblank
  · exact absurd hle (by decide)
  · exact absurd heq (by decide)

theorem newline_notMem_of_mem_tokensFrom {position : Nat} {t : Text} {token : Token}
    (h : token ∈ tokensFrom position t) : '\n' ∉ token.text := by
  fun_induction tokensFrom position t with
  | case1 => cases h
  | case2 position c rest hc run ih =>
      rcases List.mem_cons.1 h with rfl | h
      · exact newline_notMem_lowerWord
          (List.forall_mem_cons.2 ⟨hc, fun d hd => List.mem_takeWhile_imp hd⟩)
      · exact ih h
  | case3 position c rest hc ih => exact ih h

theorem newline_notMem_of_mem_words {w t : Text} (h : w ∈ words t) : '\n' ∉ w := by
  obtain ⟨token, htoken, rfl⟩ := List.mem_map.1 h
  exact newline_notMem_of_mem_tokensFrom htoken

end Text

namespace Query

/-- A pattern that fits the empty token consists of stars. -/
theorem Pattern.matchesToken_of_nil {p : Pattern} (hne : p.globs ≠ [])
    (h : p.matchesToken [] = true) (token : Text) : p.matchesToken token = true := by
  rw [← mem_language_iff_matchesToken, language] at h ⊢
  cases hglobs : p.globs with
  | nil => exact absurd hglobs hne
  | cons g globs =>
      rw [hglobs, Glob.nil_mem_languageOf, List.all_cons, Bool.and_eq_true,
        decide_eq_true_iff] at h
      obtain ⟨rfl, hrest⟩ := h
      exact Glob.mem_languageOf_run.2 ⟨[], List.nil_suffix, Glob.nil_mem_languageOf.2 hrest⟩

theorem Glob.ofText_ne_nil {t : Text} (h : t ≠ []) : ofText t ≠ [] := by
  unfold ofText
  split
  · exact absurd rfl h
  all_goals exact List.cons_ne_nil _ _

theorem Pattern.globs_ofTerm_ne_nil {t : Text} (h : isWildcard t = true) :
    (ofTerm t).globs ≠ [] := by
  refine Glob.ofText_ne_nil (Text.lower_ne_nil ?_)
  rintro rfl
  cases h

namespace Leaf

/-- A leaf that asks for something of a word. -/
def IsProper : Leaf → Prop
  | wildcard p => p.globs ≠ []
  | words ts => ∀ t ∈ ts, t ≠ []

theorem isProper_ofTerm (t : Text) : (ofTerm t).IsProper := by
  unfold ofTerm
  split
  · rename_i h
    exact Pattern.globs_ofTerm_ne_nil h
  · exact fun w => Text.ne_nil_of_mem_words

end Leaf

namespace Expr

mutual

theorem isProper_of_mem_leaves (e : Expr) {leaf : Leaf} (h : leaf ∈ e.leaves) : leaf.IsProper := by
  match e with
  | .term t =>
      rw [leaves, List.mem_singleton] at h
      exact h ▸ Leaf.isProper_ofTerm t
  | .phrase t =>
      rw [leaves, List.mem_singleton] at h
      exact h ▸ fun w => Text.ne_nil_of_mem_words
  | .inField name e => exact isProper_of_mem_leaves e h
  | .group e => exact isProper_of_mem_leaves e h
  | .conjunction es => exact isProper_of_mem_leavesOfEach es h
  | .disjunction es => exact isProper_of_mem_leavesOfEach es h
  | .negation e => cases h

theorem isProper_of_mem_leavesOfEach (es : List Expr) {leaf : Leaf} (h : leaf ∈ leavesOfEach es) :
    leaf.IsProper := by
  match es with
  | [] => cases h
  | e :: es =>
      rw [leavesOfEach] at h
      rcases List.mem_append.1 h with h | h
      · exact isProper_of_mem_leaves e h
      · exact isProper_of_mem_leavesOfEach es h

end

end Expr

end Query

/-! ### Words at their places -/

variable {ws : List Text} {w : Text} {i : Nat}

theorem mem_indexedWords_of_fitsIndex (hw : w ∈ ws) (hfits : fitsIndex w = true) :
    w ∈ indexedWords ws := by
  rw [indexedWords, if_pos (List.any_eq_true.2 ⟨w, hw, hfits⟩)]
  exact List.mem_map.2 ⟨w, hw, if_pos hfits⟩

/-- What is in the index is a word of the text that fits, or an empty place beside such a word. -/
theorem mem_or_of_mem_indexedWords (h : w ∈ indexedWords ws) :
    w ∈ ws ∧ fitsIndex w = true ∨ w = [] ∧ ∃ v ∈ ws, fitsIndex v = true := by
  unfold indexedWords at h
  split at h
  · rename_i hany
    obtain ⟨v, hv, rfl⟩ := List.mem_map.1 h
    by_cases hfits : fitsIndex v = true
    · rw [if_pos hfits]
      exact .inl ⟨hv, hfits⟩
    · exact .inr ⟨if_neg hfits, List.any_eq_true.1 hany⟩
  · cases h

/-- A pattern finds the words that fit, and empty places make no difference to it. -/
theorem exists_mem_indexedWords_iff {p : Pattern} (hp : p.globs ≠ []) :
    (∃ w ∈ indexedWords ws, p.matchesToken w = true) ↔
      ∃ w ∈ ws, fitsIndex w = true ∧ p.matchesToken w = true := by
  constructor
  · rintro ⟨w, hw, hmatches⟩
    rcases mem_or_of_mem_indexedWords hw with ⟨hw, hfits⟩ | ⟨rfl, v, hv, hfits⟩
    · exact ⟨w, hw, hfits, hmatches⟩
    · exact ⟨v, hv, hfits, Pattern.matchesToken_of_nil hp hmatches v⟩
  · rintro ⟨w, hw, hfits, hmatches⟩
    exact ⟨w, mem_indexedWords_of_fitsIndex hw hfits, hmatches⟩

/-- A wildcard finds a document exactly if the regular expression of its pattern, as it is read,
accepts a word of the field that fits. -/
theorem Plan.holds_wildcard_iff_regex (d : Document) (f : Field) {p : Pattern}
    (hp : p.globs ≠ []) : (wildcard f p).holds (Entry.ofDocument d).words.get = true ↔
      ∃ pieces, Regex.read? p.regex = some pieces ∧ ∃ w ∈ Text.words (d.texts.get f),
        fitsIndex w = true ∧ w ∈ Regex.languageOf pieces := by
  have haccepts {w : Text} (hw : w ∈ Text.words (d.texts.get f)) :
      w ∈ Regex.languageOf (p.globs.map Regex.ofGlob) ↔ p.matchesToken w = true := by
    rw [Regex.mem_languageOf_ofGlob (Text.newline_notMem_of_mem_words hw)]
    exact p.mem_language_iff_matchesToken w
  have hwords : (Entry.ofDocument d).words.get f = indexedWords (Text.words (d.texts.get f)) :=
    PerField.get_ofFun _ f
  rw [holds, List.any_eq_true, hwords, exists_mem_indexedWords_iff hp]
  constructor
  · rintro ⟨w, hw, hfits, hmatches⟩
    exact ⟨_, Regex.read?_regex p, w, hw, hfits, (haccepts hw).2 hmatches⟩
  · rintro ⟨pieces, hpieces, w, hw, hfits, hlanguage⟩
    rw [Regex.read?_regex] at hpieces
    cases hpieces
    exact ⟨w, hw, hfits, (haccepts hw).1 hlanguage⟩

/-- The place of a word in the index is a place in the text, of that word if it is not empty. -/
theorem exists_getElem?_of_getElem?_indexedWords (h : (indexedWords ws)[i]? = some w) :
    ∃ v, ws[i]? = some v ∧ (w ≠ [] → w = v) := by
  unfold indexedWords at h
  split at h
  · rw [List.getElem?_map] at h
    obtain ⟨v, hv, rfl⟩ := Option.map_eq_some_iff.1 h
    refine ⟨v, hv, fun hne => ?_⟩
    by_cases hfits : fitsIndex v = true
    · exact if_pos hfits
    · exact absurd (if_neg hfits) hne
  · cases h

/-- What a leaf finds in the index, it finds in the text. -/
theorem Query.Leaf.covers_of_covers_indexedWords {leaf : Leaf} (hleaf : leaf.IsProper)
    (h : leaf.Covers (indexedWords ws) i) : leaf.Covers ws i := by
  cases leaf with
  | wildcard p =>
      obtain ⟨w, hw, hfits⟩ := h
      obtain ⟨v, hv, hsame⟩ := exists_getElem?_of_getElem?_indexedWords hw
      refine ⟨v, hv, ?_⟩
      by_cases hne : w = []
      · exact Pattern.matchesToken_of_nil hleaf (hne ▸ hfits) v
      · exact hsame hne ▸ hfits
  | words ts =>
      obtain ⟨j, hle, hlt, hfront⟩ := h
      refine ⟨j, hle, hlt, ?_⟩
      rw [List.prefix_iff_getElem?] at hfront ⊢
      intro k hk
      have hplace := hfront k hk
      rw [List.getElem?_drop] at hplace ⊢
      obtain ⟨v, hv, hsame⟩ := exists_getElem?_of_getElem?_indexedWords hplace
      rw [hv, hsame (hleaf _ (List.getElem_mem hk))]

/-- A phrase stands in the index exactly if it stands in the text and all its words fit. -/
theorem infix_indexedWords_iff {ts : List Text} (hne : ts ≠ []) (hts : ∀ t ∈ ts, t ≠ []) :
    ts <:+: indexedWords ws ↔ ts <:+: ws ∧ ∀ t ∈ ts, fitsIndex t = true := by
  constructor
  · intro h
    obtain ⟨i, hcovers⟩ := Leaf.exists_covers_of_infix hne h
    have hproper : (Leaf.words ts).IsProper := hts
    obtain ⟨j, -, -, hfront⟩ := Leaf.covers_of_covers_indexedWords hproper hcovers
    refine ⟨hfront.isInfix.trans (List.drop_suffix j ws).isInfix, fun t ht => ?_⟩
    rcases mem_or_of_mem_indexedWords (h.subset ht) with ⟨-, hfits⟩ | ⟨hnil, -⟩
    · exact hfits
    · exact absurd hnil (hts t ht)
  · rintro ⟨⟨s, u, rfl⟩, hfits⟩
    obtain ⟨t, ht⟩ := List.exists_mem_of_ne_nil ts hne
    have hany : (s ++ ts ++ u).any fitsIndex = true :=
      List.any_eq_true.2 ⟨t, List.mem_append_left u (List.mem_append_right s ht), hfits t ht⟩
    have hmap : (ts.map fun w => if fitsIndex w then w else []) = ts :=
      (List.map_congr_left fun w hw => if_pos (hfits w hw)).trans (List.map_id' ts)
    rw [indexedWords, if_pos hany, List.map_append, List.map_append, hmap]
    exact ⟨_, _, rfl⟩

end DatasetSearch
