import DatasetSearch.Proofs.Highlight.Shown
import DatasetSearch.Proofs.Text.Casing

/-! # What a fragment scores

A token has one mark, whatever number of terms account for it: its own text if it is an exact term
or belongs to an occurrence of a phrase, and otherwise the first pattern that fits it
(`Terms.mark_eq`).  A fragment scores its different marks.  So it scores the exact terms in it, the
other words that belong to phrases, and the patterns that come first for some token that is left
(`Terms.score_eq_card_add`).  These are not, in general, the terms in it (`Terms.termCount`): a
pattern that fits exact terms only, or comes after another pattern wherever it fits, scores nothing,
and a phrase scores as many points as it has different words in the fragment. -/

namespace DatasetSearch

open Query Text

/-! ### Labels of patterns -/

namespace Text

set_option maxRecDepth 4000 in
theorem tilde_notMem_lowerChar {c : Char} (hc : c ≠ '~') : '~' ∉ lowerChar c := by
  intro h
  unfold lowerChar at h
  split at h
  · exact absurd h (by decide)
  · have htargets : ∀ run ∈ caseRuns,
        0x7E < run.target ∨ run.target + (run.last - run.first) < 0x7E := by decide
    have hbeside : ∀ run ∈ caseRuns, ∀ k, k ≤ run.last - run.first → run.target + k ≠ 0x7E := by
      intro run hrun k hk
      have := htargets run hrun
      omega
    have htilde : (0x7E : Nat) = (Char.ofNat (lowerIn caseRuns c.toNat)).toNat :=
      congrArg Char.toNat (List.mem_singleton.1 h)
    rcases lowerIn_eq_or (P := fun n => n ≠ 0x7E) hbeside c.toNat with hsame | hne
    · rw [hsame, Char.ofNat_toNat] at h
      exact hc (List.mem_singleton.1 h).symm
    · rcases toNat_ofNat (lowerIn caseRuns c.toNat) with hvalid | hzero
      · exact hne (hvalid ▸ htilde.symm)
      · rw [hzero] at htilde
        cases htilde

/-- No token begins like the mark of a pattern. -/
theorem tilde_notMem_of_mem_tokensFrom {position : Nat} {t : Text} {token : Token}
    (h : token ∈ tokensFrom position t) : '~' ∉ token.text := by
  fun_induction tokensFrom position t with
  | case1 => cases h
  | case2 position c rest hc run ih =>
      rcases List.mem_cons.1 h with rfl | h
      · intro htilde
        obtain ⟨d, hd, htilde⟩ := List.mem_flatMap.1 htilde
        refine tilde_notMem_lowerChar ?_ htilde
        rintro rfl
        have halphanumeric : isAlphanumeric '~' = true := by
          rcases List.mem_cons.1 hd with heq | hd
          · rw [heq]
            exact hc
          · exact (List.mem_takeWhile_imp hd)
        exact absurd halphanumeric (by decide)
      · exact ih h
  | case3 position c rest hc ih => exact ih h

end Text

/-! ### Terms in a fragment -/

namespace Token

/-- The place of a token among those of the text. -/
def place (text : Text) (token : Token) : Nat := text.tokens.idxOf token

theorem place_eq {text : Text} {token : Token} {i : Nat} (h : text.tokens[i]? = some token) :
    token.place text = i := by
  obtain ⟨hi, rfl⟩ := List.getElem?_eq_some_iff.1 h
  exact (placed_tokens text).nodup.idxOf_getElem i hi

/-- The token belongs to an occurrence of the words in the text. -/
def StandsIn (text : Text) (ts : List Text) (token : Token) : Prop :=
  (Leaf.words ts).Covers text.words (token.place text)

instance (text : Text) (ts : List Text) (token : Token) : Decidable (token.StandsIn text ts) :=
  inferInstanceAs (Decidable (∃ j, j ≤ token.place text ∧ token.place text < j + ts.length ∧
    ts <+: text.words.drop j))

end Token

namespace Terms

variable (t : Terms) (text : Text) (f : Fragment)

/-- The exact terms that a token of the fragment is. -/
def exactIn : Finset Text := {w ∈ t.exact.toFinset | ∃ m ∈ f.tokens, m.token.text = w}

/-- The patterns that fit a token of the fragment. -/
def wildcardsIn : Finset Pattern :=
  {p ∈ t.wildcards.toFinset | ∃ m ∈ f.tokens, p.matchesToken m.token.text = true}

/-- The phrases of which some occurrence has a token in the fragment. -/
def phrasesIn : Finset (List Text) :=
  {ts ∈ t.phrases.toFinset | ∃ m ∈ f.tokens, m.token.StandsIn text ts}

/-- The number of terms in the fragment. -/
def termCount : Nat := (t.exactIn f).card + (t.wildcardsIn f).card + (t.phrasesIn text f).card

/-- The words of the fragment that are no exact terms and belong to occurrences of phrases. -/
def phraseWordsIn : Finset Text :=
  ((f.tokens.filter fun m => m.token.text ∉ t.exact ∧
    ∃ ts ∈ t.phrases, m.token.StandsIn text ts).map fun m => m.token.text).toFinset

/-- The patterns that are the first to fit some token of the fragment that is no exact term and
belongs to no occurrence of a phrase. -/
def foremostIn : Finset Pattern :=
  ((f.tokens.filter fun m => m.token.text ∉ t.exact ∧
    ∀ ts ∈ t.phrases, ¬ m.token.StandsIn text ts).filterMap fun m =>
      t.wildcards.find? (·.matchesToken m.token.text)).toFinset

variable {t text f}

theorem mem_exactIn {w : Text} :
    w ∈ t.exactIn f ↔ w ∈ t.exact ∧ ∃ m ∈ f.tokens, m.token.text = w := by
  rw [exactIn, Finset.mem_filter, List.mem_toFinset]

theorem mem_wildcardsIn {p : Pattern} : p ∈ t.wildcardsIn f ↔
    p ∈ t.wildcards ∧ ∃ m ∈ f.tokens, p.matchesToken m.token.text = true := by
  rw [wildcardsIn, Finset.mem_filter, List.mem_toFinset]

theorem mem_phrasesIn {ts : List Text} : ts ∈ t.phrasesIn text f ↔
    ts ∈ t.phrases ∧ ∃ m ∈ f.tokens, m.token.StandsIn text ts := by
  rw [phrasesIn, Finset.mem_filter, List.mem_toFinset]

theorem mem_phraseWordsIn {w : Text} : w ∈ t.phraseWordsIn text f ↔
    ∃ m ∈ f.tokens, m.token.text ∉ t.exact ∧ (∃ ts ∈ t.phrases, m.token.StandsIn text ts) ∧
      m.token.text = w := by
  simp only [phraseWordsIn, List.mem_toFinset, List.mem_map, List.mem_filter, decide_eq_true_iff,
    and_assoc]

theorem mem_foremostIn {p : Pattern} : p ∈ t.foremostIn text f ↔
    ∃ m ∈ f.tokens, m.token.text ∉ t.exact ∧ (∀ ts ∈ t.phrases, ¬ m.token.StandsIn text ts) ∧
      t.wildcards.find? (·.matchesToken m.token.text) = some p := by
  simp only [foremostIn, List.mem_toFinset, List.mem_filterMap, List.mem_filter,
    decide_eq_true_iff, and_assoc]

theorem foremostIn_subset : t.foremostIn text f ⊆ t.wildcardsIn f := by
  intro p hp
  obtain ⟨m, hm, -, -, hfirst⟩ := mem_foremostIn.1 hp
  have hfits := List.find?_some (p := fun p : Pattern => p.matchesToken m.token.text) hfirst
  exact mem_wildcardsIn.2 ⟨List.mem_of_find?_eq_some hfirst, m, hm, hfits⟩

/-! ### Marks -/

/-- A token is marked with its own text if it is an exact term or belongs to a phrase, and otherwise
with the first pattern that fits it. -/
theorem mark_eq {m : MarkedToken} (hm : m ∈ t.markTokens text.tokens) :
    m.token ∈ text.tokens ∧
    ((m.token.text ∈ t.exact ∨ ∃ ts ∈ t.phrases, m.token.StandsIn text ts) →
      m.mark = some m.token.text) ∧
    (m.token.text ∉ t.exact → (∀ ts ∈ t.phrases, ¬ m.token.StandsIn text ts) →
      m.mark = (t.wildcards.find? (·.matchesToken m.token.text)).map fun p => '~' :: p.text) := by
  obtain ⟨i, hm⟩ := List.mem_iff_getElem?.1 hm
  obtain ⟨token, inPhrase, htoken, hflag, rfl⟩ := List.getElem?_zipWith_eq_some.1 hm
  have hi : i < text.words.length := by
    rw [words, List.length_map]
    exact (List.getElem?_eq_some_iff.1 htoken).1
  have hphrases : inPhrase = true ↔ ∃ ts ∈ t.phrases, token.StandsIn text ts := by
    have hflags := getElem?_inPhrases_iff t.phrases text.words i
    rw [and_iff_right hi, words, hflag, Option.some_inj] at hflags
    simp only [Token.StandsIn, Token.place_eq htoken]
    exact hflags
  refine ⟨List.mem_of_getElem? htoken, fun h => ?_, fun hexact hnone => ?_⟩
  · dsimp only at h ⊢
    split
    · rfl
    · rename_i hno
      have hmem := h.resolve_right (mt hphrases.2 hno)
      exact if_pos (List.contains_iff_mem.2 hmem)
  · dsimp only at hexact hnone ⊢
    have hno : ¬ inPhrase = true := by
      intro hyes
      obtain ⟨ts, hts, hstands⟩ := hphrases.1 hyes
      exact hnone ts hts hstands
    rw [if_neg hno, matching, if_neg (mt List.contains_iff_mem.1 hexact)]

/-- The marks of a fragment are the exact terms in it, the other words of phrases, and the patterns
that come first. -/
theorem toFinset_marks (hsubset : ∀ m ∈ f.tokens, m ∈ t.markTokens text.tokens) :
    (f.tokens.filterMap MarkedToken.mark).toFinset =
      (t.exactIn f ∪ t.phraseWordsIn text f) ∪
        (t.foremostIn text f).image fun p => '~' :: p.text := by
  ext mark
  simp only [List.mem_toFinset, List.mem_filterMap, Finset.mem_union, Finset.mem_image]
  constructor
  · rintro ⟨m, hm, hmark⟩
    obtain ⟨-, hnamed, hother⟩ := mark_eq (hsubset m hm)
    by_cases hexact : m.token.text ∈ t.exact
    · rw [hnamed (.inl hexact), Option.some_inj] at hmark
      exact .inl (.inl (mem_exactIn.2 ⟨hmark ▸ hexact, m, hm, hmark⟩))
    · by_cases hphrase : ∃ ts ∈ t.phrases, m.token.StandsIn text ts
      · rw [hnamed (.inr hphrase), Option.some_inj] at hmark
        exact .inl (.inr (mem_phraseWordsIn.2 ⟨m, hm, hexact, hphrase, hmark⟩))
      · have hnone : ∀ ts ∈ t.phrases, ¬ m.token.StandsIn text ts :=
          fun ts hts hstands => hphrase ⟨ts, hts, hstands⟩
        rw [hother hexact hnone] at hmark
        obtain ⟨p, hfirst, hmark⟩ := Option.map_eq_some_iff.1 hmark
        exact .inr ⟨p, mem_foremostIn.2 ⟨m, hm, hexact, hnone, hfirst⟩, hmark⟩
  · rintro ((hmark | hmark) | ⟨p, hp, hmark⟩)
    · obtain ⟨hexact, m, hm, rfl⟩ := mem_exactIn.1 hmark
      exact ⟨m, hm, (mark_eq (hsubset m hm)).2.1 (.inl hexact)⟩
    · obtain ⟨m, hm, -, hphrase, rfl⟩ := mem_phraseWordsIn.1 hmark
      exact ⟨m, hm, (mark_eq (hsubset m hm)).2.1 (.inr hphrase)⟩
    · obtain ⟨m, hm, hexact, hnone, hfirst⟩ := mem_foremostIn.1 hp
      refine ⟨m, hm, ?_⟩
      rw [(mark_eq (hsubset m hm)).2.2 hexact hnone, hfirst, ← hmark]
      rfl

/-- A word is no mark of a pattern, and marks of different patterns are different. -/
theorem score_eq_of_subset (hsubset : ∀ m ∈ f.tokens, m ∈ t.markTokens text.tokens) :
    f.score =
      (t.exactIn f).card + (t.phraseWordsIn text f).card + (t.foremostIn text f).card := by
  have hapart : Disjoint (t.exactIn f) (t.phraseWordsIn text f) := by
    refine Finset.disjoint_left.2 fun w hw hw' => ?_
    obtain ⟨m, -, hexact, -, rfl⟩ := mem_phraseWordsIn.1 hw'
    exact hexact (mem_exactIn.1 hw).1
  have hlabel : Disjoint (t.exactIn f ∪ t.phraseWordsIn text f)
      ((t.foremostIn text f).image fun p => '~' :: p.text) := by
    refine Finset.disjoint_left.2 fun w hw hw' => ?_
    obtain ⟨p, -, rfl⟩ := Finset.mem_image.1 hw'
    have hword : ∃ m ∈ f.tokens, m.token.text = '~' :: p.text := by
      rcases Finset.mem_union.1 hw with hw | hw
      · exact (mem_exactIn.1 hw).2
      · obtain ⟨m, hm, -, -, heq⟩ := mem_phraseWordsIn.1 hw
        exact ⟨m, hm, heq⟩
    obtain ⟨m, hm, heq⟩ := hword
    have htoken := (mark_eq (hsubset m hm)).1
    exact tilde_notMem_of_mem_tokensFrom htoken (heq ▸ List.mem_cons_self)
  have hinjective : Function.Injective fun p : Pattern => '~' :: p.text := by
    rintro ⟨u⟩ ⟨v⟩ heq
    exact congrArg Pattern.mk (List.cons.inj heq).2
  rw [Fragment.score, length_eraseDups, toFinset_marks hsubset,
    Finset.card_union_of_disjoint hlabel, Finset.card_union_of_disjoint hapart,
    Finset.card_image_of_injective _ hinjective]

/-- Where there is a term, one scores. -/
theorem termCount_eq_zero_iff : t.termCount text f = 0 ↔
    (t.exactIn f).card + (t.phraseWordsIn text f).card + (t.foremostIn text f).card = 0 := by
  simp only [termCount, Nat.add_eq_zero_iff, Finset.card_eq_zero, and_assoc]
  refine and_congr_right fun hexact => ?_
  have hno : ∀ m ∈ f.tokens, m.token.text ∉ t.exact := fun m hm hmem =>
    Finset.eq_empty_iff_forall_notMem.1 hexact _ (mem_exactIn.2 ⟨hmem, m, hm, rfl⟩)
  constructor
  · rintro ⟨hwildcards, hphrases⟩
    refine ⟨Finset.eq_empty_iff_forall_notMem.2 fun w hw => ?_,
      Finset.subset_empty.1 (hwildcards ▸ foremostIn_subset)⟩
    obtain ⟨m, hm, -, ⟨ts, hts, hstands⟩, -⟩ := mem_phraseWordsIn.1 hw
    exact Finset.eq_empty_iff_forall_notMem.1 hphrases ts (mem_phrasesIn.2 ⟨hts, m, hm, hstands⟩)
  · rintro ⟨hwords, hforemost⟩
    have hnone : ∀ m ∈ f.tokens, ∀ ts ∈ t.phrases, ¬ m.token.StandsIn text ts :=
      fun m hm ts hts hstands => Finset.eq_empty_iff_forall_notMem.1 hwords _
        (mem_phraseWordsIn.2 ⟨m, hm, hno m hm, ⟨ts, hts, hstands⟩, rfl⟩)
    refine ⟨Finset.eq_empty_iff_forall_notMem.2 fun p hp => ?_,
      Finset.eq_empty_iff_forall_notMem.2 fun ts hts => ?_⟩
    · obtain ⟨hp, m, hm, hfits⟩ := mem_wildcardsIn.1 hp
      obtain ⟨q, hq⟩ := Option.isSome_iff_exists.1
        (List.find?_isSome (p := fun p : Pattern => p.matchesToken m.token.text).2 ⟨p, hp, hfits⟩)
      exact Finset.eq_empty_iff_forall_notMem.1 hforemost q
        (mem_foremostIn.2 ⟨m, hm, hno m hm, hnone m hm, hq⟩)
    · obtain ⟨hts, m, hm, hstands⟩ := mem_phrasesIn.1 hts
      exact hnone m hm ts hts hstands

/-! ### Fragments of a text -/

/-- The tokens of a fragment, before or after neighbours were joined, are those of the text. -/
theorem mem_markTokens_of_mem_tokens {size : Nat} {m : MarkedToken}
    (hf : f ∈ t.pieces size text ∨ f ∈ Fragment.select (t.pieces size text)) (hm : m ∈ f.tokens) :
    m ∈ t.markTokens text.tokens := by
  rcases hf with hf | hf
  · have hmem := List.mem_flatMap.2 ⟨f, hf, hm⟩
    rwa [pieces, Fragment.flatMap_tokens_cut] at hmem
  · exact ((Fragment.mem_tokens_iff (laid_of_mem_select t size text hf)).1 hm).1

/-- A fragment scores the exact terms in it, the other words in it that belong to phrases, and the
patterns that are the first to fit some other token.  So it scores nothing exactly if no term is in
it; and without phrases in it, it scores the number of terms exactly if every pattern that fits a
token of it is the first to fit one that is no exact term. -/
theorem score_eq_card_add {size : Nat}
    (hf : f ∈ t.pieces size text ∨ f ∈ Fragment.select (t.pieces size text)) :
    f.score =
        (t.exactIn f).card + (t.phraseWordsIn text f).card + (t.foremostIn text f).card ∧
      (f.score = 0 ↔ t.termCount text f = 0) ∧ t.foremostIn text f ⊆ t.wildcardsIn f ∧
      (t.phrasesIn text f = ∅ →
        (f.score = t.termCount text f ↔ t.foremostIn text f = t.wildcardsIn f)) := by
  have hscore := score_eq_of_subset fun m => mem_markTokens_of_mem_tokens (m := m) hf
  refine ⟨hscore, ?_, foremostIn_subset, fun hphrases => ?_⟩
  · rw [hscore, termCount_eq_zero_iff]
  · have hwords : t.phraseWordsIn text f = ∅ := by
      refine Finset.eq_empty_iff_forall_notMem.2 fun w hw => ?_
      obtain ⟨m, hm, -, ⟨ts, hts, hstands⟩, -⟩ := mem_phraseWordsIn.1 hw
      exact Finset.eq_empty_iff_forall_notMem.1 hphrases ts
        (mem_phrasesIn.2 ⟨hts, m, hm, hstands⟩)
    rw [hscore, termCount, hwords, hphrases, Finset.card_empty, Finset.card_empty, Nat.add_zero,
      Nat.add_zero, Nat.add_right_inj]
    exact ⟨fun hcard => Finset.eq_of_subset_of_card_le foremostIn_subset hcard.ge,
      fun heq => congrArg Finset.card heq⟩

set_option maxRecDepth 4000 in
/-- Two patterns fit the last word, of which one scores, and a phrase scores its three words. -/
theorem score_eq_card_add_of_phrase :
    let t : Terms :=
      { exact := [['a', 'b']]
        wildcards := [⟨['a', '*']⟩, ⟨['a', 'b', '*']⟩]
        phrases := [[['c'], ['d'], ['e']]] }
    let text : Text := ['a', 'b', ' ', 'c', ' ', 'd', ' ', 'E', ' ', 'a', 'b', 'x']
    let f : Fragment := ⟨0, 12, t.markTokens text.tokens⟩
    t.pieces 100 text = [f] ∧ t.exactIn f = {['a', 'b']} ∧
      t.phraseWordsIn text f = {['c'], ['d'], ['e']} ∧ (t.foremostIn text f).card = 1 ∧
      f.score = 5 ∧ t.termCount text f = 4 := by
  intro t text f
  have hpieces : t.pieces 100 text = [f] := by
    unfold f text t
    cbv
  have hscore := (score_eq_card_add (f := f) (.inl (hpieces ▸ List.mem_singleton_self f))).1
  have hfive : f.score = 5 := by
    unfold f text t
    cbv
  have hexact : t.exactIn f = {['a', 'b']} := by decide +kernel
  have hwords : t.phraseWordsIn text f = {['c'], ['d'], ['e']} := by decide +kernel
  have hwildcards : (t.wildcardsIn f).card = 2 := by
    unfold f text t
    cbv
  have hphrases : t.phrasesIn text f = {[['c'], ['d'], ['e']]} := by decide +kernel
  have hforemost : (t.foremostIn text f).card = 1 := by
    rw [hfive, hexact, hwords] at hscore
    exact (Nat.add_left_cancel hscore).symm
  refine ⟨hpieces, hexact, hwords, hforemost, hfive, ?_⟩
  rw [termCount, hexact, hwildcards, hphrases]
  rfl

set_option maxRecDepth 4000 in
/-- A token that is an exact term and fits a pattern scores once.  So the later one of two fragments
that have a token each is shown last, though it has two of the three terms of the query. -/
theorem score_ne_termCount :
    let t := ofExpr (.conjunction [.term ['b', 'e', 't', 'a'], .term ['d', 'a', 't', 'a'],
      .term ['d', 'a', 't', '*']])
    let text : Text := "beta ".toList ++ List.replicate 100 'a' ++ " data".toList
    let f : Fragment :=
      ⟨106, 110, [⟨⟨['d', 'a', 't', 'a'], 106, 110⟩, some ['d', 'a', 't', 'a']⟩]⟩
    f ∈ t.pieces Highlight.fragmentSize text ∧ t.exactIn f = {['d', 'a', 't', 'a']} ∧
      (t.wildcardsIn f).card = 1 ∧ t.termCount text f = 2 ∧ f.score = 1 ∧
      t.highlight text = "<mark>beta</mark> ... <mark>data</mark>".toList := by
  intro t text f
  have hf : f ∈ t.pieces Highlight.fragmentSize text := by decide +kernel
  have hexact : t.exactIn f = {['d', 'a', 't', 'a']} := by decide +kernel
  have hwildcards : (t.wildcardsIn f).card = 1 := by
    unfold f t
    cbv
  have hphrases : t.phrasesIn text f = ∅ := by decide +kernel
  have hcount : t.termCount text f = 2 := by
    rw [termCount, hexact, hwildcards, hphrases]
    rfl
  have hscore : f.score = 1 := by decide +kernel
  have hhighlight : t.highlight text = "<mark>beta</mark> ... <mark>data</mark>".toList := by
    unfold text t
    cbv
  exact ⟨hf, hexact, hwildcards, hcount, hscore, hhighlight⟩

end Terms

end DatasetSearch
