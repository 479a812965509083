import DatasetSearch.Library
import DatasetSearch.Proofs.Index.Words
import DatasetSearch.Proofs.Plan.Meaning
import DatasetSearch.Proofs.Query.Escapes
import DatasetSearch.Proofs.Query.Glob
import DatasetSearch.Proofs.Query.Grammar
import DatasetSearch.Proofs.Query.Rendering
import DatasetSearch.Proofs.Text.Casing

/-! # Searching for the beginning of a word

A word of letters and digits with a star behind it is a query (`parse_concat_star`), and its pattern
fits the tokens that begin with the word in lower case (`matchesToken_concat_star`).  But a pattern
is lower-cased as a whole and a token character by character.  So the query finds the words that
begin like that, as far as they fit into the index, unless a capital sigma in it ends a word, and
then it does not even find the word itself (`Query.finds_beginning_iff`). -/

namespace DatasetSearch

/-! ### Letters and digits in a query -/

namespace Query

namespace Lexeme

theorem startsWord_of_isAlphanumeric {c : Char} (h : Text.isAlphanumeric c = true) :
    startsWord c = true ∧ c ≠ '\\' := by
  have hsigns := Text.notMem_signs_of_isAlphanumeric h
  simp only [Text.signs, List.mem_cons, List.not_mem_nil, or_false, not_or] at hsigns
  have hblank : Text.isBlank c = false := by
    rw [Bool.eq_false_iff]
    intro hblank
    rw [Text.not_isAlphanumeric_of_isBlank hblank] at h
    cases h
  simp [startsWord, isBoundary, hblank, hsigns]

/-- What ends in a star is no operator. -/
theorem ofWord_concat_star (t : Text) : ofWord (t ++ ['*']) false = word (t ++ ['*']) := by
  have hne (operator : Text) (h : operator.getLast? ≠ some '*') : t ++ ['*'] ≠ operator := by
    rintro rfl
    exact h List.getLast?_concat
  unfold ofWord
  rw [if_neg Bool.false_ne_true, if_neg, if_neg, if_neg]
  · exact not_or.2 ⟨hne _ (by decide), hne _ (by decide)⟩
  · exact not_or.2 ⟨hne _ (by decide), hne _ (by decide)⟩
  · exact not_or.2 ⟨hne _ (by decide), hne _ (by decide)⟩

end Lexeme

variable {w : Text}

theorem lex_concat_star (hne : w ≠ []) (hw : ∀ c ∈ w, Text.isAlphanumeric c = true) :
    Lexeme.lex (w ++ ['*']) = .ok [.word (w ++ ['*'])] := by
  have hplain : ∀ c ∈ w ++ ['*'], Lexeme.isBoundary c = false ∧ c ≠ '\\' := by
    intro c hc
    rcases List.mem_append.1 hc with hc | hc
    · obtain ⟨hstarts, hescape⟩ := Lexeme.startsWord_of_isAlphanumeric (hw c hc)
      simp only [Lexeme.startsWord, Bool.and_eq_true, Bool.not_eq_true'] at hstarts
      exact ⟨hstarts.1.1, hescape⟩
    · rw [List.mem_singleton.1 hc]
      decide
  have hend : Lexeme.endsWord [] = true := rfl
  have hscan := Lexeme.scanWord_append hplain (Lexeme.scanWord_of_endsWord hend)
  rw [List.append_nil] at hscan
  have hword := Lexeme.ofWord_concat_star w
  cases w with
  | nil => exact absurd rfl hne
  | cons c w =>
      have hc := (Lexeme.startsWord_of_isAlphanumeric (hw c List.mem_cons_self)).1
      rw [List.cons_append] at hscan hword ⊢
      rw [Lexeme.lex, Lexeme.lexEnd_word hc hscan rfl, hword, Lexeme.lexEnd]
      rfl

/-- A word with a star behind it is a query. -/
theorem parse_concat_star (hne : w ≠ []) (hw : ∀ c ∈ w, Text.isAlphanumeric c = true) :
    parse (w ++ ['*']) = .ok (some (.term (w ++ ['*']))) := by
  have hsentence : Grammar.Sentence [.word (w ++ ['*'])] (.term (w ++ ['*'])) :=
    ⟨_, .one (.one (.primary (.operand (.word _)))), rfl⟩
  exact parse_eq_ok_some_iff_reads.2 ⟨_, lex_concat_star hne hw, hsentence.ne_nil,
    Grammar.reads_all_iff_sentence.2 hsentence⟩

/-! ### Patterns that end in a star -/

namespace Glob

theorem ofText_concat_star {t : Text} (h : ∀ c ∈ t, c ≠ '*' ∧ c ≠ '?' ∧ c ≠ '\\') :
    ofText (t ++ ['*']) = t.map char ++ [run] := by
  induction t with
  | nil => rfl
  | cons c t ih =>
      obtain ⟨⟨hstar, hquestion, hescape⟩, hrest⟩ := List.forall_mem_cons.1 h
      rw [List.cons_append, ofText_cons hstar hquestion hescape, ih hrest, List.map_cons,
        List.cons_append]

/-- Characters and a star after them fit what begins with the characters. -/
theorem mem_languageOf_concat_run {t token : Text} :
    token ∈ languageOf (t.map char ++ [run]) ↔ t <+: token := by
  induction t generalizing token with
  | nil =>
      refine iff_of_true (mem_languageOf_run.2 ⟨[], List.nil_suffix, ?_⟩) List.nil_prefix
      exact nil_mem_languageOf.2 rfl
  | cons c t ih =>
      rw [List.map_cons, List.cons_append, mem_languageOf_of_ne_run Glob.noConfusion]
      constructor
      · rintro ⟨d, rest, hd, hrest, rfl⟩
        exact List.cons_prefix_cons.2 ⟨of_decide_eq_true hd, ih.1 hrest⟩
      · rintro ⟨rest, rfl⟩
        exact ⟨c, t ++ rest, decide_eq_true rfl, ih.2 (List.prefix_append t rest), rfl⟩

end Glob

/-- The pattern of a word with a star behind it fits what begins with the word in lower case. -/
theorem Pattern.matchesToken_concat_star (hw : ∀ c ∈ w, Text.isAlphanumeric c = true)
    (token : Text) :
    (ofTerm (w ++ ['*'])).matchesToken token = true ↔ Text.lower w <+: token := by
  have hglobs : (ofTerm (w ++ ['*'])).globs = (Text.lower w).map .char ++ [.run] := by
    rw [globs, ofTerm, Text.lower_concat_star]
    refine Glob.ofText_concat_star fun c hc => ?_
    have hsigns := Text.notMem_signs_of_mem_lower hw hc
    simp only [Text.signs, List.mem_cons, not_or] at hsigns
    exact ⟨hsigns.1, hsigns.2.1, hsigns.2.2.1⟩
  rw [← mem_language_iff_matchesToken, language, hglobs]
  exact Glob.mem_languageOf_concat_run

/-- It fits the token of a word that begins like that unless a capital sigma ends a word there. -/
theorem Pattern.matchesToken_lowerWord_iff (hw : ∀ c ∈ w, Text.isAlphanumeric c = true)
    (v : Text) : (ofTerm (w ++ ['*'])).matchesToken (Text.lowerWord (w ++ v)) = true ↔
      ¬ Text.HasFinalSigma w := by
  rw [matchesToken_concat_star hw, ← Text.lower_eq_lowerWord_iff, Text.lowerWord_append]
  constructor
  · rintro ⟨rest, hrest⟩
    exact (List.append_inj hrest (Text.length_lower w)).1
  · intro hsame
    rw [hsame]
    exact List.prefix_append _ _

/-! ### Queries -/

theorem isWildcard_concat_star {t : Text} (h : ∀ c ∈ t, c ≠ '\\') :
    isWildcard (t ++ ['*']) = true := by
  induction t with
  | nil => rfl
  | cons c t ih =>
      obtain ⟨hescape, hrest⟩ := List.forall_mem_cons.1 h
      rw [List.cons_append, isWildcard_cons hescape, ih hrest, Bool.or_true]

end Query

open Query

/-- The plan of a wildcard term asks for a token that fits it in some field. -/
theorem Plan.exists_ofQuery?_term [Automata] {t : Text} (hwildcard : isWildcard t = true)
    (hmade : (Pattern.ofTerm t).refusal? = none) :
    ∃ plan, ofQuery? (.term t) = .ok (some plan) ∧ ∀ words : Field → List Text,
      plan.holds words = true ↔
        ∃ f, ∃ token ∈ words f, (Pattern.ofTerm t).matchesToken token = true := by
  refine ⟨boost queryWeight (perField Field.all fun f => wildcard f (.ofTerm t)), ?_, ?_⟩
  · rw [ofQuery?, ofExpr?, if_pos hwildcard, hmade]
    rfl
  · intro words
    rw [holds, holds_perField, List.any_eq_true]
    simp only [holds, List.any_eq_true, Field.mem_all, true_and]

namespace Query

variable {w v : Text}

theorem words_append (hne : w ≠ []) (hw : ∀ c ∈ w, Text.isAlphanumeric c = true)
    (hv : ∀ c ∈ v, Text.isAlphanumeric c = true) :
    Text.words (w ++ v) = [Text.lowerWord (w ++ v)] := by
  apply Text.words_eq_singleton
  · exact List.append_ne_nil_of_left_ne_nil hne v
  · exact fun c hc => (List.mem_append.1 hc).elim (hw c) (hv c)

/-- The plan for a word with a star behind it, and the documents that have a word which begins like
that in one field and nothing else. -/
theorem exists_plan_concat_star [Automata] (hne : w ≠ [])
    (hw : ∀ c ∈ w, Text.isAlphanumeric c = true) (hv : ∀ c ∈ v, Text.isAlphanumeric c = true)
    (hmade : (Pattern.ofTerm (w ++ ['*'])).refusal? = none) :
    ∃ plan, Plan.ofQuery? (.term (w ++ ['*'])) = .ok (some plan) ∧
      ∀ (d : Document) (f : Field), d.texts.get f = w ++ v →
        (fitsIndex (Text.lowerWord (w ++ v)) = true → ¬ Text.HasFinalSigma w →
          plan.holds (Entry.ofDocument d).words.get = true) ∧
        ((∀ g, g ≠ f → d.texts.get g = []) → (plan.holds (Entry.ofDocument d).words.get = true ↔
          fitsIndex (Text.lowerWord (w ++ v)) = true ∧ ¬ Text.HasFinalSigma w)) := by
  have hword := words_append hne hw hv
  have hmatches := Pattern.matchesToken_lowerWord_iff hw v
  have hwildcard : isWildcard (w ++ ['*']) = true :=
    isWildcard_concat_star fun c hc => (Lexeme.startsWord_of_isAlphanumeric (hw c hc)).2
  obtain ⟨plan, hplan, hholds⟩ := Plan.exists_ofQuery?_term hwildcard hmade
  refine ⟨plan, hplan, fun d f hf => ?_⟩
  have hfound : plan.holds (Entry.ofDocument d).words.get = true ↔ ∃ g, ∃ token ∈
      Text.words (d.texts.get g), fitsIndex token = true ∧
        (Pattern.ofTerm (w ++ ['*'])).matchesToken token = true := by
    have hwords (g : Field) :
        (Entry.ofDocument d).words.get g = indexedWords (Text.words (d.texts.get g)) :=
      PerField.get_ofFun _ g
    simp only [hholds, hwords, exists_mem_indexedWords_iff (Pattern.globs_ofTerm_ne_nil hwildcard)]
  have hfinds : fitsIndex (Text.lowerWord (w ++ v)) = true → ¬ Text.HasFinalSigma w →
      plan.holds (Entry.ofDocument d).words.get = true := by
    intro hindexed hnone
    refine hfound.2 ⟨f, Text.lowerWord (w ++ v), ?_, hindexed, hmatches.2 hnone⟩
    rw [hf, hword]
    exact List.mem_singleton_self _
  refine ⟨hfinds, fun hother => ⟨fun h => ?_, fun ⟨hindexed, hnone⟩ => hfinds hindexed hnone⟩⟩
  obtain ⟨g, token, htoken, hindexed, hfits⟩ := hfound.1 h
  by_cases hg : g = f
  · rw [hg, hf, hword] at htoken
    rw [List.mem_singleton.1 htoken] at hindexed hfits
    exact ⟨hindexed, hmatches.1 hfits⟩
  · rw [hother g hg, Text.words_nil] at htoken
    cases htoken

/-- A word with a star behind it finds every document with a field of one word that begins like
that and fits into the index, unless a capital sigma in it ends a word; then it finds none of these
by that field. -/
theorem finds_beginning_iff [Automata] (hne : w ≠ []) (hw : ∀ c ∈ w, Text.isAlphanumeric c = true)
    (hv : ∀ c ∈ v, Text.isAlphanumeric c = true) :
    (∃ token, Text.words (w ++ v) = [token] ∧
      ((Pattern.ofTerm (w ++ ['*'])).matchesToken token = true ↔ ¬ Text.HasFinalSigma w)) ∧
    ((Pattern.ofTerm (w ++ ['*'])).refusal? = none →
      ∃ e plan, parse (w ++ ['*']) = .ok (some e) ∧ Plan.ofQuery? e = .ok (some plan) ∧
        ∀ (d : Document) (f : Field), d.texts.get f = w ++ v →
          (fitsIndex (Text.lowerWord (w ++ v)) = true → ¬ Text.HasFinalSigma w →
            plan.holds (Entry.ofDocument d).words.get = true) ∧
          ((∀ g, g ≠ f → d.texts.get g = []) → (plan.holds (Entry.ofDocument d).words.get = true ↔
            fitsIndex (Text.lowerWord (w ++ v)) = true ∧ ¬ Text.HasFinalSigma w))) := by
  refine ⟨⟨_, words_append hne hw hv, Pattern.matchesToken_lowerWord_iff hw v⟩, fun hmade => ?_⟩
  obtain ⟨plan, hplan, hfinds⟩ := exists_plan_concat_star hne hw hv hmade
  exact ⟨_, plan, parse_concat_star hne hw, hplan, hfinds⟩

/-- A capital sigma at the beginning of the word ends none, and one behind the star does not
matter. -/
theorem finds_beginning_iff_of_medial_sigma :
    let w : Text := ['Σ', 'Ο']
    let v : Text := ['Φ', 'Σ']
    let d : Document := ⟨1, ⟨w ++ v, [], [], [], [], []⟩⟩
    (∀ c ∈ w, Text.isAlphanumeric c = true) ∧ (∀ c ∈ v, Text.isAlphanumeric c = true) ∧
      (∃ token, Text.words (w ++ v) = [token] ∧
        (Pattern.ofTerm (w ++ ['*'])).matchesToken token = true) ∧
      ∃ e plan, parse (w ++ ['*']) = .ok (some e) ∧ Plan.ofQuery? e = .ok (some plan) ∧
        plan.holds (Entry.ofDocument d).words.get = true := by
  intro w v d
  have hw : ∀ c ∈ w, Text.isAlphanumeric c = true := List.all_eq_true.1 (by decide +kernel)
  have hv : ∀ c ∈ v, Text.isAlphanumeric c = true := List.all_eq_true.1 (by decide +kernel)
  have hnone : ¬ Text.HasFinalSigma w := (Text.lower_eq_lowerWord_iff w).1 (by decide +kernel)
  have hmade : (Pattern.ofTerm (w ++ ['*'])).refusal? = none := by decide +kernel
  obtain ⟨⟨token, htoken, hfits⟩, hquery⟩ := finds_beginning_iff (List.cons_ne_nil _ _) hw hv
  obtain ⟨e, plan, hparse, hplan, hfinds⟩ := hquery hmade
  exact ⟨hw, hv, ⟨token, htoken, hfits.2 hnone⟩, e, plan, hparse, hplan,
    (hfinds d .name rfl).1 (by decide +kernel) hnone⟩

/-- A word that ends in a capital sigma is not found by itself with a star behind it. -/
theorem misses_word_with_final_sigma :
    let w : Text := ['Ο', 'Δ', 'Ο', 'Σ']
    let d : Document := ⟨1, ⟨w, [], [], [], [], []⟩⟩
    (∀ c ∈ w, Text.isAlphanumeric c = true) ∧
      (Pattern.ofTerm (w ++ ['*'])).refusal? = none ∧
      (∃ token, Text.words w = [token] ∧
        (Pattern.ofTerm (w ++ ['*'])).matchesToken token = false) ∧
      ∃ e plan, parse (w ++ ['*']) = .ok (some e) ∧ Plan.ofQuery? e = .ok (some plan) ∧
        plan.holds (Entry.ofDocument d).words.get = false := by
  intro w d
  have hw : ∀ c ∈ w, Text.isAlphanumeric c = true := List.all_eq_true.1 (by decide +kernel)
  have hmade : (Pattern.ofTerm (w ++ ['*'])).refusal? = none := by decide +kernel
  have hword : Text.words w = [Text.lowerWord w] :=
    Text.words_eq_singleton (List.cons_ne_nil _ _) hw
  have hfinal : Text.HasFinalSigma w := ⟨['Ο', 'Δ', 'Ο'], [], rfl, by decide +kernel⟩
  have hmisses : (Pattern.ofTerm (w ++ ['*'])).matchesToken (Text.lowerWord w) = false := by
    have hfits := Pattern.matchesToken_lowerWord_iff hw []
    rw [List.append_nil] at hfits
    exact Bool.eq_false_iff.2 fun h => hfits.1 h hfinal
  obtain ⟨plan, hplan, hfinds⟩ := exists_plan_concat_star (List.cons_ne_nil _ _) hw (v := [])
    nofun hmade
  have hother : ∀ g, g ≠ Field.name → d.texts.get g = [] := by
    intro g hg
    cases g with
    | name => exact absurd rfl hg
    | _ => rfl
  have hlost : plan.holds (Entry.ofDocument d).words.get = false :=
    Bool.eq_false_iff.2 fun h => (((hfinds d .name rfl).2 hother).1 h).2 hfinal
  exact ⟨hw, hmade, ⟨_, hword, hmisses⟩, _, plan, parse_concat_star (List.cons_ne_nil _ _) hw,
    hplan, hlost⟩

end Query

end DatasetSearch
