import DatasetSearch.Text.Token
import Mathlib.Data.List.TakeWhile
import Mathlib.Tactic.IntervalCases

/-! # Where the two ways to lower case differ

`lower` and `lowerWord` write every character alike but a capital sigma that ends a word.  So they
agree on a text exactly if it has no such sigma (`lower_eq_lowerWord_iff`), and give it as many
characters in any case (`length_lower`).  A star ends a word as the end of the text does
(`lower_concat_star`).

A text of letters and digits is one word (`words_eq_singleton`), and in lower case it has no
character that means something in a pattern (`notMem_signs_of_mem_lower`). -/

namespace DatasetSearch.Text

/-! ### Final sigmas -/

/-- Some capital sigma of the text ends a word: it is written in its final form. -/
def HasFinalSigma (t : Text) : Prop :=
  ∃ before after, t = before ++ 'Σ' :: after ∧ lowerSigma before.reverse after = 'ς'

theorem lowerSigma_eq_or (before after : Text) :
    lowerSigma before after = 'ς' ∨ lowerSigma before after = 'σ' := by
  unfold lowerSigma
  split
  · exact .inl rfl
  · exact .inr rfl

theorem lowerChar_sigma : lowerChar 'Σ' = ['σ'] := by decide

theorem lowerWord_cons (c : Char) (t : Text) : lowerWord (c :: t) = lowerChar c ++ lowerWord t :=
  List.flatMap_cons

theorem lowerWord_append (s t : Text) : lowerWord (s ++ t) = lowerWord s ++ lowerWord t :=
  List.flatMap_append

theorem lowerAfter_sigma (before t : Text) :
    lowerAfter before ('Σ' :: t) = lowerSigma before t :: lowerAfter ('Σ' :: before) t := by
  rw [lowerAfter, if_pos rfl, List.singleton_append]

theorem lowerAfter_of_ne {c : Char} (hc : c ≠ 'Σ') (before t : Text) :
    lowerAfter before (c :: t) = lowerChar c ++ lowerAfter (c :: before) t := by
  rw [lowerAfter, if_neg hc]

theorem length_lowerAfter (before t : Text) :
    (lowerAfter before t).length = (lowerWord t).length := by
  induction t generalizing before with
  | nil => rfl
  | cons c t ih =>
      rw [lowerWord_cons, List.length_append]
      by_cases hc : c = 'Σ'
      · subst hc
        rw [lowerAfter_sigma, List.length_cons, ih, lowerChar_sigma, List.length_singleton,
          Nat.add_comm]
      · rw [lowerAfter_of_ne hc, List.length_append, ih]

theorem length_lower (t : Text) : (lower t).length = (lowerWord t).length := length_lowerAfter [] t

/-- The places of a character in a longer text. -/
theorem forall_eq_append_cons_iff {c d : Char} {t : Text} {P : Text → Text → Prop} :
    (∀ before after, c :: t = before ++ d :: after → P before after) ↔
      (c = d → P [] t) ∧ ∀ before after, t = before ++ d :: after → P (c :: before) after := by
  constructor
  · intro h
    refine ⟨fun hc => h [] t (by rw [hc]; rfl), fun before after ht => h (c :: before) after ?_⟩
    rw [ht, List.cons_append]
  · rintro ⟨hfirst, hrest⟩ before after h
    cases before with
    | nil =>
        obtain ⟨hc, rfl⟩ := List.cons.inj h
        exact hfirst hc
    | cons x before =>
        obtain ⟨rfl, ht⟩ := List.cons.inj h
        exact hrest before after ht

theorem lowerAfter_eq_lowerWord_iff (before t : Text) : lowerAfter before t = lowerWord t ↔
    ∀ p s, t = p ++ 'Σ' :: s → lowerSigma (p.reverse ++ before) s = 'σ' := by
  induction t generalizing before with
  | nil => exact iff_of_true rfl fun p s h => absurd h.symm (by simp)
  | cons c t ih =>
      rw [forall_eq_append_cons_iff, lowerWord_cons]
      simp only [List.reverse_cons, List.append_assoc, List.singleton_append, List.reverse_nil,
        List.nil_append]
      by_cases hc : c = 'Σ'
      · subst hc
        rw [lowerAfter_sigma, lowerChar_sigma, List.singleton_append, List.cons.injEq, ih,
          forall_prop_of_true rfl]
      · rw [lowerAfter_of_ne hc, List.append_cancel_left_eq, ih, and_iff_right fun h => absurd h hc]

/-- The two ways to lower-case a text agree exactly if no capital sigma in it ends a word. -/
theorem lower_eq_lowerWord_iff (t : Text) : lower t = lowerWord t ↔ ¬ HasFinalSigma t := by
  rw [lower, lowerAfter_eq_lowerWord_iff]
  constructor
  · rintro h ⟨before, after, ht, hfinal⟩
    have hmedial := h before after ht
    rw [List.append_nil, hfinal] at hmedial
    exact absurd hmedial (by decide)
  · intro h p s ht
    rw [List.append_nil]
    exact (lowerSigma_eq_or _ _).resolve_left fun hfinal => h ⟨p, s, ht, hfinal⟩

/-! ### A star at the end -/

/-- A star is not cased, and is not passed over either. -/
theorem meetsCased_concat_star (t : Text) : meetsCased (t ++ ['*']) = meetsCased t := by
  unfold meetsCased
  rw [List.dropWhile_append]
  cases t.dropWhile fun c => inRanges caseIgnorableRanges c.toNat with
  | nil => decide
  | cons c rest => rfl

theorem lowerAfter_concat_star (before t : Text) :
    lowerAfter before (t ++ ['*']) = lowerAfter before t ++ ['*'] := by
  induction t generalizing before with
  | nil =>
      have hstar : lowerChar '*' = ['*'] := by decide
      rw [List.nil_append, lowerAfter_of_ne (by decide), hstar]
      rfl
  | cons c t ih =>
      rw [List.cons_append]
      by_cases hc : c = 'Σ'
      · subst hc
        rw [lowerAfter_sigma, lowerAfter_sigma, ih, List.cons_append]
        unfold lowerSigma
        rw [meetsCased_concat_star]
      · rw [lowerAfter_of_ne hc, lowerAfter_of_ne hc, ih, List.append_assoc]

/-- A star goes into lower case by itself. -/
theorem lower_concat_star (t : Text) : lower (t ++ ['*']) = lower t ++ ['*'] :=
  lowerAfter_concat_star [] t

/-! ### Letters and digits -/

/-- The signs that mean something in a query or a pattern. -/
def signs : Text := ['*', '?', '\\', '(', ')', '"', ':', '+', '-']

theorem notMem_signs_of_isAlphanumeric {c : Char} (h : isAlphanumeric c = true) : c ∉ signs := by
  have hsigns : signs.all (fun d => !isAlphanumeric d) = true := by decide
  intro hc
  have hno := List.all_eq_true.1 hsigns c hc
  rw [h] at hno
  cases hno

set_option maxRecDepth 4000 in
theorem not_isAlphanumeric_of_isBlank {c : Char} (h : isBlank c = true) :
    isAlphanumeric c = false := by
  unfold isAlphanumeric
  simp only [isBlank, Bool.or_eq_true, Bool.and_eq_true, decide_eq_true_eq, beq_iff_eq] at h
  generalize c.toNat = n at h ⊢
  rcases h with (((((((((⟨hlow, hhigh⟩ | rfl) | rfl) | rfl) | rfl) | ⟨hlow, hhigh⟩) | rfl) | rfl) |
    rfl) | rfl) | rfl
  · interval_cases n <;> decide
  · decide
  · decide
  · decide
  · decide
  · interval_cases n <;> decide
  · decide
  · decide
  · decide
  · decide
  · decide

/-- A code point stays as it is in lower case, or becomes one of the targets of a run. -/
theorem lowerIn_eq_or {P : Nat → Prop} {runs : List CaseRun}
    (h : ∀ run ∈ runs, ∀ k, k ≤ run.last - run.first → P (run.target + k)) (n : Nat) :
    lowerIn runs n = n ∨ P (lowerIn runs n) := by
  induction runs with
  | nil => exact .inl rfl
  | cons run runs ih =>
      obtain ⟨hrun, hruns⟩ := List.forall_mem_cons.1 h
      rw [lowerIn]
      split
      · exact .inl rfl
      · split
        · split
          · exact .inr (hrun _ (by omega))
          · exact ih hruns
        · exact ih hruns

theorem toNat_ofNat (n : Nat) : (Char.ofNat n).toNat = n ∨ (Char.ofNat n).toNat = 0 := by
  by_cases h : n.isValidChar
  · left
    rw [Char.ofNat, dif_pos h]
    rfl
  · right
    rw [Char.ofNat, dif_neg h]
    rfl

set_option maxRecDepth 4000 in
theorem le_target_of_mem_caseRuns : ∀ run ∈ caseRuns, 0x61 ≤ run.target := by decide

/-- No character has a sign as its lower-case form, unless it is that sign. -/
theorem eq_or_of_mem_lowerChar {c d : Char} (h : d ∈ lowerChar c) :
    d = c ∨ 0x61 ≤ d.toNat ∨ d.toNat = 0 := by
  unfold lowerChar at h
  split at h
  · simp only [List.mem_cons, List.not_mem_nil, or_false] at h
    rcases h with rfl | rfl
    · exact .inr (.inl (by decide))
    · exact .inr (.inl (by decide))
  · obtain rfl := List.mem_singleton.1 h
    have htargets : ∀ run ∈ caseRuns, ∀ k, k ≤ run.last - run.first → 0x61 ≤ run.target + k :=
      fun run hrun k _ => (le_target_of_mem_caseRuns run hrun).trans (Nat.le_add_right _ k)
    rcases lowerIn_eq_or htargets c.toNat with hsame | hle
    · rw [hsame, Char.ofNat_toNat]
      exact .inl rfl
    · refine .inr ((toNat_ofNat _).imp_left fun hvalid => ?_)
      rw [hvalid]
      exact hle

theorem mem_lowerAfter {before t : Text} {d : Char} (h : d ∈ lowerAfter before t) :
    (∃ c ∈ t, d ∈ lowerChar c) ∨ d = 'ς' := by
  induction t generalizing before with
  | nil => cases h
  | cons c t ih =>
      have hrest (h : d ∈ lowerAfter (c :: before) t) :
          (∃ c' ∈ c :: t, d ∈ lowerChar c') ∨ d = 'ς' :=
        (ih h).imp_left fun ⟨c', hc', hd⟩ => ⟨c', List.mem_cons_of_mem c hc', hd⟩
      by_cases hc : c = 'Σ'
      · subst hc
        rw [lowerAfter_sigma] at h
        rcases List.mem_cons.1 h with rfl | h
        · rcases lowerSigma_eq_or before t with hfinal | hmedial
          · exact .inr hfinal
          · refine .inl ⟨'Σ', List.mem_cons_self, ?_⟩
            rw [hmedial, lowerChar_sigma]
            exact List.mem_singleton_self 'σ'
        · exact hrest h
      · rw [lowerAfter_of_ne hc] at h
        rcases List.mem_append.1 h with h | h
        · exact .inl ⟨c, List.mem_cons_self, h⟩
        · exact hrest h

/-- Letters and digits have no sign for a lower-case form. -/
theorem notMem_signs_of_mem_lower {t : Text} (ht : ∀ c ∈ t, isAlphanumeric c = true) {d : Char}
    (h : d ∈ lower t) : d ∉ signs := by
  have hsigns : signs.all (fun m => m.toNat < 0x61 && m.toNat ≠ 0 && m ≠ 'ς') = true := by decide
  intro hd
  have hsign := List.all_eq_true.1 hsigns d hd
  simp only [Bool.and_eq_true, decide_eq_true_eq] at hsign
  obtain ⟨⟨hlt, hzero⟩, hsigma⟩ := hsign
  obtain ⟨c, hc, hform⟩ := (mem_lowerAfter h).resolve_right hsigma
  rcases eq_or_of_mem_lowerChar hform with rfl | hle | heq
  · exact notMem_signs_of_isAlphanumeric (ht d hc) hd
  · omega
  · exact hzero heq

theorem words_nil : words [] = [] := by
  rw [words, tokens, tokensFrom]
  rfl

/-- A text of letters and digits is one word. -/
theorem words_eq_singleton {t : Text} (hne : t ≠ []) (ht : ∀ c ∈ t, isAlphanumeric c = true) :
    words t = [lowerWord t] := by
  cases t with
  | nil => exact absurd rfl hne
  | cons c t =>
      obtain ⟨hc, ht⟩ := List.forall_mem_cons.1 ht
      have hdrop : t.dropWhile isAlphanumeric = [] := List.dropWhile_eq_nil_iff.2 ht
      have htake : t.takeWhile isAlphanumeric = t := List.takeWhile_eq_self_iff.2 ht
      rw [words, tokens, tokensFrom.eq_def]
      dsimp only
      rw [if_pos hc, hdrop, htake, tokensFrom.eq_def]
      rfl

end DatasetSearch.Text
