import DatasetSearch.Proofs.Query.Rendering
import DatasetSearch.Proofs.Text.Casing
import DatasetSearch.Query.Glob

/-! # How escapes are read

In a query a glob is written as a star, a question mark, or a character after a backslash
(`Glob.written`).  Of these backslashes the lexemes keep those that are needed to tell a character
from a wildcard (`Glob.kept`).  What was kept is read again, to tell wildcard terms from others and
to find the globs of a pattern; both readers, and the tokens of a text, take every glob for what was
meant (`isWildcard_kept`, `Glob.ofText_kept`, `words_termOf_char`). -/

namespace DatasetSearch

/-! ### Lower case and words -/

namespace Text

theorem lower_eq_self {t : Text} (h : ∀ c ∈ t, lowerChar c = [c]) : lower t = t := by
  suffices hafter : ∀ before, lowerAfter before t = t from hafter []
  induction t with
  | nil => exact fun _ => rfl
  | cons c t ih =>
      intro before
      obtain ⟨hc, ht⟩ := List.forall_mem_cons.1 h
      have hsigma : c ≠ 'Σ' := by
        rintro rfl
        rw [lowerChar_sigma] at hc
        cases hc
      rw [lowerAfter_of_ne hsigma, hc, ih ht, List.singleton_append]

theorem map_text_tokensFrom (position : Nat) (t : Text) :
    (tokensFrom position t).map Token.text = words t := by
  suffices h : ∀ position', (tokensFrom position t).map Token.text =
      (tokensFrom position' t).map Token.text from h 0
  intro position'
  fun_induction tokensFrom position t generalizing position' with
  | case1 => rw [tokensFrom]
  | case2 position c rest hc run ih =>
      rw [tokensFrom, if_pos hc, List.map_cons, List.map_cons, ih]
  | case3 position c rest hc ih =>
      rw [tokensFrom, if_neg hc]
      exact ih _

theorem words_cons_of_not {c : Char} (hc : isAlphanumeric c = false) (t : Text) :
    words (c :: t) = words t := by
  rw [words, tokens, tokensFrom, if_neg (Bool.eq_false_iff.1 hc), map_text_tokensFrom]

/-- A character that belongs to no word parts the letters and digits before it from what follows. -/
theorem words_append_cons {run : Text} {c : Char} (hrun : ∀ d ∈ run, isAlphanumeric d = true)
    (hc : isAlphanumeric c = false) (t : Text) :
    words (run ++ c :: t) = words run ++ words t := by
  cases run with
  | nil => rw [words_nil, List.nil_append, List.nil_append, words_cons_of_not hc]
  | cons d run =>
      obtain ⟨hd, hrun'⟩ := List.forall_mem_cons.1 hrun
      have htake : (run ++ c :: t).takeWhile isAlphanumeric = run := by
        rw [List.takeWhile_append_of_pos hrun', List.takeWhile_cons_of_neg (by rw [hc]; decide),
          List.append_nil]
      have hdrop : (run ++ c :: t).dropWhile isAlphanumeric = c :: t := by
        rw [List.dropWhile_append_of_pos hrun', List.dropWhile_cons_of_neg (by rw [hc]; decide)]
      rw [words_eq_singleton (List.cons_ne_nil d run) hrun, List.cons_append, words, tokens,
        tokensFrom, if_pos hd, htake, hdrop, List.map_cons, map_text_tokensFrom,
        words_cons_of_not hc]
      rfl

end Text

namespace Query

/-! ### Texts without a backslash at the front -/

theorem isWildcard_cons {c : Char} (hescape : c ≠ '\\') (t : Text) :
    isWildcard (c :: t) = (c = '*' || c = '?' || isWildcard t) := by
  rw [isWildcard.eq_def]
  split
  · rename_i heq
    cases heq
  · rename_i heq
    exact absurd (List.cons.inj heq).1 hescape
  · rename_i heq
    exact absurd (List.cons.inj heq).1 hescape
  · rename_i heq
    obtain ⟨rfl, rfl⟩ := List.cons.inj heq
    rfl

theorem spell_cons {c : Char} (hescape : c ≠ '\\') (t : Text) :
    spell (c :: t) = if c = '*' ∨ c = '?' then c :: spell t else '\\' :: c :: spell t := by
  rw [spell]
  rintro d rest rfl
  exact absurd rfl hescape

/-- A character without a meaning stands for itself. -/
theorem Glob.ofText_cons {c : Char} (hstar : c ≠ '*') (hquestion : c ≠ '?') (hescape : c ≠ '\\')
    (t : Text) : ofText (c :: t) = char c :: ofText t := by
  rw [ofText.eq_def]
  split
  · rename_i heq
    cases heq
  · rename_i heq
    exact absurd (List.cons.inj heq).1 hescape
  · rename_i heq
    exact absurd (List.cons.inj heq).1 hescape
  · rename_i heq
    exact absurd (List.cons.inj heq).1 hstar
  · rename_i heq
    exact absurd (List.cons.inj heq).1 hquestion
  · rename_i heq
    obtain ⟨rfl, rfl⟩ := List.cons.inj heq
    rfl

/-! ### One glob -/

namespace Glob

/-- The glob as it is written in a query. -/
def written : Glob → Text
  | run => ['*']
  | one => ['?']
  | char c => ['\\', c]

/-- The glob as it stands in a term. -/
def kept : Glob → Text
  | run => ['*']
  | one => ['?']
  | char c => if Lexeme.keepsEscape c then ['\\', c] else [c]

/-- The glob is no character. -/
def isWild : Glob → Bool
  | char _ => false
  | _ => true

/-- A character keeps its backslash or is none that has a meaning. -/
theorem kept_char (c : Char) : (char c).kept = ['\\', c] ∧ Lexeme.keepsEscape c = true ∨
    (char c).kept = [c] ∧ c ≠ '*' ∧ c ≠ '?' ∧ c ≠ '\\' := by
  by_cases h : Lexeme.keepsEscape c = true
  · exact .inl ⟨if_pos h, h⟩
  · refine .inr ⟨if_neg h, ?_⟩
    simpa [Lexeme.keepsEscape, and_assoc] using h

theorem ofText_kept (g : Glob) (t : Text) : ofText (g.kept ++ t) = g :: ofText t := by
  cases g with
  | run => rfl
  | one => rfl
  | char c =>
      rcases kept_char c with ⟨hkept, -⟩ | ⟨hkept, hstar, hquestion, hescape⟩
      · rw [hkept]
        rfl
      · rw [hkept]
        exact ofText_cons hstar hquestion hescape t

end Glob

variable {g : Glob}

theorem isWildcard_kept (g : Glob) (t : Text) :
    isWildcard (g.kept ++ t) = (g.isWild || isWildcard t) := by
  cases g with
  | run => rfl
  | one => rfl
  | char c =>
      rcases Glob.kept_char c with ⟨hkept, -⟩ | ⟨hkept, hstar, hquestion, hescape⟩
      · rw [hkept]
        rfl
      · rw [hkept, List.singleton_append, isWildcard_cons hescape]
        simp [hstar, hquestion, Glob.isWild]

theorem spell_kept (g : Glob) (t : Text) : spell (g.kept ++ t) = g.written ++ spell t := by
  cases g with
  | run => rfl
  | one => rfl
  | char c =>
      rcases Glob.kept_char c with ⟨hkept, -⟩ | ⟨hkept, hstar, hquestion, hescape⟩
      · rw [hkept]
        rfl
      · rw [hkept, List.singleton_append, spell_cons hescape,
          if_neg (not_or.2 ⟨hstar, hquestion⟩)]
        rfl

theorem isSpelled_kept (g : Glob) (t : Text) : isSpelled (g.kept ++ t) = isSpelled t := by
  cases g with
  | run => rfl
  | one => rfl
  | char c =>
      rcases Glob.kept_char c with ⟨hkept, hkeeps⟩ | ⟨hkept, -, -, hescape⟩
      · rw [hkept]
        show (Lexeme.keepsEscape c && isSpelled t) = isSpelled t
        rw [hkeeps, Bool.true_and]
      · rw [hkept]
        exact isSpelled_cons hescape t

/-! ### Terms -/

/-- The term of a list of globs. -/
def termOf (globs : List Glob) : Text := globs.flatMap Glob.kept

theorem termOf_cons (g : Glob) (globs : List Glob) :
    termOf (g :: globs) = g.kept ++ termOf globs := List.flatMap_cons

theorem spell_termOf (globs : List Glob) : spell (termOf globs) = globs.flatMap Glob.written := by
  induction globs with
  | nil => rfl
  | cons g globs ih => rw [termOf_cons, spell_kept, ih, List.flatMap_cons]

theorem isSpelled_termOf (globs : List Glob) : isSpelled (termOf globs) = true := by
  induction globs with
  | nil => rfl
  | cons g globs ih => rw [termOf_cons, isSpelled_kept, ih]

theorem isWildcard_termOf (globs : List Glob) :
    isWildcard (termOf globs) = globs.any Glob.isWild := by
  induction globs with
  | nil => rfl
  | cons g globs ih => rw [termOf_cons, isWildcard_kept, ih, List.any_cons]

theorem Glob.ofText_termOf (globs : List Glob) : ofText (termOf globs) = globs := by
  induction globs with
  | nil => rfl
  | cons g globs ih => rw [termOf_cons, ofText_kept, ih]

theorem termOf_ne_nil {globs : List Glob} (hne : globs ≠ []) : termOf globs ≠ [] := by
  intro h
  have hglobs := Glob.ofText_termOf globs
  rw [h] at hglobs
  exact hne hglobs.symm

/-- A row of globs that is written in a query is one term. -/
theorem parse_written {globs : List Glob} (hne : globs ≠ []) :
    parse (globs.flatMap Glob.written) = .ok (some (.term (termOf globs))) := by
  have hspells := Spells.term (isSpelled_termOf globs) (termOf_ne_nil hne)
  rw [spell_termOf] at hspells
  exact hspells.parse_eq ⟨_, .one (.one (.primary (.operand (.word _)))), rfl⟩

theorem mem_kept {c : Char} (h : c ∈ g.kept) : c ∈ ['*', '?', '\\'] ∨ g = .char c := by
  cases g with
  | run => exact .inl (List.mem_cons.2 (.inl (List.mem_singleton.1 h)))
  | one => exact .inl (by rw [List.mem_singleton.1 h]; decide)
  | char d =>
      rw [Glob.kept] at h
      split at h
      · rcases List.mem_cons.1 h with rfl | h
        · exact .inl (by decide)
        · exact .inr (by rw [List.mem_singleton.1 h])
      · exact .inr (by rw [List.mem_singleton.1 h])

/-- The pattern of a term has the globs that were written, if lower case leaves their characters as
they are. -/
theorem globs_ofTerm_termOf {globs : List Glob}
    (hlower : ∀ c, .char c ∈ globs → Text.lowerChar c = [c]) :
    (Pattern.ofTerm (termOf globs)).globs = globs := by
  have hsame : Text.lower (termOf globs) = termOf globs := by
    refine Text.lower_eq_self fun c hc => ?_
    obtain ⟨g, hg, hc⟩ := List.mem_flatMap.1 hc
    rcases mem_kept hc with hsign | rfl
    · have hsigns : ['*', '?', '\\'].all (fun c => Text.lowerChar c = [c]) = true := by decide
      exact of_decide_eq_true (List.all_eq_true.1 hsigns c hsign)
    · exact hlower c hg
  rw [Pattern.globs, Pattern.ofTerm, hsame, Glob.ofText_termOf]

/-! ### The words of a term -/

/-- Kept backslashes stand beside characters that belong to no word, so they part no words. -/
theorem words_termOf_char (cs : Text) : Text.words (termOf (cs.map .char)) = Text.words cs := by
  -- a run of letters and digits has been read before
  suffices h : ∀ run, (∀ c ∈ run, Text.isAlphanumeric c = true) →
      Text.words (run ++ termOf (cs.map .char)) = Text.words (run ++ cs) from h [] nofun
  induction cs with
  | nil => exact fun run _ => rfl
  | cons c cs ih =>
      intro run hrun
      rw [List.map_cons, termOf_cons]
      by_cases hc : Text.isAlphanumeric c = true
      · have hkept : (Glob.char c).kept = [c] := by
          have hsigns := Text.notMem_signs_of_isAlphanumeric hc
          simp only [Text.signs, List.mem_cons, not_or] at hsigns
          simp [Glob.kept, Lexeme.keepsEscape, hsigns]
        have hlonger : ∀ d ∈ run ++ [c], Text.isAlphanumeric d = true := by
          intro d hd
          rcases List.mem_append.1 hd with hd | hd
          · exact hrun d hd
          · exact List.mem_singleton.1 hd ▸ hc
        have h := ih (run ++ [c]) hlonger
        rw [List.append_assoc, List.append_assoc] at h
        rw [hkept]
        exact h
      · have hrest := ih [] nofun
        rw [List.nil_append, List.nil_append] at hrest
        have hc := Bool.eq_false_iff.2 hc
        rw [Text.words_append_cons hrun hc, ← hrest]
        rcases Glob.kept_char c with ⟨hkept, -⟩ | ⟨hkept, -⟩
        · rw [hkept]
          have hescape : Text.isAlphanumeric '\\' = false := by decide
          exact (Text.words_append_cons hrun hescape _).trans
            (congrArg _ (Text.words_cons_of_not hc _))
        · rw [hkept]
          exact Text.words_append_cons hrun hc _

/-- A row of globs that is written in a query is one term.  It is a wildcard term if there is a star
or a question mark among them; its pattern has these globs if lower case leaves their characters as
they are; and if they are all characters, its words are those of the characters. -/
theorem parse_written_and_globs {globs : List Glob} (hne : globs ≠ []) :
    ∃ t, parse (globs.flatMap Glob.written) = .ok (some (.term t)) ∧
      (isWildcard t = true ↔ .run ∈ globs ∨ .one ∈ globs) ∧
      ((∀ c, .char c ∈ globs → Text.lowerChar c = [c]) → (Pattern.ofTerm t).globs = globs) ∧
      ∀ cs : Text, globs = cs.map .char → Text.words t = Text.words cs := by
  refine ⟨termOf globs, parse_written hne, ?_, globs_ofTerm_termOf, ?_⟩
  · rw [isWildcard_termOf, List.any_eq_true]
    constructor
    · rintro ⟨g, hg, hwild⟩
      cases g with
      | run => exact .inl hg
      | one => exact .inr hg
      | char c => cases hwild
    · rintro (h | h)
      · exact ⟨_, h, rfl⟩
      · exact ⟨_, h, rfl⟩
  · rintro cs rfl
    exact words_termOf_char cs

/-- A backslash before a star and one at the end, and the signs of the query language. -/
theorem parse_written_and_globs_of_signs :
    let globs : List Glob := [.char '\\', .run, .char '*', .one, .char ':', .char '"', .char '(',
      .char ' ', .char '-', .char '\\']
    let text : Text :=
      ['\\', '\\', '*', '\\', '*', '?', '\\', ':', '\\', '"', '\\', '(', '\\', ' ', '\\', '-',
        '\\', '\\']
    globs ≠ [] ∧ (∀ c, .char c ∈ globs → Text.lowerChar c = [c]) ∧
      ∃ t, parse text = .ok (some (.term t)) ∧ isWildcard t = true ∧
        (Pattern.ofTerm t).globs = globs := by
  intro globs text
  have hne : globs ≠ [] := List.cons_ne_nil _ _
  have hlower : ∀ c, .char c ∈ globs → Text.lowerChar c = [c] := by
    have hsame : ['\\', '*', ':', '"', '(', ' ', '-', '\\'].all
        (fun c => Text.lowerChar c = [c]) = true := by decide
    intro c hc
    refine of_decide_eq_true (List.all_eq_true.1 hsame c ?_)
    simpa [globs] using hc
  obtain ⟨t, hparse, hwild, hglobs, -⟩ := parse_written_and_globs hne
  exact ⟨hne, hlower, t, hparse, hwild.2 (.inl (by decide)), hglobs hlower⟩

end Query

end DatasetSearch
