import DatasetSearch.Proofs.Query.Glob

/-! # Matching in rounds

A matcher that goes through the globs and the token with a cursor in each, and remembers the last
star only (`Scan`).  In one round it takes a character, passes a star, goes back to the last star,
which then takes one character more, or answers.

* A round keeps what is to be decided (`fits_iff_of_round`).  To forget the stars before the last
  one loses nothing: the globs between two stars take one character each, so whatever fits after an
  earlier star leaves an end of the token to the later one.
* A round makes `potential` smaller (`potential_lt_of_round`), although the cursor in the token
  moves back: the last star never gives a character back.

So every scan ends, after no more rounds than the globs and the characters allow (`exists_ends`),
and answers what `Pattern.matchesToken` does. -/

namespace DatasetSearch.Query

/-- Where the matcher stands: what is left of the globs and of the token and, after a star, the
globs behind the last one and what it has not taken of the token. -/
structure Scan where
  globs : List Glob
  token : Text
  last? : Option (List Glob × Text)
  deriving DecidableEq, Repr

namespace Scan

/-- The matcher at the beginning. -/
def start (globs : List Glob) (token : Text) : Scan := ⟨globs, token, none⟩

/-- Lets the last star take one character more; without a star nothing fits. -/
def goBack : Option (List Glob × Text) → Scan ⊕ Bool
  | some (globs, _ :: token) => .inl ⟨globs, token, some (globs, token)⟩
  | _ => .inr false

/-- One round: the state after it, or the answer. -/
def step (s : Scan) : Scan ⊕ Bool :=
  match s.token, s.globs with
  | [], globs => .inr (globs.all (· = .run))
  | _ :: _, [] => goBack s.last?
  | c :: token, g :: globs =>
    if g.accepts c then .inl ⟨globs, token, s.last?⟩
    else if g = .run then .inl ⟨globs, c :: token, some (globs, c :: token)⟩
    else goBack s.last?

/-- The scan gives the answer after this many rounds. -/
inductive Ends : Scan → Nat → Bool → Prop
  | answer {s : Scan} {b : Bool} : s.step = .inr b → Ends s 1 b
  | round {s s' : Scan} {n : Nat} {b : Bool} : s.step = .inl s' → Ends s' n b → Ends s (n + 1) b

/-- What a round can do: take a character, pass a star, or go back to the last star, which takes the
character after those that it has. -/
inductive Round : Scan → Scan → Prop
  | take {g : Glob} {globs : List Glob} {c : Char} {token : Text}
      {last? : Option (List Glob × Text)} :
      g.accepts c = true → Round ⟨g :: globs, c :: token, last?⟩ ⟨globs, token, last?⟩
  | pass {globs : List Glob} {token : Text} {last? : Option (List Glob × Text)} :
      Round ⟨.run :: globs, token, last?⟩ ⟨globs, token, some (globs, token)⟩
  | back {globs globs' : List Glob} {token : Text} {c : Char} {token' : Text} :
      token ∉ Glob.languageOf globs →
      Round ⟨globs, token, some (globs', c :: token')⟩ ⟨globs', token', some (globs', token')⟩

theorem round_of_goBack {globs : List Glob} {token : Text} {last? : Option (List Glob × Text)}
    {s : Scan} (hnot : token ∉ Glob.languageOf globs) (h : goBack last? = .inl s) :
    Round ⟨globs, token, last?⟩ s := by
  match last? with
  | none | some (_, []) => cases h
  | some (globs', c :: token') => cases h; exact .back hnot

/-- The character that comes next does not fit. -/
theorem not_mem_languageOf_of_not_accepts {g : Glob} {globs : List Glob} {c : Char} {token : Text}
    (hg : g ≠ .run) (hc : ¬ g.accepts c = true) : c :: token ∉ Glob.languageOf (g :: globs) := by
  rw [Glob.mem_languageOf_of_ne_run hg]
  rintro ⟨_, _, haccepts, -, heq⟩
  cases heq
  exact hc haccepts

theorem round_of_step {s s' : Scan} (h : s.step = .inl s') : s.Round s' := by
  match s with
  | ⟨globs, [], last?⟩ => cases h
  | ⟨[], c :: token, last?⟩ => exact round_of_goBack (List.cons_ne_nil c token) h
  | ⟨g :: globs, c :: token, last?⟩ =>
      unfold step at h
      dsimp only at h
      split at h
      · rename_i haccepts
        cases h
        exact .take haccepts
      · rename_i haccepts
        split at h
        · rename_i hrun
          cases h
          exact hrun ▸ .pass
        · rename_i hrun
          exact round_of_goBack (not_mem_languageOf_of_not_accepts hrun haccepts) h

/-- When the matcher answers: the token is at its end, or nothing fits and no star can take more. -/
theorem answer_of_step {s : Scan} {b : Bool} (h : s.step = .inr b) :
    s.token = [] ∧ b = s.globs.all (· = .run) ∨
      b = false ∧ s.token ∉ Glob.languageOf s.globs ∧
        ∀ globs c token, s.last? ≠ some (globs, c :: token) := by
  have hnone {last? : Option (List Glob × Text)} (h : goBack last? = .inr b) :
      b = false ∧ ∀ globs c token, last? ≠ some (globs, c :: token) := by
    match last? with
    | none => cases h; exact ⟨rfl, nofun⟩
    | some (_, []) => cases h; exact ⟨rfl, nofun⟩
    | some (_, _ :: _) => cases h
  match s with
  | ⟨globs, [], last?⟩ => cases h; exact .inl ⟨rfl, rfl⟩
  | ⟨[], c :: token, last?⟩ => exact .inr ⟨(hnone h).1, List.cons_ne_nil c token, (hnone h).2⟩
  | ⟨g :: globs, c :: token, last?⟩ =>
      unfold step at h
      dsimp only at h
      split at h
      · cases h
      · rename_i haccepts
        split at h
        · cases h
        · rename_i hrun
          exact .inr ⟨(hnone h).1, not_mem_languageOf_of_not_accepts hrun haccepts, (hnone h).2⟩

/-! ### What a round keeps -/

/-- What is to be decided: the rest of the token fits the rest of the globs, or fits after all if
the last star takes more of it. -/
def Fits (s : Scan) : Prop :=
  s.token ∈ Glob.languageOf s.globs ∨
    ∃ globs c token, s.last? = some (globs, c :: token) ∧
      ∃ u, u <:+ token ∧ u ∈ Glob.languageOf globs

/-- Since the last star every glob has taken one character, and no list of globs is longer than the
whole pattern. -/
structure Sound (length : Nat) (s : Scan) : Prop where
  length_le : s.globs.length ≤ length
  last : ∀ l ∈ s.last?, l.1.length ≤ length ∧ ∃ passed taken,
    l.1 = passed ++ s.globs ∧ l.2 = taken ++ s.token ∧ passed.length = taken.length ∧
      ∀ g ∈ passed, g ≠ .run

theorem sound_start (globs : List Glob) (token : Text) : Sound globs.length (start globs token) :=
  ⟨Nat.le_refl _, nofun⟩

/-- Behind a star nothing was passed yet. -/
theorem sound_behind {length : Nat} {globs : List Glob} (h : globs.length ≤ length) (token : Text) :
    Sound length ⟨globs, token, some (globs, token)⟩ where
  length_le := h
  last := by
    rintro l ⟨⟩
    exact ⟨h, [], [], rfl, rfl, rfl, nofun⟩

theorem Sound.round {length : Nat} {s s' : Scan} (h : Sound length s) (hround : s.Round s') :
    Sound length s' := by
  cases hround with
  | @take g globs c token last? haccepts =>
      refine ⟨Nat.le_of_succ_le h.length_le, fun l hl => ?_⟩
      obtain ⟨hlength, passed, taken, hpassed, htaken, hsame, hrun⟩ := h.last l hl
      refine ⟨hlength, passed ++ [g], taken ++ [c], ?_, ?_, ?_, ?_⟩
      · rw [hpassed, List.append_assoc]; rfl
      · rw [htaken, List.append_assoc]; rfl
      · rw [List.length_append, List.length_append, hsame]; rfl
      · intro g' hg
        rcases List.mem_append.1 hg with hg | hg
        · exact hrun g' hg
        · rw [List.mem_singleton.1 hg]
          exact Glob.ne_run_of_accepts haccepts
  | pass => exact sound_behind (Nat.le_of_succ_le h.length_le) _
  | back _ => exact sound_behind (h.last _ rfl).1 _

/-- Globs that are no stars take a character each. -/
theorem exists_append_of_mem_languageOf {passed globs : List Glob} {u : Text}
    (hrun : ∀ g ∈ passed, g ≠ .run) (h : u ∈ Glob.languageOf (passed ++ globs)) :
    ∃ front v, u = front ++ v ∧ front.length = passed.length ∧ v ∈ Glob.languageOf globs := by
  induction passed generalizing u with
  | nil => exact ⟨[], u, rfl, rfl, h⟩
  | cons g passed ih =>
      obtain ⟨c, t, -, ht, rfl⟩ :=
        (Glob.mem_languageOf_of_ne_run (hrun g List.mem_cons_self)).1 h
      obtain ⟨front, v, rfl, hlength, hv⟩ := ih (fun g hg => hrun g (List.mem_cons_of_mem _ hg)) ht
      exact ⟨c :: front, v, rfl, congrArg Nat.succ hlength, hv⟩

/-- What fits after an earlier star leaves an end of the token to the globs that are left. -/
theorem Sound.exists_isSuffix {length : Nat} {s : Scan} (h : Sound length s) {globs : List Glob}
    {token u : Text} (hlast : s.last? = some (globs, token)) (hu : u <:+ token)
    (hmem : u ∈ Glob.languageOf globs) : ∃ v, v <:+ s.token ∧ v ∈ Glob.languageOf s.globs := by
  obtain ⟨-, passed, taken, rfl, rfl, hsame, hrun⟩ := h.last _ hlast
  obtain ⟨front, v, rfl, hfront, hv⟩ := exists_append_of_mem_languageOf hrun hmem
  have hsuffix : v <:+ taken ++ s.token := (List.suffix_append front v).trans hu
  have hle : v.length ≤ s.token.length := by
    have := hu.length_le
    rw [List.length_append, List.length_append] at this
    omega
  exact ⟨v, List.suffix_of_suffix_length_le hsuffix (List.suffix_append taken s.token) hle, hv⟩

theorem fits_behind_iff (globs : List Glob) (token : Text) :
    Fits ⟨globs, token, some (globs, token)⟩ ↔ ∃ u, u <:+ token ∧ u ∈ Glob.languageOf globs := by
  constructor
  · rintro (h | ⟨_, _, _, ⟨⟩, u, hu, h⟩)
    · exact ⟨token, List.suffix_rfl, h⟩
    · exact ⟨u, hu.trans (List.suffix_cons _ _), h⟩
  · rintro ⟨u, hu, h⟩
    cases token with
    | nil => exact .inl (List.suffix_nil.1 hu ▸ h)
    | cons c token =>
        rcases List.suffix_cons_iff.1 hu with rfl | hu
        · exact .inl h
        · exact .inr ⟨globs, c, token, rfl, u, hu, h⟩

/-- A round keeps what is to be decided. -/
theorem fits_iff_of_round {length : Nat} {s s' : Scan} (hs : Sound length s)
    (hround : s.Round s') : s.Fits ↔ s'.Fits := by
  cases hround with
  | take haccepts =>
      refine or_congr_left ?_
      rw [Glob.mem_languageOf_of_ne_run (Glob.ne_run_of_accepts haccepts)]
      constructor
      · rintro ⟨_, _, -, ht, heq⟩
        cases heq
        exact ht
      · exact fun ht => ⟨_, _, haccepts, ht, rfl⟩
  | pass =>
      rw [fits_behind_iff, ← Glob.mem_languageOf_run]
      refine or_iff_left_of_imp ?_
      rintro ⟨globs', c, token, hlast, u, hu, hmem⟩
      -- the last star is forgotten for the one that is passed now
      obtain ⟨v, hv, hmem⟩ := hs.exists_isSuffix hlast (hu.trans (List.suffix_cons c token)) hmem
      rw [Glob.mem_languageOf_run] at hmem ⊢
      obtain ⟨w, hw, hmem⟩ := hmem
      exact ⟨w, hw.trans hv, hmem⟩
  | back hnot =>
      rw [Fits, or_iff_right hnot, fits_behind_iff]
      constructor
      · rintro ⟨_, _, _, ⟨⟩, u, hu, h⟩
        exact ⟨u, hu, h⟩
      · rintro ⟨u, hu, h⟩
        exact ⟨_, _, _, rfl, u, hu, h⟩

/-- An answer is right. -/
theorem eq_true_iff_fits_of_step {s : Scan} {b : Bool} {length : Nat} (hs : Sound length s)
    (hstep : s.step = .inr b) : b = true ↔ s.Fits := by
  rcases answer_of_step hstep with ⟨htoken, rfl⟩ | ⟨rfl, hnot, hlast⟩
  · rw [← Glob.nil_mem_languageOf, Fits, htoken]
    refine (or_iff_left_of_imp ?_).symm
    rintro ⟨globs, c, token, hlast, u, hu, hmem⟩
    obtain ⟨v, hv, hmem⟩ := hs.exists_isSuffix hlast (hu.trans (List.suffix_cons c token)) hmem
    rw [htoken, List.suffix_nil] at hv
    exact hv ▸ hmem
  · refine iff_of_false Bool.false_ne_true ?_
    rintro (h | ⟨globs, c, token, h, -⟩)
    · exact hnot h
    · exact hlast globs c token h

/-! ### How many rounds there are -/

/-- The number of characters that the last star can still take. -/
def reach (s : Scan) : Nat := (s.last?.map Prod.snd).getD s.token |>.length

/-- A bound on the rounds to come but for the last: each time the last star takes a character, all
globs can be gone through again. -/
def potential (length : Nat) (s : Scan) : Nat := s.reach * (length + 1) + s.globs.length

theorem Sound.length_le_reach {length : Nat} {s : Scan} (h : Sound length s) :
    s.token.length ≤ s.reach := by
  unfold reach
  cases hlast : s.last? with
  | none => exact Nat.le_refl _
  | some l =>
      obtain ⟨-, passed, taken, -, htaken, -, -⟩ := h.last l hlast
      show s.token.length ≤ l.2.length
      rw [htaken, List.length_append]
      exact Nat.le_add_left _ _

theorem potential_lt_of_round {length : Nat} {s s' : Scan} (hs : Sound length s)
    (hround : s.Round s') : s'.potential length < s.potential length := by
  cases hround with
  | @take g globs c token last? _ =>
      have hle : reach ⟨globs, token, last?⟩ ≤ reach ⟨g :: globs, c :: token, last?⟩ := by
        cases last? with
        | none => exact Nat.le_succ _
        | some l => exact Nat.le_refl _
      exact Nat.add_lt_add_of_le_of_lt (Nat.mul_le_mul_right _ hle) (Nat.lt_succ_self _)
  | pass =>
      exact Nat.add_lt_add_of_le_of_lt (Nat.mul_le_mul_right _ hs.length_le_reach)
        (Nat.lt_succ_self _)
  | @back globs globs' token c token' _ =>
      have hle : globs'.length ≤ length := (hs.last _ rfl).1
      show token'.length * (length + 1) + globs'.length <
        (token'.length + 1) * (length + 1) + globs.length
      rw [Nat.succ_mul]
      omega

/-- Every scan ends, within its potential, and its answer is right. -/
theorem exists_ends {length : Nat} {s : Scan} (hs : Sound length s) :
    ∃ n b, n ≤ s.potential length + 1 ∧ s.Ends n b ∧ (b = true ↔ s.Fits) := by
  induction hn : s.potential length using Nat.strong_induction_on generalizing s with
  | _ n ih =>
      cases hstep : s.step with
      | inr b =>
          exact ⟨1, b, Nat.le_add_left 1 n, .answer hstep, eq_true_iff_fits_of_step hs hstep⟩
      | inl s' =>
          have hround := round_of_step hstep
          have hlt := potential_lt_of_round hs hround
          obtain ⟨m, b, hm, hends, hanswer⟩ := ih _ (hn ▸ hlt) (hs.round hround) rfl
          refine ⟨m + 1, b, by omega, .round hstep hends, ?_⟩
          rw [hanswer, fits_iff_of_round hs hround]

end Scan

/-! ### The pattern's matcher -/

namespace Glob

/-- The glob takes the piece: any run of characters, any one character, or the one it names. -/
def Takes : Glob → Text → Prop
  | run, _ => True
  | one, piece => piece.length = 1
  | char c, piece => piece = [c]

theorem mem_language_iff_takes {g : Glob} {piece : Text} : piece ∈ g.language ↔ g.Takes piece := by
  cases g with
  | run => exact iff_of_true trivial trivial
  | one => exact List.length_eq_one_iff.symm
  | char c => exact Iff.rfl

/-- The tokens of the language are those that can be cut into pieces. -/
theorem mem_languageOf_iff_exists_pieces {globs : List Glob} {token : Text} :
    token ∈ languageOf globs ↔
      ∃ pieces, List.Forall₂ Takes globs pieces ∧ pieces.flatten = token := by
  induction globs generalizing token with
  | nil =>
      constructor
      · exact fun h => ⟨[], .nil, h.symm⟩
      · rintro ⟨_, ⟨⟩, rfl⟩
        rfl
  | cons g globs ih =>
      rw [mem_languageOf_cons]
      constructor
      · rintro ⟨s, hs, t, ht, rfl⟩
        obtain ⟨pieces, hpieces, rfl⟩ := ih.1 ht
        exact ⟨s :: pieces, .cons (mem_language_iff_takes.1 hs) hpieces, rfl⟩
      · rintro ⟨_, ⟨⟩, rfl⟩
        rename_i hs hpieces
        exact ⟨_, mem_language_iff_takes.2 hs, _, ih.2 ⟨_, hpieces, rfl⟩, rfl⟩

end Glob

/-- Whether a token fits a pattern is found out in a number of rounds that the globs and the
characters bound, and it fits exactly if it can be cut into pieces, one for each glob in order. -/
theorem Pattern.matchesToken_iff_exists_pieces (p : Pattern) (token : Text) :
    (∃ rounds ≤ (token.length + 1) * (p.globs.length + 1),
      (Scan.start p.globs token).Ends rounds (p.matchesToken token)) ∧
      (p.matchesToken token = true ↔
        ∃ pieces, List.Forall₂ Glob.Takes p.globs pieces ∧ pieces.flatten = token) := by
  have hexact : token ∈ Glob.languageOf p.globs ↔
      ∃ pieces, List.Forall₂ Glob.Takes p.globs pieces ∧ pieces.flatten = token :=
    Glob.mem_languageOf_iff_exists_pieces
  have hlanguage := p.mem_language_iff_matchesToken token
  obtain ⟨rounds, b, hle, hends, hanswer⟩ := Scan.exists_ends (Scan.sound_start p.globs token)
  have hfits : (Scan.start p.globs token).Fits ↔ token ∈ p.language :=
    or_iff_left (fun ⟨_, _, _, h, _⟩ => nomatch h)
  have hb : b = p.matchesToken token := Bool.eq_iff_iff.2 (by rw [hanswer, hfits, hlanguage])
  refine ⟨⟨rounds, ?_, hb ▸ hends⟩, hlanguage.symm.trans hexact⟩
  have hpotential : (Scan.start p.globs token).potential p.globs.length + 1 =
      (token.length + 1) * (p.globs.length + 1) := by
    rw [Nat.succ_mul]
    rfl
  exact hpotential ▸ hle

end DatasetSearch.Query
