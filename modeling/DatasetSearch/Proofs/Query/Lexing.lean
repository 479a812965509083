import DatasetSearch.Proofs.Query.Rendering

/-! # How far a text can be read

The lexemes of a text are read off its front, piece by piece.  `Lexeme.exists_piece` says once what
a step can do: it takes a piece of which the lexemes do not depend on what follows, or it stops at a
quote that is never closed, or at a colon.

A piece takes whole escapes, so whether a text escapes what follows it (`escapesNext`) is decided by
what is left.  With that, reading a text that can be read and then another one is reading the two
side by side (`Lexeme.lexEnd_append`), and a text cannot be read exactly if it has a first place
where reading stops (`Lexeme.exists_of_lexEnd_eq_error`). -/

namespace DatasetSearch.Query.Lexeme

/-! ### Escapes -/

/-- The text ends in a backslash that takes the next character literally: it is not itself taken so
by the backslash before it. -/
def escapesNext : Text → Bool
  | [] => false
  | ['\\'] => true
  | '\\' :: _ :: rest => escapesNext rest
  | _ :: rest => escapesNext rest

theorem escapesNext_cons {c : Char} (hc : c ≠ '\\') (s : Text) :
    escapesNext (c :: s) = escapesNext s := by
  rw [escapesNext.eq_def]
  split
  · rename_i h
    cases h
  · rename_i h
    exact absurd (List.cons.inj h).1 hc
  · rename_i h
    exact absurd (List.cons.inj h).1 hc
  · rename_i h
    obtain ⟨rfl, rfl⟩ := List.cons.inj h
    rfl

/-- A text is read by escapes: a backslash goes with the character after it, if there is one. -/
@[elab_as_elim]
theorem escape_induction {motive : Text → Prop} (nil : motive []) (last : motive ['\\'])
    (escaped : ∀ c s, motive s → motive ('\\' :: c :: s))
    (plain : ∀ c s, c ≠ '\\' → motive s → motive (c :: s)) (s : Text) : motive s := by
  induction s using escapesNext.induct with
  | case1 => exact nil
  | case2 => exact last
  | case3 c s ih => exact escaped c s ih
  | case4 c s hend hpair ih =>
      refine plain c s ?_ ih
      rintro rfl
      cases s with
      | nil => exact hend rfl rfl
      | cons d s => exact hpair d s rfl rfl

/-! ### Phrases -/

/-- A phrase ends behind a piece that is read the same whatever follows. -/
theorem exists_piece_of_scanPhrase {s t r : Text} (h : scanPhrase s = some (t, r)) :
    ∃ u, s = u ++ r ∧ ∀ x, scanPhrase (u ++ x) = some (t, x) ∧
      escapesNext (u ++ x) = escapesNext x := by
  induction s using escape_induction generalizing t with
  | nil => cases h
  | last => cases h
  | escaped c s ih =>
      obtain ⟨⟨t', r'⟩, hscan, heq⟩ := Option.map_eq_some_iff.1 h
      cases heq
      obtain ⟨u, rfl, hu⟩ := ih hscan
      refine ⟨'\\' :: c :: u, rfl, fun x => ⟨?_, (hu x).2⟩⟩
      show (scanPhrase (u ++ x)).map (fun p => (c :: p.1, p.2)) = _
      rw [(hu x).1]
      rfl
  | plain c s hc ih =>
      by_cases hquote : c = '"'
      · subst hquote
        cases h
        exact ⟨['"'], rfl, fun x => ⟨rfl, escapesNext_cons hc x⟩⟩
      · rw [scanPhrase_cons hc hquote] at h
        obtain ⟨⟨t', r'⟩, hscan, heq⟩ := Option.map_eq_some_iff.1 h
        cases heq
        obtain ⟨u, rfl, hu⟩ := ih hscan
        refine ⟨c :: u, rfl, fun x => ⟨?_, ?_⟩⟩
        · rw [List.cons_append, scanPhrase_cons hc hquote, (hu x).1]
          rfl
        · rw [List.cons_append, escapesNext_cons hc, (hu x).2]

/-- A phrase never ends if every quote is escaped. -/
theorem scanPhrase_eq_none_iff {s : Text} :
    scanPhrase s = none ↔ ∀ u v, s = u ++ '"' :: v → escapesNext u = true := by
  induction s using escape_induction with
  | nil => simp [scanPhrase]
  | last =>
      refine iff_of_true rfl fun u v h => ?_
      rcases List.cons_eq_append_iff.1 h with ⟨-, h⟩ | ⟨u', rfl, h⟩
      · exact absurd (List.cons.inj h).1 (by decide)
      · simp at h
  | escaped c s ih =>
      have hmap : scanPhrase ('\\' :: c :: s) = none ↔ scanPhrase s = none := Option.map_eq_none_iff
      rw [hmap, ih]
      constructor
      · intro h u v huv
        match u with
        | [] => exact absurd (List.cons.inj huv).1 (by decide)
        | [d] =>
            rw [← (List.cons.inj huv).1]
            rfl
        | d :: e :: u =>
            obtain ⟨rfl, htail⟩ := List.cons.inj huv
            exact h u v (List.cons.inj htail).2
      · intro h u v huv
        exact h ('\\' :: c :: u) v (by rw [huv]; rfl)
  | plain c s hc ih =>
      by_cases hquote : c = '"'
      · subst hquote
        exact iff_of_false nofun fun h => Bool.noConfusion (h [] s rfl)
      · rw [scanPhrase_cons hc hquote, Option.map_eq_none_iff, ih]
        constructor
        · intro h u v huv
          cases u with
          | nil => exact absurd (List.cons.inj huv).1 hquote
          | cons d u =>
              obtain ⟨rfl, hs⟩ := List.cons.inj huv
              rw [escapesNext_cons hc]
              exact h u v hs
        · intro h u v huv
          have := h (c :: u) v (by rw [huv]; rfl)
          rwa [escapesNext_cons hc] at this

/-! ### Words -/

/-- A word ends behind a piece that is read the same whatever follows, if a word ends there.  Only
if nothing is left, the word may have ended in a backslash that waits for a character. -/
theorem exists_piece_of_scanWord (s : Text) :
    ∃ u, s = u ++ (scanWord s).rest ∧ ((scanWord s).rest ≠ [] ∨ escapesNext s = false →
      ∀ x, scanWord x = ⟨[], false, x⟩ →
        scanWord (u ++ x) = ⟨(scanWord s).text, (scanWord s).escaped, x⟩ ∧
          escapesNext (u ++ x) = escapesNext x) := by
  induction s using escape_induction with
  | nil => exact ⟨[], rfl, fun _ x hx => ⟨hx, rfl⟩⟩
  | last =>
      refine ⟨['\\'], rfl, fun h => ?_⟩
      rcases h with h | h
      · exact absurd rfl h
      · cases h
  | escaped c s ih =>
      obtain ⟨u, hs, hu⟩ := ih
      refine ⟨'\\' :: c :: u, congrArg (fun s => '\\' :: c :: s) hs, fun h x hx => ?_⟩
      obtain ⟨hscan, hescapes⟩ := hu h x hx
      refine ⟨?_, hescapes⟩
      rw [List.cons_append, List.cons_append, scanWord_escaped, hscan, scanWord_escaped]
  | plain c s hc ih =>
      by_cases hboundary : isBoundary c = true
      · rw [scanWord_of_isBoundary hboundary]
        exact ⟨[], rfl, fun _ x hx => ⟨hx, rfl⟩⟩
      · obtain ⟨u, hs, hu⟩ := ih
        rw [scanWord_cons hc, if_neg hboundary, escapesNext_cons hc]
        refine ⟨c :: u, congrArg (c :: ·) hs, fun h x hx => ?_⟩
        obtain ⟨hscan, hescapes⟩ := hu h x hx
        rw [List.cons_append, scanWord_cons hc, if_neg hboundary, hscan, escapesNext_cons hc]
        exact ⟨rfl, hescapes⟩

/-- What a word leaves begins where a word ends. -/
theorem isBoundary_of_rest_scanWord {s r : Text} {d : Char} (h : (scanWord s).rest = d :: r) :
    isBoundary d = true := by
  induction s using escape_induction with
  | nil => cases h
  | last => cases h
  | escaped c s ih => exact ih h
  | plain c s hc ih =>
      rw [scanWord_cons hc] at h
      split at h
      · rename_i hboundary
        exact (List.cons.inj h).1 ▸ hboundary
      · exact ih h

/-! ### Pieces -/

/-- A piece before `r` with its lexemes: whatever follows it in the place of `r` is read by itself,
as long as a word that ends before `r` ends there too. -/
def IsPiece (u : Text) (ts : List Lexeme) (r : Text) : Prop :=
  ∀ (size : Nat) (x : Text), (endsWord r = true → endsWord x = true) →
    lexEnd size (u ++ x) = (lexEnd size x).map (ts ++ ·) ∧ escapesNext (u ++ x) = escapesNext x

theorem map_nil_append (x : Except Error (List Lexeme)) : x.map ([] ++ ·) = x := by
  cases x <;> rfl

theorem map_append_map_append (x : Except Error (List Lexeme)) (ts us : List Lexeme) :
    (x.map (us ++ ·)).map (ts ++ ·) = x.map (ts ++ us ++ ·) := by
  cases x with
  | error err => rfl
  | ok vs => exact congrArg Except.ok (List.append_assoc ts us vs).symm

theorem isPiece_char {c : Char} {ts : List Lexeme} (hc : c ≠ '\\')
    (h : ∀ size s, lexEnd size (c :: s) = (lexEnd size s).map (ts ++ ·)) (r : Text) :
    IsPiece [c] ts r :=
  fun size x _ => ⟨h size x, escapesNext_cons hc x⟩

theorem lexEnd_nil (size : Nat) : lexEnd size [] = .ok [] := by rw [lexEnd]

theorem lexEnd_plus (size : Nat) (s : Text) :
    lexEnd size ('+' :: s) = (lexEnd size s).map (plus :: ·) := by
  rw [lexEnd, if_neg (by decide), if_neg (by decide), if_neg (by decide), if_pos rfl]

theorem lexEnd_minus (size : Nat) (s : Text) :
    lexEnd size ('-' :: s) = (lexEnd size s).map (minus :: ·) := by
  rw [lexEnd, if_neg (by decide), if_neg (by decide), if_neg (by decide), if_neg (by decide),
    if_pos rfl]

theorem lexEnd_colon (size : Nat) (s : Text) :
    lexEnd size (':' :: s) = .error (.danglingOperator [':']) := by
  rw [lexEnd, if_neg (by decide), if_neg (by decide), if_neg (by decide), if_neg (by decide),
    if_neg (by decide), if_neg (by decide), if_pos rfl]

theorem lexEnd_unterminated {s : Text} (h : scanPhrase s = none) (size : Nat) :
    lexEnd size ('"' :: s) =
      .error (.unterminatedPhrase (size - Text.utf8Size ('"' :: s))) := by
  rw [lexEnd, if_neg (by decide), if_neg (by decide), if_neg (by decide), if_neg (by decide),
    if_neg (by decide), if_pos rfl]
  split
  · rfl
  · rename_i hsome
    rw [h] at hsome
    cases hsome

theorem isPiece_phrase {s t r : Text} (h : scanPhrase s = some (t, r)) :
    ∃ u, s = u ++ r ∧ IsPiece ('"' :: u) [phrase t] r := by
  obtain ⟨u, hs, hu⟩ := exists_piece_of_scanPhrase h
  refine ⟨u, hs, fun size x _ => ⟨lexEnd_phrase (hu x).1 size, ?_⟩⟩
  rw [List.cons_append, escapesNext_cons (by decide), (hu x).2]

theorem exists_piece_of_startsWord {c : Char} {s : Text} (hc : startsWord c = true) :
    ∃ u ts r, c :: s = c :: u ++ r ∧
      (∀ size, lexEnd size (c :: s) = (lexEnd size r).map (ts ++ ·)) ∧
        (r ≠ [] ∨ escapesNext (c :: s) = false → IsPiece (c :: u) ts r) := by
  obtain ⟨u, hs, hu⟩ := exists_piece_of_scanWord (c :: s)
  obtain ⟨u, rfl⟩ : ∃ u', u = c :: u' := by
    have hboundary : isBoundary c = false := by
      simpa [startsWord] using (Bool.and_eq_true_iff.1 (Bool.and_eq_true_iff.1 hc).1).1
    have hlength := length_scanWord_lt (s := s) hboundary
    cases u with
    | nil => exact absurd (congrArg List.length hs) (Nat.ne_of_gt hlength)
    | cons d u => exact ⟨u, congrArg (· :: u) (List.cons.inj hs).1.symm⟩
  by_cases hcolon : ∃ r, (scanWord (c :: s)).rest = ':' :: r
  · obtain ⟨r, hr⟩ := hcolon
    rw [hr] at hs hu
    refine ⟨u ++ [':'], [field (scanWord (c :: s)).text], r, ?_, fun size => ?_, fun _ => ?_⟩
    · rw [hs, ← List.cons_append, List.append_assoc, List.singleton_append]
    · rw [lexEnd_eq_of_startsWord hc, hr]
      rfl
    · intro size x _
      obtain ⟨hscan, hescapes⟩ :=
        hu (.inl (List.cons_ne_nil _ _)) (':' :: x) (scanWord_of_isBoundary (by decide) x)
      rw [← List.cons_append, List.append_assoc, List.singleton_append]
      refine ⟨lexEnd_field hc hscan, ?_⟩
      rw [hescapes, escapesNext_cons (by decide)]
  · have hends : endsWord (scanWord (c :: s)).rest = true := by
      cases hr : (scanWord (c :: s)).rest with
      | nil => rfl
      | cons d r =>
          have hne : d ≠ ':' := fun hd => hcolon ⟨r, hd ▸ hr⟩
          simp [endsWord, isBoundary_of_rest_scanWord hr, hne]
    refine ⟨u, [ofWord (scanWord (c :: s)).text (scanWord (c :: s)).escaped],
      (scanWord (c :: s)).rest, hs, fun size => lexEnd_word hc rfl hends, fun h => ?_⟩
    intro size x hx
    obtain ⟨hscan, hescapes⟩ := hu h x (scanWord_of_endsWord (hx hends))
    exact ⟨lexEnd_word hc hscan (hx hends), hescapes⟩

/-- What a step can do: it stops at a quote that is never closed or at a colon, or it takes a
piece.  If nothing is left, a piece may have ended in a backslash that waits for a character. -/
theorem exists_piece {s : Text} (hne : s ≠ []) :
    (∃ b, s = '"' :: b ∧ scanPhrase b = none) ∨ (∃ b, s = ':' :: b) ∨
      ∃ u ts r, s = u ++ r ∧ u ≠ [] ∧
        (∀ size, lexEnd size s = (lexEnd size r).map (ts ++ ·)) ∧
          (r ≠ [] ∨ escapesNext s = false → IsPiece u ts r) := by
  obtain ⟨c, s, rfl⟩ := List.exists_cons_of_ne_nil hne
  have hchar (ts : List Lexeme) (hc : c ≠ '\\')
      (h : ∀ size s, lexEnd size (c :: s) = (lexEnd size s).map (ts ++ ·)) :
      ∃ u ts r, c :: s = u ++ r ∧ u ≠ [] ∧
        (∀ size, lexEnd size (c :: s) = (lexEnd size r).map (ts ++ ·)) ∧
          (r ≠ [] ∨ escapesNext (c :: s) = false → IsPiece u ts r) :=
    ⟨[c], ts, s, rfl, List.cons_ne_nil c [], fun size => h size s, fun _ => isPiece_char hc h s⟩
  by_cases hstart : startsWord c = true
  · obtain ⟨u, ts, r, hs, hlex, hpiece⟩ := exists_piece_of_startsWord (s := s) hstart
    exact .inr (.inr ⟨c :: u, ts, r, hs, List.cons_ne_nil c u, hlex, hpiece⟩)
  · have hcases : Text.isBlank c = true ∨ c = '(' ∨ c = ')' ∨ c = '"' ∨ c = ':' ∨ c = '+' ∨
        c = '-' := by
      simpa [startsWord, isBoundary, Decidable.or_iff_not_imp_left] using hstart
    rcases hcases with hblank | rfl | rfl | rfl | rfl | rfl | rfl
    · refine .inr (.inr (hchar [] ?_ fun size s => ?_))
      · rintro rfl
        exact absurd hblank (by decide)
      · rw [lexEnd_blank hblank]
        exact (map_nil_append _).symm
    · exact .inr (.inr (hchar [opening] (by decide) lexEnd_opening))
    · exact .inr (.inr (hchar [closing] (by decide) lexEnd_closing))
    · cases hscan : scanPhrase s with
      | none => exact .inl ⟨s, rfl, hscan⟩
      | some p =>
          obtain ⟨u, hs, hpiece⟩ := isPiece_phrase hscan
          exact .inr (.inr ⟨'"' :: u, [phrase p.1], p.2, congrArg ('"' :: ·) hs,
            List.cons_ne_nil _ u, lexEnd_phrase hscan, fun _ => hpiece⟩)
    · exact .inr (.inl ⟨s, rfl⟩)
    · exact .inr (.inr (hchar [plus] (by decide) lexEnd_plus))
    · exact .inr (.inr (hchar [minus] (by decide) lexEnd_minus))

/-! ### Texts side by side -/

theorem endsWord_append {r x : Text} (hx : endsWord x = true) (h : endsWord r = true) :
    endsWord (r ++ x) = true := by
  cases r with
  | nil => exact hx
  | cons c r => exact h

theorem endsWord_of_append {r x : Text} (h : endsWord (r ++ x) = true) : endsWord r = true := by
  cases r with
  | nil => rfl
  | cons c r => exact h

/-- A text that can be read, and does not escape what follows, is read by itself if a word ends
after it. -/
theorem lexEnd_append {size size' : Nat} {a x : Text} {ts : List Lexeme}
    (hescapes : escapesNext a = false) (hx : endsWord x = true) (h : lexEnd size' a = .ok ts) :
    lexEnd size (a ++ x) = (lexEnd size x).map (ts ++ ·) := by
  induction hlength : a.length using Nat.strongRecOn generalizing a ts with
  | ind n ih =>
      by_cases hne : a = []
      · subst hne
        rw [lexEnd_nil] at h
        cases h
        exact (map_nil_append _).symm
      · rcases exists_piece hne with ⟨b, rfl, hb⟩ | ⟨b, rfl⟩ | ⟨u, us, r, rfl, hu, hlex, hpiece⟩
        · rw [lexEnd_unterminated hb] at h
          cases h
        · rw [lexEnd_colon] at h
          cases h
        · have hpiece := hpiece (.inr hescapes)
          rw [hlex] at h
          obtain ⟨vs, hvs, rfl⟩ := Except.map_eq_ok_iff.1 h
          rw [(hpiece size r id).2] at hescapes
          have hshorter : r.length < n := by
            have := List.length_pos_iff.2 hu
            rw [← hlength, List.length_append]
            omega
          rw [List.append_assoc, (hpiece size (r ++ x) (endsWord_append hx)).1,
            ih _ hshorter hescapes hvs rfl, map_append_map_append]

/-! ### Texts that cannot be read -/

/-- A text that cannot be read has a quote that is never closed, in front of which everything is
read, or a colon where a word could begin. -/
theorem exists_of_lexEnd_eq_error {size : Nat} {s : Text} {err : Error}
    (h : lexEnd size s = .error err) :
    (∃ a b, s = a ++ '"' :: b ∧ err = .unterminatedPhrase (size - Text.utf8Size ('"' :: b)) ∧
      (∃ ts, ∀ size', lexEnd size' a = .ok ts) ∧ escapesNext a = false ∧ scanPhrase b = none) ∨
    err = .danglingOperator [':'] := by
  induction hlength : s.length using Nat.strongRecOn generalizing s with
  | ind n ih =>
      by_cases hne : s = []
      · subst hne
        rw [lexEnd_nil] at h
        cases h
      · rcases exists_piece hne with ⟨b, rfl, hb⟩ | ⟨b, rfl⟩ | ⟨u, us, r, rfl, hu, hlex, hpiece⟩
        · rw [lexEnd_unterminated hb] at h
          cases h
          exact .inl ⟨[], b, rfl, rfl, ⟨[], lexEnd_nil⟩, rfl, hb⟩
        · rw [lexEnd_colon] at h
          cases h
          exact .inr rfl
        · have hshorter : r.length < n := by
            have := List.length_pos_iff.2 hu
            rw [← hlength, List.length_append]
            omega
          rw [hlex, Except.map_eq_error_iff] at h
          rcases ih _ hshorter h rfl with ⟨a, b, rfl, herr, ⟨ts, hts⟩, hescapes, hb⟩ | herr
          · have hpiece := hpiece (.inl (by simp))
            have hread (size' : Nat) := hpiece size' a endsWord_of_append
            refine .inl ⟨u ++ a, b, (List.append_assoc _ _ _).symm, herr,
              ⟨us ++ ts, fun size' => ?_⟩, ?_, hb⟩
            · rw [(hread size').1, hts]
              rfl
            · rw [(hread 0).2, hescapes]
          · exact .inr herr

end DatasetSearch.Query.Lexeme
