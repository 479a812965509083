import DatasetSearch.Proofs.Query.Canonical

/-! # Writing queries

`Expr.render` writes an expression as a query: every literal character of a term or a field name
with a backslash before it, phrases in quotes, the operators in words, and groups in parentheses.

`Spells s ts` says that the text `s` has the lexemes `ts` wherever a word ends after it.  The text
of a canonical expression spells a sentence of the grammar (`IsQuery.exists_spells`, by recursion on
the form), so it is parsed to the expression again. -/

namespace DatasetSearch.Query

/-! ### Texts of expressions -/

/-- A term or a field name with a backslash before every character that is meant literally. -/
def spell : Text → Text
  | [] => []
  | '\\' :: c :: rest => '\\' :: c :: spell rest
  | c :: rest => if c = '*' ∨ c = '?' then c :: spell rest else '\\' :: c :: spell rest

/-- A phrase without its quotes, with a backslash before every quote and every backslash. -/
def escape : Text → Text
  | [] => []
  | c :: rest => if c = '"' ∨ c = '\\' then '\\' :: c :: escape rest else c :: escape rest

namespace Expr

mutual

/-- An expression as a query text. -/
def render : Expr → Text
  | .term t => spell t
  | .phrase t => '"' :: escape t ++ ['"']
  | .negation e => ['N', 'O', 'T', ' '] ++ render e
  | .conjunction es => Text.join [' ', 'A', 'N', 'D', ' '] (renderEach es)
  | .disjunction es => Text.join [' ', 'O', 'R', ' '] (renderEach es)
  | .inField name e => spell name ++ ':' :: render e
  | .group e => '(' :: render e ++ [')']

/-- The texts of the expressions of a list. -/
def renderEach : List Expr → List Text
  | [] => []
  | e :: es => render e :: renderEach es

end

end Expr

namespace Lexeme

/-! ### Where words begin and end -/

/-- A word ends before this text, and is no field name. -/
def endsWord : Text → Bool
  | [] => true
  | c :: _ => isBoundary c && c ≠ ':'

/-- A character with which a word begins. -/
def startsWord (c : Char) : Bool := !isBoundary c && c ≠ '+' && c ≠ '-'

theorem lexEnd_eq_of_startsWord {size : Nat} {c : Char} {s : Text} (hc : startsWord c = true) :
    lexEnd size (c :: s) =
      match (scanWord (c :: s)).rest with
      | ':' :: rest => (lexEnd size rest).map (field (scanWord (c :: s)).text :: ·)
      | rest => (lexEnd size rest).map
          (ofWord (scanWord (c :: s)).text (scanWord (c :: s)).escaped :: ·) := by
  have h : (((((Text.isBlank c = false ∧ c ≠ '(') ∧ c ≠ ')') ∧ c ≠ '"') ∧ c ≠ ':') ∧ c ≠ '+') ∧
      c ≠ '-' := by
    simpa [startsWord, isBoundary] using hc
  obtain ⟨⟨⟨⟨⟨⟨hblank, hopening⟩, hclosing⟩, hquote⟩, hcolon⟩, hplus⟩, hminus⟩ := h
  rw [lexEnd, if_neg (Bool.not_eq_true _ ▸ hblank), if_neg hopening, if_neg hclosing, if_neg hplus,
    if_neg hminus, if_neg hquote, if_neg hcolon]
  dsimp only
  split
  · rename_i rest hrest
    rw [hrest]
    rfl
  · rename_i hrest
    split
    · rename_i rest hcolon
      exact absurd hcolon (hrest rest)
    · rfl

theorem lexEnd_word {size : Nat} {c : Char} {s t rest : Text} {escaped : Bool}
    (hc : startsWord c = true) (hscan : scanWord (c :: s) = ⟨t, escaped, rest⟩)
    (hrest : endsWord rest = true) :
    lexEnd size (c :: s) = (lexEnd size rest).map (ofWord t escaped :: ·) := by
  rw [lexEnd_eq_of_startsWord hc, hscan]
  dsimp only
  split
  · rename_i r
    have hcolon : endsWord (':' :: r) = false := rfl
    rw [hcolon] at hrest
    cases hrest
  · rfl

theorem lexEnd_field {size : Nat} {c : Char} {s t rest : Text} {escaped : Bool}
    (hc : startsWord c = true) (hscan : scanWord (c :: s) = ⟨t, escaped, ':' :: rest⟩) :
    lexEnd size (c :: s) = (lexEnd size rest).map (field t :: ·) := by
  rw [lexEnd_eq_of_startsWord hc, hscan]
  rfl

/-! ### Words -/

/-- Some character of a term or a field name is meant literally. -/
def hasLiteral (t : Text) : Bool := t.any fun c => c ≠ '*' && c ≠ '?'

theorem isBoundary_backslash : isBoundary '\\' = false := by decide

theorem scanWord_cons {c : Char} (hc : c ≠ '\\') (s : Text) : scanWord (c :: s) =
    if isBoundary c then ⟨[], false, c :: s⟩
    else ⟨c :: (scanWord s).text, (scanWord s).escaped, (scanWord s).rest⟩ := by
  rw [scanWord.eq_def]
  split
  · rename_i h
    cases h
  · rename_i h
    exact absurd (List.cons.inj h).1 hc
  · rename_i h
    exact absurd (List.cons.inj h).1 hc
  · rename_i h
    obtain ⟨rfl, rfl⟩ := List.cons.inj h
    rfl

theorem scanWord_escaped (c : Char) (s : Text) : scanWord ('\\' :: c :: s) =
    ⟨if keepsEscape c then '\\' :: c :: (scanWord s).text else c :: (scanWord s).text, true,
      (scanWord s).rest⟩ := rfl

/-- No word is read where a word ends. -/
theorem scanWord_of_isBoundary {c : Char} (hc : isBoundary c = true) (s : Text) :
    scanWord (c :: s) = ⟨[], false, c :: s⟩ := by
  have hne : c ≠ '\\' := by
    rintro rfl
    rw [isBoundary_backslash] at hc
    cases hc
  rw [scanWord_cons hne, if_pos hc]

theorem scanWord_of_endsWord {rest : Text} (h : endsWord rest = true) :
    scanWord rest = ⟨[], false, rest⟩ := by
  cases rest with
  | nil => rfl
  | cons c rest => exact scanWord_of_isBoundary (Bool.and_eq_true_iff.1 h).1 rest

/-- A text in which no word ends and nothing is escaped is read as a whole. -/
theorem scanWord_append {s rest : Text} (h : ∀ c ∈ s, isBoundary c = false ∧ c ≠ '\\')
    (hrest : scanWord rest = ⟨[], false, rest⟩) : scanWord (s ++ rest) = ⟨s, false, rest⟩ := by
  induction s with
  | nil => exact hrest
  | cons c s ih =>
      obtain ⟨⟨hboundary, hescape⟩, hs⟩ := List.forall_mem_cons.1 h
      rw [List.cons_append, scanWord_cons hescape, ih hs, hboundary, if_neg Bool.false_ne_true]

/-- A word that is written down is read, up to where a word ends. -/
theorem scanWord_spell {t rest : Text} (ht : isSpelled t = true)
    (hrest : scanWord rest = ⟨[], false, rest⟩) :
    scanWord (spell t ++ rest) = ⟨t, hasLiteral t, rest⟩ := by
  fun_induction spell t with
  | case1 => exact hrest
  | case2 c t ih =>
      rw [isSpelled, Bool.and_eq_true] at ht
      rw [List.cons_append, List.cons_append, scanWord_escaped, if_pos ht.1, ih ht.2]
      rfl
  | case3 c t hpair hc ih =>
      have hliteral : hasLiteral (c :: t) = hasLiteral t := by
        rcases hc with rfl | rfl
        · rfl
        · rfl
      have hword : isBoundary c = false ∧ c ≠ '\\' := by
        rcases hc with rfl | rfl
        · decide
        · decide
      rw [isSpelled_cons hword.2] at ht
      rw [List.cons_append, scanWord_cons hword.2, hword.1, ih ht, hliteral]
      rfl
  | case4 c t hpair hc ih =>
      have hne : c ≠ '\\' := by
        rintro rfl
        cases t with
        | nil => cases ht
        | cons d t => exact hpair d t rfl rfl
      have hkeeps : ¬ keepsEscape c = true := by
        simpa [keepsEscape, hne] using hc
      have hliteral : hasLiteral (c :: t) = true := by
        have := not_or.1 hc
        simp [hasLiteral, this]
      rw [isSpelled_cons hne] at ht
      rw [List.cons_append, List.cons_append, scanWord_escaped, if_neg hkeeps, ih ht, hliteral]

/-- Only a word of stars and question marks is read without an escape, and it is no operator. -/
theorem ofWord_hasLiteral (t : Text) : ofWord t (hasLiteral t) = word t := by
  unfold ofWord
  by_cases h : hasLiteral t = true
  · rw [if_pos h]
  · have hne : ∀ u, hasLiteral u = true → t ≠ u := fun u hu htu => h (htu ▸ hu)
    rw [if_neg h, if_neg (not_or.2 ⟨hne _ rfl, hne _ rfl⟩),
      if_neg (not_or.2 ⟨hne _ rfl, hne _ rfl⟩), if_neg (not_or.2 ⟨hne _ rfl, hne _ rfl⟩)]

theorem spell_eq_cons {t : Text} (ht : t ≠ []) :
    ∃ c s, spell t = c :: s ∧ startsWord c = true := by
  fun_cases spell t with
  | case1 => exact absurd rfl ht
  | case2 c t => exact ⟨_, _, rfl, by decide⟩
  | case3 c t _ hc =>
      refine ⟨c, _, rfl, ?_⟩
      rcases hc with rfl | rfl
      · decide
      · decide
  | case4 c t _ hc => exact ⟨_, _, rfl, by decide⟩

/-! ### Other lexemes -/

theorem lexEnd_blank {c : Char} (hc : Text.isBlank c = true) (size : Nat) (s : Text) :
    lexEnd size (c :: s) = lexEnd size s := by
  rw [lexEnd, if_pos hc]

theorem lexEnd_opening (size : Nat) (s : Text) :
    lexEnd size ('(' :: s) = (lexEnd size s).map (opening :: ·) := by
  rw [lexEnd, if_neg (by decide), if_pos rfl]

theorem lexEnd_closing (size : Nat) (s : Text) :
    lexEnd size (')' :: s) = (lexEnd size s).map (closing :: ·) := by
  rw [lexEnd, if_neg (by decide), if_neg (by decide), if_pos rfl]

theorem lexEnd_phrase {s t rest : Text} (h : scanPhrase s = some (t, rest)) (size : Nat) :
    lexEnd size ('"' :: s) = (lexEnd size rest).map (phrase t :: ·) := by
  rw [lexEnd, if_neg (by decide), if_neg (by decide), if_neg (by decide), if_neg (by decide),
    if_neg (by decide), if_pos rfl]
  split
  · rename_i hnone
    rw [h] at hnone
    cases hnone
  · rename_i hsome
    rw [h] at hsome
    cases hsome
    rfl

theorem scanPhrase_cons {c : Char} (hescape : c ≠ '\\') (hquote : c ≠ '"') (s : Text) :
    scanPhrase (c :: s) = (scanPhrase s).map fun p => (c :: p.1, p.2) := by
  rw [scanPhrase.eq_def]
  split
  · rename_i h
    cases h
  · rename_i h
    exact absurd (List.cons.inj h).1 hescape
  · rename_i h
    exact absurd (List.cons.inj h).1 hescape
  · rename_i h
    exact absurd (List.cons.inj h).1 hquote
  · rename_i h
    obtain ⟨rfl, rfl⟩ := List.cons.inj h
    rfl

/-- A phrase that is written down is read, up to its closing quote. -/
theorem scanPhrase_escape (t rest : Text) :
    scanPhrase (escape t ++ '"' :: rest) = some (t, rest) := by
  induction t with
  | nil => rfl
  | cons c t ih =>
      rw [escape]
      split
      · show (scanPhrase (escape t ++ '"' :: rest)).map (fun p => (c :: p.1, p.2)) = _
        rw [ih]
        rfl
      · rename_i hc
        rw [List.cons_append, scanPhrase_cons (not_or.1 hc).2 (not_or.1 hc).1, ih]
        rfl

/-- An operator in words with a space after it. -/
theorem lexEnd_operator {c : Char} {w : Text} (hc : startsWord c = true)
    (hscan : ∀ s, scanWord (c :: w ++ ' ' :: s) = ⟨c :: w, false, ' ' :: s⟩)
    (size : Nat) (s : Text) :
    lexEnd size (c :: w ++ ' ' :: s) = (lexEnd size s).map (ofWord (c :: w) false :: ·) := by
  have hblank : Text.isBlank ' ' = true := by decide
  rw [← lexEnd_blank hblank size s]
  exact lexEnd_word hc (hscan s) rfl

theorem lexEnd_and (size : Nat) (s : Text) :
    lexEnd size (['A', 'N', 'D'] ++ ' ' :: s) = (lexEnd size s).map (and :: ·) :=
  lexEnd_operator (by decide) (fun _ => rfl) size s

theorem lexEnd_or (size : Nat) (s : Text) :
    lexEnd size (['O', 'R'] ++ ' ' :: s) = (lexEnd size s).map (or :: ·) :=
  lexEnd_operator (by decide) (fun _ => rfl) size s

theorem lexEnd_not (size : Nat) (s : Text) :
    lexEnd size (['N', 'O', 'T'] ++ ' ' :: s) = (lexEnd size s).map (not :: ·) :=
  lexEnd_operator (by decide) (fun _ => rfl) size s

end Lexeme

/-! ### Lexemes of written texts -/

/-- Wherever a word ends after it, the text has the lexemes. -/
def Spells (s : Text) (ts : List Lexeme) : Prop :=
  ∀ (size : Nat) (rest : Text) (us : List Lexeme), Lexeme.endsWord rest = true →
    Lexeme.lexEnd size rest = .ok us → Lexeme.lexEnd size (s ++ rest) = .ok (ts ++ us)

namespace Spells

open Lexeme

variable {s u t : Text} {ts us : List Lexeme}

theorem lex_eq (h : Spells s ts) : lex s = .ok ts := by
  have hs := h (Text.utf8Size s) [] [] rfl (by rw [lexEnd])
  rwa [List.append_nil, List.append_nil] at hs

theorem parse_eq {e : Expr} (h : Spells s ts) (hs : Grammar.Sentence ts e) :
    parse s = .ok (some e) :=
  parse_eq_ok_some_iff_reads.2 ⟨ts, h.lex_eq, hs.ne_nil, Grammar.reads_all_iff_sentence.2 hs⟩

theorem term (ht : isSpelled t = true) (hne : t ≠ []) : Spells (spell t) [.word t] := by
  intro size rest us hrest hus
  have hscan := scanWord_spell ht (scanWord_of_endsWord hrest)
  obtain ⟨c, s, hs, hc⟩ := spell_eq_cons hne
  rw [hs, List.cons_append] at hscan ⊢
  rw [lexEnd_word hc hscan hrest, ofWord_hasLiteral, hus]
  rfl

theorem inField {name : Text} (hname : isSpelled name = true) (hne : name ≠ []) (h : Spells s ts) :
    Spells (spell name ++ ':' :: s) (.field name :: ts) := by
  intro size rest us hrest hus
  have hcolon : isBoundary ':' = true := by decide
  have hscan := scanWord_spell hname (scanWord_of_isBoundary hcolon (s ++ rest))
  obtain ⟨c, s', hs, hc⟩ := spell_eq_cons hne
  rw [List.append_assoc, List.cons_append]
  rw [hs, List.cons_append] at hscan ⊢
  rw [lexEnd_field hc hscan, h size rest us hrest hus]
  rfl

theorem phrase (t : Text) : Spells ('"' :: escape t ++ ['"']) [.phrase t] := by
  intro size rest us hrest hus
  have hscan := scanPhrase_escape t rest
  rw [List.append_assoc, List.singleton_append, List.cons_append, lexEnd_phrase hscan, hus]
  rfl

theorem group (h : Spells s ts) : Spells ('(' :: s ++ [')']) (.opening :: (ts ++ [.closing])) := by
  intro size rest us hrest hus
  have hclosing : lexEnd size (')' :: rest) = .ok (.closing :: us) := by
    rw [lexEnd_closing, hus]
    rfl
  have hs := h size (')' :: rest) _ rfl hclosing
  rw [List.append_assoc, List.singleton_append, List.cons_append, lexEnd_opening, hs,
    List.cons_append, List.append_assoc]
  rfl

theorem negation (h : Spells s ts) : Spells (['N', 'O', 'T', ' '] ++ s) (.not :: ts) := by
  intro size rest us hrest hus
  have hnot := lexEnd_not size (s ++ rest)
  rw [h size rest us hrest hus] at hnot
  exact hnot

/-- Two texts with an operator between them. -/
theorem beside {w : Text} {l : Lexeme}
    (hw : ∀ size rest, lexEnd size (w ++ ' ' :: rest) = (lexEnd size rest).map (l :: ·))
    (h : Spells s ts) (h' : Spells u us) :
    Spells (s ++ (' ' :: w ++ [' ']) ++ u) (ts ++ l :: us) := by
  intro size rest vs hrest hvs
  have hu : lexEnd size (' ' :: w ++ ' ' :: (u ++ rest)) = .ok (l :: us ++ vs) := by
    rw [List.cons_append, lexEnd_blank (by decide), hw, h' size rest vs hrest hvs]
    rfl
  have hs := h size _ _ rfl hu
  simpa using hs

end Spells

/-! ### Written expressions -/

open Query.Expr (joined renderEach)

theorem join_renderEach (separator : Text) (e e' : Expr) (es : List Expr) :
    Text.join separator (renderEach (e :: e' :: es)) =
      e.render ++ separator ++ Text.join separator (renderEach (e' :: es)) :=
  List.intercalate_cons_cons

/-- Expressions with an operator between them have the lexemes of a list, if lists are made by the
operator. -/
theorem Spells.list {one : List Lexeme → Expr → Prop} (list : List Lexeme → List Expr → Prop)
    {w : Text} {l : Lexeme}
    (hw : ∀ size rest, Lexeme.lexEnd size (w ++ ' ' :: rest) =
      (Lexeme.lexEnd size rest).map (l :: ·))
    (hone : ∀ {ts e}, one ts e → list ts [e])
    (hmore : ∀ {ts us e es}, one ts e → list us es → list (ts ++ l :: us) (e :: es))
    {es : List Expr} (hne : es ≠ []) (h : ∀ e ∈ es, ∃ ts, Spells e.render ts ∧ one ts e) :
    ∃ ts, Spells (Text.join (' ' :: w ++ [' ']) (renderEach es)) ts ∧ list ts es := by
  induction es with
  | nil => exact absurd rfl hne
  | cons e es ih =>
      obtain ⟨ts, hts, he⟩ := h e List.mem_cons_self
      cases es with
      | nil =>
          have hjoin : Text.join (' ' :: w ++ [' ']) (renderEach [e]) = e.render :=
            List.intercalate_singleton
          exact ⟨ts, hjoin ▸ hts, hone he⟩
      | cons e' es =>
          obtain ⟨us, hus, hes⟩ :=
            ih (List.cons_ne_nil e' es) fun e he => h e (List.mem_cons_of_mem _ he)
          refine ⟨ts ++ l :: us, ?_, hmore he hes⟩
          rw [join_renderEach]
          exact hts.beside hw hus

theorem joined_of_two_le {node : List Expr → Expr} {es : List Expr} (h : 2 ≤ es.length) :
    joined node es = node es := by
  match es, h with
  | e :: e' :: es, _ => rfl

theorem ne_nil_of_two_le {es : List Expr} (h : 2 ≤ es.length) : es ≠ [] := by
  rintro rfl
  simp at h

/-- The terms and field names can be written. -/
def IsNamed (e : Expr) : Prop := ∀ t ∈ e.names, isSpelled t = true ∧ t ≠ []

theorem IsNamed.of_mem {es : List Expr} (h : ∀ t ∈ Expr.namesOfEach es, isSpelled t = true ∧ t ≠ [])
    {e : Expr} (he : e ∈ es) : IsNamed e :=
  fun t ht => h t (Expr.mem_namesOfEach.2 ⟨e, he, ht⟩)

open Grammar in
mutual

theorem IsQuery.exists_spells {e : Expr} (h : IsQuery e) (hn : IsNamed e) :
    ∃ ts ps, Spells e.render ts ∧ Any ts ps ∧ e = joined .disjunction ps := by
  match h with
  | .one h =>
      obtain ⟨ts, es, hts, hall, rfl⟩ := h.exists_spells hn
      exact ⟨ts, _, hts, .one hall, rfl⟩
  | @IsQuery.any es hlength h =>
      have heach : ∀ e ∈ es, ∃ ts, Spells e.render ts ∧
          ∃ parts, All ts parts ∧ e = joined .conjunction parts := fun e he => by
        obtain ⟨ts, parts, hts, hall⟩ := (h e he).exists_spells (.of_mem hn he)
        exact ⟨ts, hts, parts, hall⟩
      obtain ⟨ts, hts, hany⟩ := Spells.list Any Lexeme.lexEnd_or
        (fun ⟨_, hall, he⟩ => he ▸ .one hall) (fun ⟨_, hall, he⟩ hany => he ▸ .or hall hany)
        (ne_nil_of_two_le hlength) heach
      exact ⟨ts, es, hts, hany, (joined_of_two_le hlength).symm⟩

theorem IsConjunction.exists_spells {e : Expr} (h : IsConjunction e) (hn : IsNamed e) :
    ∃ ts es, Spells e.render ts ∧ All ts es ∧ e = joined .conjunction es := by
  match h with
  | .one h =>
      obtain ⟨ts, hts, hclause⟩ := h.exists_spells hn
      exact ⟨ts, _, hts, .one hclause, rfl⟩
  | @IsConjunction.all es hlength h =>
      have heach : ∀ e ∈ es, ∃ ts, Spells e.render ts ∧ Clause ts e :=
        fun e he => (h e he).exists_spells (.of_mem hn he)
      obtain ⟨ts, hts, hall⟩ := Spells.list All Lexeme.lexEnd_and All.one All.and
        (ne_nil_of_two_le hlength) heach
      exact ⟨ts, es, hts, hall, (joined_of_two_le hlength).symm⟩

theorem IsClause.exists_spells {e : Expr} (h : IsClause e) (hn : IsNamed e) :
    ∃ ts, Spells e.render ts ∧ Clause ts e := by
  match h with
  | .negation h =>
    obtain ⟨ts, hts, hclause⟩ := h.exists_spells hn
    exact ⟨_, hts.negation, .not hclause⟩
  | .operand h =>
    obtain ⟨ts, hts, hclause⟩ := h.exists_spells hn
    exact ⟨_, hts, .primary (.operand hclause)⟩
  | .inField name h =>
    have hname := hn name List.mem_cons_self
    obtain ⟨ts, hts, hclause⟩ := h.exists_spells fun t ht => hn t (List.mem_cons_of_mem name ht)
    exact ⟨_, hts.inField hname.1 hname.2, .primary (.inField name hclause)⟩

theorem IsOperand.exists_spells {e : Expr} (h : IsOperand e) (hn : IsNamed e) :
    ∃ ts, Spells e.render ts ∧ Operand ts e := by
  match h with
  | .term t =>
    have ht := hn t List.mem_cons_self
    exact ⟨_, .term ht.1 ht.2, .word t⟩
  | .phrase t => exact ⟨_, .phrase t, .phrase t⟩
  | .group h =>
    obtain ⟨ts, ps, hts, hany, rfl⟩ := h.exists_spells hn
    exact ⟨_, hts.group, .group hany⟩

end

/-- Whatever is parsed is canonical, and a canonical expression whose terms and field names are not
empty is parsed from the text that is written for it. -/
theorem parse_render :
    (∀ s e, parse s = .ok (some e) → Canonical e) ∧
      ∀ e, Canonical e → (∀ t ∈ e.names, t ≠ []) → parse e.render = .ok (some e) := by
  refine ⟨fun s e => Canonical.of_parse, fun e he hne => ?_⟩
  obtain ⟨ts, ps, hts, hany, rfl⟩ := he.1.exists_spells fun t ht => ⟨he.2 t ht, hne t ht⟩
  have hsentence : Grammar.Sentence ts (joined .disjunction ps) := ⟨ps, hany, rfl⟩
  exact parse_eq_ok_some_iff_reads.2
    ⟨ts, hts.lex_eq, hsentence.ne_nil, Grammar.reads_all_iff_sentence.2 hsentence⟩

/-- A negated term with a written star beside a term that begins with a minus sign, or a phrase that
is a quote in a group in a field. -/
theorem parse_render_of_group :
    let e : Expr := .disjunction [
      .conjunction [.negation (.term ['a', '\\', '*', 'b']), .term ['-', 'c']],
      .inField ['n'] (.group (.conjunction [.phrase ['"'], .term ['d']]))]
    Canonical e ∧ parse e.render = .ok (some e) := by
  intro e
  have hgroup : IsQuery (.conjunction [.phrase ['"'], .term ['d']]) :=
    .one (.all (by decide) (List.forall_mem_cons.2
      ⟨.operand (.phrase _), List.forall_mem_singleton.2 (.operand (.term _))⟩))
  have hall : IsConjunction
      (.conjunction [.negation (.term ['a', '\\', '*', 'b']), .term ['-', 'c']]) :=
    .all (by decide) (List.forall_mem_cons.2
      ⟨.negation (.operand (.term _)), List.forall_mem_singleton.2 (.operand (.term _))⟩)
  have hform : IsQuery e :=
    .any (by decide) (List.forall_mem_cons.2
      ⟨hall, List.forall_mem_singleton.2 (.one (.inField ['n'] (.group hgroup)))⟩)
  have hnames : e.names = [['a', '\\', '*', 'b'], ['-', 'c'], ['n'], ['d']] := rfl
  have hcanonical : Canonical e := ⟨hform, by rw [hnames]; decide⟩
  have hparse : parse e.render = .ok (some e) :=
    parse_render.2 e hcanonical (by rw [hnames]; decide)
  exact ⟨parse_render.1 e.render e hparse, hparse⟩

end DatasetSearch.Query
