import DatasetSearch.Proofs.Index.Ranking
import DatasetSearch.Proofs.Index.Words
import DatasetSearch.Proofs.Text.Casing

/-! # Finding a document by its own words

The text of a field, written as a phrase, is read as that text again (`Query.parse_quote`), so it
asks for the words that it was indexed with.  The document has them one after the other if the index
has them all, and a word that does not fit is in no document (`Index.holds_iff_fitsIndex`).  So a
document is found by the text of a field, in all fields or in this one, exactly if all words of the
text fit (`Index.own_words`). -/

namespace DatasetSearch

open Query (Expr)

/-! ### Phrases as queries -/

theorem Field.ofLabel?_label (f : Field) : ofLabel? f.label.toList = some f := by
  cases f <;> rfl

namespace Query

/-- The query for a text as a phrase. -/
def quote (t : Text) : Text := '"' :: escape t ++ ['"']

/-- The query for something in one field. -/
def inField (f : Field) (query : Text) : Text := f.label.toList ++ ':' :: query

theorem parse_quote (t : Text) : parse (quote t) = .ok (some (.phrase t)) :=
  (Spells.phrase t).parse_eq ⟨_, .one (.one (.primary (.operand (.phrase t)))), rfl⟩

theorem Spells.inField_label {s : Text} {ts : List Lexeme} (h : Spells s ts) (f : Field) :
    Spells (Query.inField f s) (.field f.label.toList :: ts) := by
  intro size rest us hrest hus
  have hplain : ∀ c ∈ f.label.toList, Lexeme.isBoundary c = false ∧ c ≠ '\\' := by
    have hall : (f.label.toList.all fun c => !Lexeme.isBoundary c && c ≠ '\\') = true := by
      cases f <;> rfl
    simpa using hall
  have hcolon : Lexeme.isBoundary ':' = true := by decide
  have hscan := Lexeme.scanWord_append hplain (Lexeme.scanWord_of_isBoundary hcolon (s ++ rest))
  obtain ⟨c, t, hlabel, hc⟩ : ∃ c t, f.label.toList = c :: t ∧ Lexeme.startsWord c = true := by
    cases f <;> exact ⟨_, _, rfl, by decide⟩
  rw [Query.inField, List.append_assoc, List.cons_append]
  rw [hlabel, List.cons_append] at hscan ⊢
  rw [Lexeme.lexEnd_field hc hscan, h size rest us hrest hus]
  rfl

theorem parse_inField_quote (f : Field) (t : Text) :
    parse (inField f (quote t)) = .ok (some (.inField f.label.toList (.phrase t))) :=
  ((Spells.phrase t).inField_label f).parse_eq
    ⟨_, .one (.one (.primary (.inField _ (.phrase t)))), rfl⟩

end Query

namespace Plan

theorem exists_ofWords? (fields : List Field) {ts : List Text} (hne : ts ≠ []) :
    ∃ plan, ofWords? fields ts = some plan ∧ ∀ words : Field → List Text,
      plan.holds words = true ↔ ∃ f ∈ fields, ts <:+: words f := by
  have hsome : ∃ plan, ofWords? fields ts = some plan := by
    match ts with
    | [] => exact absurd rfl hne
    | [t] => exact ⟨_, rfl⟩
    | t :: t' :: ts => exact ⟨_, rfl⟩
  obtain ⟨plan, hplan⟩ := hsome
  refine ⟨plan, hplan, fun words => ?_⟩
  have hholds : (ofWords? fields ts).map (holds words) = Expr.meaningOfWords words fields ts :=
    holds_ofWords? fields ts
  rw [hplan, Expr.meaningOfWords, if_neg (by simpa using hne), Option.map_some,
    Option.some.injEq] at hholds
  rw [hholds, List.any_eq_true]
  simp only [decide_eq_true_iff]

end Plan

namespace Query

/-- The queries for a text as a phrase ask for its words one after the other, in one of the fields
that they are about. -/
theorem exists_plan_of_quote [Automata] {t query : Text} (f : Field)
    (hquery : query ∈ [quote t, inField f (quote t)]) (hne : Text.words t ≠ []) :
    ∃ e plan, parse query = .ok (some e) ∧ Plan.ofQuery? e = .ok (some plan) ∧
      ∃ fields : List Field, f ∈ fields ∧ ∀ words : Field → List Text,
        plan.holds words = true ↔ ∃ g ∈ fields, Text.words t <:+: words g := by
  have hplan (e : Expr) (fields : List Field)
      (h : Plan.ofExpr? Field.all e = .ok (Plan.ofWords? fields (Text.words t))) :
      ∃ plan, Plan.ofQuery? e = .ok (some plan) ∧ ∀ words : Field → List Text,
        plan.holds words = true ↔ ∃ g ∈ fields, Text.words t <:+: words g := by
    obtain ⟨plan, hwords, hholds⟩ := Plan.exists_ofWords? fields hne
    refine ⟨.boost queryWeight plan, ?_, hholds⟩
    rw [Plan.ofQuery?, h, hwords]
    rfl
  rw [List.mem_pair] at hquery
  rcases hquery with rfl | rfl
  · obtain ⟨plan, hplan, hholds⟩ := hplan (.phrase t) Field.all rfl
    exact ⟨_, plan, parse_quote t, hplan, _, Field.mem_all f, hholds⟩
  · have hfield : Plan.ofExpr? Field.all (.inField f.label.toList (.phrase t)) =
        .ok (Plan.ofWords? [f] (Text.words t)) := by
      rw [Plan.ofExpr?, Field.ofLabel?_label]
      rfl
    obtain ⟨plan, hplan, hholds⟩ := hplan _ _ hfield
    exact ⟨_, plan, parse_inField_quote f t, hplan, _, List.mem_singleton_self f, hholds⟩

end Query

/-! ### Documents in an index -/

namespace Index

variable {batches : List (List Document)} {entry : Entry} {plan : Plan}

/-- A plan for the words of a field holds of the document exactly if all of them fit. -/
theorem holds_iff_fitsIndex (hentry : entry ∈ (ofBatches batches).entries) {f : Field}
    (hne : Text.words (entry.document.texts.get f) ≠ []) {fields : List Field} (hf : f ∈ fields)
    (hplan : ∀ words : Field → List Text, plan.holds words = true ↔
      ∃ g ∈ fields, Text.words (entry.document.texts.get f) <:+: words g) :
    plan.holds entry.words.get = true ↔
      ∀ w ∈ Text.words (entry.document.texts.get f), fitsIndex w = true := by
  have hstands (g : Field) : Text.words (entry.document.texts.get f) <:+: entry.words.get g ↔
      Text.words (entry.document.texts.get f) <:+: Text.words (entry.document.texts.get g) ∧
        ∀ w ∈ Text.words (entry.document.texts.get f), fitsIndex w = true := by
    rw [get_words_of_mem_ofBatches hentry]
    exact infix_indexedWords_iff hne fun w => Text.ne_nil_of_mem_words
  rw [hplan]
  constructor
  · rintro ⟨g, -, hinfix⟩
    exact ((hstands g).1 hinfix).2
  · intro hfits
    exact ⟨f, hf, (hstands f).2 ⟨List.infix_rfl, hfits⟩⟩

/-- A document is found by the text of a field as a phrase, in all fields or in that one, exactly if
the index has all words of the text.  Then it is counted, and it is in the answer if that is not cut
off and its score reaches the least score. -/
theorem own_words [Scorer] [Query.Automata] (hentry : entry ∈ (ofBatches batches).entries)
    (f : Field) (hne : Text.words (entry.document.texts.get f) ≠ []) :
    let ix := ofBatches batches
    let t := entry.document.texts.get f
    ∀ query ∈ [Query.quote t, Query.inField f (Query.quote t)],
      ∃ e plan, Query.parse query = .ok (some e) ∧ Plan.ofQuery? e = .ok (some plan) ∧
        (plan.holds entry.words.get = true ↔ ∀ w ∈ Text.words t, fitsIndex w = true) ∧
        ∀ highlighting least limit, ∃ a, ix.search? ⟨query, [], highlighting⟩ least limit = .ok a ∧
          a.total = (ix.entries.countP fun e => plan.holds e.words.get) ∧
          ((∀ w ∈ Text.words t, fitsIndex w = true) → a.total ≤ limit →
            (ix.score entry plan).reaches least = true → entry.document.id ∈ a.ids) := by
  intro ix t query hquery
  obtain ⟨e, plan, hparse, hplan, fields, hf, hwords⟩ := Query.exists_plan_of_quote f hquery hne
  have hholds : plan.holds entry.words.get = true ↔ ∀ w ∈ Text.words t, fitsIndex w = true :=
    holds_iff_fitsIndex hentry hne hf hwords
  refine ⟨e, plan, hparse, hplan, hholds, fun highlighting least limit => ?_⟩
  obtain ⟨a, ha, htotal, hfound⟩ :=
    ix.exists_complete_answer hparse hplan highlighting least limit
  exact ⟨a, ha, htotal, fun hfits => hfound entry hentry (hholds.2 hfits)⟩

/-- A text of two words with a quote between them and a backslash behind them. -/
theorem own_words_of_quote :
    let d : Document := ⟨7, ⟨[], ['A', '"', 'b', '\\'], [], [], [], []⟩⟩
    let ix := ofBatches [[d]]
    let query : Text := ['"', 'A', '\\', '"', 'b', '\\', '\\', '"']
    Entry.ofDocument d ∈ ix.entries ∧ Text.words (d.texts.get .description) ≠ [] ∧
      ∃ e plan, Query.parse query = .ok (some e) ∧ Plan.ofQuery? e = .ok (some plan) ∧
        plan.holds (Entry.ofDocument d).words.get = true ∧
        ∃ a, ix.search? ⟨query, [], true⟩ ⟨0⟩ 1 = .ok a ∧ a.total = 1 ∧
          ((ix.score (Entry.ofDocument d) plan).reaches ⟨0⟩ = true → 7 ∈ a.ids) := by
  intro d ix query
  have hmem : Entry.ofDocument d ∈ ix.entries := by
    rw [entries_ofBatches_singleton]
    exact List.mem_map_of_mem (List.mem_singleton_self d)
  have hwords : Text.words (d.texts.get .description) = [['a'], ['b']] := by cbv
  have hne : Text.words (d.texts.get .description) ≠ [] := by
    rw [hwords]
    exact List.cons_ne_nil _ _
  have hfits : ∀ w ∈ Text.words (d.texts.get .description), fitsIndex w = true := by
    rw [hwords]
    decide
  obtain ⟨e, plan, hparse, hplan, hholds, hsearch⟩ :=
    own_words hmem .description hne query List.mem_cons_self
  obtain ⟨a, ha, htotal, hfound⟩ := hsearch true ⟨0⟩ 1
  have hone : a.total = 1 := by
    rw [htotal, entries_ofBatches_singleton, List.map_singleton, List.countP_singleton,
      if_pos (hholds.2 hfits)]
  exact ⟨hmem, hne, e, plan, hparse, hplan, hholds.2 hfits, a, ha, hone,
    hfound hfits (Nat.le_of_eq hone)⟩

/-- A document whose only word is too long is not found by it. -/
theorem misses_own_word [Scorer] [Query.Automata] {t : Text} (hne : t ≠ [])
    (ht : ∀ c ∈ t, Text.isAlphanumeric c = true) (hlong : fitsIndex (Text.lowerWord t) = false) :
    let d : Document := ⟨1, ⟨t, [], [], [], [], []⟩⟩
    Text.words (d.texts.get .name) ≠ [] ∧
      ∀ query ∈ [Query.quote t, Query.inField .name (Query.quote t)],
        ∃ e plan, Query.parse query = .ok (some e) ∧ Plan.ofQuery? e = .ok (some plan) ∧
          plan.holds (Entry.ofDocument d).words.get = false ∧
          ∃ a, (ofBatches [[d]]).search? ⟨query, [], false⟩ ⟨0⟩ 100 = .ok a ∧ a.total = 0 := by
  intro d
  have hwords : Text.words (d.texts.get .name) = [Text.lowerWord t] :=
    Text.words_eq_singleton hne ht
  have hsome : Text.words (d.texts.get .name) ≠ [] := by
    rw [hwords]
    exact List.cons_ne_nil _ _
  have hmem : Entry.ofDocument d ∈ (ofBatches [[d]]).entries := by
    rw [entries_ofBatches_singleton]
    exact List.mem_map_of_mem (List.mem_singleton_self d)
  refine ⟨hsome, fun query hquery => ?_⟩
  obtain ⟨e, plan, hparse, hplan, fields, hf, hphrase⟩ :=
    Query.exists_plan_of_quote .name hquery hsome
  have hholds : plan.holds (Entry.ofDocument d).words.get = false := by
    refine Bool.eq_false_iff.2 fun h => ?_
    have hfits := (holds_iff_fitsIndex hmem hsome hf hphrase).1 h (Text.lowerWord t)
      (hwords ▸ List.mem_singleton_self _)
    rw [hlong] at hfits
    cases hfits
  obtain ⟨a, ha, htotal, -⟩ := (ofBatches [[d]]).exists_complete_answer hparse hplan false ⟨0⟩ 100
  rw [entries_ofBatches_singleton, List.map_singleton, List.countP_singleton, hholds,
    if_neg Bool.false_ne_true] at htotal
  exact ⟨e, plan, hparse, hplan, hholds, a, ha, htotal⟩

theorem utf8Size_lowerWord_replicate (n : Nat) :
    Text.utf8Size (Text.lowerWord (List.replicate n 'a')) = n := by
  have hlower : Text.lowerChar 'a' = ['a'] := by decide
  have hsize : 'a'.utf8Size = 1 := by decide
  induction n with
  | zero => rfl
  | succ n ih =>
      rw [List.replicate_succ, Text.lowerWord_cons, hlower, List.singleton_append,
        Text.utf8Size_cons, ih, hsize, Nat.add_comm]

/-- A document is not found by a name of 65531 letters. -/
theorem misses_own_word_of_65531_letters :
    let t : Text := List.replicate 65531 'a'
    let d : Document := ⟨1, ⟨t, [], [], [], [], []⟩⟩
    Text.words (d.texts.get .name) ≠ [] ∧
      ∀ query ∈ [Query.quote t, Query.inField .name (Query.quote t)],
        ∃ e plan, Query.parse query = .ok (some e) ∧ Plan.ofQuery? e = .ok (some plan) ∧
          plan.holds (Entry.ofDocument d).words.get = false ∧
          ∃ a, (ofBatches [[d]]).search? ⟨query, [], false⟩ ⟨0⟩ 100 = .ok a ∧ a.total = 0 := by
  have hletter : Text.isAlphanumeric 'a' = true := by decide
  refine misses_own_word (List.cons_ne_nil _ _) (fun c hc => ?_) ?_
  · rw [List.eq_of_mem_replicate hc]
    exact hletter
  · rw [fitsIndex, utf8Size_lowerWord_replicate]
    decide

end Index

end DatasetSearch
