import DatasetSearch.Proofs.Dictionary
import DatasetSearch.Proofs.Json.Reading
import DatasetSearch.Proofs.Outcome
import DatasetSearch.Wire.Forms

/-! # Answers and chunks are decoded from their JSON forms

Decoding goes through the tree of a form, which is that of its text (`Json.decode_text`): each
decoder is met by the form it was written for, from numbers and texts through lists, dictionaries
and records.  Ids must fit a word, and a score must be read back from its text as it is
(`Score.ReadsBack`); then a chunk and an answer are decoded as they were
(`Chunk.decode_toValue`, `Answer.decode_toValue`). -/

namespace DatasetSearch

open Json

/-! ### Values -/

namespace Json

theorem treesOf_eq_map (vs : List Value) : treesOf vs = vs.map Value.tree := by
  induction vs with
  | nil => rfl
  | cons v vs ih => rw [treesOf, ih, List.map_cons]

theorem memberTreesOf_eq_map (ms : List (Text × Value)) :
    memberTreesOf ms = ms.map fun m => (piecesOf m.1, m.2.tree) := by
  induction ms with
  | nil => rfl
  | cons m ms ih => rw [memberTreesOf, ih, List.map_cons]

namespace Decode

theorem text_tree (t : Text) : text (Value.string t).tree = .ok t := by
  rw [Value.tree, text, textOf_piecesOf]

theorem textKey_piecesOf (t : Text) : textKey (piecesOf t) = .ok t := by
  rw [textKey, textOf_piecesOf]

theorem integer_literal {low high n : Int} (hlow : Word.leastSigned ≤ n) (hhigh : n ≤ Word.greatest)
    (h : low ≤ n ∧ n ≤ high) : integer low high (.number (Numeral.integer n).literal) = .ok n := by
  rw [integer, Numeral.value_literal hlow hhigh]
  exact if_pos h

/-- A document id: a number that fits a word with a sign. -/
theorem id_literal {n : Int} (h : IsWord n) :
    id (.number (Numeral.integer n).literal) = .ok n :=
  integer_literal h.1 (Int.le_trans h.2 (by decide)) h

theorem size_literal {n : Nat} (h : n ≤ Word.greatest) :
    size (.number (Numeral.integer n).literal) = .ok n := by
  have hlow : Word.leastSigned ≤ (n : Int) := Int.le_trans (by decide) (Int.natCast_nonneg n)
  have hread := integer_literal hlow (Int.ofNat_le.2 h) ⟨Int.natCast_nonneg n, Int.ofNat_le.2 h⟩
  rw [size, hread]
  rfl

theorem list_tree {α : Type} {item : Decoder α} {form : α → Value} {l : List α}
    (h : ∀ a ∈ l, item (form a).tree = .ok a) :
    list item (Value.list (l.map form)).tree = .ok l := by
  have hitems : (l.map fun a => (form a).tree).mapM item = .ok l := Except.mapM_map_eq_ok h
  rw [Value.tree, treesOf_eq_map, List.map_map, list]
  show ((l.map fun a => (form a).tree).mapM item >>= fun xs => _) = _
  rw [hitems]
  rfl

theorem entries_eq {κ α : Type} {key : List Piece → Except Fault κ} {value : Decoder α}
    {name : κ → Text} {form : α → Value} {l : List (κ × α)}
    (h : ∀ e ∈ l, key (piecesOf (name e.1)) = .ok e.1 ∧ value (form e.2).tree = .ok e.2) :
    entries key value (l.map fun e => (piecesOf (name e.1), (form e.2).tree)) = .ok l := by
  induction l with
  | nil => rfl
  | cons e l ih =>
      obtain ⟨hkey, hvalue⟩ := h e (List.mem_cons_self ..)
      have hrest := ih fun e he => h e (List.mem_cons_of_mem _ he)
      rw [List.map_cons, entries, hkey]
      show (value (form e.2).tree >>= fun x => _) = _
      rw [hvalue]
      show (entries key value _ >>= fun rest => _) = _
      rw [hrest]
      rfl

/-- A dictionary, of which every entry is decoded as it was. -/
theorem dictionary_tree {κ α : Type} [DecidableEq κ] {key : List Piece → Except Fault κ}
    {value : Decoder α} {name : κ → Text} {form : α → Value} {d : Dictionary κ α}
    (h : ∀ e ∈ d.entries, key (piecesOf (name e.1)) = .ok e.1 ∧
      value (form e.2).tree = .ok e.2) :
    dictionary key value (Value.object (d.entries.map fun e => (name e.1, form e.2))).tree =
      .ok d := by
  rw [Value.tree, memberTreesOf_eq_map, List.map_map, dictionary]
  show (entries key value (d.entries.map fun e => (piecesOf (name e.1), (form e.2).tree)) >>=
    fun es => _) = _
  rw [entries_eq h]
  exact congrArg Except.ok d.ofList_entries

/-! ### Ids and scores -/

theorem pieceOf_of_isNumberChar {c : Char} (h : isNumberChar c = true) : pieceOf c = .plain c := by
  have hescaped : ∀ d ∈ ['"', '\\', '\x08', '\x0c', '\n', '\r', '\t'],
      isNumberChar d = false := by simp [isNumberChar]
  have hsmall : ∀ n < 0x20, isNumberChar (Char.ofNat n) = false := by decide
  rw [pieceOf, if_neg, if_neg]
  · intro hc
    have := hsmall c.toNat hc
    rw [Char.ofNat_toNat, h] at this
    cases this
  · intro hc
    have := hescaped c (by simpa using hc)
    rw [h] at this
    cases this

theorem plainText_piecesOf {t : Text} (h : ∀ c ∈ t, isNumberChar c = true) :
    plainText (piecesOf t) = some t := by
  induction t with
  | nil => rfl
  | cons c t ih =>
      have hc := h c (List.mem_cons_self ..)
      have hrest := ih fun d hd => h d (List.mem_cons_of_mem c hd)
      show plainText (pieceOf c :: piecesOf t) = _
      rw [pieceOf_of_isNumberChar hc, plainText, hrest]
      rfl

theorem idKey_piecesOf {n : Int} (h : IsWord n) :
    idKey (piecesOf (Text.ofInt n)) = .ok n := by
  have htext : (Numeral.integer n).literal.text = Text.ofInt n := (Numeral.integer n).text_literal
  have hread := Literal.readLiteral_text (Numeral.integer n).isProper_literal endsNumber_nil
  rw [List.append_nil, htext] at hread
  rw [idKey, plainText_piecesOf fun c => Literal.isNumberChar_of_mem_ofInt, Option.bind_some, hread]
  exact id_literal h

end Decode

end Json

/-- The score is read back from its text as it is. -/
def Score.ReadsBack (s : Score) : Prop := decode Decode.score s.text = .ok s

instance (s : Score) : Decidable s.ReadsBack :=
  decidable_of_iff ((decode Decode.score s.text).toOption = some s) Except.toOption_eq_some_iff

namespace Json

theorem text_ofScore {s : Score} (h : s.isFinite = true) : (Numeral.ofScore s).text = s.text := by
  have hfinite : s.magnitude < BinaryFormat.single.infinity := of_decide_eq_true h
  have hnumber : ¬ s.isNaN = true := fun hnan =>
    absurd (of_decide_eq_true hnan) (Nat.not_lt.2 (Nat.le_of_lt hfinite))
  rw [Score.text, if_neg hnumber, if_pos h]
  rfl

theorem score_tree {s : Score} (hfinite : s.isFinite = true) (hback : s.ReadsBack) :
    Decode.score (Value.ofScore s).tree = .ok s := by
  have hdecode := decode_text Decode.score (.number (.ofScore s))
  rw [Value.text, text_ofScore hfinite, hback] at hdecode
  rw [Value.ofScore, if_pos hfinite, ← hdecode]

/-- Highlights of documents whose ids fit a word. -/
theorem highlights_tree {h : Highlights}
    (hkeys : ∀ id ∈ h.keys, IsWord id) :
    Highlights.decoder (Value.ofHighlights h).tree = .ok h := by
  refine Decode.dictionary_tree fun e he => ⟨?_, ?_⟩
  · exact Decode.idKey_piecesOf (hkeys e.1 (List.mem_map_of_mem he))
  · exact @Decode.dictionary_tree Text Text _ Decode.textKey Decode.text (fun k => k) .string e.2
      fun field _ => ⟨Decode.textKey_piecesOf field.1, Decode.text_tree field.2⟩

/-! ### Records -/

namespace Decode

variable {σ : Type} {slots : List (Slot σ)}

/-- A slot is found by its name. -/
theorem find?_name (hnodup : (slots.map Slot.name).Nodup) {slot : Slot σ} (hslot : slot ∈ slots) :
    slots.find? (fun other => other.name.toList = slot.name.toList) = some slot := by
  induction slots with
  | nil => cases hslot
  | cons first slots ih =>
      rw [List.map_cons, List.nodup_cons] at hnodup
      rcases List.mem_cons.1 hslot with rfl | hslot
      · exact List.find?_cons_of_pos (decide_eq_true rfl)
      · rw [List.find?_cons_of_neg, ih hnodup.2 hslot]
        intro h
        have hname : first.name = slot.name := String.toList_inj.1 (of_decide_eq_true h)
        exact hnodup.1 (hname ▸ List.mem_map_of_mem hslot)

/-- A member and what its value sets: it is read by the slot of its name. -/
def FitsSlot (slot : Slot σ) (member : (String × Value) × (σ → σ)) : Prop :=
  slot.name = member.1.1 ∧ slot.read member.1.2.tree = .ok member.2

/-- Members for the slots that are left, in order. -/
theorem members_eq (hnodup : (slots.map Slot.name).Nodup) {rest : List (Slot σ)}
    (hrest : rest.Sublist slots) {ms : List ((String × Value) × (σ → σ))}
    (h : List.Forall₂ FitsSlot rest ms) {r : σ} {seen : List String}
    (hseen : ∀ slot ∈ rest, slot.name ∉ seen) :
    members slots r seen (ms.map fun m => (piecesOf m.1.1.toList, m.1.2.tree)) =
      .ok (ms.foldl (fun r m => m.2 r) r, (rest.map Slot.name).reverse ++ seen) := by
  induction h generalizing r seen with
  | nil => rfl
  | @cons slot m rest ms hfits _ ih =>
      obtain ⟨hname, hread⟩ := hfits
      have hfind := find?_name hnodup (hrest.subset (List.mem_cons_self ..))
      have hnew := hseen slot (List.mem_cons_self ..)
      have hlater : ∀ other ∈ rest, other.name ∉ slot.name :: seen := by
        intro other hother
        have hne := (List.nodup_cons.1 ((hrest.map Slot.name).nodup hnodup)).1
        rw [List.mem_cons, not_or]
        exact ⟨fun hname => hne (hname ▸ List.mem_map_of_mem hother),
          hseen other (List.mem_cons_of_mem slot hother)⟩
      rw [List.map_cons, members, textKey_piecesOf, ← hname]
      simp only [hfind, if_neg hnew, hread, bind, Except.bind]
      rw [ih ((List.sublist_cons_self slot rest).trans hrest) hlater, List.map_cons,
        List.reverse_cons, List.append_assoc]
      rfl

/-- A record is decoded from an object with a member for each slot, in their order. -/
theorem record_tree (hnodup : (slots.map Slot.name).Nodup)
    {ms : List ((String × Value) × (σ → σ))} (h : List.Forall₂ FitsSlot slots ms) (blank : σ) :
    record slots blank (Value.record (ms.map Prod.fst)).tree =
      .ok (ms.foldl (fun r m => m.2 r) blank) := by
  have hmembers := members_eq hnodup (List.Sublist.refl slots) h (r := blank)
    fun _ _ => List.not_mem_nil
  have hall : (slots.all fun slot =>
      slot.optional || slot.name ∈ (slots.map Slot.name).reverse ++ []) = true := by
    refine List.all_eq_true.2 fun slot hslot => ?_
    rw [Bool.or_eq_true, decide_eq_true_iff, List.append_nil, List.mem_reverse]
    exact .inr (List.mem_map_of_mem hslot)
  rw [Value.record, Value.tree, memberTreesOf_eq_map, List.map_map, List.map_map]
  show record slots blank
    (.object (ms.map fun m => (piecesOf m.1.1.toList, m.1.2.tree)) true) = _
  simp only [record, hmembers, hall, bind, Except.bind]
  rfl

/-- A field is set to the value that its decoder gives. -/
theorem fits_required {α : Type} {name : String} {value : Decoder α} {set : α → σ → σ} {v : Value}
    {x : α} (h : value v.tree = .ok x) : FitsSlot (.required name value set) ((name, v), set x) :=
  ⟨rfl, congrArg (Except.map set) h⟩

theorem fits_maybe {α : Type} {name : String} {value : Decoder α} {set : α → σ → σ} {v : Value}
    {x : α} (h : value v.tree = .ok x) : FitsSlot (.maybe name value set) ((name, v), set x) :=
  ⟨rfl, congrArg (Except.map set) h⟩

end Decode

end Json

open Json.Decode

/-! ### Answers and chunks -/

/-- Hits whose ids are words and whose scores are finite and read back as they are, with highlights
of documents whose ids are words. -/
structure IsReadable (ids : List Int) (scores : List Score) (highlights : Highlights) : Prop where
  ids : ∀ id ∈ ids, IsWord id
  scores : ∀ s ∈ scores, s.isFinite = true ∧ s.ReadsBack
  keys : ∀ id ∈ highlights.keys, IsWord id

/-- The forms of hits and highlights are read as they were. -/
theorem IsReadable.trees {ids : List Int} {scores : List Score} {highlights : Highlights}
    (h : IsReadable ids scores highlights) :
    list id (Value.list (ids.map .ofInt)).tree = .ok ids ∧
      list score (Value.list (scores.map .ofScore)).tree = .ok scores ∧
      Highlights.decoder (Value.ofHighlights highlights).tree = .ok highlights :=
  ⟨list_tree fun n hn => id_literal (h.ids n hn),
    list_tree fun s hs => score_tree (h.scores s hs).1 (h.scores s hs).2,
    highlights_tree h.keys⟩

namespace Request

/-- A request is decoded as it was. -/
theorem decodeFront_toValue {r : Request} (h : ∀ id ∈ r.ids, IsWord id) :
    decodeFront decoder r.toValue.text = .ok r := by
  have hquery : text (Value.string r.query).tree = .ok r.query := text_tree r.query
  have hids : list id (Value.list (r.ids.map .ofInt)).tree = .ok r.ids :=
    list_tree fun n hn => id_literal (h n hn)
  have hbool : bool (Value.bool r.highlighting).tree = .ok r.highlighting := rfl
  rw [decodeFront, read_text]
  refine @record_tree Request _ ?_
    [(("query", .string r.query), fun r' => { r' with query := r.query }),
      (("docIds", .list (r.ids.map .ofInt)), fun r' => { r' with ids := r.ids }),
      (("enableHighlighting", .bool r.highlighting),
        fun r' => { r' with highlighting := r.highlighting })] ?_ _
  · simp [Slot.maybe]
  · exact .cons (fits_maybe hquery) (.cons (fits_maybe hids) (.cons (fits_maybe hbool) .nil))

end Request

namespace Chunk

/-- A chunk is decoded as it was. -/
theorem decode_toValue {c : Chunk} (h : IsReadable c.ids c.scores c.highlights) :
    decode decoder c.toValue.text = .ok c := by
  obtain ⟨hids, hscores, hhighlights⟩ := h.trees
  have hlast : bool (Value.bool c.isLast).tree = .ok c.isLast := rfl
  rw [decode_text]
  refine @record_tree Chunk _ ?_
    [(("docIds", .list (c.ids.map .ofInt)), fun r => { r with ids := c.ids }),
      (("scores", .list (c.scores.map .ofScore)), fun r => { r with scores := c.scores }),
      (("highlights", .ofHighlights c.highlights), fun r => { r with highlights := c.highlights }),
      (("isLastChunk", .bool c.isLast), fun r => { r with isLast := c.isLast })] ?_ _
  · simp [Slot.required]
  · exact .cons (fits_required hids) (.cons (fits_required hscores)
      (.cons (fits_required hhighlights) (.cons (fits_required hlast) .nil)))

end Chunk

namespace Answer

/-- An answer is decoded as it was. -/
theorem decode_toValue {a : Answer} (h : IsReadable a.ids a.scores a.highlights)
    (htotal : a.total ≤ Word.greatest) : decode decoder a.toValue.text = .ok a := by
  obtain ⟨hids, hscores, hhighlights⟩ := h.trees
  have hsize : Json.Decode.size (Value.ofInt a.total).tree = .ok a.total := size_literal htotal
  rw [decode_text]
  refine @record_tree Answer _ ?_
    [(("docIds", .list (a.ids.map .ofInt)), fun r => { r with ids := a.ids }),
      (("scores", .list (a.scores.map .ofScore)), fun r => { r with scores := a.scores }),
      (("highlights", .ofHighlights a.highlights), fun r => { r with highlights := a.highlights }),
      (("totalHits", .ofInt a.total), fun r => { r with total := a.total })] ?_ _
  · simp [Slot.required, Slot.maybe]
  · exact .cons (fits_required hids) (.cons (fits_required hscores)
      (.cons (fits_required hhighlights) (.cons (fits_maybe hsize) .nil)))

end Answer

end DatasetSearch
