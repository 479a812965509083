import DatasetSearch.Json.Value
import DatasetSearch.Proofs.Json.Literal

/-! # Values are read as they were written

A string is read back character by character (`readString_quote`), and the text of a value is read
as one tree, up to the point where the text of the value ends (`readTree_text`).  The fuel that a
text is read with is more than its nesting needs.  As every control character in a string is escaped
the text of a value has no line break (`newline_notMem_text`). -/

namespace DatasetSearch.Json

open Text Value

/-! ### Strings -/

/-- What a character in quotes is read as. -/
def pieceOf (c : Char) : Piece :=
  if c = '"' ∨ c = '\\' ∨ c = '\x08' ∨ c = '\x0c' ∨ c = '\n' ∨ c = '\r' ∨ c = '\t' then .escaped c
  else if c.toNat < 0x20 then .unit c.toNat
  else .plain c

/-- What a text in quotes is read as. -/
def piecesOf (t : Text) : List Piece := t.map pieceOf

/-- The ways in which a character is written: an escape of one letter, its code point, or itself. -/
inductive Quoted (c : Char) : Prop
  | escaped (e : Char) (he : e ≠ 'u') (hne : e ≠ '\n') (hescape : escape? e = some c)
      (hquote : quoteChar c = ['\\', e]) (hpiece : pieceOf c = .escaped c)
  | unit (hsmall : c.toNat < 0x20)
      (hquote : quoteChar c =
        ['\\', 'u', '0', '0', hexDigit (c.toNat / 16), hexDigit (c.toNat % 16)])
      (hpiece : pieceOf c = .unit c.toNat)
  | plain (hlarge : ¬ c.toNat < 0x20) (hmark : c ≠ '"') (hslash : c ≠ '\\')
      (hquote : quoteChar c = [c]) (hpiece : pieceOf c = .plain c)

theorem quoted (c : Char) : Quoted c := by
  by_cases h : c = '"' ∨ c = '\\' ∨ c = '\x08' ∨ c = '\x0c' ∨ c = '\n' ∨ c = '\r' ∨ c = '\t'
  · have hpiece : pieceOf c = .escaped c := if_pos h
    rcases h with rfl | rfl | rfl | rfl | rfl | rfl | rfl
    · exact .escaped '"' (by decide) (by decide) rfl rfl hpiece
    · exact .escaped '\\' (by decide) (by decide) rfl rfl hpiece
    · exact .escaped 'b' (by decide) (by decide) rfl rfl hpiece
    · exact .escaped 'f' (by decide) (by decide) rfl rfl hpiece
    · exact .escaped 'n' (by decide) (by decide) rfl rfl hpiece
    · exact .escaped 'r' (by decide) (by decide) rfl rfl hpiece
    · exact .escaped 't' (by decide) (by decide) rfl rfl hpiece
  · have hquote : quoteChar c = if c.toNat < 0x20 then
        ['\\', 'u', '0', '0', hexDigit (c.toNat / 16), hexDigit (c.toNat % 16)] else [c] := by
      simp only [not_or] at h
      simp only [quoteChar, h, if_false]
    have hpiece : pieceOf c = if c.toNat < 0x20 then .unit c.toNat else .plain c := if_neg h
    by_cases hsmall : c.toNat < 0x20
    · rw [if_pos hsmall] at hquote hpiece
      exact .unit hsmall hquote hpiece
    · rw [if_neg hsmall] at hquote hpiece
      exact .plain hsmall (fun hc => h (.inl hc)) (fun hc => h (.inr (.inl hc))) hquote hpiece

theorem hexNumber?_hexDigit {n : Nat} (h : n < 32) :
    hexNumber? ['0', '0', hexDigit (n / 16), hexDigit (n % 16)] = some n := by
  have hall : ∀ n < 32, hexNumber? ['0', '0', hexDigit (n / 16), hexDigit (n % 16)] = some n := by
    decide
  exact hall n h

/-- A character is read back from the way it is written. -/
theorem readString_quoteChar (c : Char) (rest : Text) : readString (quoteChar c ++ rest) =
    (readString rest).map fun p => (pieceOf c :: p.1, p.2) := by
  cases quoted c with
  | escaped e he _ hescape hquote hpiece =>
      rw [hquote, hpiece]
      show readString ('\\' :: e :: rest) = _
      rw [readString.eq_4 _ _ fun _ _ _ _ _ hu _ => he hu, hescape]
      cases readString rest with
      | none => rfl
      | some p => rfl
  | unit hsmall hquote hpiece =>
      rw [hquote, hpiece]
      show readString ('\\' :: 'u' :: '0' :: '0' :: hexDigit (c.toNat / 16) ::
        hexDigit (c.toNat % 16) :: rest) = _
      rw [readString.eq_3, hexNumber?_hexDigit (by omega)]
      cases readString rest with
      | none => rfl
      | some p => rfl
  | plain hlarge hmark hslash hquote hpiece =>
      rw [hquote, hpiece]
      show readString (c :: rest) = _
      rw [readString.eq_5 _ _ hmark (fun _ _ _ _ _ hc _ => hslash hc) fun _ _ hc _ => hslash hc,
        if_neg hlarge]

/-- A text in quotes is read up to the closing quote. -/
theorem readString_quote (t rest : Text) :
    readString (t.flatMap quoteChar ++ '"' :: rest) = some (piecesOf t, rest) := by
  induction t with
  | nil => exact readString.eq_2 rest
  | cons c t ih =>
      rw [List.flatMap_cons, List.append_assoc, readString_quoteChar, ih]
      rfl

theorem textOf_unit {n : Nat} (h : n < 0x20) (pieces : List Piece) :
    textOf (.unit n :: pieces) = (textOf pieces).map (Char.ofNat n :: ·) := by
  have hhigh : isHigh n = false := by
    rw [isHigh, Bool.and_eq_false_iff, decide_eq_false_iff_not]
    exact .inl (by omega)
  have hlow : isLow n = false := by
    rw [isLow, Bool.and_eq_false_iff, decide_eq_false_iff_not]
    exact .inl (by omega)
  match pieces with
  | [] | .plain _ :: _ | .escaped _ :: _ | .unit _ :: _ =>
      simp [textOf, hhigh, hlow]

/-- What is read of a text in quotes is the text. -/
theorem textOf_piecesOf (t : Text) : textOf (piecesOf t) = some t := by
  induction t with
  | nil => rfl
  | cons c t ih =>
      show textOf (pieceOf c :: piecesOf t) = _
      cases quoted c with
      | escaped _ _ _ _ _ hpiece =>
          rw [hpiece, textOf, ih]
          rfl
      | unit hsmall _ hpiece =>
          rw [hpiece, textOf_unit hsmall, ih, Char.ofNat_toNat]
          rfl
      | plain _ _ _ _ hpiece =>
          rw [hpiece, textOf, ih]
          rfl

/-- There is no line break in a text in quotes. -/
theorem newline_notMem_quote (t : Text) : '\n' ∉ quote t := by
  have hdigit : ∀ n < 16, '\n' ≠ hexDigit n := by decide
  rw [quote, List.cons_append, List.mem_cons, List.mem_append, List.mem_flatMap]
  rintro (h | ⟨c, -, hc⟩ | h)
  · cases h
  · cases quoted c with
    | escaped e _ hne _ hquote _ =>
        rw [hquote] at hc
        simp [hne.symm] at hc
    | unit hsmall hquote _ =>
        rw [hquote] at hc
        simp [hdigit (c.toNat / 16) (by omega), hdigit (c.toNat % 16) (by omega)] at hc
    | plain hlarge _ _ hquote _ =>
        rw [hquote, List.mem_singleton] at hc
        exact hlarge (hc ▸ by decide)
  · cases List.mem_singleton.1 h

/-! ### Values -/

mutual

/-- What the text of a value is read as. -/
def Value.tree : Value → Tree
  | .null => .null
  | .bool b => .bool b
  | .number n => .number n.literal
  | .string t => .string (piecesOf t)
  | .list vs => .list (treesOf vs) true
  | .object ms => .object (memberTreesOf ms) true

/-- What the texts of values are read as. -/
def treesOf : List Value → List Tree
  | [] => []
  | v :: vs => v.tree :: treesOf vs

/-- What the texts of members are read as. -/
def memberTreesOf : List (Text × Value) → List (List Piece × Tree)
  | [] => []
  | (k, v) :: ms => (piecesOf k, v.tree) :: memberTreesOf ms

end

/-- The text begins with neither white space nor what can end a list. -/
def BeginsItem (s : Text) : Prop := ∃ c rest, s = c :: rest ∧ isSpace c = false ∧ c ≠ ']' ∧ c ≠ ','

theorem not_special_of_digit {c : Char} (h : c = '-' ∨ c.isDigit = true) :
    isSpace c = false ∧ c ∉ ['n', 't', 'f', '"', '[', '{', ']', ','] := by
  have hall : ∀ d ∈ [' ', '\n', '\r', '\t', 'n', 't', 'f', '"', '[', '{', ']', ','],
      d ≠ '-' ∧ d.isDigit = false := by simp
  have hother : ∀ d ∈ [' ', '\n', '\r', '\t', 'n', 't', 'f', '"', '[', '{', ']', ','],
      c ≠ d := by
    rintro d hd rfl
    obtain ⟨hsign, hdigit⟩ := hall c hd
    exact h.elim hsign fun h => Bool.false_ne_true (hdigit.symm.trans h)
  constructor
  · simp only [isSpace, Bool.or_eq_false_iff, decide_eq_false_iff_not]
    exact ⟨⟨⟨hother _ (by decide), hother _ (by decide)⟩, hother _ (by decide)⟩,
      hother _ (by decide)⟩
  · intro hc
    exact hother c (List.mem_append_right [' ', '\n', '\r', '\t'] hc) rfl

theorem beginsItem_text (v : Value) (rest : Text) : BeginsItem (v.text ++ rest) := by
  match v with
  | .null | .bool true | .bool false | .string _ | .list [] | .list (_ :: _) | .object [] |
      .object ((_, _) :: _) =>
      exact ⟨_, _, rfl, by decide, by decide, by decide⟩
  | .number n =>
      obtain ⟨c, cs, htext, hc⟩ := Literal.exists_text_eq_cons n.isProper_literal
      rw [Numeral.text_literal] at htext
      obtain ⟨hspace, hspecial⟩ := not_special_of_digit hc
      refine ⟨c, cs ++ rest, ?_, hspace, fun h => hspecial (by simp [h]),
        fun h => hspecial (by simp [h])⟩
      rw [Value.text, htext]
      rfl

theorem skipSpace_cons {c : Char} (h : isSpace c = false) (rest : Text) :
    skipSpace (c :: rest) = c :: rest := List.dropWhile_cons_of_neg (by rw [h]; exact nofun)

/-- A number is read as its literal. -/
theorem readTree_literal {l : Literal} (hl : l.IsProper) (fuel : Nat) {rest : Text}
    (h : EndsNumber rest) : readTree (fuel + 1) (l.text ++ rest) = (.number l, rest) := by
  obtain ⟨c, cs, htext, hc⟩ := Literal.exists_text_eq_cons hl
  obtain ⟨hspace, hspecial⟩ := not_special_of_digit hc
  have hread := Literal.readLiteral_text hl h
  rw [htext, List.cons_append] at hread ⊢
  rw [readTree, skipSpace_cons hspace]
  split
  all_goals first
    | (rename_i heq; exact absurd (List.cons.inj heq).1 fun hc => hspecial (by simp [hc]))
    | rw [hread]

theorem readTree_string (fuel : Nat) (t rest : Text) :
    readTree (fuel + 1) (quote t ++ rest) = (.string (piecesOf t), rest) := by
  have hquote : quote t ++ rest = '"' :: (t.flatMap quoteChar ++ '"' :: rest) := by
    rw [quote, List.cons_append, List.cons_append, List.append_assoc]
    rfl
  rw [hquote, readTree, skipSpace_cons rfl]
  split
  case h_4 heq =>
    rw [← (List.cons.inj heq).2, readString_quote]
  case h_7 hother _ _ =>
    exact absurd rfl (hother _)
  all_goals cases ‹_›

theorem readTree_list {fuel : Nat} {s rest : Text} {ts : List Tree} {closed : Bool}
    (h : readItems fuel true s = (ts, closed, rest)) :
    readTree (fuel + 1) ('[' :: s) = (.list ts closed, rest) := by
  rw [readTree, skipSpace_cons rfl]
  exact congrArg (fun r : List Tree × Bool × Text => (Tree.list r.1 r.2.1, r.2.2)) h

theorem readTree_object {fuel : Nat} {s rest : Text} {ms : List (List Piece × Tree)}
    {closed : Bool} (h : readMembers fuel true s = (ms, closed, rest)) :
    readTree (fuel + 1) ('{' :: s) = (.object ms closed, rest) := by
  rw [readTree, skipSpace_cons rfl]
  exact congrArg
    (fun r : List (List Piece × Tree) × Bool × Text => (Tree.object r.1 r.2.1, r.2.2)) h

/-- The items from one that begins the text on. -/
def readItemsFrom (fuel : Nat) (s : Text) : List Tree × Bool × Text :=
  let (t, rest) := readTree fuel s
  let (ts, closed, rest') := readItems fuel false rest
  (t :: ts, closed, rest')

theorem readItems_first (fuel : Nat) {s : Text} (h : BeginsItem s) :
    readItems (fuel + 1) true s = readItemsFrom fuel s := by
  obtain ⟨c, cs, rfl, hspace, hclose, hcomma⟩ := h
  rw [readItems, skipSpace_cons hspace]
  split
  · cases ‹_›
  · rename_i heq
    exact absurd (List.cons.inj heq).1 hclose
  · rename_i heq
    exact absurd (List.cons.inj heq).1 hcomma
  · rfl

theorem readItems_comma (fuel : Nat) {s : Text} (h : BeginsItem s) :
    readItems (fuel + 1) false (',' :: s) = readItemsFrom fuel s := by
  obtain ⟨c, cs, rfl, hspace, hclose, hcomma⟩ := h
  rw [readItems, skipSpace_cons rfl]
  split
  · cases ‹_›
  · cases ‹_›
  · rename_i rest heq
    obtain rfl : c :: cs = rest := (List.cons.inj heq).2
    rw [if_neg Bool.false_ne_true, skipSpace_cons hspace]
    split
    · cases ‹_›
    · rename_i heq
      exact absurd (List.cons.inj heq).1 hclose
    · rfl
  · rename_i hother
    exact absurd rfl (hother _)

theorem readItems_close (fuel : Nat) (first : Bool) (rest : Text) :
    readItems (fuel + 1) first (']' :: rest) = ([], true, rest) := by
  rw [readItems, skipSpace_cons rfl]
  rfl

/-- The members from one whose key begins the text on, after the quote. -/
def readMembersFrom (fuel : Nat) (s : Text) : List (List Piece × Tree) × Bool × Text :=
  match readString s with
  | none => ([], false, [])
  | some (key, rest) => match skipSpace rest with
    | ':' :: rest' =>
      let (t, rest) := readTree fuel rest'
      let (ms, closed, rest') := readMembers fuel false rest
      ((key, t) :: ms, closed, rest')
    | _ => ([(key, .broken)], false, [])

theorem readMembers_first (fuel : Nat) (s : Text) :
    readMembers (fuel + 1) true ('"' :: s) = readMembersFrom fuel s := by
  rw [readMembers, skipSpace_cons rfl]
  rfl

theorem readMembers_comma (fuel : Nat) (s : Text) :
    readMembers (fuel + 1) false (',' :: '"' :: s) = readMembersFrom fuel s := by
  rw [readMembers, skipSpace_cons rfl]
  rfl

theorem readMembers_close (fuel : Nat) (first : Bool) (rest : Text) :
    readMembers (fuel + 1) first ('}' :: rest) = ([], true, rest) := by
  rw [readMembers, skipSpace_cons rfl]
  rfl

/-! ### The text of a value is read as its tree -/

theorem length_text_pos (v : Value) : 0 < v.text.length := by
  obtain ⟨c, rest, htext, -⟩ := beginsItem_text v []
  rw [List.append_nil] at htext
  rw [htext]
  exact Nat.succ_pos _

theorem length_itemsText_pos (vs : List Value) : 0 < (itemsText vs).length := by
  cases vs with
  | nil => exact Nat.one_pos
  | cons v vs => exact Nat.succ_pos _

theorem length_membersText_pos (ms : List (Text × Value)) : 0 < (membersText ms).length := by
  match ms with
  | [] => exact Nat.one_pos
  | (k, v) :: ms => exact Nat.succ_pos _

theorem endsNumber_itemsText (vs : List Value) (rest : Text) :
    EndsNumber (itemsText vs ++ rest) := by
  cases vs with
  | nil =>
      rintro c hc
      obtain rfl := Option.some.inj hc
      decide
  | cons v vs =>
      rintro c hc
      obtain rfl := Option.some.inj hc
      decide

theorem endsNumber_membersText (ms : List (Text × Value)) (rest : Text) :
    EndsNumber (membersText ms ++ rest) := by
  match ms with
  | [] =>
      rintro c hc
      obtain rfl := Option.some.inj hc
      decide
  | (k, v) :: ms =>
      rintro c hc
      obtain rfl := Option.some.inj hc
      decide

theorem readItemsFrom_eq {fuel : Nat} {s s' rest : Text} {t : Tree} {ts : List Tree}
    (ht : readTree fuel s = (t, s')) (hts : readItems fuel false s' = (ts, true, rest)) :
    readItemsFrom fuel s = (t :: ts, true, rest) := by
  rw [readItemsFrom, ht]
  dsimp only
  rw [hts]

theorem readMembersFrom_eq {fuel : Nat} {k s s' rest : Text} {t : Tree}
    {ms : List (List Piece × Tree)} (ht : readTree fuel s = (t, s'))
    (hms : readMembers fuel false s' = (ms, true, rest)) :
    readMembersFrom fuel (k.flatMap quoteChar ++ '"' :: ':' :: s) =
      ((piecesOf k, t) :: ms, true, rest) := by
  rw [readMembersFrom, readString_quote]
  refine Eq.trans (congrArg (fun r : Tree × Text =>
    let r' := readMembers fuel false r.2
    ((piecesOf k, r.1) :: r'.1, r'.2.1, r'.2.2)) ht) ?_
  exact congrArg (fun r : List (List Piece × Tree) × Bool × Text =>
    ((piecesOf k, t) :: r.1, r.2.1, r.2.2)) hms

mutual

theorem readTree_text (v : Value) (fuel : Nat) (hfuel : v.text.length ≤ fuel) {rest : Text}
    (h : EndsNumber rest) : readTree fuel (v.text ++ rest) = (v.tree, rest) := by
  obtain ⟨fuel, rfl⟩ := Nat.exists_eq_add_one.2 (Nat.lt_of_lt_of_le (length_text_pos v) hfuel)
  match v with
  | .null => rfl
  | .bool true => rfl
  | .bool false => rfl
  | .number n =>
      rw [Value.text, ← Numeral.text_literal]
      exact readTree_literal n.isProper_literal fuel h
  | .string t => exact readTree_string fuel t rest
  | .list [] =>
      rw [Value.text] at hfuel
      obtain ⟨fuel, rfl⟩ := Nat.exists_eq_add_one.2 (Nat.le_of_succ_le_succ hfuel)
      exact readTree_list (readItems_close fuel true rest)
  | .list (v :: vs) =>
      have hv := length_text_pos v
      have hvs := length_itemsText_pos vs
      rw [Value.text, List.cons_append, List.length_cons, List.length_append] at hfuel
      obtain ⟨fuel, rfl⟩ : ∃ n, fuel = n + 1 := Nat.exists_eq_add_one.2 (by omega)
      have hitems := readItemsFrom_eq
        (readTree_text v fuel (by omega) (endsNumber_itemsText vs rest))
        (readItems_text vs fuel (by omega) rest)
      rw [← readItems_first fuel (beginsItem_text v _)] at hitems
      rw [Value.text, List.cons_append, List.cons_append, List.append_assoc]
      exact readTree_list hitems
  | .object [] =>
      rw [Value.text] at hfuel
      obtain ⟨fuel, rfl⟩ := Nat.exists_eq_add_one.2 (Nat.le_of_succ_le_succ hfuel)
      exact readTree_object (readMembers_close fuel true rest)
  | .object ((k, v) :: ms) =>
      have hv := length_text_pos v
      have hms := length_membersText_pos ms
      simp only [Value.text, quote, List.cons_append, List.append_assoc, List.length_cons,
        List.length_append] at hfuel
      obtain ⟨fuel, rfl⟩ : ∃ n, fuel = n + 1 := Nat.exists_eq_add_one.2 (by omega)
      have hmembers := readMembersFrom_eq (k := k)
        (readTree_text v fuel (by omega) (endsNumber_membersText ms rest))
        (readMembers_text ms fuel (by omega) rest)
      rw [← readMembers_first fuel] at hmembers
      simp only [Value.text, quote, List.cons_append, List.append_assoc, List.nil_append]
      exact readTree_object hmembers

theorem readItems_text (vs : List Value) (fuel : Nat) (hfuel : (itemsText vs).length ≤ fuel)
    (rest : Text) : readItems fuel false (itemsText vs ++ rest) = (treesOf vs, true, rest) := by
  obtain ⟨fuel, rfl⟩ :=
    Nat.exists_eq_add_one.2 (Nat.lt_of_lt_of_le (length_itemsText_pos vs) hfuel)
  match vs with
  | [] => exact readItems_close fuel false rest
  | v :: vs =>
      have hv := length_text_pos v
      have hvs := length_itemsText_pos vs
      rw [itemsText, List.cons_append, List.length_cons, List.length_append] at hfuel
      have hitems := readItemsFrom_eq
        (readTree_text v fuel (by omega) (endsNumber_itemsText vs rest))
        (readItems_text vs fuel (by omega) rest)
      rw [← readItems_comma fuel (beginsItem_text v _)] at hitems
      rw [itemsText, List.cons_append, List.cons_append, List.append_assoc]
      exact hitems

theorem readMembers_text (ms : List (Text × Value)) (fuel : Nat)
    (hfuel : (membersText ms).length ≤ fuel) (rest : Text) :
    readMembers fuel false (membersText ms ++ rest) = (memberTreesOf ms, true, rest) := by
  obtain ⟨fuel, rfl⟩ :=
    Nat.exists_eq_add_one.2 (Nat.lt_of_lt_of_le (length_membersText_pos ms) hfuel)
  match ms with
  | [] => exact readMembers_close fuel false rest
  | (k, v) :: ms =>
      have hv := length_text_pos v
      have hms := length_membersText_pos ms
      simp only [membersText, quote, List.cons_append, List.append_assoc, List.length_cons,
        List.length_append] at hfuel
      have hmembers := readMembersFrom_eq (k := k)
        (readTree_text v fuel (by omega) (endsNumber_membersText ms rest))
        (readMembers_text ms fuel (by omega) rest)
      rw [← readMembers_comma fuel] at hmembers
      simp only [membersText, quote, List.cons_append, List.append_assoc, List.nil_append]
      exact hmembers

end

/-- The text of a value is read as its tree, with nothing left. -/
theorem read_text (v : Value) : read v.text = (v.tree, []) := by
  have hread := readTree_text v (2 * v.text.length + 2) (by omega) endsNumber_nil
  rwa [List.append_nil] at hread

/-- The text of a value is decoded as its tree is. -/
theorem decode_text {α : Type} (d : Decoder α) (v : Value) : decode d v.text = d v.tree := by
  rw [decode, read_text]
  dsimp only
  cases d v.tree with
  | error e => rfl
  | ok x => rfl

/-! ### Lines -/

theorem newline_notMem_number (n : Numeral) : '\n' ∉ n.text := by
  intro h
  rw [← n.text_literal] at h
  have := Literal.isNumberChar_of_mem_text n.isProper_literal h
  cases this

mutual

/-- There is no line break in the text of a value. -/
theorem newline_notMem_text (v : Value) : '\n' ∉ v.text := by
  match v with
  | .null | .bool true | .bool false | .list [] | .object [] => decide
  | .number n => exact newline_notMem_number n
  | .string t => exact newline_notMem_quote t
  | .list (v :: vs) =>
      simp [Value.text, newline_notMem_text v, newline_notMem_itemsText vs]
  | .object ((k, v) :: ms) =>
      simp [Value.text, newline_notMem_quote k, newline_notMem_text v,
        newline_notMem_membersText ms]

theorem newline_notMem_itemsText (vs : List Value) : '\n' ∉ itemsText vs := by
  match vs with
  | [] => decide
  | v :: vs => simp [itemsText, newline_notMem_text v, newline_notMem_itemsText vs]

theorem newline_notMem_membersText (ms : List (Text × Value)) : '\n' ∉ membersText ms := by
  match ms with
  | [] => decide
  | (k, v) :: ms =>
      simp [membersText, newline_notMem_quote k, newline_notMem_text v,
        newline_notMem_membersText ms]

end

end DatasetSearch.Json
