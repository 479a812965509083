import DatasetSearch.Json.Value
import Mathlib.Tactic.Common

/-! # Numbers as they are written

Every number that is written is the text of a literal (`Numeral.text_literal`): an integer has
digits only, a decimal has digits on both sides of a point or an exponent.  The literal is read back
from its text, whatever follows that does not go on with it (`Literal.readLiteral_text`); so an
integer that fits a word is read as itself (`Numeral.value_literal`). -/

namespace DatasetSearch

/-! ### Digits -/

namespace Text

theorem natOf_ofNat (n : Nat) : natOf (ofNat n) = n :=
  Nat.ofDigitChars_toDigits (by decide) (by decide)

theorem isDigit_of_mem_ofNat {n : Nat} {c : Char} (h : c ∈ ofNat n) : c.isDigit = true :=
  Nat.isDigit_of_mem_toDigits (by decide) (by decide) h

theorem ofNat_ne_nil (n : Nat) : ofNat n ≠ [] := Nat.toDigits_ne_nil

/-- A positive number has no leading zero. -/
theorem head?_ofNat_ne {n : Nat} (h : n ≠ 0) : (ofNat n).head? ≠ some '0' := by
  induction n using Nat.strongRecOn with
  | ind n ih =>
      by_cases hsmall : n < 10
      · have hdigit : ∀ n < 10, n ≠ 0 → n.digitChar ≠ '0' := by decide
        rw [ofNat, Nat.toDigits_of_lt_base hsmall, List.head?_cons, Ne, Option.some_inj]
        exact hdigit n hsmall h
      · have hfront := ih (n / 10) (by omega) (by omega)
        obtain ⟨c, cs, hcs⟩ := List.exists_cons_of_ne_nil (ofNat_ne_nil (n / 10))
        rw [hcs, List.head?_cons] at hfront
        rw [ofNat] at hcs
        rw [ofNat, Nat.toDigits_of_base_le (by decide) (by omega), hcs, List.cons_append,
          List.head?_cons]
        exact hfront

/-- The text does not begin with a digit. -/
def EndsDigits (rest : Text) : Prop := ∀ c, rest.head? = some c → c.isDigit = false

theorem digits_eq_nil {rest : Text} (h : EndsDigits rest) : digits rest = [] := by
  cases rest with
  | nil => rfl
  | cons c rest => exact List.takeWhile_cons_of_neg (by rw [h c rfl]; exact Bool.false_ne_true)

/-- Digits are read up to where they end. -/
theorem digits_append {ds rest : Text} (hds : ∀ c ∈ ds, c.isDigit = true) (h : EndsDigits rest) :
    digits (ds ++ rest) = ds := by
  have hrest : rest.takeWhile Char.isDigit = [] := digits_eq_nil h
  rw [digits, List.takeWhile_append_of_pos hds, hrest, List.append_nil]

theorem afterDigits_append {ds rest : Text} (hds : ∀ c ∈ ds, c.isDigit = true)
    (h : EndsDigits rest) : afterDigits (ds ++ rest) = rest := by
  have hwhole := List.takeWhile_append_dropWhile (p := Char.isDigit) (l := ds ++ rest)
  have hfront : (ds ++ rest).takeWhile Char.isDigit = ds := digits_append hds h
  rw [hfront] at hwhole
  exact List.append_cancel_left hwhole

end Text

namespace Json

open Text

/-- A character of a number. -/
def isNumberChar (c : Char) : Bool := c.isDigit || c = '-' || c = '+' || c = '.' || c = 'e'

/-- A number does not go on with the text. -/
def EndsNumber (rest : Text) : Prop :=
  ∀ c, rest.head? = some c → c.isDigit = false ∧ c ≠ '.' ∧ c ≠ 'e' ∧ c ≠ 'E'

theorem endsNumber_nil : EndsNumber [] := fun _ h => nomatch h

theorem EndsNumber.endsDigits {rest : Text} (h : EndsNumber rest) : EndsDigits rest :=
  fun c hc => (h c hc).1

/-! ### Literals -/

namespace Literal

/-- The digits are digits, with at least one before the point and none in front of it that is
idle. -/
structure IsProper (l : Literal) : Prop where
  ne_nil : l.whole ≠ []
  whole : ∀ c ∈ l.whole, c.isDigit = true
  leading : l.whole.head? = some '0' → l.whole.length ≤ 1
  fraction : ∀ c ∈ l.fraction, c.isDigit = true

/-- The digits after the point, if there are any. -/
def fractionText : Text → Text
  | [] => []
  | c :: rest => '.' :: c :: rest

/-- The exponent with its sign, if there is one. -/
def exponentText : Option Int → Text
  | none => []
  | some n => 'e' :: (if 0 ≤ n then ['+'] else []) ++ Text.ofInt n

/-- The literal as it is written. -/
def text (l : Literal) : Text :=
  (if l.negative then ['-'] else []) ++
    (l.whole ++ (fractionText l.fraction ++ exponentText l.exponent))

variable {l : Literal} {rest : Text}

theorem readPower_ofNat (negative : Bool) (n : Nat) (h : EndsDigits rest) :
    readPower negative (Text.ofNat n ++ rest) =
      some (some (if negative then -(n : Int) else n), rest) := by
  have hds : ∀ c ∈ Text.ofNat n, c.isDigit = true := fun _ => isDigit_of_mem_ofNat
  rw [readPower, digits_append hds h, afterDigits_append hds h, natOf_ofNat,
    if_neg (by rw [List.isEmpty_iff]; exact ofNat_ne_nil n)]

theorem readExponent_text (exponent : Option Int) (h : EndsNumber rest) :
    readExponent (exponentText exponent ++ rest) = some (exponent, rest) := by
  match exponent with
  | none =>
      show readExponent rest = some (none, rest)
      unfold readExponent
      split
      all_goals first | rfl | exact absurd rfl (h _ rfl).2.2.1 | exact absurd rfl (h _ rfl).2.2.2
  | some (.ofNat n) => exact readPower_ofNat false n h.endsDigits
  | some (.negSucc n) => exact readPower_ofNat true (n + 1) h.endsDigits

/-- What follows the digits of a literal does not begin with one. -/
theorem endsDigits_exponentText (exponent : Option Int) (h : EndsNumber rest) :
    EndsDigits (exponentText exponent ++ rest) := by
  cases exponent with
  | none => exact h.endsDigits
  | some n =>
      rintro c hc
      obtain rfl := Option.some.inj hc
      rfl

theorem readFraction_text {ds : Text} (hds : ∀ c ∈ ds, c.isDigit = true) (exponent : Option Int)
    (h : EndsNumber rest) : readFraction (fractionText ds ++ (exponentText exponent ++ rest)) =
      some (ds, exponentText exponent ++ rest) := by
  have hends := endsDigits_exponentText exponent h
  cases ds with
  | nil =>
      show readFraction (exponentText exponent ++ rest) = _
      unfold readFraction
      split
      · rename_i heq
        cases exponent with
        | none =>
            obtain rfl : rest = _ := heq
            exact absurd rfl (h _ rfl).2.1
        | some n => cases heq
      · rfl
  | cons c ds =>
      show readFraction ('.' :: (c :: ds ++ _)) = _
      rw [readFraction, digits_append hds hends, afterDigits_append hds hends]
      rfl

theorem endsDigits_fractionText (ds : Text) (exponent : Option Int) (h : EndsNumber rest) :
    EndsDigits (fractionText ds ++ (exponentText exponent ++ rest)) := by
  cases ds with
  | nil => exact endsDigits_exponentText exponent h
  | cons c ds =>
      rintro d hd
      obtain rfl := Option.some.inj hd
      rfl

theorem readUnsigned_text (hl : l.IsProper) (h : EndsNumber rest) :
    readUnsigned l.negative (l.whole ++ (fractionText l.fraction ++
      (exponentText l.exponent ++ rest))) = some (l, rest) := by
  have hends := endsDigits_fractionText l.fraction l.exponent h
  have hleading : ¬ (l.whole.isEmpty = true ∨ l.whole.head? = some '0' ∧ 1 < l.whole.length) := by
    rintro (hnil | ⟨hzero, hlong⟩)
    · exact hl.ne_nil (List.isEmpty_iff.1 hnil)
    · exact absurd (hl.leading hzero) (by omega)
  rw [readUnsigned, digits_append hl.whole hends, afterDigits_append hl.whole hends]
  dsimp only
  rw [if_neg hleading, readFraction_text hl.fraction l.exponent h]
  show (readExponent (exponentText l.exponent ++ rest)).bind _ = _
  rw [readExponent_text l.exponent h]
  rfl

/-- A literal is read back from its text. -/
theorem readLiteral_text (hl : l.IsProper) (h : EndsNumber rest) :
    readLiteral (l.text ++ rest) = some (l, rest) := by
  have hread := readUnsigned_text hl h
  rw [text, List.append_assoc, List.append_assoc, List.append_assoc]
  cases hsign : l.negative with
  | true =>
      rw [hsign] at hread
      exact hread
  | false =>
      rw [hsign] at hread
      show readLiteral (l.whole ++ _) = _
      obtain ⟨c, cs, hwhole⟩ := List.exists_cons_of_ne_nil hl.ne_nil
      have hc : c.isDigit = true := hl.whole c (hwhole ▸ List.mem_cons_self ..)
      rw [hwhole, List.cons_append] at hread ⊢
      unfold readLiteral
      split
      · rename_i heq
        obtain ⟨rfl, -⟩ := List.cons.inj heq
        cases hc
      · exact hread

theorem isNumberChar_of_isDigit {c : Char} (h : c.isDigit = true) : isNumberChar c = true := by
  rw [isNumberChar, h]
  rfl

theorem isNumberChar_of_mem_ofInt {n : Int} {c : Char} (h : c ∈ Text.ofInt n) :
    isNumberChar c = true := by
  cases n with
  | ofNat n => exact isNumberChar_of_isDigit (isDigit_of_mem_ofNat h)
  | negSucc n =>
      rcases List.mem_cons.1 h with rfl | h
      · rfl
      · exact isNumberChar_of_isDigit (isDigit_of_mem_ofNat h)

/-- A literal is written in characters of numbers. -/
theorem isNumberChar_of_mem_text (hl : l.IsProper) {c : Char} (hc : c ∈ l.text) :
    isNumberChar c = true := by
  rw [text, List.mem_append, List.mem_append, List.mem_append] at hc
  rcases hc with hc | hc | hc | hc
  · split at hc
    · obtain rfl := List.mem_singleton.1 hc
      rfl
    · cases hc
  · exact isNumberChar_of_isDigit (hl.whole c hc)
  · cases hfraction : l.fraction with
    | nil =>
        rw [hfraction] at hc
        cases hc
    | cons d ds =>
        rw [hfraction] at hc
        rcases List.mem_cons.1 hc with rfl | hc
        · rfl
        · exact isNumberChar_of_isDigit (hl.fraction c (hfraction ▸ hc))
  · cases hexponent : l.exponent with
    | none =>
        rw [hexponent] at hc
        cases hc
    | some n =>
        rw [hexponent, exponentText, List.cons_append, List.mem_cons, List.mem_append] at hc
        rcases hc with rfl | hc | hc
        · rfl
        · split at hc
          · obtain rfl := List.mem_singleton.1 hc
            rfl
          · cases hc
        · exact isNumberChar_of_mem_ofInt hc

/-- A literal begins with a sign or a digit. -/
theorem exists_text_eq_cons (hl : l.IsProper) :
    ∃ c cs, l.text = c :: cs ∧ (c = '-' ∨ c.isDigit = true) := by
  obtain ⟨c, cs, hwhole⟩ := List.exists_cons_of_ne_nil hl.ne_nil
  rw [text]
  split
  · exact ⟨'-', _, rfl, .inl rfl⟩
  · exact ⟨c, _, by rw [hwhole]; rfl, .inr (hl.whole c (hwhole ▸ List.mem_cons_self ..))⟩

theorem le_foldl_digits (ds : Text) (s : Nat) :
    s ≤ ds.foldl (fun n c => 10 * n + digit c) s := by
  induction ds generalizing s with
  | nil => exact Nat.le_refl s
  | cons c ds ih => exact Nat.le_trans (by omega) (ih (10 * s + digit c))

-- Unfolding goes as far as it can, and would count down from the greatest word.
attribute [local irreducible] absorb in
theorem significand_cons (s : Nat) (c : Char) (rest : Text) :
    significand s (c :: rest) = match absorb s (digit c) with
      | some s' => significand s' rest
      | none => (s, rest.length + 1) := rfl

/-- All digits are taken of a number that fits a word. -/
theorem significand_eq {ds : Text} {s : Nat}
    (h : ds.foldl (fun n c => 10 * n + digit c) s ≤ Word.greatest) :
    significand s ds = (ds.foldl (fun n c => 10 * n + digit c) s, 0) := by
  induction ds generalizing s with
  | nil => rfl
  | cons c ds ih =>
      rw [List.foldl_cons] at h
      have hfits : absorb s (digit c) = some (10 * s + digit c) := by
        rw [absorb, if_pos (Nat.le_trans (le_foldl_digits ds (10 * s + digit c)) h)]
      rw [significand_cons, hfits, List.foldl_cons]
      exact ih h

end Literal

/-! ### Numbers -/

/-- The literal of a decimal with a sign. -/
def Decimal.literal (negative : Bool) (d : Decimal) : Literal :=
  let digits := Text.ofNat d.digits
  if d.digits = 0 then ⟨negative, ['0'], ['0'], none⟩
  else if Decimal.plainRange.1 ≤ d.magnitude ∧ d.magnitude ≤ Decimal.plainRange.2 then
    if 0 ≤ d.exponent then
      ⟨negative, digits ++ List.replicate d.exponent.toNat '0', ['0'], none⟩
    else if 0 ≤ d.magnitude then
      ⟨negative, digits.take (d.magnitude.toNat + 1), digits.drop (d.magnitude.toNat + 1), none⟩
    else ⟨negative, ['0'], List.replicate (-d.magnitude - 1).toNat '0' ++ digits, none⟩
  else ⟨negative, digits.take 1, digits.drop 1, some d.magnitude⟩

/-- The literal of a number. -/
def Numeral.literal : Numeral → Literal
  | .integer n => ⟨n < 0, Text.ofNat n.natAbs, [], none⟩
  | .real f negative m => Decimal.literal negative (.ofMagnitude f m)

namespace Literal

/-- Digits of a positive number, from the first on. -/
theorem isProper_of_front {l : Literal} {n : Nat} (hn : n ≠ 0) {more : Text} {k : Nat}
    (hwhole : l.whole = (Text.ofNat n).take (k + 1) ++ more)
    (hmore : ∀ c ∈ more, c.isDigit = true) (hfraction : ∀ c ∈ l.fraction, c.isDigit = true) :
    l.IsProper := by
  obtain ⟨c, cs, hdigits⟩ := List.exists_cons_of_ne_nil (ofNat_ne_nil n)
  have hzero := head?_ofNat_ne hn
  have hhead : l.whole = c :: (cs.take k ++ more) := by
    rw [hwhole, hdigits, List.take_succ_cons, List.cons_append]
  refine ⟨by rw [hhead]; exact List.cons_ne_nil _ _, fun d hd => ?_, fun h => ?_, hfraction⟩
  · rw [hwhole, List.mem_append] at hd
    exact hd.elim (fun hd => isDigit_of_mem_ofNat (List.mem_of_mem_take hd)) (hmore d)
  · rw [hhead, List.head?_cons] at h
    rw [hdigits, List.head?_cons] at hzero
    exact absurd h hzero

theorem isDigit_of_mem_replicate {n : Nat} {c : Char} (h : c ∈ List.replicate n '0') :
    c.isDigit = true := by
  rw [List.eq_of_mem_replicate h]
  rfl

theorem isDigit_of_mem_zero {c : Char} (h : c ∈ ['0']) : c.isDigit = true := by
  obtain rfl := List.mem_singleton.1 h
  rfl

theorem isProper_decimal (negative : Bool) (d : Decimal) :
    (Decimal.literal negative d).IsProper := by
  have hdigits : ∀ c ∈ Text.ofNat d.digits, c.isDigit = true := fun _ => isDigit_of_mem_ofNat
  have hzero : ∀ c ∈ ['0'], c.isDigit = true := fun _ => isDigit_of_mem_zero
  have hnone : ∀ c ∈ ([] : Text), c.isDigit = true := fun _ h => nomatch h
  unfold Decimal.literal
  dsimp only
  split
  · exact ⟨List.cons_ne_nil _ _, hzero, fun _ => Nat.le_refl 1, hzero⟩
  · rename_i hne
    split
    · split
      · have hall := List.take_of_length_le (Nat.le_succ (Text.ofNat d.digits).length)
        exact isProper_of_front hne (by rw [hall]) (fun _ => isDigit_of_mem_replicate) hzero
      · split
        · exact isProper_of_front hne (List.append_nil _).symm hnone
            fun c hc => hdigits c (List.mem_of_mem_drop hc)
        · refine ⟨List.cons_ne_nil _ _, hzero, fun _ => Nat.le_refl 1, fun c hc => ?_⟩
          exact (List.mem_append.1 hc).elim isDigit_of_mem_replicate (hdigits c)
    · exact isProper_of_front hne (List.append_nil _).symm hnone
        fun c hc => hdigits c (List.mem_of_mem_drop hc)

theorem fractionText_eq {ds : Text} (h : ds ≠ []) : fractionText ds = '.' :: ds := by
  cases ds with
  | nil => exact absurd rfl h
  | cons c ds => rfl

theorem pointed_eq {ds : Text} (h : ds ≠ []) :
    Decimal.pointed ds = ds.take 1 ++ fractionText (ds.drop 1) := by
  match ds with
  | [] => exact absurd rfl h
  | [_] => rfl
  | _ :: _ :: _ => rfl

/-- The literal of a decimal is written as the decimal is. -/
theorem text_decimal (negative : Bool) (d : Decimal) : (Decimal.literal negative d).text =
    (if negative then ['-'] else []) ++ d.text := by
  have hsize : Decimal.width d.digits = (Text.ofNat d.digits).length := rfl
  have hmagnitude : d.magnitude = d.exponent + Decimal.width d.digits - 1 := rfl
  unfold Decimal.literal Decimal.text
  dsimp only
  split
  · rfl
  · split
    · split
      · simp [text, fractionText, exponentText]
      · split
        · -- some digits are left for the fraction
          have hrest : (Text.ofNat d.digits).drop (d.magnitude.toNat + 1) ≠ [] := by
            rw [Ne, List.drop_eq_nil_iff]
            omega
          rw [text, fractionText_eq hrest]
          simp [exponentText]
        · have hrest : List.replicate (-d.magnitude - 1).toNat '0' ++ Text.ofNat d.digits ≠ [] :=
            List.append_ne_nil_of_right_ne_nil _ (ofNat_ne_nil d.digits)
          rw [text, fractionText_eq hrest]
          simp [exponentText]
    · rw [pointed_eq (ofNat_ne_nil d.digits)]
      simp [text, exponentText]

end Literal

namespace Numeral

theorem isProper_literal (n : Numeral) : n.literal.IsProper := by
  match n with
  | .integer n =>
      refine ⟨ofNat_ne_nil _, fun _ => isDigit_of_mem_ofNat, fun h => ?_, fun _ h => nomatch h⟩
      obtain hzero : n.natAbs = 0 := not_not.1 fun hne => head?_ofNat_ne hne h
      show (Text.ofNat n.natAbs).length ≤ 1
      rw [hzero]
      decide
  | .real f negative m => exact Literal.isProper_decimal negative (.ofMagnitude f m)

/-- A number is written as its literal. -/
theorem text_literal (n : Numeral) : n.literal.text = n.text := by
  match n with
  | .integer (.ofNat n) => exact List.append_nil (Text.ofNat n)
  | .integer (.negSucc n) =>
      have hneg : decide (Int.negSucc n < 0) = true := decide_eq_true (Int.negSucc_lt_zero n)
      rw [literal, hneg]
      exact congrArg ('-' :: ·) (List.append_nil (Text.ofNat (n + 1)))
  | .real f negative m => exact Literal.text_decimal negative (.ofMagnitude f m)

/-- An integer that fits a word is read as itself. -/
theorem value_literal {n : Int} (hlow : Word.leastSigned ≤ n) (hhigh : n ≤ Word.greatest) :
    (Numeral.integer n).literal.value = some (.integer n) := by
  have hsize : n.natAbs ≤ Word.greatest := by
    simp only [Word.leastSigned, Word.greatest] at *
    omega
  have hdigits : Literal.significand 0 (Text.ofNat n.natAbs) = (n.natAbs, 0) := by
    have hvalue : natOf (Text.ofNat n.natAbs) = n.natAbs := natOf_ofNat n.natAbs
    rw [natOf] at hvalue
    rw [Literal.significand_eq (by rwa [hvalue]), hvalue]
  have hwhole : (Numeral.integer n).literal =
      ⟨decide (n < 0), Text.ofNat n.natAbs, [], none⟩ := rfl
  have hinteger : (⟨decide (n < 0), Text.ofNat n.natAbs, [], none⟩ : Literal).isInteger = true ∧
      0 = 0 := ⟨rfl, rfl⟩
  rw [Literal.value, hwhole, hdigits]
  dsimp only
  rw [if_pos hinteger]
  split
  · rename_i hneg
    have hneg : n < 0 := of_decide_eq_true hneg
    rw [if_neg (by omega)]
    congr 2
    omega
  · rename_i hpos
    have hpos : ¬ n < 0 := fun h => hpos (decide_eq_true h)
    congr 2
    omega

end Numeral

end Json

end DatasetSearch
