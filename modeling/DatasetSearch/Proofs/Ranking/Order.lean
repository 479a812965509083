import DatasetSearch.Number
import DatasetSearch.Ranking
import Mathlib.Algebra.Order.Ring.Nat
import Mathlib.Data.EReal.Operations
import Mathlib.Data.List.Nodup
import Mathlib.Tactic.Common
import Mathlib.Tactic.Ring

/-!
# Rank order

Ranking is a linear order of hits, over all bit patterns of a score, and agrees with the numbers
that the scores stand for.
-/

namespace DatasetSearch

/-! ## Magnitudes grow with their patterns

A finite magnitude is a whole number of units.  Below one exponent the fraction counts; a pattern of
a greater exponent has at least as many units as no pattern of a smaller one reaches
(`units_lt_two_pow`, `two_pow_le_units`).  So a greater pattern stands for more units
(`strictMono_units`). -/

namespace BinaryFormat

variable (f : BinaryFormat)

theorem units_eq (m : Nat) : f.units m =
    if m / 2 ^ f.fraction = 0 then m % 2 ^ f.fraction
    else (m % 2 ^ f.fraction + 2 ^ f.fraction) * 2 ^ (m / 2 ^ f.fraction - 1) := by
  rw [units, Nat.shiftRight_eq_div_pow, Nat.shiftLeft_eq, Nat.one_mul, Nat.shiftLeft_eq]

variable {f} {m n : Nat}

/-- No pattern of an exponent has more units than this. -/
theorem units_lt_two_pow (m : Nat) : f.units m < 2 ^ (f.fraction + m / 2 ^ f.fraction) := by
  have hfraction : m % 2 ^ f.fraction < 2 ^ f.fraction := Nat.mod_lt m (Nat.two_pow_pos _)
  rw [units_eq]
  split
  · rename_i hzero
    rwa [hzero, Nat.add_zero]
  · rename_i hpos
    obtain ⟨e, he⟩ := Nat.exists_eq_succ_of_ne_zero hpos
    rw [he, Nat.succ_sub_one]
    calc (m % 2 ^ f.fraction + 2 ^ f.fraction) * 2 ^ e
        < (2 ^ f.fraction + 2 ^ f.fraction) * 2 ^ e :=
          Nat.mul_lt_mul_of_pos_right (by omega) (Nat.two_pow_pos e)
      _ = 2 ^ (f.fraction + (e + 1)) := by ring

/-- Every pattern of a positive exponent has as many units as this. -/
theorem two_pow_le_units {e : Nat} (he : e < m / 2 ^ f.fraction) :
    2 ^ (f.fraction + e) ≤ f.units m := by
  rw [units_eq, if_neg (by omega)]
  calc 2 ^ (f.fraction + e)
      = 2 ^ f.fraction * 2 ^ e := Nat.pow_add 2 f.fraction e
    _ ≤ 2 ^ f.fraction * 2 ^ (m / 2 ^ f.fraction - 1) :=
        Nat.mul_le_mul_left _ (Nat.pow_le_pow_right Nat.two_pos (by omega))
    _ ≤ (m % 2 ^ f.fraction + 2 ^ f.fraction) * 2 ^ (m / 2 ^ f.fraction - 1) :=
        Nat.mul_le_mul_right _ (Nat.le_add_left ..)

/-- Of two patterns of one exponent the one with the greater fraction has more units. -/
theorem units_lt_units_of_exponent_eq (h : m < n)
    (he : m / 2 ^ f.fraction = n / 2 ^ f.fraction) : f.units m < f.units n := by
  have hfraction : m % 2 ^ f.fraction < n % 2 ^ f.fraction := by
    have hm := Nat.div_add_mod m (2 ^ f.fraction)
    have hn := Nat.div_add_mod n (2 ^ f.fraction)
    rw [he] at hm
    omega
  rw [units_eq, units_eq, he]
  split
  · exact hfraction
  · exact Nat.mul_lt_mul_of_pos_right (by omega) (Nat.two_pow_pos _)

/-- A greater pattern stands for more units. -/
theorem strictMono_units : StrictMono f.units := by
  intro m n h
  rcases Nat.lt_or_eq_of_le (Nat.div_le_div_right (c := 2 ^ f.fraction) h.le) with he | he
  · exact (units_lt_two_pow m).trans_le (two_pow_le_units he)
  · exact units_lt_units_of_exponent_eq h he

end BinaryFormat

/-! ## The two orders of scores

Scores are ranked by their keys and compared with a threshold by their values.  The keys tell all
patterns apart (`key_injective`).  Values grow with the keys, up to the two zeros, which are one
value (`signed_le_of_key_le`): so a number that ranks no lower than another one reaches every
threshold that the other one reaches (`reaches_of_key_le`). -/

namespace Score

/-! ### Keys and values -/

theorem signed_eq_of_key (s : Score) : s.signed = if s.key < 0 then s.key + 1 else s.key := by
  unfold signed key
  split
  · rw [if_pos (by omega)]
    omega
  · rw [if_neg (by omega)]

theorem signed_le_of_key_le {s t : Score} (h : s.key ≤ t.key) : s.signed ≤ t.signed := by
  rw [signed_eq_of_key, signed_eq_of_key]
  split
  · split
    · omega
    · omega
  · split
    · omega
    · omega

theorem key_eq (s : Score) : s.key =
    if signBit ≤ s.bits.toNat then (signBit : Int) - s.bits.toNat - 1 else s.bits.toNat := by
  have hlt := s.bits.toNat_lt
  unfold key isNegative magnitude
  by_cases h : signBit ≤ s.bits.toNat
  · rw [if_pos (decide_eq_true h), if_pos h]
    unfold signBit at *
    omega
  · rw [if_neg (by simpa using h), if_neg h]
    unfold signBit at *
    omega

theorem key_injective {s t : Score} (h : s.key = t.key) : s = t := by
  have hbits : s.bits.toNat = t.bits.toNat := by
    rw [key_eq, key_eq] at h
    split at h
    · split at h
      · omega
      · omega
    · split at h
      · omega
      · omega
  cases s
  cases t
  exact congrArg Score.mk (UInt32.toNat_inj.1 hbits)

/-! ### Thresholds -/

theorem reaches_iff (s least : Score) : s.reaches least = true ↔
    s.isNaN = false ∧ least.isNaN = false ∧ least.signed ≤ s.signed := by
  simp only [reaches, Bool.and_eq_true, Bool.not_eq_true', decide_eq_true_eq, and_assoc]

theorem reaches_trans {s t u : Score} (hst : s.reaches t = true) (htu : t.reaches u = true) :
    s.reaches u = true := by
  rw [reaches_iff] at *
  exact ⟨hst.1, htu.2.1, Int.le_trans htu.2.2 hst.2.2⟩

/-- A number that ranks no lower reaches the same thresholds. -/
theorem reaches_of_key_le {s t least : Score} (h : s.key ≤ t.key) (ht : t.isNaN = false)
    (hs : s.reaches least = true) : t.reaches least = true := by
  rw [reaches_iff] at *
  exact ⟨ht, hs.2.1, Int.le_trans hs.2.2 (signed_le_of_key_le h)⟩

end Score

/-! ## Ranked hits

`Hit.noLater` is a total preorder (`noLater_trans`, `noLater_total`), and two hits of one rank
have one address (`address_eq_of_noLater`).  Where addresses are distinct a ranked list is
therefore determined by its members (`Ranked.eq_of_perm`), whatever order they came in
(`sort_eq_of_perm`). -/

attribute [ext] Address

namespace Hit

/-! ### The order -/

theorem rank_eq_lt_iff (a b : Hit) : a.rank b = .lt ↔
    b.score.key < a.score.key ∨ a.score.key = b.score.key ∧
      (a.address.segment < b.address.segment ∨
        a.address.segment = b.address.segment ∧ a.address.doc < b.address.doc) := by
  unfold rank
  rw [Ordering.then_eq_lt, Ordering.then_eq_lt, Ordering.then_eq_eq, Int.compare_eq_lt,
    Int.compare_eq_eq, Nat.compare_eq_lt, Nat.compare_eq_eq, Nat.compare_eq_lt]
  omega

theorem noLater_iff (a b : Hit) : a.noLater b = true ↔
    b.score.key < a.score.key ∨ a.score.key = b.score.key ∧
      (a.address.segment < b.address.segment ∨
        a.address.segment = b.address.segment ∧ a.address.doc ≤ b.address.doc) := by
  unfold noLater rank
  rw [Ordering.isLE_then_iff_or, Ordering.then_eq_lt, Ordering.then_eq_eq, Int.compare_eq_lt,
    Int.compare_eq_eq, Nat.compare_eq_lt, Nat.compare_eq_eq, Nat.isLE_compare]
  omega

/-- A hit comes before another exactly if the other does not come as early. -/
theorem rank_eq_lt_iff_not_noLater (a b : Hit) : a.rank b = .lt ↔ ¬ b.noLater a = true := by
  rw [rank_eq_lt_iff, noLater_iff]
  omega

theorem noLater_trans {a b c : Hit} (hab : a.noLater b = true) (hbc : b.noLater c = true) :
    a.noLater c = true := by
  rw [noLater_iff] at *
  omega

theorem noLater_total (a b : Hit) : (a.noLater b || b.noLater a) = true := by
  rw [Bool.or_eq_true, noLater_iff, noLater_iff]
  omega

theorem address_eq_of_noLater {a b : Hit} (hab : a.noLater b = true) (hba : b.noLater a = true) :
    a.address = b.address := by
  rw [noLater_iff] at hab hba
  apply Address.ext
  · omega
  · omega

/-! ### Ranked lists -/

/-- Every hit of the list comes no later than those after it. -/
def Ranked (hits : List Hit) : Prop := hits.Pairwise fun a b => a.noLater b = true

theorem sort_perm (hits : List Hit) : (sort hits).Perm hits := List.mergeSort_perm hits noLater

theorem ranked_sort (hits : List Hit) : Ranked (sort hits) := by
  unfold Ranked sort
  apply List.pairwise_mergeSort
  · intro a b c hab hbc
    exact noLater_trans hab hbc
  · exact noLater_total

theorem Ranked.sort_eq {hits : List Hit} (h : Ranked hits) : sort hits = hits :=
  List.mergeSort_of_pairwise h

theorem Ranked.take {hits : List Hit} (h : Ranked hits) (k : Nat) : Ranked (hits.take k) :=
  h.sublist (List.take_sublist k hits)

/-- No two hits of the list have one address. -/
def Apart (hits : List Hit) : Prop := (hits.map address).Nodup

theorem Apart.perm {hits hits' : List Hit} (h : Apart hits) (hp : hits.Perm hits') : Apart hits' :=
  (hp.map address).nodup_iff.1 h

theorem Apart.sublist {hits hits' : List Hit} (h : Apart hits) (hs : hits'.Sublist hits) :
    Apart hits' :=
  List.Nodup.sublist (hs.map address) h

/-- A ranked list of hits with distinct addresses is determined by its members. -/
theorem Ranked.eq_of_perm {hits hits' : List Hit} (h : Ranked hits) (h' : Ranked hits')
    (ha : Apart hits) (hp : hits.Perm hits') : hits = hits' := by
  refine List.Perm.eq_of_pairwise (fun a b hma hmb hab hba => ?_) h h' hp
  exact List.inj_on_of_nodup_map ha hma (hp.symm.subset hmb) (address_eq_of_noLater hab hba)

/-- The order in which hits with distinct addresses came makes no difference to their ranking. -/
theorem sort_eq_of_perm {hits hits' : List Hit} (ha : Apart hits) (hp : hits.Perm hits') :
    sort hits = sort hits' := by
  have hp' : (sort hits).Perm (sort hits') :=
    (sort_perm hits).trans (hp.trans (sort_perm hits').symm)
  exact (ranked_sort hits).eq_of_perm (ranked_sort hits') (ha.perm (sort_perm hits).symm) hp'

end Hit

/-! ## Ranking is linear and goes by value

The bits of a score and a place in the index are all that ranking looks at, and on these it is a
linear order: two hits of one rank agree in both (`Hit.rank_eq_eq_iff`).  Scores of any bits have
their place in it, also those that are not a number.  Among numbers the greater one comes first:
values grow with the magnitudes, and so with the keys that ranking compares
(`Score.le_of_key_le`).  All of this is `Hit.rank_linear`. -/

/-! ### The numbers that scores stand for -/

namespace Score

/-- The number that a magnitude stands for: so many units of `2 ^ -scale`, or infinity. -/
noncomputable def valueOf (m : Nat) : EReal :=
  if m < BinaryFormat.single.infinity then
    ((BinaryFormat.single.units m / 2 ^ BinaryFormat.single.scale : ℝ) : EReal)
  else ⊤

/-- The number that a pattern stands for if it is a number, infinities included. -/
noncomputable def value? (s : Score) : Option EReal :=
  if s.isNaN then none
  else some (if s.isNegative then -valueOf s.magnitude else valueOf s.magnitude)

theorem monotone_valueOf : Monotone valueOf := by
  intro m n h
  unfold valueOf
  split
  · split
    · have hunits : BinaryFormat.single.units m ≤ BinaryFormat.single.units n :=
        BinaryFormat.strictMono_units.monotone h
      rw [EReal.coe_le_coe_iff]
      gcongr
    · exact le_top
  · rename_i hm
    rw [if_neg (by omega)]

theorem valueOf_zero : valueOf 0 = 0 := by
  have hunits : BinaryFormat.single.units 0 = 0 := by decide
  rw [valueOf, if_pos (by decide), hunits, Nat.cast_zero, zero_div, EReal.coe_zero]

theorem valueOf_nonneg (m : Nat) : 0 ≤ valueOf m := by
  rw [← valueOf_zero]
  exact monotone_valueOf (Nat.zero_le m)

/-- A score that ranks no higher than another one has no greater value. -/
theorem le_of_key_le {s t : Score} {x y : EReal} (hs : s.value? = some x) (ht : t.value? = some y)
    (h : s.key ≤ t.key) : x ≤ y := by
  have hsigned := signed_le_of_key_le h
  unfold signed at hsigned
  simp only [value?, Option.ite_none_left_eq_some, Option.some.injEq] at hs ht
  obtain ⟨-, rfl⟩ := hs
  obtain ⟨-, rfl⟩ := ht
  by_cases hs : s.isNegative = true
  · by_cases ht : t.isNegative = true
    · rw [if_pos hs, if_pos ht] at hsigned ⊢
      rw [EReal.neg_le_neg_iff]
      exact monotone_valueOf (by omega)
    · rw [if_pos hs, if_neg ht]
      calc -valueOf s.magnitude ≤ 0 := EReal.neg_le_zero.2 (valueOf_nonneg _)
        _ ≤ valueOf t.magnitude := valueOf_nonneg _
  · by_cases ht : t.isNegative = true
    · -- only the two zeros are left
      rw [if_neg hs, if_pos ht] at hsigned ⊢
      have hs0 : s.magnitude = 0 := by omega
      have ht0 : t.magnitude = 0 := by omega
      simp [hs0, ht0, valueOf_zero]
    · rw [if_neg hs, if_neg ht] at hsigned ⊢
      exact monotone_valueOf (by omega)

end Score

/-! ### The order of hits -/

namespace Hit

theorem rank_swap (a b : Hit) : (a.rank b).swap = b.rank a := by
  unfold rank
  rw [Ordering.swap_then, Ordering.swap_then, Int.compare_swap, Nat.compare_swap, Nat.compare_swap]

/-- Hits of one rank have the same bits and the same place. -/
theorem rank_eq_eq_iff (a b : Hit) :
    a.rank b = .eq ↔ a.score.bits = b.score.bits ∧ a.address = b.address := by
  unfold rank
  rw [Ordering.then_eq_eq, Ordering.then_eq_eq, Int.compare_eq_eq, Nat.compare_eq_eq,
    Nat.compare_eq_eq]
  constructor
  · rintro ⟨⟨hkey, hsegment⟩, hdoc⟩
    have hscore : b.score = a.score := Score.key_injective hkey
    exact ⟨by rw [hscore], Address.ext hsegment hdoc⟩
  · rintro ⟨hbits, haddress⟩
    simp [Score.key_eq, hbits, haddress]

/-- Of two hits whose scores are numbers the one with the greater number comes first. -/
theorem rank_eq_lt_of_value_lt {a b : Hit} {x y : EReal} (ha : a.score.value? = some x)
    (hb : b.score.value? = some y) (h : y < x) : a.rank b = .lt := by
  rw [rank_eq_lt_iff]
  left
  by_contra hkey
  exact absurd (Score.le_of_key_le ha hb (not_lt.1 hkey)) (not_le.2 h)

/-- Hits that come no later than each other have the same bits and the same place. -/
theorem isLE_and_isLE_iff (a b : Hit) : (a.rank b).isLE = true ∧ (b.rank a).isLE = true ↔
    a.score.bits = b.score.bits ∧ a.address = b.address := by
  rw [← rank_eq_eq_iff, ← rank_swap a b, Ordering.isLE_swap]
  constructor
  · rintro ⟨hle, hge⟩
    exact Ordering.eq_eq_of_isLE_of_isGE hle hge
  · intro heq
    simp [heq]

/-- Ranking is a linear order of the bits of scores and the places of hits, and hits whose scores
are numbers come in the order of these, the greater first. -/
theorem rank_linear (a b c : Hit) :
    a.rank a = .eq ∧
      (a.rank b).swap = b.rank a ∧
      (a.rank b = .eq ↔ a.score.bits = b.score.bits ∧ a.address = b.address) ∧
      ((a.rank b).isLE = true ∨ (b.rank a).isLE = true) ∧
      ((a.rank b).isLE = true ∧ (b.rank a).isLE = true ↔
        a.score.bits = b.score.bits ∧ a.address = b.address) ∧
      ((a.rank b).isLE = true → (b.rank c).isLE = true → (a.rank c).isLE = true) ∧
      ∀ x y, a.score.value? = some x → b.score.value? = some y → y < x → a.rank b = .lt := by
  refine ⟨?_, rank_swap a b, rank_eq_eq_iff a b, ?_, isLE_and_isLE_iff a b, noLater_trans, ?_⟩
  · rw [rank_eq_eq_iff]
    exact ⟨rfl, rfl⟩
  · have htotal := noLater_total a b
    rwa [Bool.or_eq_true] at htotal
  · intro x y ha hb hlt
    exact rank_eq_lt_of_value_lt ha hb hlt

/-- The least positive number, zero with a sign, and a pattern with a sign that is not a number, in
places the other way round. -/
theorem rank_linear_of_least_number :
    let a : Hit := ⟨1, ⟨0x00000001⟩, ⟨0, 2⟩⟩
    let b : Hit := ⟨2, ⟨0x80000000⟩, ⟨0, 1⟩⟩
    let c : Hit := ⟨3, ⟨0xffc00000⟩, ⟨0, 0⟩⟩
    (∃ x y, a.score.value? = some x ∧ b.score.value? = some y ∧ y < x ∧ a.rank b = .lt) ∧
      (a.rank b).isLE = true ∧ (b.rank c).isLE = true ∧ (a.rank c).isLE = true := by
  intro a b c
  obtain ⟨-, -, -, -, -, htrans, hvalue⟩ := rank_linear a b c
  have hab : (a.rank b).isLE = true := by decide
  have hbc : (b.rank c).isLE = true := by decide
  have ha : a.score.value? = some (Score.valueOf 1) := by
    rw [Score.value?, if_neg (by decide), if_neg (by decide)]
    rfl
  have hb : b.score.value? = some 0 := by
    have hmagnitude : b.score.magnitude = 0 := by decide
    rw [Score.value?, if_neg (by decide), if_pos (by decide), hmagnitude, Score.valueOf_zero,
      neg_zero]
  have hlt : (0 : EReal) < Score.valueOf 1 := by
    have hunits : BinaryFormat.single.units 1 = 1 := by decide
    rw [Score.valueOf, if_pos (by decide), hunits, Nat.cast_one, EReal.coe_pos]
    positivity
  exact ⟨⟨_, _, ha, hb, hlt, hvalue _ _ ha hb hlt⟩, hab, hbc, htrans hab hbc⟩

end Hit

end DatasetSearch
