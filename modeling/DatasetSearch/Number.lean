import DatasetSearch.Text.Basic

/-!
# Numbers

Machine integers, binary floating-point magnitudes as bit patterns, and decimal numbers with their
text.
-/

namespace DatasetSearch

/-! ## Machine integers

The ranges of the integers that fit a word of 64 or 16 bits. -/

namespace Word

/-- The least integer of 64 bits with a sign. -/
def leastSigned : Int := -9223372036854775808

/-- The greatest integer of 64 bits with a sign. -/
def greatestSigned : Int := 9223372036854775807

/-- The greatest integer of 64 bits without a sign. -/
def greatest : Nat := 18446744073709551615

/-- The greatest integer of 16 bits without a sign. -/
def greatestShort : Nat := 65535

end Word

/-- An integer of 64 bits with a sign. -/
def IsWord (n : Int) : Prop := Word.leastSigned ≤ n ∧ n ≤ Word.greatestSigned

instance (n : Int) : Decidable (IsWord n) := inferInstanceAs (Decidable (_ ∧ _))

/-! ## Binary floating-point formats

Magnitudes of IEEE binary numbers as bit patterns without the sign.  Patterns grow with the
magnitudes they stand for, the pattern of infinity follows that of the greatest finite number, and
every pattern above it is not a number.

A finite magnitude is a whole number of *units*, the least positive magnitude of the format
(`units`).  `round` takes any fraction to the nearest magnitude, a tie to the even pattern, and
what lies beyond the range to infinity.  Products and quotients are exact fractions rounded once. -/

/-- The quotient `a / b` rounded to the nearest integer, a tie to the even one. -/
def roundDiv (a b : Nat) : Nat :=
  let q := a / b
  let r := a % b
  if 2 * r < b then q else if b < 2 * r then q + 1 else q + q % 2

/-- An IEEE binary format: `fraction` bits below the leading one and the exponent field `top` of
infinity. -/
structure BinaryFormat where
  fraction : Nat
  top : Nat
  deriving DecidableEq, Repr

namespace BinaryFormat

/-- Single precision. -/
def single : BinaryFormat := ⟨23, 255⟩

/-- Double precision. -/
def double : BinaryFormat := ⟨52, 2047⟩

variable (f : BinaryFormat)

/-- The pattern of infinity. -/
def infinity : Nat := f.top <<< f.fraction

/-- The pattern that stands for all that are not a number. -/
def notANumber : Nat := f.infinity + (1 <<< (f.fraction - 1))

/-- A unit is `2 ^ -scale`. -/
def scale : Nat := f.top / 2 + f.fraction - 1

/-- A finite magnitude in units. -/
def units (m : Nat) : Nat :=
  let exponent := m >>> f.fraction
  let fraction := m % (1 <<< f.fraction)
  if exponent = 0 then fraction else (fraction + (1 <<< f.fraction)) <<< (exponent - 1)

/-- The magnitude nearest to the fraction `a / b` of positive denominator. -/
def round (a b : Nat) : Nat :=
  let whole := (a <<< f.scale) / b
  let shift := whole.log2 - f.fraction
  min f.infinity ((shift <<< f.fraction) + roundDiv (a <<< f.scale) (b <<< shift))

/-- The magnitude of a natural number. -/
def ofNat (n : Nat) : Nat := f.round n 1

/-- The product of two finite magnitudes. -/
def mul (m n : Nat) : Nat := f.round (f.units m * f.units n) (1 <<< (2 * f.scale))

/-- The quotient of two finite magnitudes, the second positive. -/
def div (m n : Nat) : Nat := f.round (f.units m) (f.units n)

/-- The magnitude of format `g` nearest to a magnitude of format `f`. -/
def convert (g : BinaryFormat) (m : Nat) : Nat :=
  if f.infinity < m then g.notANumber
  else if m = f.infinity then g.infinity
  else g.round (f.units m) (1 <<< f.scale)

end BinaryFormat

/-! ## Decimal numbers and their text

A decimal is a whole number of digits times a power of ten.  `ofMagnitude` gives a finite binary
magnitude its shortest decimal: the fewest digits that round back to it and, among those, the
nearest.  `toMagnitude` goes the other way, rounding once.

`Decimal.text` writes the number plainly, with at least one decimal place, from `0.00001` to just
below `10000000000000000`, and with a signed exponent outside that range. -/

/-- The number `digits * 10 ^ exponent`. -/
structure Decimal where
  digits : Nat
  exponent : Int
  deriving DecidableEq, Repr

namespace Decimal

/-- The decimal of the digits before and after a point, times a power of ten. -/
def ofDigits (whole fraction : Text) (exponent : Int) : Decimal :=
  ⟨Text.natOf (whole ++ fraction), exponent - fraction.length⟩

/-- A power of ten. -/
def tenTo (n : Nat) : Nat := Nat.pow 10 n

/-- The value as a fraction. -/
def ratio (d : Decimal) : Nat × Nat :=
  (d.digits * tenTo d.exponent.toNat, tenTo (-d.exponent).toNat)

/-- The number of decimal digits of a natural number; zero has one. -/
def width (n : Nat) : Nat := (Nat.toDigits 10 n).length

/-- The exponent `e` with `10 ^ e ≤ a / b < 10 ^ (e + 1)`, for positive `a` and `b`. -/
def leadingExponent (a b : Nat) : Int :=
  if b ≤ a then width (a / b) - 1
  else
    let places := width (b / a)
    if b ≤ a * tenTo (places - 1) then -(places - 1 : Nat) else -(places : Nat)

/-- Trailing zero digits moved into the exponent, at most `n` of them. -/
def normalize : Nat → Decimal → Decimal
  | 0, d => d
  | n + 1, d => if d.digits % 10 = 0 then normalize n ⟨d.digits / 10, d.exponent + 1⟩ else d

/-- Decimals beyond this many places above the point overflow every format, and those as far below
it vanish. -/
def farthest : Int := 400

/-- The magnitude of format `f` nearest to the decimal. -/
def toMagnitude (f : BinaryFormat) (d : Decimal) : Nat :=
  if d.digits = 0 then 0
  else if farthest < d.exponent + width d.digits then f.infinity
  else if d.exponent + width d.digits < -farthest then 0
  else f.round d.ratio.1 d.ratio.2

/-- The decimal of exponent `e` below and the one above the fraction `a / b`, the nearer first and
of two equally near the even one. -/
def neighbours (a b : Nat) (e : Int) : List Decimal :=
  let num := a * tenTo (-e).toNat
  let den := b * tenTo e.toNat
  let low := num / den
  let rest := num % den
  if 2 * rest < den ∨ (2 * rest = den ∧ low % 2 = 0) then [⟨low, e⟩, ⟨low + 1, e⟩]
  else [⟨low + 1, e⟩, ⟨low, e⟩]

/-- The decimal of `n` significant digits nearest to the positive fraction `a / b`, a tie to the
even one. -/
def ofRatio (n a b : Nat) : Decimal :=
  let e := leadingExponent a b - (n - 1 : Nat)
  let digits := roundDiv (a * tenTo (-e).toNat) (b * tenTo e.toNat)
  if digits = tenTo n then ⟨tenTo (n - 1), e + 1⟩ else ⟨digits, e⟩

/-- The greatest number of digits that tell the magnitudes of a format apart. -/
def mostDigits : Nat := 17

/-- The shortest decimal that rounds to the finite magnitude `m` of format `f`. -/
def ofMagnitude (f : BinaryFormat) (m : Nat) : Decimal :=
  if m = 0 then ⟨0, 0⟩
  else
    let a := f.units m
    let b := 1 <<< f.scale
    let top := leadingExponent a b
    let hit (n : Nat) : Option Decimal :=
      (neighbours a b (top - n)).find? fun d => d.toMagnitude f = m
    normalize 20 (((List.range mostDigits).findSome? hit).getD (ofRatio mostDigits a b))

/-- The power of ten of the first digit. -/
def magnitude (d : Decimal) : Int := d.exponent + width d.digits - 1

/-- The least and the greatest power of ten of the first digit that are written plainly. -/
def plainRange : Int × Int := (-5, 15)

/-- The digits with a point after the first, if there are others. -/
def pointed : Text → Text
  | first :: second :: rest => first :: '.' :: second :: rest
  | digits => digits

/-- The text of the number. -/
def text (d : Decimal) : Text :=
  let digits := Text.ofNat d.digits
  if d.digits = 0 then ['0', '.', '0']
  else if plainRange.1 ≤ d.magnitude ∧ d.magnitude ≤ plainRange.2 then
    if 0 ≤ d.exponent then digits ++ List.replicate d.exponent.toNat '0' ++ ['.', '0']
    else if 0 ≤ d.magnitude then
      digits.take (d.magnitude.toNat + 1) ++ ['.'] ++ digits.drop (d.magnitude.toNat + 1)
    else ['0', '.'] ++ List.replicate (-d.magnitude - 1).toNat '0' ++ digits
  else pointed digits ++ ['e'] ++ (if 0 ≤ d.magnitude then ['+'] else []) ++ Text.ofInt d.magnitude

end Decimal

end DatasetSearch
