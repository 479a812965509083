import DatasetSearch.Number
import DatasetSearch.Ranking
import DatasetSearch.Text.Basic

/-!
# Reading JSON

The numbers and the trees of JSON, and the reader that takes a text to its tree.
-/

namespace DatasetSearch

/-! ## JSON numbers

A number literal is kept as it is written until a use asks for its value.  An integer literal in
`[-2^63, 2^64 - 1]` other than `-0` is an integer.  Every other literal is a double-precision
number: its first digits that fit 64 bits, scaled by one multiplication or division by a power of
ten (several divisions far below one).  A literal beyond the range of doubles has no value. -/

namespace Json

open Text (digit)

/-- A number as it is written: sign, digits before and after the point, exponent. -/
structure Literal where
  negative : Bool
  whole : Text
  fraction : Text
  exponent : Option Int
  deriving DecidableEq, Repr

/-- The value of a number literal. -/
inductive Numeral
  | integer (n : Int)
  | real (f : BinaryFormat) (negative : Bool) (magnitude : Nat)
  deriving DecidableEq, Repr

namespace Literal

/-- A literal without point and exponent. -/
def isInteger (l : Literal) : Bool := l.fraction.isEmpty && l.exponent.isNone

/-- `10 * s + d`, if it fits 64 bits. -/
def absorb (s d : Nat) : Option Nat :=
  if 10 * s + d ≤ Word.greatest then some (10 * s + d) else none

/-- Reads digits before the point on top of `s`: the significand and the number of digits that did
not fit. -/
def significand (s : Nat) : Text → Nat × Nat
  | [] => (s, 0)
  | c :: rest => match absorb s (digit c) with
    | some s' => significand s' rest
    | none => (s, rest.length + 1)

/-- Reads digits after the point on top of `s`: the significand and the number of digits read. -/
def refine (s : Nat) : Text → Nat × Nat
  | [] => (s, 0)
  | c :: rest => match absorb s (digit c) with
    | some s' => ((refine s' rest).1, (refine s' rest).2 + 1)
    | none => (s, 0)

/-- The double nearest to a power of ten. -/
def power (e : Nat) : Nat := BinaryFormat.double.ofNat (Decimal.tenTo e)

/-- The greatest power of ten that is a double. -/
def greatestPower : Nat := 308

/-- Scales the double `m` by `10 ^ e`, in at most `steps + 1` steps; nothing if it overflows. -/
def scale (steps : Nat) (m : Nat) (e : Int) : Option Nat :=
  if e.natAbs ≤ greatestPower then
    if 0 ≤ e then
      let product := BinaryFormat.double.mul m (power e.natAbs)
      if product = BinaryFormat.double.infinity then none else some product
    else some (BinaryFormat.double.div m (power e.natAbs))
  else if m = 0 then some 0
  else if 0 ≤ e then none
  else match steps with
    | 0 => some 0
    | steps + 1 => scale steps (BinaryFormat.double.div m (power greatestPower)) (e + greatestPower)

/-- The value of a literal; none if it is beyond the range of doubles. -/
def value (l : Literal) : Option Numeral :=
  let (s, dropped) := significand 0 l.whole
  if l.isInteger ∧ dropped = 0 then
    if l.negative then
      if s = 0 ∨ -(s : Int) < Word.leastSigned then
        some (.real .double true (BinaryFormat.double.ofNat s))
      else some (.integer (-s))
    else some (.integer s)
  else
    let (t, used) := refine s l.fraction
    (scale 3 (BinaryFormat.double.ofNat t) (dropped - used + l.exponent.getD 0)).map
      (.real .double l.negative)

end Literal

namespace Numeral

/-- The score nearest to the number. -/
def toScore : Numeral → Score
  | .integer n => .ofInt n
  | .real f negative m => .ofMagnitude negative (f.convert .single m)

/-- The number of a finite score. -/
def ofScore (s : Score) : Numeral := .real .single s.isNegative s.magnitude

/-- The text of the number: an integer in full, any other in its shortest decimal. -/
def text : Numeral → Text
  | .integer n => Text.ofInt n
  | .real f negative m => (if negative then ['-'] else []) ++ (Decimal.ofMagnitude f m).text

end Numeral

/-! ## JSON as it is read

Reading never fails: what is not JSON becomes a `broken` node, and a list or object that breaks off
is not `closed`.  So a reader that goes through the tree from left to right meets a wrong value and
a fault of the notation in the order in which they are written.

Strings keep apart plain characters, escapes and `\uXXXX` units.  Whether the units pair up is a
matter of reading the string as a text (`textOf`); skipping it does not ask. -/

/-- A character or half of one, by the way it is written in a string. -/
inductive Piece
  | plain (c : Char)
  | escaped (c : Char)
  | unit (n : Nat)
  deriving DecidableEq, Repr

/-- A JSON text up to the point where it breaks off. -/
inductive Tree
  | null
  | bool (b : Bool)
  | number (l : Literal)
  | string (pieces : List Piece)
  | list (items : List Tree) (closed : Bool)
  | object (members : List (List Piece × Tree)) (closed : Bool)
  | broken

/-- The first half of a character above U+FFFF. -/
def isHigh (n : Nat) : Bool := 0xD800 ≤ n && n ≤ 0xDBFF

/-- The second half of a character above U+FFFF. -/
def isLow (n : Nat) : Bool := 0xDC00 ≤ n && n ≤ 0xDFFF

/-- The text of a string; none if it has half a character. -/
def textOf : List Piece → Option Text
  | [] => some []
  | .plain c :: rest => (textOf rest).map (c :: ·)
  | .escaped c :: rest => (textOf rest).map (c :: ·)
  | .unit n :: .unit m :: rest =>
    if isHigh n then
      if isLow m then
        (textOf rest).map (Char.ofNat (0x10000 + (n - 0xD800) * 0x400 + (m - 0xDC00)) :: ·)
      else none
    else if isLow n then none
    else (textOf (.unit m :: rest)).map (Char.ofNat n :: ·)
  | .unit n :: rest =>
    if isHigh n || isLow n then none else (textOf rest).map (Char.ofNat n :: ·)

mutual

/-- The tree is of complete JSON. -/
def Tree.isSound : Tree → Bool
  | .null | .bool _ | .number _ | .string _ => true
  | .list items closed => areSound items && closed
  | .object members closed => areSoundMembers members && closed
  | .broken => false

/-- All the items are sound. -/
def areSound : List Tree → Bool
  | [] => true
  | t :: ts => t.isSound && areSound ts

/-- The values of all the members are sound. -/
def areSoundMembers : List (List Piece × Tree) → Bool
  | [] => true
  | (_, t) :: ms => t.isSound && areSoundMembers ms

end

/-! ## The reader

`read` takes one JSON value off the front of a text.  The notation is strict: no comments, no comma
before a closing bracket, no control character in a string, no leading zero.  The functions on one
kind of value return what is left of the text; nothing is left where it breaks off. -/

open Text (digits afterDigits natOf hexNumber?)

/-- White space between the parts of JSON. -/
def isSpace (c : Char) : Bool := c = ' ' || c = '\n' || c = '\r' || c = '\t'

/-- The text from its first character that is not white space. -/
def skipSpace (s : Text) : Text := s.dropWhile isSpace

/-- The character that a one-letter escape stands for. -/
def escape? : Char → Option Char
  | '"' => some '"'
  | '\\' => some '\\'
  | '/' => some '/'
  | 'b' => some '\x08'
  | 'f' => some '\x0c'
  | 'n' => some '\n'
  | 'r' => some '\r'
  | 't' => some '\t'
  | _ => none

/-- The pieces of a string after its opening quote, and what follows the closing one. -/
def readString : Text → Option (List Piece × Text)
  | [] => none
  | '"' :: rest => some ([], rest)
  | '\\' :: 'u' :: a :: b :: c :: d :: rest =>
    match hexNumber? [a, b, c, d], readString rest with
    | some n, some (pieces, rest') => some (.unit n :: pieces, rest')
    | _, _ => none
  | '\\' :: c :: rest =>
    match escape? c, readString rest with
    | some e, some (pieces, rest') => some (.escaped e :: pieces, rest')
    | _, _ => none
  | c :: rest =>
    if c.toNat < 0x20 then none
    else (readString rest).map fun p => (.plain c :: p.1, p.2)

/-- The fraction at the front of a text: empty if there is no point, none if no digit follows it. -/
def readFraction : Text → Option (Text × Text)
  | '.' :: rest => if (digits rest).isEmpty then none else some (digits rest, afterDigits rest)
  | s => some ([], s)

/-- The digits of an exponent with its sign. -/
def readPower (negative : Bool) (s : Text) : Option (Option Int × Text) :=
  if (digits s).isEmpty then none
  else
    let n : Int := natOf (digits s)
    some (some (if negative then -n else n), afterDigits s)

/-- The exponent at the front of a text, if there is one; none if it has no digit. -/
def readExponent : Text → Option (Option Int × Text)
  | 'e' :: '+' :: rest | 'E' :: '+' :: rest => readPower false rest
  | 'e' :: '-' :: rest | 'E' :: '-' :: rest => readPower true rest
  | 'e' :: rest | 'E' :: rest => readPower false rest
  | s => some (none, s)

/-- The number literal at the front of a text, after its sign. -/
def readUnsigned (negative : Bool) (s : Text) : Option (Literal × Text) := do
  let whole := digits s
  if whole.isEmpty ∨ (whole.head? = some '0' ∧ 1 < whole.length) then none
  let (fraction, s) ← readFraction (afterDigits s)
  let (exponent, s) ← readExponent s
  return (⟨negative, whole, fraction, exponent⟩, s)

/-- The number literal at the front of a text. -/
def readLiteral : Text → Option (Literal × Text)
  | '-' :: rest => readUnsigned true rest
  | s => readUnsigned false s

mutual

/-- The value at the front of a text, read in at most `fuel` nested steps. -/
def readTree (fuel : Nat) (s : Text) : Tree × Text :=
  match fuel with
  | 0 => (.broken, [])
  | fuel + 1 => match skipSpace s with
    | 'n' :: 'u' :: 'l' :: 'l' :: rest => (.null, rest)
    | 't' :: 'r' :: 'u' :: 'e' :: rest => (.bool true, rest)
    | 'f' :: 'a' :: 'l' :: 's' :: 'e' :: rest => (.bool false, rest)
    | '"' :: rest => match readString rest with
      | some (pieces, rest') => (.string pieces, rest')
      | none => (.broken, [])
    | '[' :: rest =>
      let (items, closed, rest') := readItems fuel true rest
      (.list items closed, rest')
    | '{' :: rest =>
      let (members, closed, rest') := readMembers fuel true rest
      (.object members closed, rest')
    | rest => match readLiteral rest with
      | some (l, rest') => (.number l, rest')
      | none => (.broken, [])

/-- The items of a list up to its closing bracket; `first` if none was read before. -/
def readItems (fuel : Nat) (first : Bool) (s : Text) : List Tree × Bool × Text :=
  match fuel with
  | 0 => ([], false, [])
  | fuel + 1 =>
    let item (s : Text) : List Tree × Bool × Text :=
      let (t, rest) := readTree fuel s
      let (ts, closed, rest') := readItems fuel false rest
      (t :: ts, closed, rest')
    match skipSpace s with
    | [] => ([], false, [])
    | ']' :: rest => ([], true, rest)
    | ',' :: rest =>
      if first then item (',' :: rest)
      else match skipSpace rest with
        | [] | ']' :: _ => ([], false, [])
        | rest' => item rest'
    | rest => if first then item rest else ([], false, [])

/-- The members of an object up to its closing brace; `first` if none was read before. -/
def readMembers (fuel : Nat) (first : Bool) (s : Text) :
    List (List Piece × Tree) × Bool × Text :=
  match fuel with
  | 0 => ([], false, [])
  | fuel + 1 =>
    let member (s : Text) : List (List Piece × Tree) × Bool × Text :=
      match readString s with
      | none => ([], false, [])
      | some (key, rest) => match skipSpace rest with
        | ':' :: rest' =>
          let (t, rest'') := readTree fuel rest'
          let (ms, closed, rest''') := readMembers fuel false rest''
          ((key, t) :: ms, closed, rest''')
        | _ => ([(key, .broken)], false, [])
    match skipSpace s with
    | '}' :: rest => ([], true, rest)
    | '"' :: rest => if first then member rest else ([], false, [])
    | ',' :: rest =>
      if first then ([], false, [])
      else match skipSpace rest with
        | '"' :: rest' => member rest'
        | _ => ([], false, [])
    | _ => ([], false, [])

end

/-- The value at the front of a text and what follows it. -/
def read (s : Text) : Tree × Text := readTree (2 * s.length + 2) s

/-- The value of a whole text; broken if anything but white space follows it. -/
def readAll (s : Text) : Tree :=
  match read s with
  | (t, rest) => if (skipSpace rest).isEmpty then t else .broken

end Json

end DatasetSearch
