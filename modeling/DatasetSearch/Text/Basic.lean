/-!
# Texts

A text is a list of characters.  White space is the Unicode property White_Space, and positions in
a text are counted in bytes of its UTF-8 form where they are reported.  What is read in a text is
read off its front: rows of digits, quoted strings, and slices between byte positions.
-/

namespace DatasetSearch

/-- A text is the list of its characters. -/
abbrev Text := List Char

namespace Text

/-- A white-space character. -/
def isBlank (c : Char) : Bool :=
  let n := c.toNat
  (9 ≤ n && n ≤ 13) || n == 0x20 || n == 0x85 || n == 0xA0 || n == 0x1680 ||
    (0x2000 ≤ n && n ≤ 0x200A) || n == 0x2028 || n == 0x2029 || n == 0x202F || n == 0x205F ||
    n == 0x3000

/-- The text without white space at either end. -/
def trim (t : Text) : Text :=
  ((t.dropWhile isBlank).reverse.dropWhile isBlank).reverse

/-- The number of bytes of the text in UTF-8. -/
def utf8Size : Text → Nat
  | [] => 0
  | c :: t => c.utf8Size + utf8Size t

@[simp] theorem utf8Size_nil : utf8Size [] = 0 := rfl

@[simp] theorem utf8Size_cons (c : Char) (t : Text) :
    utf8Size (c :: t) = c.utf8Size + utf8Size t := rfl

@[simp] theorem utf8Size_append (s t : Text) : utf8Size (s ++ t) = utf8Size s + utf8Size t := by
  induction s with
  | nil => simp
  | cons c s ih => simp [ih, Nat.add_assoc]

/-- The text that bytes stand for, if they are UTF-8. -/
def ofBytes? (bytes : List UInt8) : Option Text :=
  (String.fromUTF8? ⟨bytes.toArray⟩).map String.toList

/-- The bytes of the text in UTF-8. -/
def toBytes (t : Text) : List UInt8 := (String.ofList t).toUTF8.toList

/-- A natural number in decimal digits. -/
def ofNat (n : Nat) : Text := Nat.toDigits 10 n

/-- An integer in decimal digits, after a minus sign if it is negative. -/
def ofInt : Int → Text
  | .ofNat n => ofNat n
  | .negSucc n => '-' :: ofNat (n + 1)

/-- The parts one after the other, with `separator` between neighbours. -/
def join (separator : Text) (parts : List Text) : Text := separator.intercalate parts

/-- The pieces of the text between the occurrences of `mark`. -/
def split (mark : Char) : Text → List Text
  | [] => [[]]
  | c :: rest =>
    if c = mark then [] :: split mark rest
    else match split mark rest with
      | [] => [[c]]
      | piece :: pieces => (c :: piece) :: pieces

/-- What follows `lead` in the text, if the text begins with it. -/
def after? : Text → Text → Option Text
  | [], t => some t
  | c :: lead, d :: t => if c = d then after? lead t else none
  | _ :: _, [] => none

/-- An ASCII letter in lower case; any other character as it is. -/
def lowerAscii (t : Text) : Text := t.map Char.toLower

end Text

/-! ## Digits

Rows of decimal and hexadecimal digits and the numbers they stand for. -/

namespace Text

/-- The value of a decimal digit. -/
def digit (c : Char) : Nat := c.toNat - '0'.toNat

/-- The natural number of a row of decimal digits. -/
def natOf (digits : Text) : Nat := digits.foldl (fun n c => 10 * n + digit c) 0

/-- The decimal digits at the front of a text. -/
def digits (s : Text) : Text := s.takeWhile Char.isDigit

/-- The text after the decimal digits at its front. -/
def afterDigits (s : Text) : Text := s.dropWhile Char.isDigit

/-- The value of a hexadecimal digit. -/
def hexDigit? (c : Char) : Option Nat :=
  if c.isDigit then some (digit c)
  else if 'a' ≤ c ∧ c ≤ 'f' then some (c.toNat - 'a'.toNat + 10)
  else if 'A' ≤ c ∧ c ≤ 'F' then some (c.toNat - 'A'.toNat + 10)
  else none

/-- The number of a row of hexadecimal digits. -/
def hexNumber? (digits : Text) : Option Nat :=
  digits.foldlM (fun n c => (hexDigit? c).map (16 * n + ·)) 0

/-- The character with a code point, if there is one. -/
def charOf? (n : Nat) : Option Char := if n.isValidChar then some (Char.ofNat n) else none

/-- The digits in front of a text and what follows them; none if there are none. -/
def digits? (s : Text) : Option (Text × Text) :=
  if (digits s).isEmpty then none else some (digits s, afterDigits s)

/-! ## Slices by bytes

Cutting a text at a byte position.  A character that lies across the position belongs to neither
part of `takeBytes`; at the positions of tokens this does not happen. -/

/-- The characters that lie within the first `n` bytes. -/
def takeBytes (n : Nat) : Text → Text
  | [] => []
  | c :: rest => if c.utf8Size ≤ n then c :: takeBytes (n - c.utf8Size) rest else []

/-- The characters after those that lie within the first `n` bytes. -/
def dropBytes (n : Nat) : Text → Text
  | [] => []
  | c :: rest => if c.utf8Size ≤ n then dropBytes (n - c.utf8Size) rest else c :: rest

/-- The bytes from `a` up to `b`. -/
def slice (a b : Nat) (t : Text) : Text := takeBytes (b - a) (dropBytes a t)

/-- A character of the text begins at byte `n`, or the text ends there. -/
def isBoundary : Nat → Text → Bool
  | n, [] => n = 0
  | n, c :: rest => n = 0 || (c.utf8Size ≤ n && isBoundary (n - c.utf8Size) rest)

/-- The bytes from `a` up to `b`, if both are boundaries of the text and stand in this order. -/
def slice? (a b : Nat) (t : Text) : Option Text :=
  if a ≤ b ∧ isBoundary a t ∧ isBoundary b t then some (slice a b t) else none

/-- The two parts make up the text. -/
theorem takeBytes_append_dropBytes (n : Nat) (t : Text) : takeBytes n t ++ dropBytes n t = t := by
  induction t generalizing n with
  | nil => rfl
  | cons c rest ih =>
    by_cases h : c.utf8Size ≤ n
    · simp [takeBytes, dropBytes, h, ih]
    · simp [takeBytes, dropBytes, h]

/-- A cut between two texts finds both of them. -/
theorem takeBytes_utf8Size_append (s t : Text) : takeBytes (utf8Size s) (s ++ t) = s := by
  induction s with
  | nil =>
    cases t with
    | nil => rfl
    | cons c rest => simp [takeBytes, Nat.not_le.2 c.utf8Size_pos]
  | cons c rest ih => simp [takeBytes, ih]

theorem dropBytes_utf8Size_append (s t : Text) : dropBytes (utf8Size s) (s ++ t) = t := by
  have h := takeBytes_append_dropBytes (utf8Size s) (s ++ t)
  rw [takeBytes_utf8Size_append] at h
  exact List.append_cancel_left h

end Text

/-! ## Quoted strings

A string in double quotes, in which a backslash begins an escape: a letter for a control character,
a quote or a backslash, or `u` and `U` with the four or eight hexadecimal digits of a code point.
Control characters other than a tab have to be escaped. -/

namespace Text.Quoted

/-- A character that may stand in a string as it is. -/
def isPlain (c : Char) : Bool := c = '\t' || (0x20 ≤ c.toNat && c.toNat ≠ 0x7F)

/-- The character that a one-letter escape stands for. -/
def escape? : Char → Option Char
  | '"' => some '"'
  | '\\' => some '\\'
  | 'b' => some '\x08'
  | 'f' => some '\x0c'
  | 'n' => some '\n'
  | 'r' => some '\r'
  | 't' => some '\t'
  | _ => none

/-- The character whose code point has these hexadecimal digits. -/
def charOfHex? (digits : Text) : Option Char := (hexNumber? digits).bind charOf?

/-- A character in front of a string that is read in some way. -/
def prepend (c : Option Char) (read : Option (Text × Text)) : Option (Text × Text) :=
  match c, read with
  | some c, some (t, rest) => some (c :: t, rest)
  | _, _ => none

/-- The text of a string after its opening quote, and what follows the closing one. -/
def read : Text → Option (Text × Text)
  | [] => none
  | '"' :: rest => some ([], rest)
  | '\\' :: 'u' :: a :: b :: c :: d :: rest => prepend (charOfHex? [a, b, c, d]) (read rest)
  | '\\' :: 'U' :: a :: b :: c :: d :: e :: f :: g :: h :: rest =>
    prepend (charOfHex? [a, b, c, d, e, f, g, h]) (read rest)
  | '\\' :: c :: rest => prepend (escape? c) (read rest)
  | c :: rest => if isPlain c then prepend (some c) (read rest) else none

end Text.Quoted

end DatasetSearch
