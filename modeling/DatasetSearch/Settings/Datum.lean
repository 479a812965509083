import DatasetSearch.Number
import DatasetSearch.Text.Basic

/-!
# Data of settings

What a source of settings may give: a settings file or the environment.  A number with a fraction is
of double precision.
-/

namespace DatasetSearch

/-- A value that a source of settings gives. -/
inductive Datum
  | text (t : Text)
  | bool (b : Bool)
  | integer (n : Int)
  | real (negative : Bool) (magnitude : Nat)
  | moment
  | list (items : List Datum)
  | table (entries : List (Text × Datum))
  deriving Inhabited

/-! ## Values of variables

An environment variable holds a text, which may write a value of another kind: `true` or `false`, a
number, a list in brackets, a table in braces, a string in quotes.  `Datum.ofVariable` reads it so;
a text that is no such value to its end stands for itself, white space at its ends included. -/

namespace Datum

open Text (natOf digits afterDigits digits?)

/-- White space between the parts of a value. -/
def isSpace (c : Char) : Bool := c = ' ' || c = '\t' || c = '\n' || c = '\x0c' || c = '\r'

/-- The text from its first character that is not white space. -/
def skipSpace (s : Text) : Text := s.dropWhile isSpace

/-- A character that ends a word. -/
def isSeparator (c : Char) : Bool := c = ',' || c = '{' || c = '}' || c = '[' || c = ']'

/-- The sign in front of a text, and what follows it. -/
def splitSign : Text → Bool × Text
  | '-' :: rest => (true, rest)
  | '+' :: rest => (false, rest)
  | s => (false, s)

/-- The exponent that a text consists of; an empty text is none, and stands for zero. -/
def exponent? : Text → Option Int
  | [] => some 0
  | 'e' :: rest | 'E' :: rest =>
    let (negative, s) := splitSign rest
    match digits? s with
    | some (ds, []) => some (if negative then -(natOf ds : Int) else natOf ds)
    | _ => none
  | _ => none

/-- The number that a text with a decimal point writes.  Digits may be missing on one side of the
point. -/
def real? (t : Text) : Option Datum :=
  let (negative, s) := splitSign t
  match afterDigits s with
  | '.' :: rest =>
    let whole := digits s
    let fraction := digits rest
    if whole.isEmpty ∧ fraction.isEmpty then none
    else (exponent? (afterDigits rest)).map fun e =>
      .real negative ((Decimal.ofDigits whole fraction e).toMagnitude .double)
  | _ => none

/-- The integer that a text writes, if it fits 64 bits with or without a sign. -/
def integer? (t : Text) : Option Datum :=
  let (negative, s) := splitSign t
  match digits? s with
  | some (ds, []) =>
    let n : Int := if negative then -(natOf ds : Int) else natOf ds
    if Word.leastSigned ≤ n ∧ n ≤ Word.greatest then some (.integer n) else none
  | _ => none

/-- The value of a word: a number or a text. -/
def ofWord (t : Text) : Datum := ((real? t).or (integer? t)).getD (.text t)

/-- The key in front of a text. -/
def readKey : Text → Option (Text × Text)
  | '"' :: rest => Text.Quoted.read rest
  | s =>
    let key := s.takeWhile fun c => c.isAlphanum || c = '_' || c = '-'
    if key.isEmpty then none else some (key, s.drop key.length)

mutual

/-- The value in front of a text, without white space around it, read in at most `fuel` steps. -/
def readValue (fuel : Nat) (s : Text) : Option (Datum × Text) :=
  match fuel with
  | 0 => none
  | fuel + 1 => do
    let (d, rest) ← match skipSpace s with
      | 't' :: 'r' :: 'u' :: 'e' :: rest => some (.bool true, rest)
      | 'f' :: 'a' :: 'l' :: 's' :: 'e' :: rest => some (.bool false, rest)
      | '{' :: rest => (readEntries fuel rest).map fun r => (.table r.1, r.2)
      | '[' :: rest => (readItems fuel rest).map fun r => (.list r.1, r.2)
      | '"' :: rest => (Text.Quoted.read rest).map fun r => (.text r.1, r.2)
      | '\'' :: c :: '\'' :: rest => some (.text [c], rest)
      | '\'' :: _ => none
      | s => some (ofWord (Text.trim (s.takeWhile (!isSeparator ·))), s.dropWhile (!isSeparator ·))
    return (d, skipSpace rest)

/-- The items of a list, up to its closing bracket. -/
def readItems (fuel : Nat) (s : Text) : Option (List Datum × Text) :=
  match fuel with
  | 0 => none
  | fuel + 1 => match s with
    | ']' :: rest => some ([], rest)
    | s => do
      let (d, s) ← readValue fuel s
      match s with
      | ']' :: rest => return ([d], rest)
      | ',' :: rest => do
        let (ds, rest) ← readItems fuel rest
        return (d :: ds, rest)
      | _ => none

/-- The entries of a table, up to its closing brace. -/
def readEntries (fuel : Nat) (s : Text) : Option (List (Text × Datum) × Text) :=
  match fuel with
  | 0 => none
  | fuel + 1 => match s with
    | '}' :: rest => some ([], rest)
    | s => do
      let (key, s) ← readKey (skipSpace s)
      let s ← Text.after? ['='] (skipSpace s)
      let (d, s) ← readValue fuel s
      match s with
      | '}' :: rest => return ([(key, d)], rest)
      | ',' :: rest => do
        let (es, rest) ← readEntries fuel rest
        return ((key, d) :: es, rest)
      | _ => none

end

/-- The value that a variable writes. -/
def ofVariable (value : Text) : Datum :=
  match readValue (2 * value.length + 2) value with
  | some (d, []) => d
  | _ => .text value

end Datum

end DatasetSearch
