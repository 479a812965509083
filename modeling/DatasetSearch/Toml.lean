import DatasetSearch.Dictionary
import DatasetSearch.Number
import DatasetSearch.Settings.Datum
import DatasetSearch.Text.Basic

/-!
# Settings files

The part of TOML in which settings are written: strings and keys, numbers and moments, tables, and
the reader of a whole file.
-/

namespace DatasetSearch

/-! ## Space, lines and strings in TOML

Lines end in a line feed, with or without a carriage return before it.  A string in three quotes may
run over lines, each of which ends in a line feed as far as its text goes. -/

namespace Toml

open Text.Quoted (isPlain escape? charOfHex? prepend)

/-- Space within a line. -/
def isSpace (c : Char) : Bool := c = ' ' || c = '\t'

/-- The text from its first character that is no space. -/
def skipSpace (s : Text) : Text := s.dropWhile isSpace

/-- What follows the end of a line in front of a text. -/
def lineEnd? : Text → Option Text
  | '\n' :: rest => some rest
  | '\r' :: '\n' :: rest => some rest
  | _ => none

/-- The text without the end of a line in front of it, if there is one. -/
def skipLineEnd (s : Text) : Text := (lineEnd? s).getD s

/-- What follows the rest of a line that holds nothing more than a comment. -/
def endLine? (s : Text) : Option Text :=
  match skipSpace s with
  | [] => some []
  | '#' :: rest => match rest.dropWhile isPlain with
    | [] => some []
    | rest' => lineEnd? rest'
  | rest => lineEnd? rest

/-- The text without the space, ends of lines and comments in front of it. -/
def skipLines (inComment : Bool) : Text → Text
  | [] => []
  | '\n' :: rest => skipLines false rest
  | '\r' :: '\n' :: rest => skipLines false rest
  | c :: rest =>
    if inComment then if isPlain c then skipLines true rest else c :: rest
    else if isSpace c then skipLines false rest
    else if c = '#' then skipLines true rest
    else c :: rest

/-- The text of a string in single quotes after the opening one, and what follows the closing
one. -/
def readLiteral : Text → Option (Text × Text)
  | [] => none
  | '\'' :: rest => some ([], rest)
  | c :: rest => if isPlain c then prepend (some c) (readLiteral rest) else none

/-- As `readLiteral`, of a string in three single quotes.  One or two more may stand right before
the closing ones. -/
def readLiteralLines : Text → Option (Text × Text)
  | [] => none
  | '\'' :: '\'' :: '\'' :: '\'' :: '\'' :: rest => some (['\'', '\''], rest)
  | '\'' :: '\'' :: '\'' :: '\'' :: rest => some (['\''], rest)
  | '\'' :: '\'' :: '\'' :: rest => some ([], rest)
  | '\r' :: '\n' :: rest => prepend (some '\n') (readLiteralLines rest)
  | c :: rest => if isPlain c ∨ c = '\n' then prepend (some c) (readLiteralLines rest) else none

/-- Nothing is left of the line. -/
def endsLine (s : Text) : Bool := (lineEnd? (skipSpace s)).isSome

/-- As `Text.Quoted.read`, of a string in three double quotes.  One or two more may stand right
before the closing ones.  A backslash at the end of a line takes away all space and lines up to the
next character; `folding` while that lasts. -/
def readQuotedLines (folding : Bool) : Text → Option (Text × Text)
  | [] => none
  | '"' :: '"' :: '"' :: '"' :: '"' :: rest => some (['"', '"'], rest)
  | '"' :: '"' :: '"' :: '"' :: rest => some (['"'], rest)
  | '"' :: '"' :: '"' :: rest => some ([], rest)
  | '\\' :: 'u' :: a :: b :: c :: d :: rest =>
    prepend (charOfHex? [a, b, c, d]) (readQuotedLines false rest)
  | '\\' :: 'U' :: a :: b :: c :: d :: e :: f :: g :: h :: rest =>
    prepend (charOfHex? [a, b, c, d, e, f, g, h]) (readQuotedLines false rest)
  | '\\' :: c :: rest =>
    if endsLine (c :: rest) then readQuotedLines true rest
    else prepend (escape? c) (readQuotedLines false rest)
  | '\r' :: '\n' :: rest =>
    if folding then readQuotedLines true rest else prepend (some '\n') (readQuotedLines false rest)
  | c :: rest =>
    if folding ∧ (isSpace c ∨ c = '\n') then readQuotedLines true rest
    else if isPlain c ∨ c = '\n' then prepend (some c) (readQuotedLines false rest)
    else none

/-- The string in front of a text, in any of the four notations. -/
def readString : Text → Option (Text × Text)
  | '"' :: '"' :: '"' :: rest => readQuotedLines false (skipLineEnd rest)
  | '\'' :: '\'' :: '\'' :: rest => readLiteralLines (skipLineEnd rest)
  | '"' :: rest => Text.Quoted.read rest
  | '\'' :: rest => readLiteral rest
  | _ => none

/-! ## Numbers and moments in TOML

An underscore may separate two digits of a number.  Integers are of 64 bits with a sign; other
numbers are rounded to double precision once, and a positive one may not round to infinity.  Dates
and times are checked against the calendar, but what they say is not kept. -/

open Text (natOf)

/-- The digits, those of `p`, in front of a text, without the underscores between them, and what
follows them. -/
def row (p : Char → Bool) : Text → Text × Text
  | [] => ([], [])
  | '_' :: c :: rest =>
    if p c then (c :: (row p rest).1, (row p rest).2) else ([], '_' :: c :: rest)
  | c :: rest => if p c then (c :: (row p rest).1, (row p rest).2) else ([], c :: rest)

/-- As `row`, but there has to be a digit in front. -/
def row? (p : Char → Bool) (s : Text) : Option (Text × Text) :=
  if s.head?.any p then some (row p s) else none

/-- The number of a row of digits to a base. -/
def natOfBase (base : Nat) (digits : Text) : Nat :=
  digits.foldl (fun n c => base * n + (Text.hexDigit? c).getD 0) 0

/-- An integer, if it fits 64 bits with a sign. -/
def integer? (n : Int) : Option Datum :=
  if Word.leastSigned ≤ n ∧ n ≤ Word.greatestSigned then some (.integer n) else none

/-- A number to a base other than ten, after its mark. -/
def readBased (base : Nat) (p : Char → Bool) (s : Text) : Option (Datum × Text) := do
  let (digits, rest) ← row? p s
  let d ← integer? (natOfBase base digits)
  return (d, rest)

/-- The fraction in front of a text, if there is one. -/
def readFraction : Text → Option Text × Text
  | '.' :: rest => match row? Char.isDigit rest with
    | some (digits, rest') => (some digits, rest')
    | none => (none, '.' :: rest)
  | s => (none, s)

/-- The digits of an exponent with its sign. -/
def readPower (negative : Bool) (s : Text) : Option (Int × Text) := do
  let (digits, rest) ← row? Char.isDigit s
  let n : Int := natOf digits
  return (if negative then -n else n, rest)

/-- The exponent in front of a text, if there is one. -/
def readExponent (s : Text) : Option Int × Text :=
  let power := match s with
    | 'e' :: '-' :: rest | 'E' :: '-' :: rest => readPower true rest
    | 'e' :: '+' :: rest | 'E' :: '+' :: rest => readPower false rest
    | 'e' :: rest | 'E' :: rest => readPower false rest
    | _ => none
  match power with
  | some (n, rest) => (some n, rest)
  | none => (none, s)

/-- The number that is not an integer, from its parts; none if it is too great. -/
def real? (negative : Bool) (whole fraction : Text) (exponent : Int) : Option Datum :=
  let m := (Decimal.ofDigits whole fraction exponent).toMagnitude .double
  if m = BinaryFormat.double.infinity ∧ !negative then none else some (.real negative m)

/-- The decimal number in front of a text, after its sign. -/
def readUnsigned (negative : Bool) (s : Text) : Option (Datum × Text) :=
  match s with
  | 'i' :: 'n' :: 'f' :: rest => some (.real negative BinaryFormat.double.infinity, rest)
  | 'n' :: 'a' :: 'n' :: rest => some (.real negative BinaryFormat.double.notANumber, rest)
  | _ => do
    let (whole, rest) ← row? Char.isDigit s
    if whole.head? = some '0' ∧ 1 < whole.length then none
    let (fraction, rest) := readFraction rest
    let (exponent, rest) := readExponent rest
    if fraction.isNone ∧ exponent.isNone then
      let d ← integer? (if negative then -natOf whole else natOf whole)
      return (d, rest)
    else
      let d ← real? negative whole (fraction.getD []) (exponent.getD 0)
      return (d, rest)

/-- The number in front of a text. -/
def readNumber : Text → Option (Datum × Text)
  | '0' :: 'x' :: rest => readBased 16 (fun c => (Text.hexDigit? c).isSome) rest
  | '0' :: 'o' :: rest => readBased 8 (fun c => '0' ≤ c && c ≤ '7') rest
  | '0' :: 'b' :: rest => readBased 2 (fun c => c = '0' || c = '1') rest
  | '-' :: rest => readUnsigned true rest
  | '+' :: rest => readUnsigned false rest
  | s => readUnsigned false s

/-! ### Moments -/

/-- A number of exactly `n` digits from `low` to `high`. -/
def fixed (n low high : Nat) (s : Text) : Option (Nat × Text) :=
  let digits := s.take n
  if digits.length = n ∧ digits.all Char.isDigit ∧ low ≤ natOf digits ∧ natOf digits ≤ high then
    some (natOf digits, s.drop n)
  else none

/-- What follows a character. -/
def after? (c : Char) (s : Text) : Option Text := Text.after? [c] s

/-- The number of days of a month. -/
def daysOf (year month : Nat) : Nat :=
  if month = 2 then
    if year % 4 = 0 ∧ (year % 100 ≠ 0 ∨ year % 400 = 0) then 29 else 28
  else if month = 4 ∨ month = 6 ∨ month = 9 ∨ month = 11 then 30
  else 31

/-- What follows a date. -/
def afterDate? (s : Text) : Option Text := do
  let (year, s) ← fixed 4 0 9999 s
  let s ← after? '-' s
  let (month, s) ← fixed 2 1 12 s
  let s ← after? '-' s
  let (_, s) ← fixed 2 1 (daysOf year month) s
  return s

/-- What follows a time of day.  A minute may have a leap second. -/
def afterTime? (s : Text) : Option Text := do
  let (_, s) ← fixed 2 0 23 s
  let s ← after? ':' s
  let (_, s) ← fixed 2 0 59 s
  let s ← after? ':' s
  let (_, s) ← fixed 2 0 60 s
  match s with
  | '.' :: rest => match Text.digits? rest with
    | some (_, rest') => return rest'
    | none => return s
  | _ => return s

/-- What follows a distance from universal time. -/
def afterOffset? : Text → Option Text
  | 'Z' :: rest | 'z' :: rest => some rest
  | '+' :: rest | '-' :: rest => do
    let (_, s) ← fixed 2 0 23 rest
    let s ← after? ':' s
    let (_, s) ← fixed 2 0 59 s
    return s
  | _ => none

/-- What follows a time after a date, together with its distance from universal time. -/
def afterClock? : Text → Option Text
  | 'T' :: rest | 't' :: rest | ' ' :: rest =>
    (afterTime? rest).map fun s => (afterOffset? s).getD s
  | _ => none

/-- What follows a date, a time or both. -/
def afterMoment? (s : Text) : Option Text :=
  match afterDate? s with
  | some s => some ((afterClock? s).getD s)
  | none => afterTime? s

/-! ## Tables of a TOML document

A document is a table that grows line by line.  What a later line may still add to a table depends
on how the table came about:

* by a header of its own, which no table has twice;
* by the header of a table within it, which leaves its own header open;
* by a dotted key, to which only dotted keys of the same table may add.

`change` follows a path of keys into a table, makes the tables that are missing on the way, and
changes the one at its end.  A path into an array of tables leads into the last of them. -/

/-- How a table came about. -/
inductive Origin
  | header
  | inner
  | dotted
  deriving DecidableEq, Repr

/-- What stands under a key. -/
inductive Item
  | datum (d : Datum)
  | table (origin : Origin) (entries : List (Text × Item))
  | tables (elements : List (List (Text × Item)))
  deriving Inhabited

/-- What a table holds. -/
abbrev Entries := List (Text × Item)

mutual

/-- An item without the history of its tables. -/
def Item.toDatum : Item → Datum
  | .datum d => d
  | .table _ es => .table (entriesToData es)
  | .tables ts => .list (elementsToData ts)

/-- Entries without the history of their tables. -/
def entriesToData : List (Text × Item) → List (Text × Datum)
  | [] => []
  | (k, i) :: es => (k, i.toDatum) :: entriesToData es

/-- Elements of an array of tables without their history. -/
def elementsToData : List (List (Text × Item)) → List Datum
  | [] => []
  | es :: ts => .table (entriesToData es) :: elementsToData ts

end

/-- Changes the table at the end of a path by `f`, which is told how that table came about; `dotted`
if the path is part of a dotted key. -/
def change (dotted : Bool) (f : Origin → Entries → Option Entries) :
    List Text → Origin → Entries → Option Entries
  | [], origin, es => f origin es
  | k :: ks, _, es => match es.lookup k with
    | none => do
      let origin := if dotted then .dotted else .inner
      let inside ← change dotted f ks origin []
      return es ++ [(k, .table origin inside)]
    | some (.datum _) => none
    | some (.table origin inside) =>
      if dotted ∧ origin = .header then none
      else do
        let inside ← change dotted f ks origin inside
        return Dictionary.setEntry k (.table origin inside) es
    | some (.tables elements) => do
      let last ← elements.getLast?
      let last ← change dotted f ks .header last
      return Dictionary.setEntry k (.tables (elements.dropLast ++ [last])) es

/-- Gives a key its value; a table holds no key twice. -/
def addKey (key : Text) (d : Datum) (es : Entries) : Option Entries :=
  if (es.lookup key).isSome then none else some (es ++ [(key, .datum d)])

/-- Gives a dotted key, `path` and then `key`, its value in a table.  The table at the end of a path
that is not empty has to come from a dotted key itself. -/
def assign (path : List Text) (key : Text) (d : Datum) (es : Entries) : Option Entries :=
  change true
    (fun origin es => if !path.isEmpty && origin ≠ .dotted then none else addKey key d es)
    path .header es

/-- Opens the table of a header: one that is new or that so far has no header of its own. -/
def openTable (path : List Text) (key : Text) (es : Entries) : Option Entries :=
  change false
    (fun _ es => match es.lookup key with
      | none => some (es ++ [(key, .table .header [])])
      | some (.table .inner inside) => some (Dictionary.setEntry key (.table .header inside) es)
      | some _ => none)
    path .header es

/-- Opens the next element of an array of tables. -/
def openElement (path : List Text) (key : Text) (es : Entries) : Option Entries :=
  change false
    (fun _ es => match es.lookup key with
      | none => some (es ++ [(key, .tables [[]])])
      | some (.tables elements) =>
        some (Dictionary.setEntry key (.tables (elements ++ [[]])) es)
      | some _ => none)
    path .header es

/-! ## Reading TOML

`Toml.parse?` takes a document to what its outermost table holds.  Lists and inline tables nest at
most `deepest` levels deep, and a dotted key has at most as many parts. -/

/-- The greatest number of lists and inline tables around a value, and of parts of a key. -/
def deepest : Nat := 79

/-- A character of a key without quotes. -/
def isKeyChar (c : Char) : Bool := c.isAlphanum || c = '_' || c = '-'

/-- The key without dots in front of a text. -/
def readSimpleKey : Text → Option (Text × Text)
  | '"' :: rest => Text.Quoted.read rest
  | '\'' :: rest => readLiteral rest
  | s =>
    let key := s.takeWhile isKeyChar
    if key.isEmpty then none else some (key, s.drop key.length)

/-- The parts of the key in front of a text, at most `n`, the last one apart. -/
def readKeyParts : Nat → Text → Option (List Text × Text × Text)
  | 0, _ => none
  | n + 1, s => do
    let (key, rest) ← readSimpleKey (skipSpace s)
    match skipSpace rest with
    | '.' :: rest => do
      let (path, last, rest) ← readKeyParts n rest
      return (key :: path, last, rest)
    | rest => return ([], key, rest)

/-- The key in front of a text: its path, its last part and what follows. -/
def readKey (s : Text) : Option (List Text × Text × Text) := readKeyParts deepest s

/-- What follows a value that is no list or inline table, with the value. -/
def readScalar : Text → Option (Datum × Text)
  | 't' :: 'r' :: 'u' :: 'e' :: rest => some (.bool true, rest)
  | 'f' :: 'a' :: 'l' :: 's' :: 'e' :: rest => some (.bool false, rest)
  | s => match readString s with
    | some (t, rest) => some (.text t, rest)
    | none => match afterMoment? s with
      | some rest => some (.moment, rest)
      | none => readNumber s

mutual

/-- The value in front of a text, with at most `depth` levels and read in at most `fuel` steps. -/
def readValue (fuel depth : Nat) (s : Text) : Option (Datum × Text) :=
  match fuel with
  | 0 => none
  | fuel + 1 => match s with
    | '[' :: rest => do
      if depth = 0 then none
      let (ds, rest) ← readItems fuel (depth - 1) rest
      return (.list ds, rest)
    | '{' :: rest => do
      if depth = 0 then none
      let (es, rest) ← readMembers fuel (depth - 1) true [] rest
      return (.table (entriesToData es), rest)
    | s => readScalar s

/-- The items of a list, up to its closing bracket. -/
def readItems (fuel depth : Nat) (s : Text) : Option (List Datum × Text) :=
  match fuel with
  | 0 => none
  | fuel + 1 => match skipLines false s with
    | ']' :: rest => some ([], rest)
    | s => do
      let (d, s) ← readValue fuel depth s
      match skipLines false s with
      | ']' :: rest => return ([d], rest)
      | ',' :: rest => do
        let (ds, rest) ← readItems fuel depth rest
        return (d :: ds, rest)
      | _ => none

/-- The members of an inline table on top of `es`, up to its closing brace; `first` if none was read
before. -/
def readMembers (fuel depth : Nat) (first : Bool) (es : Entries) (s : Text) :
    Option (Entries × Text) :=
  match fuel with
  | 0 => none
  | fuel + 1 => match skipSpace s with
    | '}' :: rest => if first then some (es, rest) else none
    | s => do
      let (path, key, s) ← readKey s
      let s ← after? '=' s
      let (d, s) ← readValue fuel depth (skipSpace s)
      let es ← assign path key d es
      match skipSpace s with
      | '}' :: rest => return (es, rest)
      | ',' :: rest => readMembers fuel depth false es rest
      | _ => none

end

/-- A key and its value, up to the end of the line, in the table at `path` of a document. -/
def readEntry (path : List Text) (es : Entries) (s : Text) : Option (Entries × Text) := do
  let (dotted, key, rest) ← readKey s
  let rest ← after? '=' rest
  let (d, rest) ← readValue (2 * rest.length + 2) deepest (skipSpace rest)
  let rest ← endLine? rest
  let es ← change false (fun _ es => assign dotted key d es) path .header es
  return (es, rest)

/-- The header of a table after its bracket, up to the end of the line. -/
def readHeader (es : Entries) (s : Text) : Option (List Text × Entries × Text) := do
  let (path, key, rest) ← readKey s
  let rest ← after? ']' rest
  let rest ← endLine? rest
  let es ← openTable path key es
  return (path ++ [key], es, rest)

/-- The header of an element of an array of tables after its brackets, up to the end of the line. -/
def readElementHeader (es : Entries) (s : Text) : Option (List Text × Entries × Text) := do
  let (path, key, rest) ← readKey s
  let rest ← Text.after? [']', ']'] rest
  let rest ← endLine? rest
  let es ← openElement path key es
  return (path ++ [key], es, rest)

/-- Reads at most `fuel` lines into a document, the first of them in the table at `path`. -/
def readDocument (fuel : Nat) (path : List Text) (es : Entries) (s : Text) : Option Entries :=
  match fuel with
  | 0 => none
  | fuel + 1 => match skipLines false s with
    | [] => some es
    | '[' :: '[' :: rest => do
      let (path, es, rest) ← readElementHeader es rest
      readDocument fuel path es rest
    | '[' :: rest => do
      let (path, es, rest) ← readHeader es rest
      readDocument fuel path es rest
    | s => do
      let (es, rest) ← readEntry path es s
      readDocument fuel path es rest

/-- The text without a byte order mark in front of it. -/
def skipMark (s : Text) : Text :=
  match s with
  | '\uFEFF' :: rest => rest
  | _ => s

/-- What the outermost table of a document holds. -/
def parse? (s : Text) : Option (List (Text × Datum)) :=
  (readDocument (s.length + 1) [] [] (skipMark s)).map entriesToData

end Toml

end DatasetSearch
