import DatasetSearch.Dictionary
import DatasetSearch.Json.Reader

/-!
# JSON values

What is read of a tree: records, by their members, and values.
-/

namespace DatasetSearch

/-! ## Decoding JSON into records

A decoder takes a tree to a value or to the first fault in it: `malformed` where the text is not
JSON, `mismatch` where it is JSON of another shape.

A record is decoded by its slots, one per field (`record`).  As an object it may leave out optional
fields and have unknown ones, which are skipped, but no field twice; as a list it gives the fields
in order and may leave out optional ones at the end. -/

namespace Json

/-- What is wrong with a JSON text. -/
inductive Fault
  | malformed
  | mismatch
  deriving DecidableEq, Repr

/-- Takes a tree to a value of type `α`. -/
abbrev Decoder (α : Type) := Tree → Except Fault α

/-- The fault of meeting `t` where a value of another kind is due: a value without meaning is
malformed, whatever is due. -/
def faultAt : Tree → Fault
  | .broken => .malformed
  | .string pieces => if (textOf pieces).isNone then .malformed else .mismatch
  | .number l => if l.value.isNone then .malformed else .mismatch
  | _ => .mismatch

namespace Decode

/-- A string. -/
def text : Decoder Text
  | .string pieces => match textOf pieces with
    | some t => .ok t
    | none => .error .malformed
  | t => .error (faultAt t)

/-- A truth value. -/
def bool : Decoder Bool
  | .bool b => .ok b
  | t => .error (faultAt t)

/-- An integer literal from `low` to `high`. -/
def integer (low high : Int) : Decoder Int
  | .number l => match l.value with
    | none => .error .malformed
    | some (.integer n) => if low ≤ n ∧ n ≤ high then .ok n else .error .mismatch
    | some (.real ..) => .error .mismatch
  | t => .error (faultAt t)

/-- A document id: an integer of 64 bits with a sign. -/
def id : Decoder Int := integer Word.leastSigned Word.greatestSigned

/-- A size: an integer of 64 bits without a sign. -/
def size : Decoder Nat := fun t => (integer 0 Word.greatest t).map Int.toNat

/-- A score: any number, rounded to single precision. -/
def score : Decoder Score
  | .number l => match l.value with
    | none => .error .malformed
    | some n => .ok n.toScore
  | t => .error (faultAt t)

/-- A list of values that `item` decodes. -/
def list {α : Type} (item : Decoder α) : Decoder (List α)
  | .list items closed => do
    let xs ← items.mapM item
    if closed then return xs else throw .malformed
  | t => .error (faultAt t)

/-- The entries of an object, by a decoder of its keys and one of its values. -/
def entries {κ α : Type} (key : List Piece → Except Fault κ) (value : Decoder α) :
    List (List Piece × Tree) → Except Fault (List (κ × α))
  | [] => .ok []
  | (k, t) :: ms => do
    let k ← key k
    let x ← value t
    let rest ← entries key value ms
    return (k, x) :: rest

/-- An object with keys and values of one kind each; of a repeated key the last value stands. -/
def dictionary {κ α : Type} [DecidableEq κ] (key : List Piece → Except Fault κ)
    (value : Decoder α) : Decoder (Dictionary κ α)
  | .object members closed => do
    let es ← entries key value members
    if closed then return Dictionary.ofList es else throw .malformed
  | t => .error (faultAt t)

/-- A key that is a text. -/
def textKey (pieces : List Piece) : Except Fault Text :=
  match textOf pieces with
  | some t => .ok t
  | none => .error .malformed

/-- The plain characters of a string, if it has no others. -/
def plainText : List Piece → Option Text
  | [] => some []
  | .plain c :: rest => (plainText rest).map (c :: ·)
  | _ => none

/-- A key that is a document id, written as a number is. -/
def idKey (pieces : List Piece) : Except Fault Int :=
  match (plainText pieces).bind readLiteral with
  | some (l, []) => id (.number l)
  | _ => .error .malformed

/-- A field of a record of type `σ`: its name, how its value changes the record, and whether it may
be left out. -/
structure Slot (σ : Type) where
  name : String
  read : Tree → Except Fault (σ → σ)
  optional : Bool

/-- A field that must be given, with the decoder of its values and a function that sets it. -/
def Slot.required {σ α : Type} (name : String) (value : Decoder α) (set : α → σ → σ) : Slot σ :=
  ⟨name, fun t => (value t).map set, false⟩

/-- A field that may be left out. -/
def Slot.maybe {σ α : Type} (name : String) (value : Decoder α) (set : α → σ → σ) : Slot σ :=
  ⟨name, fun t => (value t).map set, true⟩

variable {σ : Type}

/-- Goes through the members of an object; `seen` holds the names of the fields already read. -/
def members (slots : List (Slot σ)) (r : σ) (seen : List String) :
    List (List Piece × Tree) → Except Fault (σ × List String)
  | [] => .ok (r, seen)
  | (k, t) :: ms => do
    let key ← textKey k
    match slots.find? (·.name.toList = key) with
    | none => if t.isSound then members slots r seen ms else throw .malformed
    | some slot =>
      if slot.name ∈ seen then throw .mismatch
      else
        let set ← slot.read t
        members slots (set r) (slot.name :: seen) ms

/-- Goes through the items of a list, one for each slot. -/
def items (closed : Bool) : List (Slot σ) → σ → List Tree → Except Fault σ
  | [], r, [] => if closed then .ok r else .error .malformed
  | [], _, _ :: _ => .error .malformed
  | slot :: slots, r, t :: ts => do
    let set ← slot.read t
    items closed slots (set r) ts
  | slots, r, [] =>
    if !closed then .error .malformed
    else if slots.all (·.optional) then .ok r else .error .mismatch

/-- A record with the given slots, in which the fields left out are those of `blank`. -/
def record (slots : List (Slot σ)) (blank : σ) : Decoder σ
  | .object ms closed => do
    let (r, seen) ← members slots blank [] ms
    if !closed then throw .malformed
    else if slots.all fun slot => slot.optional || slot.name ∈ seen then return r
    else throw .mismatch
  | .list ts closed => items closed slots blank ts
  | t => .error (faultAt t)

end Decode

/-- Decodes a whole text. -/
def decode {α : Type} (d : Decoder α) (s : Text) : Except Fault α :=
  let (t, rest) := read s
  match d t with
  | .error e => .error e
  | .ok x => if (skipSpace rest).isEmpty then .ok x else .error .malformed

/-- Decodes the value at the front of a text, whatever follows it. -/
def decodeFront {α : Type} (d : Decoder α) (s : Text) : Except Fault α := d (read s).1

/-! ## Values

A value is JSON without the accidents of its notation.  Objects keep the order of their members;
of a repeated key the last value stands, in the place of the first.  Lists and objects nested more
than `deepest` levels deep are refused (`parse?`).  `Value.text` writes a value without spaces. -/

/-- A JSON value. -/
inductive Value
  | null
  | bool (b : Bool)
  | number (n : Numeral)
  | string (t : Text)
  | list (items : List Value)
  | object (members : List (Text × Value))
  deriving Inhabited

/-- The greatest number of lists and objects around a value. -/
def deepest : Nat := 127

mutual

/-- The value of a tree with at most `depth` levels; none if the tree is not sound, a number is out
of range or a string is no text. -/
def valueOf? (depth : Nat) : Tree → Option Value
  | .null => some .null
  | .bool b => some (.bool b)
  | .number l => l.value.map .number
  | .string pieces => (textOf pieces).map .string
  | .list items closed =>
    if depth = 0 ∨ !closed then none else (valuesOf? (depth - 1) items).map .list
  | .object members closed =>
    if depth = 0 ∨ !closed then none else (membersOf? (depth - 1) members []).map .object
  | .broken => none

/-- The values of the items of a list. -/
def valuesOf? (depth : Nat) : List Tree → Option (List Value)
  | [] => some []
  | t :: ts => match valueOf? depth t, valuesOf? depth ts with
    | some v, some vs => some (v :: vs)
    | _, _ => none

/-- The members of an object on top of those already read. -/
def membersOf? (depth : Nat) : List (List Piece × Tree) → List (Text × Value) →
    Option (List (Text × Value))
  | [], done => some done
  | (k, t) :: ms, done => match textOf k, valueOf? depth t with
    | some key, some v => membersOf? depth ms (Dictionary.setEntry key v done)
    | _, _ => none

end

/-- The value of a whole text. -/
def parse? (s : Text) : Option Value := valueOf? deepest (readAll s)

namespace Value

/-- The value of a key of an object. -/
def get? (key : Text) : Value → Option Value
  | .object members => members.lookup key
  | _ => none

/-- The hexadecimal digit of a number below 16. -/
def hexDigit (n : Nat) : Char := Nat.digitChar n

/-- A character as it is written in a string. -/
def quoteChar (c : Char) : Text :=
  if c = '"' then ['\\', '"']
  else if c = '\\' then ['\\', '\\']
  else if c = '\x08' then ['\\', 'b']
  else if c = '\x0c' then ['\\', 'f']
  else if c = '\n' then ['\\', 'n']
  else if c = '\r' then ['\\', 'r']
  else if c = '\t' then ['\\', 't']
  else if c.toNat < 0x20 then
    ['\\', 'u', '0', '0', hexDigit (c.toNat / 16), hexDigit (c.toNat % 16)]
  else [c]

/-- A string in quotes. -/
def quote (t : Text) : Text := '"' :: t.flatMap quoteChar ++ ['"']

mutual

/-- The value as JSON text, without white space. -/
def text : Value → Text
  | .null => ['n', 'u', 'l', 'l']
  | .bool true => ['t', 'r', 'u', 'e']
  | .bool false => ['f', 'a', 'l', 's', 'e']
  | .number n => n.text
  | .string t => quote t
  | .list [] => ['[', ']']
  | .list (v :: vs) => '[' :: v.text ++ itemsText vs
  | .object [] => ['{', '}']
  | .object ((k, v) :: ms) => '{' :: quote k ++ ':' :: v.text ++ membersText ms

/-- The items after the first, and the closing bracket. -/
def itemsText : List Value → Text
  | [] => [']']
  | v :: vs => ',' :: v.text ++ itemsText vs

/-- The members after the first, and the closing brace. -/
def membersText : List (Text × Value) → Text
  | [] => ['}']
  | (k, v) :: ms => ',' :: quote k ++ ':' :: v.text ++ membersText ms

end

end Value

end Json

end DatasetSearch
