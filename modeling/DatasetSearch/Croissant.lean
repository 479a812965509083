import DatasetSearch.Document
import DatasetSearch.Json.Value
import DatasetSearch.Number

/-!
# Croissant metadata

Croissant describes a dataset in JSON-LD.  `Document.ofMetadata` takes the searchable texts from
such a description; the object may be wrapped in another one under the key `jsonld`.

A text field is a string, a number or a list of such; a field of persons or organizations is a
string, an object with a name, or a list of such.  The items of a list are joined with commas, those
without a text left out, and any other value has no text.
-/

namespace DatasetSearch

open Json (Value Numeral)

namespace Croissant

/-- Written between the items of a list. -/
def separator : Text := [',', ' ']

/-- The texts that are not empty, in one. -/
def joinNonEmpty (parts : List Text) : Text :=
  Text.join separator (parts.filter fun p => !p.isEmpty)

mutual

/-- The text of a text field. -/
def textOf : Value → Text
  | .string t => Text.trim t
  | .number n => n.text
  | .list items => joinNonEmpty (textsOf items)
  | _ => []

/-- The texts of the items of a list in a text field. -/
def textsOf : List Value → List Text
  | [] => []
  | v :: vs => textOf v :: textsOf vs

end

/-- The text of a text field that may be missing. -/
def textAt (key : String) (v : Value) : Text :=
  match v.get? key.toList with
  | some v => textOf v
  | none => []

mutual

/-- The text of a field of persons or organizations. -/
def namesOf : Value → Text
  | .object members => match members.lookup "name".toList with
    | some v => textOf v
    | none => []
  | .list items => joinNonEmpty (namesOfEach items)
  | .string t => Text.trim t
  | _ => []

/-- The texts of the items of a list of persons or organizations. -/
def namesOfEach : List Value → List Text
  | [] => []
  | v :: vs => namesOf v :: namesOfEach vs

end

/-- The text of a field of persons or organizations that may be missing. -/
def namesAt (key : String) (v : Value) : Text :=
  match v.get? key.toList with
  | some v => namesOf v
  | none => []

/-- The id that a description gives itself: an integer of 64 bits with a sign. -/
def idOf? (v : Value) : Option Int :=
  match v.get? "id".toList with
  | some (.number (.integer n)) => if n ≤ Word.greatestSigned then some n else none
  | _ => none

/-- The description itself, without the object it is wrapped in. -/
def unwrap (v : Value) : Value := (v.get? "jsonld".toList).getD v

/-- Why a file gives no document. -/
inductive ReadError
  | unreadable
  | unparsable
  deriving DecidableEq, Repr

/-- The error in words, of the file at a path. -/
def ReadError.message (path : Text) : ReadError → Text
  | unreadable => "reading ".toList ++ path
  | unparsable => "parsing ".toList ++ path

end Croissant

open Croissant

/-- The document that a description describes.  `record` is its id if it has none of its own. -/
def Document.ofMetadata (v : Value) (record : Int) : Document :=
  let v := unwrap v
  { id := (idOf? v).getD record
    texts :=
      { name := textAt "name" v
        description := textAt "description" v
        keywords := textAt "keywords" v
        creatorName := namesAt "creator" v
        publisherName := namesAt "publisher" v
        alternateName := textAt "alternateName" v } }

/-- The document of a file, from its bytes if there is a file. -/
def Document.ofFile? (bytes : Option (List UInt8)) (record : Int) : Except ReadError Document :=
  match bytes.bind Text.ofBytes? with
  | none => .error .unreadable
  | some text => match Json.parse? text with
    | none => .error .unparsable
    | some v => .ok (.ofMetadata v record)

end DatasetSearch
