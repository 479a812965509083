import DatasetSearch.Answer
import DatasetSearch.Document
import DatasetSearch.Json.Value
import DatasetSearch.Service.Basic

/-!
# JSON forms

How requests, answers and documents are written in JSON, and how they are read.  A score that is no
finite number is written as null.
-/

namespace DatasetSearch

open Json (Value Numeral Decoder)
open Json.Decode

namespace Json

/-- An integer. -/
def Value.ofInt (n : Int) : Value := .number (.integer n)

/-- A score. -/
def Value.ofScore (s : Score) : Value := if s.isFinite then .number (.ofScore s) else .null

/-- An object with keys that are known. -/
def Value.record (members : List (String × Value)) : Value :=
  .object (members.map fun m => (m.1.toList, m.2))

/-- Highlighted fields of a document. -/
def Value.ofFields (fields : FieldHighlights) : Value :=
  .object (fields.entries.map fun e => (e.1, .string e.2))

/-- Highlighted fields of documents. -/
def Value.ofHighlights (h : Highlights) : Value :=
  .object (h.entries.map fun e => (Text.ofInt e.1, .ofFields e.2))

end Json

/-- Decodes highlighted fields of documents. -/
def Highlights.decoder : Decoder Highlights := dictionary idKey (dictionary textKey text)

namespace Request

/-- Decodes a request; every field may be left out. -/
def decoder : Decoder Request :=
  record
    [.maybe "query" text fun x r => { r with query := x },
      .maybe "docIds" (list id) fun x r => { r with ids := x },
      .maybe "enableHighlighting" bool fun x r => { r with highlighting := x }]
    {}

/-- The JSON form of a request. -/
def toValue (r : Request) : Value :=
  .record
    [("query", .string r.query), ("docIds", .list (r.ids.map .ofInt)),
      ("enableHighlighting", .bool r.highlighting)]

end Request

namespace Answer

/-- Decodes an answer; the number of all hits may be left out. -/
def decoder : Decoder Answer :=
  record
    [.required "docIds" (list id) fun x a => { a with ids := x },
      .required "scores" (list score) fun x a => { a with scores := x },
      .required "highlights" Highlights.decoder fun x a => { a with highlights := x },
      .maybe "totalHits" Json.Decode.size fun x a => { a with total := x }]
    {}

/-- The JSON form of an answer. -/
def toValue (a : Answer) : Value :=
  .record
    [("docIds", .list (a.ids.map .ofInt)), ("scores", .list (a.scores.map .ofScore)),
      ("highlights", .ofHighlights a.highlights), ("totalHits", .ofInt a.total)]

end Answer

namespace Chunk

/-- Decodes a chunk. -/
def decoder : Decoder Chunk :=
  record
    [.required "docIds" (list id) fun x c => { c with ids := x },
      .required "scores" (list score) fun x c => { c with scores := x },
      .required "highlights" Highlights.decoder fun x c => { c with highlights := x },
      .required "isLastChunk" bool fun x c => { c with isLast := x }]
    ⟨[], [], .empty, false⟩

/-- The JSON form of a chunk. -/
def toValue (c : Chunk) : Value :=
  .record
    [("docIds", .list (c.ids.map .ofInt)), ("scores", .list (c.scores.map .ofScore)),
      ("highlights", .ofHighlights c.highlights), ("isLastChunk", .bool c.isLast)]

end Chunk

/-- A hit without its place in the index. -/
structure ScoredId where
  id : Int
  score : Score
  deriving DecidableEq, Repr, Inhabited

namespace ScoredId

/-- Decodes a hit. -/
def decoder : Decoder ScoredId :=
  record
    [.required "doc_id" Json.Decode.id fun x h => { h with id := x },
      .required "score" Json.Decode.score fun x h => { h with score := x }]
    default

/-- The JSON form of a hit. -/
def toValue (h : ScoredId) : Value :=
  .record [("doc_id", .ofInt h.id), ("score", .ofScore h.score)]

end ScoredId

namespace Document

/-- A slot for a text field of a document. -/
def slot (f : Field) (set : Text → PerField Text → PerField Text) : Slot Document :=
  .required f.label text fun x d => { d with texts := set x d.texts }

/-- Decodes a document. -/
def decoder : Decoder Document :=
  record
    [.required "id" Json.Decode.id fun x d => { d with id := x },
      slot .name fun x t => { t with name := x },
      slot .description fun x t => { t with description := x },
      slot .keywords fun x t => { t with keywords := x },
      slot .creatorName fun x t => { t with creatorName := x },
      slot .publisherName fun x t => { t with publisherName := x },
      slot .alternateName fun x t => { t with alternateName := x }]
    default

/-- The JSON form of a document. -/
def toValue (d : Document) : Value :=
  .record
    (("id", .ofInt d.id) :: Field.all.map fun f => (f.label, .string (d.texts.get f)))

end Document

namespace RebuildReport

/-- Decodes a report. -/
def decoder : Decoder RebuildReport :=
  record
    [.required "success" bool fun x r => { r with success := x },
      .required "message" text fun x r => { r with message := x }]
    default

/-- The JSON form of a report. -/
def toValue (r : RebuildReport) : Value :=
  .record [("success", .bool r.success), ("message", .string r.message)]

end RebuildReport

end DatasetSearch
