import DatasetSearch.Answer
import DatasetSearch.Document
import DatasetSearch.Highlight
import DatasetSearch.Plan
import DatasetSearch.Query.Parser
import DatasetSearch.Ranking
import DatasetSearch.Text.Token

/-!
# Searching an index

The index of a list of documents, its search for an arbitrary scorer, and the same search with every
place that it takes of a text checked.
-/

namespace DatasetSearch

/-! ## The index

An index holds documents with the words of their fields, in segments: one for every batch of
documents that was not empty, larger segments first.  Statistics are of all segments together.

A word has to fit into an index.  One that is too long is left out, but keeps the words around it
apart: its place is empty. -/

/-- The size of the longest word that fits into an index, in bytes. -/
def longestWord : Nat := 65530

/-- The word is short enough for an index. -/
def fitsIndex (w : Text) : Bool := w.utf8Size ≤ longestWord

/-- The words of a field as an index has them, each at its place.  A word that does not fit leaves
its place empty; a field without any that fits has no places. -/
def indexedWords (ws : List Text) : List Text :=
  if ws.any fitsIndex then ws.map fun w => if fitsIndex w then w else [] else []

/-- An indexed document. -/
structure Entry where
  document : Document
  words : PerField (List Text)
  deriving Inhabited

/-- Indexes one document. -/
def Entry.ofDocument (d : Document) : Entry :=
  ⟨d, .ofFun fun f => indexedWords (Text.words (d.texts.get f))⟩

/-- The number of words in a field; empty places do not count. -/
def Entry.length (e : Entry) (f : Field) : Nat := (e.words.get f).countP fun w => !w.isEmpty

/-- Indexed documents in segments. -/
structure Index where
  segments : List (List Entry)
  deriving Inhabited

namespace Index

/-- The segments in the order in which they are searched: larger ones first. -/
def order (segments : List (List Entry)) : List (List Entry) :=
  segments.mergeSort fun s t => t.length ≤ s.length

/-- The index of batches of documents. -/
def ofBatches (batches : List (List Document)) : Index :=
  ⟨order ((batches.filter fun b => !b.isEmpty).map (·.map Entry.ofDocument))⟩

variable (ix : Index)

/-- All documents. -/
def entries : List Entry := ix.segments.flatten

/-- The number of documents. -/
def size : Nat := ix.entries.length

/-- The document at an address. -/
def entryAt? (a : Address) : Option Entry := ix.segments[a.segment]?.bind (·[a.doc]?)

/-- The number of documents with a word in a field. -/
def frequency (f : Field) (t : Text) : Nat :=
  ix.entries.countP fun e => (e.words.get f).contains t

/-- The number of words in a field of all documents. -/
def totalLength (f : Field) : Nat :=
  ix.entries.foldr (fun e n => e.length f + n) 0

theorem entries_ofBatches_singleton (documents : List Document) :
    (ofBatches [documents]).entries = documents.map Entry.ofDocument := by
  cases documents with
  | nil =>
    show (order []).flatten = []
    rw [order, List.mergeSort_nil, List.flatten_nil]
  | cons d ds =>
    show (order [(d :: ds).map Entry.ofDocument]).flatten = _
    rw [order, List.mergeSort_singleton, List.flatten_singleton]

end Index

/-! ## The search

A search plans the query, collects the documents that the plan asks for in every segment, ranks
them together, leaves out those below the least score and highlights the others if asked to.  How a
document is scored is up to a `Scorer`, which sees the document, the plan and the statistics of the
whole index. -/

/-- What is counted over all documents of an index: the documents, those with a word in a field, and
the words of a field. -/
structure Statistics where
  size : Nat
  frequency : Field → Text → Nat
  totalLength : Field → Nat

/-- How a document that a plan asks for is scored. -/
class Scorer where
  score : Statistics → Entry → Plan → Score

namespace Index

/-- The statistics of the index. -/
def statistics (ix : Index) : Statistics := ⟨ix.size, ix.frequency, ix.totalLength⟩

variable [Scorer] (ix : Index)

/-- The score of a document that the plan asks for. -/
def score (e : Entry) (plan : Plan) : Score := Scorer.score ix.statistics e plan

/-- Takes the documents of a segment from number `doc` on. -/
def collectFrom (plan : Plan) (c : Collector) (doc : Nat) : List Entry → Collector
  | [] => c
  | e :: es =>
    let c := if plan.holds e.words.get then
      c.collect doc (some e.document.id) (ix.score e plan) else c
    collectFrom plan c (doc + 1) es

/-- What each segment finds. -/
def partitions (plan : Plan) (allow : AllowList) (limit : Nat) : List Found :=
  ix.segments.zipIdx.map fun (segment, n) =>
    (ix.collectFrom plan (.start n limit allow) 0 segment).harvest

/-- The best documents that the plan asks for. -/
def find (plan : Plan) (allow : AllowList) (limit : Nat) : Found :=
  Found.merge (ix.partitions plan allow limit) limit

/-- The highlighted fields of a document that was found. -/
def highlightHit (terms : Terms) (hit : Hit) : FieldHighlights :=
  match ix.entryAt? hit.address with
  | none => .empty
  | some e =>
    terms.highlightFields (Field.all.map fun f => (f.label.toList, e.document.texts.get f))

variable [Query.Automata]

/-- The answer to a request, or why there is none. -/
def search? (r : Request) (least : Score) (limit : Nat) : Except Query.Error Answer := do
  match ← Query.parse r.query with
  | none => return .empty
  | some e => match ← Plan.ofQuery? e with
    | none => return .empty
    | some plan =>
      let found := ix.find plan (.ofList r.ids) limit
      return Id.run <| Answer.ofFound found least fun hit =>
        pure (if r.highlighting then some (ix.highlightHit (.ofExpr e) hit) else none)

/-- The answer to a request; the empty one if the query has none. -/
def search (r : Request) (least : Score) (limit : Nat) : Answer :=
  match ix.search? r least limit with
  | .ok answer => answer
  | .error _ => .empty

end Index

/-! ## Searching with checks

A search as it is done on an index that could be at odds with itself: every hit must have its
document, and highlighting takes no part of a text that is not there.  A text with a token out of
place is left out of the highlights; everything else that is wrong ends the search. -/

namespace Terms

/-- The highlights of named texts, added to those that were found before. -/
def checkedHighlightFields (t : Terms) (found : FieldHighlights) :
    List (Text × Text) → Except Highlight.Fault FieldHighlights
  | [] => .ok found
  | (name, text) :: fields =>
    if text.isEmpty then checkedHighlightFields t found fields
    else match t.checkedHighlight Highlight.fragmentSize text with
      | .ok marked =>
        checkedHighlightFields t (if marked.isEmpty then found else found.insert name marked) fields
      | .error (.offsets _ _ _) => checkedHighlightFields t found fields
      | .error (.slice start stop) => .error (.slice start stop)

end Terms

namespace Index

/-- What ends a search. -/
inductive Fault
  /-- The query cannot be read or planned. -/
  | query (error : Query.Error)
  /-- There is no document at the address of a hit. -/
  | document (address : Address)
  /-- A text cannot be highlighted. -/
  | text (fault : Highlight.Fault)

variable [Scorer] [Query.Automata] (ix : Index)

/-- The highlighted fields of a document that was found. -/
def checkedHighlightHit (terms : Terms) (hit : Hit) : Except Fault FieldHighlights :=
  match ix.entryAt? hit.address with
  | none => .error (.document hit.address)
  | some e =>
    (terms.checkedHighlightFields .empty
      (Field.all.map fun f => (f.label.toList, e.document.texts.get f))).mapError .text

/-- The answer to a request, or what ended the search. -/
def checkedSearch? (r : Request) (least : Score) (limit : Nat) : Except Fault Answer := do
  match ← (Query.parse r.query).mapError .query with
  | none => return .empty
  | some e => match ← (Plan.ofQuery? e).mapError .query with
    | none => return .empty
    | some plan =>
      Answer.ofFound (ix.find plan (.ofList r.ids) limit) least fun hit => do
        if r.highlighting then
          let fields ← ix.checkedHighlightHit (.ofExpr e) hit
          return some fields
        else return none

end Index

end DatasetSearch
