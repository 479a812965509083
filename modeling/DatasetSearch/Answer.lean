import DatasetSearch.Dictionary
import DatasetSearch.Ranking
import DatasetSearch.Text.Basic

/-!
# Answers

The hits of a search, in one piece and in chunks.
-/

namespace DatasetSearch

/-! ## The answer to a query

The answer to a query: the ids and scores of the hits, best first, the highlighted fields of some of
them, and how many documents were hits before any were left out.  `Answer.ofFound` makes one of
ranked hits, leaving out those below a threshold and asking for highlights of the others only. -/

/-- Highlighted fields of a document, by name. -/
abbrev FieldHighlights := Dictionary Text Text

/-- Highlighted fields of documents, by id. -/
abbrev Highlights := Dictionary Int FieldHighlights

/-- The answer to a query. -/
structure Answer where
  ids : List Int := []
  scores : List Score := []
  highlights : Highlights := .empty
  total : Nat := 0
  deriving Inhabited

namespace Answer

/-- The answer without hits. -/
def empty : Answer := {}

/-- The number of hits. -/
def size (a : Answer) : Nat := a.ids.length

/-- Appends a hit.  Highlights without fields count as none, and highlights of an id that has some
replace them. -/
def push (a : Answer) (id : Int) (score : Score) (fields : Option FieldHighlights) : Answer :=
  { a with
    ids := a.ids ++ [id]
    scores := a.scores ++ [score]
    highlights := match fields with
      | some fields => if fields.isEmpty then a.highlights else a.highlights.insert id fields
      | none => a.highlights }

/-- Appends the hits in order, each with the highlights that the request for them gives.  The first
failing request ends it. -/
def pushAll {m : Type → Type} [Monad m] (highlight : Hit → m (Option FieldHighlights))
    (a : Answer) : List Hit → m Answer
  | [] => pure a
  | hit :: hits => do
    let fields ← highlight hit
    pushAll highlight (a.push hit.id hit.score fields) hits

/-- The answer of the hits that reach the least score.  `total` stays that of all hits. -/
def ofFound {m : Type → Type} [Monad m] (found : Found) (least : Score)
    (highlight : Hit → m (Option FieldHighlights)) : m Answer :=
  pushAll highlight { total := found.total } (found.hits.filter fun hit => hit.score.reaches least)

end Answer

/-! ## Answers in chunks

An answer is streamed in chunks of at most a given number of hits (at least one).  A document's
highlights go with the first of its hits.  `Chunks` is a stream that was read up to some hit;
`Chunks.next?` takes the next chunk off it, and `Answer.ofChunks` puts chunks together again. -/

/-- A part of an answer. -/
structure Chunk where
  ids : List Int
  scores : List Score
  highlights : Highlights
  isLast : Bool
  deriving Inhabited

/-- A stream of chunks: the answer, without the highlights already given, and the number of hits
already given. -/
structure Chunks where
  answer : Answer
  chunkSize : Nat
  given : Nat
  chunkSize_pos : 0 < chunkSize

namespace Chunks

/-- The stream of an answer; a size of zero is taken for one. -/
def ofAnswer (a : Answer) (size : Nat) : Chunks := ⟨a, max size 1, 0, by omega⟩

/-- The number of chunks of the whole answer. -/
def count (c : Chunks) : Nat := (c.answer.size + c.chunkSize - 1) / c.chunkSize

/-- The number of chunks still to come. -/
def left (c : Chunks) : Nat := (c.answer.size - c.given + c.chunkSize - 1) / c.chunkSize

/-- Moves the highlights of the ids from one dictionary to another. -/
def moveHighlights : List Int → Highlights → Highlights → Highlights × Highlights
  | [], source, target => (source, target)
  | id :: ids, source, target => match source.get? id with
    | some fields => moveHighlights ids (source.erase id) (target.insert id fields)
    | none => moveHighlights ids source target

/-- The next chunk and the stream after it. -/
def next? (c : Chunks) : Option (Chunk × Chunks) :=
  if c.answer.size ≤ c.given then none
  else
    let stop := min (c.given + c.chunkSize) c.answer.size
    let part {α : Type} (l : List α) : List α := (l.drop c.given).take (stop - c.given)
    let ids := part c.answer.ids
    let (source, highlights) := moveHighlights ids c.answer.highlights .empty
    some (⟨ids, part c.answer.scores, highlights, stop = c.answer.size⟩,
      { c with answer := { c.answer with highlights := source }, given := stop })

/-- A step takes at least one hit. -/
theorem given_lt {c c' : Chunks} {chunk : Chunk} (h : c.next? = some (chunk, c')) :
    c.answer.size - c.given > c'.answer.size - c'.given := by
  unfold next? at h
  split at h
  · exact absurd h (by simp)
  · rename_i hlt
    simp only [Option.some.injEq, Prod.mk.injEq] at h
    rw [← h.2]
    have := c.chunkSize_pos
    simp only [Answer.size] at *
    omega

/-- All chunks still to come. -/
def toList (c : Chunks) : List Chunk :=
  match _h : c.next? with
  | none => []
  | some (chunk, c') => chunk :: c'.toList
termination_by c.answer.size - c.given
decreasing_by exact given_lt _h

end Chunks

/-- The answer in chunks. -/
def Answer.chunks (a : Answer) (size : Nat) : List Chunk := (Chunks.ofAnswer a size).toList

/-- Puts chunks together.  Later highlights of a document replace earlier ones, and the number of
hits before any were left out is not known. -/
def Answer.ofChunks (chunks : List Chunk) : Answer :=
  chunks.foldl
    (fun a c => { a with
      ids := a.ids ++ c.ids
      scores := a.scores ++ c.scores
      highlights := a.highlights.merge c.highlights })
    .empty

end DatasetSearch
