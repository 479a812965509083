import DatasetSearch.Croissant
import DatasetSearch.Disk
import DatasetSearch.Index.Search

/-!
# Building indexes

What an index directory is to the service, for an arbitrary library that reads and writes it, and
what a builder of indexes does.
-/

namespace DatasetSearch

/-! ## Index directories

An index is kept in a directory of its own, in files that only the library for indexes knows; one of
them, `meta.json`, is what a directory is taken for an index by.  `IndexReader` and `IndexWriter`
say what such a library does with a directory, and `Index.open?` opens the index in one. -/

/-- Why no index is built. -/
inductive BuildError
  | sourceMissing (path : Text)
  | disk (e : DiskError)
  | occupied
  | unlisted
  | unavailable
  | crash
  | other (message : Text)
  deriving DecidableEq, Repr

/-- The error in words. -/
def BuildError.message : BuildError → Text
  | sourceMissing path => "croissant directory ".toList ++ path ++ " does not exist".toList
  | disk e => e.message
  | occupied => "Index already exists".toList
  | unlisted => "Data corrupted".toList
  | unavailable => "builder unavailable".toList
  | crash => "builder crashed".toList
  | other message => message

namespace Index

/-- The name of the file that makes a directory one of an index. -/
def metaName : Text := "meta.json".toList

/-- The file of an index directory that makes it one. -/
def metaFile (path : Text) : Text := Path.join path metaName

end Index

/-- How indexes are read: `catalog?` are the documents of the index in the directory at a place, and
`isSound` says that nothing else there is in the way of opening it.  Taking files away adds no
index. -/
class IndexReader where
  catalog? : Disk → List Text → Option Catalog
  isSound : Disk → List Text → Bool
  isDirectory_of_catalog? : ∀ {d : Disk} {place : List Text} {c : Catalog},
    catalog? d place = some c → d.kind? place = some none
  catalog?_of_remainsOf : ∀ {d d₀ : Disk} {place : List Text} {c : Catalog},
    d.RemainsOf d₀ → catalog? d place = some c → catalog? d₀ place = some c

/-- The directories and links among the children of a directory stay. -/
def KeepsWays (es es' : List (Text × Node)) : Prop :=
  ∀ k n, es.lookup k = some n → n.isDirectory = true ∨ n.target?.isSome = true →
    es'.lookup k = some n

/-- How indexes are written into the directory at a place.  `create` makes an index without
documents, with its `meta.json` at once, and `commit` adds documents to an index.  Both say what is
in the directory then and what went wrong; where nothing did, the index has the documents that it
should have.  If something does, what is in the directory may be anything. -/
structure IndexWriter [IndexReader] where
  create : Disk → List Text → List (Text × Node) × Option BuildError
  commit : List Document → Disk → List Text → List (Text × Node) × Option BuildError
  catalog?_create : ∀ {d : Disk} {place : List Text} {es es' : List (Text × Node)},
    d.at? place = some (.directory es) → create d place = (es', none) →
      IndexReader.catalog? (d.put (.directory es') place) place = some .empty ∧
        IndexReader.isSound (d.put (.directory es') place) place = true ∧
        ∃ c, es'.lookup Index.metaName = some (.file c) ∧ (Node.file c).target? = none
  catalog?_commit : ∀ {documents : List Document} {d : Disk} {place : List Text}
    {es es' : List (Text × Node)} {c : Catalog},
    d.at? place = some (.directory es) → IndexReader.catalog? d place = some c →
      commit documents d place = (es', none) →
        ∃ c', IndexReader.catalog? (d.put (.directory es') place) place = some c' ∧
          c'.documents = c.documents ++ documents
  keepsWays_create : ∀ {d : Disk} {place : List Text} {es es' : List (Text × Node)},
    d.at? place = some (.directory es) → create d place = (es', none) → KeepsWays es es'
  keepsWays_commit : ∀ {documents : List Document} {d : Disk} {place : List Text}
    {es es' : List (Text × Node)},
    d.at? place = some (.directory es) → commit documents d place = (es', none) →
      KeepsWays es es'

/-! ### Opening -/

namespace Index

/-- The ids of the documents and their number fit the words of 64 bits that they are kept in. -/
structure FitsWords (ix : Index) : Prop where
  ids : ∀ e ∈ ix.entries, IsWord e.document.id
  size : ix.size ≤ Word.greatest

/-- An index that was opened. -/
structure Opened where
  index : Index
  fits : index.FitsWords

/-- The index of a catalog. -/
def Opened.ofCatalog (c : Catalog) : Opened where
  index := .ofBatches [c.documents]
  fits :=
    { ids := by
        rw [entries_ofBatches_singleton]
        intro e he
        obtain ⟨d, hd, rfl⟩ := List.mem_map.1 he
        exact c.ids d hd
      size := by
        rw [size, entries_ofBatches_singleton, List.length_map]
        exact c.size }

variable [IndexReader] (d : Disk)

/-- The documents of the index in the directory at the end of a path. -/
def catalog? (path : Text) : Option Catalog :=
  match d.locate path with
  | .ok place => IndexReader.catalog? d place
  | .error _ => none

/-- Opens the index in the directory at the end of a path. -/
def open? (path : Text) : Option Opened :=
  match d.locate path with
  | .ok place =>
    if IndexReader.isSound d place then (IndexReader.catalog? d place).map .ofCatalog else none
  | .error _ => none

end Index

/-! ## Builders

A builder takes the descriptions below one directory to an index in another.  Most of what is said
here holds of any `Builder`; `Builder.indexing` makes the index directory anew and fills it with the
documents of all JSON files below the directory of the descriptions.  A file that cannot be read is
left out, but counts when the others are numbered.

The directory holds an index from the start: where the descriptions are missing or writing the index
fails, one without documents stays behind.  Making the directory anew can lead into one that holds
an index, as the path `a/../b` does once `a` is there; then nothing is built. -/

/-- A name of a file that is taken for a description: something before `.json`. -/
def isRecordName (name : Text) : Bool :=
  ".json".toList.isSuffixOf name && ".json".length < name.length

/-- The document of a file.  The file of an index is JSON as well, but describes nothing. -/
def Document.ofContent? : Content → Int → Except Croissant.ReadError Document
  | .bytes bs, record => Document.ofFile? (some bs) record
  | .index _, record => .ok (.ofMetadata (.object []) record)
  | .link _, _ => .error .unreadable

/-- The documents of files, numbered from `record` on. -/
def documentsFrom (record : Nat) : List Content → List Document
  | [] => []
  | c :: cs => match Document.ofContent? c record with
    | .ok d => d :: documentsFrom (record + 1) cs
    | .error _ => documentsFrom (record + 1) cs

/-- The documents that are described below a directory. -/
def Disk.documents (d : Disk) (source : Text) : List Document :=
  documentsFrom 0
    (((d.filesBelow source).filter fun f => f.1.getLast?.any isRecordName).map Prod.snd)

variable [IndexReader]

/-- Makes an index directory without documents, in the place of what was there: the disk afterwards
and the place of the directory, or what went wrong. -/
def Index.create (w : IndexWriter) (d : Disk) (path : Text) :
    Disk × Except BuildError (List Text) :=
  match d.clear path with
  | (d, some e) => (d, .error (.disk e))
  | (d, none) => match d.makeDirectories path with
    | (d, some e) => (d, .error (.disk e))
    | (d, none) => match d.locate path with
      | .error e => (d, .error (.disk e))
      | .ok place => match d.at? place with
        | some (.directory _) => match w.create d place with
          | (es, some e) => (d.put (.directory es) place, .error e)
          | (es, none) => (d.put (.directory es) place, .ok place)
        | _ => (d, .error (.disk .notDirectory))

/-- Takes the descriptions in one directory to an index in another: the disk afterwards and what
went wrong.  A run that is cut short is one that fails. -/
structure Builder where
  build : Disk → Text → Text → Disk × Option BuildError

namespace Builder

/-- Makes an index of the documents below the directory of the descriptions. -/
def indexing (w : IndexWriter) : Builder where
  build d index source := match Index.create w d index with
    | (d, .error e) => (d, some e)
    | (d, .ok place) =>
      if !d.isDirectory source then (d, some (.sourceMissing source))
      else match w.commit (d.documents source) d place with
        | (es, failure) => (d.put (.directory es) place, failure)

/-- Refuses to build. -/
def unavailable : Builder := ⟨fun d _ _ => (d, some .unavailable)⟩

/-- Crashes. -/
def crashing : Builder := ⟨fun d _ _ => (d, some .crash)⟩

end Builder

end DatasetSearch
