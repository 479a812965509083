import DatasetSearch.Number
import DatasetSearch.Text.Basic

/-!
# Documents and requests

What is searched and what is asked for: the searchable fields with their weights, the documents that
have a text for each, and a search request.
-/

namespace DatasetSearch

/-! ## Searchable fields

The six fields of a dataset description that are searched, in the order in which queries go through
them, each with a weight.  Weights are counted in tenths. -/

/-- A searchable field. -/
inductive Field
  | name
  | description
  | keywords
  | creatorName
  | publisherName
  | alternateName
  deriving DecidableEq, Repr

/-- A weight in tenths. -/
structure Weight where
  tenths : Nat
  deriving DecidableEq, Repr

namespace Field

/-- All fields, in order. -/
def all : List Field :=
  [name, description, keywords, creatorName, publisherName, alternateName]

theorem mem_all (f : Field) : f ∈ all := by
  cases f <;> decide

/-- The name by which queries and records call the field. -/
def label : Field → String
  | name => "name"
  | description => "description"
  | keywords => "keywords"
  | creatorName => "creator_name"
  | publisherName => "publisher_name"
  | alternateName => "alternateName"

/-- How much a match in the field counts. -/
def weight : Field → Weight
  | name => ⟨50⟩
  | description => ⟨20⟩
  | keywords => ⟨40⟩
  | creatorName => ⟨16⟩
  | publisherName => ⟨16⟩
  | alternateName => ⟨30⟩

/-- The field of a name. -/
def ofLabel? (t : Text) : Option Field := all.find? fun f => f.label.toList = t

end Field

/-- A value for every field. -/
structure PerField (α : Type) where
  name : α
  description : α
  keywords : α
  creatorName : α
  publisherName : α
  alternateName : α
  deriving DecidableEq, Repr, Inhabited

namespace PerField

variable {α β : Type}

/-- The value of a field. -/
def get (p : PerField α) : Field → α
  | .name => p.name
  | .description => p.description
  | .keywords => p.keywords
  | .creatorName => p.creatorName
  | .publisherName => p.publisherName
  | .alternateName => p.alternateName

/-- The values that a function takes on the fields. -/
def ofFun (f : Field → α) : PerField α :=
  ⟨f .name, f .description, f .keywords, f .creatorName, f .publisherName, f .alternateName⟩

@[simp] theorem get_ofFun (f : Field → α) (x : Field) : (ofFun f).get x = f x := by
  cases x <;> rfl

end PerField

/-! ## Dataset descriptions

A document describes one dataset: an id and a text for every searchable field, empty where the
description says nothing. -/

/-- A dataset description. -/
structure Document where
  id : Int
  texts : PerField Text
  deriving DecidableEq, Repr, Inhabited

/-- The documents of an index that is kept on a disk, in the order in which they are searched.
Their ids and their number fit words of 64 bits. -/
structure Catalog where
  documents : List Document
  ids : ∀ d ∈ documents, IsWord d.id
  size : documents.length ≤ Word.greatest

namespace Catalog

/-- The catalog without documents. -/
def empty : Catalog := ⟨[], nofun, Nat.zero_le _⟩

instance : Inhabited Catalog := ⟨empty⟩

/-- The catalog of documents, if they fit. -/
def ofDocuments? (documents : List Document) : Option Catalog :=
  if h : (∀ d ∈ documents, IsWord d.id) ∧ documents.length ≤ Word.greatest then
    some ⟨documents, h.1, h.2⟩
  else none

theorem documents_of_ofDocuments? {documents : List Document} {c : Catalog}
    (h : ofDocuments? documents = some c) : c.documents = documents := by
  unfold ofDocuments? at h
  split at h
  · cases h
    rfl
  · cases h

end Catalog

/-! ## Requests

A search as it is asked for: the query, the ids to which it is restricted (none restrict nothing),
and whether to highlight the answer. -/

/-- A search as it is asked for. -/
structure Request where
  query : Text := []
  ids : List Int := []
  highlighting : Bool := false
  deriving DecidableEq, Repr, Inhabited

end DatasetSearch
