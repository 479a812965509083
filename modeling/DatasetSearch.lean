import DatasetSearch.Service.Http
import DatasetSearch.Settings.Load
import DatasetSearch.Proofs.Ranking.Order
import DatasetSearch.Proofs.Ranking.TopHits
import DatasetSearch.Proofs.Answer.Chunks
import DatasetSearch.Proofs.Answer.Counting
import DatasetSearch.Proofs.Outcome
import DatasetSearch.Proofs.Plan.Meaning
import DatasetSearch.Proofs.Query.Grammar
import DatasetSearch.Proofs.Query.Canonical
import DatasetSearch.Proofs.Ranking.Collection
import DatasetSearch.Proofs.Query.Rendering
import DatasetSearch.Proofs.Query.Glob
import DatasetSearch.Proofs.Highlight.Marks
import DatasetSearch.Proofs.Highlight.Render
import DatasetSearch.Proofs.Index.Highlights
import DatasetSearch.Proofs.Disk.Changes
import DatasetSearch.Proofs.Path
import DatasetSearch.Proofs.Index.Build
import DatasetSearch.Proofs.Service.History
import DatasetSearch.Proofs.Disk.Confinement
import DatasetSearch.Proofs.Service.Sources
import DatasetSearch.Proofs.Index.Ids
import DatasetSearch.Proofs.Index.Distinct
import DatasetSearch.Proofs.Service.Calls
import DatasetSearch.Proofs.Text.Casing
import DatasetSearch.Proofs.Query.Beginning
import DatasetSearch.Proofs.Index.Ranking
import DatasetSearch.Proofs.Index.Cutoffs
import DatasetSearch.Proofs.Index.Restriction
import DatasetSearch.Proofs.Index.Segmentation
import DatasetSearch.Proofs.Index.Words
import DatasetSearch.Proofs.Index.OwnWords
import DatasetSearch.Proofs.Query.Scan
import DatasetSearch.Proofs.Text.Places
import DatasetSearch.Proofs.Highlight.Marking
import DatasetSearch.Proofs.Highlight.Shown
import DatasetSearch.Proofs.Json.Literal
import DatasetSearch.Proofs.Json.Reading
import DatasetSearch.Proofs.Wire.Forms
import DatasetSearch.Proofs.Service.Streaming
import DatasetSearch.Proofs.Plan.Failure
import DatasetSearch.Proofs.Plan.Shape
import DatasetSearch.Proofs.Query.Escapes
import DatasetSearch.Proofs.Highlight.Score
import DatasetSearch.Proofs.Answer.Requests
import DatasetSearch.Proofs.Highlight.Phrases
import DatasetSearch.Index.Search
import DatasetSearch.Proofs.Index.Observer
import DatasetSearch.Proofs.Plan.Flattening
import DatasetSearch.Proofs.Query.Primary
import DatasetSearch.Proofs.Query.Lexing
import DatasetSearch.Proofs.Query.Errors
import DatasetSearch.Proofs.Toml.Table
import DatasetSearch.Proofs.Settings.Layer
import DatasetSearch.Proofs.Settings.Values
import DatasetSearch.Proofs.Settings.Load
import DatasetSearch.Proofs.Ranking.Heap
import DatasetSearch.Proofs.Highlight.Cutting
import DatasetSearch.Proofs.Croissant
