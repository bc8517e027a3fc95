import NeighborSearch.Index.Source
import NeighborSearch.Ranking.Search

/-!
# Options of a searcher

`SearcherOptions` is what callers fill in. A searcher is built from `ValidatedOptions`, and
`SearcherOptions.validate` is the way to get them; it reports the first fault in a fixed order.
-/

namespace NeighborSearch

/-- The number of results when nothing else is said. -/
def defaultMaxResults : Nat := 5

/-- What is done to an embedding before it is searched for. -/
structure EmbeddingOptions where
  l2Normalize : Bool := false
  quantize : Bool := false
deriving DecidableEq, Repr

/-- Options of the ranking. -/
structure SearchOptions where
  indexFile : ExternalFile := {}
  maxResults : Nat := defaultMaxResults
  allowed : List String := []
  denied : List String := []

/-- Options of a searcher. -/
structure SearcherOptions where
  modelFile : ExternalFile := {}
  embedding : EmbeddingOptions := {}
  search : SearchOptions := {}

/-- Options that have been checked. -/
structure ValidatedOptions where
  modelFile : ExternalFile
  indexFile : ExternalFile
  embedding : EmbeddingOptions
  maxResults : Nat
  filter : Filter

/-- Fails because a model is needed. -/
def modelMissing : SearchError :=
  .invalidArgument "Missing mandatory `model_file` field in `base_options`"

/-- Fails because an index is needed. -/
def indexMissing : SearchError :=
  .invalidArgument "Missing mandatory `index_file` field in `search_options`"

/-- Fails because quantized embeddings cannot be compared with an index. -/
def quantizeRefused : SearchError :=
  .invalidArgument "Setting EmbeddingOptions.quantize = true is not allowed in searchers."

namespace SearcherOptions

/-- Options that name a model and an index. -/
def ofFiles (model index : String) : SearcherOptions where
  modelFile := .ofPath model
  search := { indexFile := .ofPath index }

/-- Checks the options. -/
def validate (o : SearcherOptions) : Except SearchError ValidatedOptions := do
  if o.modelFile.isEmpty then throw modelMissing
  if o.search.indexFile.isEmpty then throw indexMissing
  if o.embedding.quantize then throw quantizeRefused
  let filter ← Filter.ofLists o.search.allowed o.search.denied
  checkMaxResults o.search.maxResults
  return ⟨o.modelFile, o.search.indexFile, o.embedding, o.search.maxResults, filter⟩

end SearcherOptions

end NeighborSearch
