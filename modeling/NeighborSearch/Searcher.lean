import NeighborSearch.Embedding
import NeighborSearch.Searcher.Options
import NeighborSearch.Searcher.Region

/-!
# Searchers

A searcher turns an input into an embedding with a provider and ranks the records of an index
against it. How models are loaded and run is left to the provider and to the factory that makes
it; a searcher checks that the two agree on the number of components before it exists.
-/

namespace NeighborSearch

variable {m : Type → Type} {ι : Type}

/-- Turns inputs of type `ι` into embeddings. A provider whose dimension is zero is left out. There is
one way to such a dimension, to take that of an embedding that was read from an empty array; but no
index has it, so all that becomes of the provider is a dimension mismatch when a searcher is made. -/
structure Provider (m : Type → Type) (ι : Type) where
  /-- The number of components of its embeddings. -/
  dimension : Dimension
  /-- The embedding of an input, or of a region of it. -/
  embed : ι → Option Region → ExceptT SearchError m Embedding

/-- Makes a provider from a model file. -/
abbrev ProviderFactory (m : Type → Type) (ι : Type) :=
  ExternalFile → EmbeddingOptions → ExceptT SearchError m (Provider m ι)

/-- A provider together with the index it searches. -/
structure Searcher (m : Type → Type) (ι : Type) where
  provider : Provider m ι
  store : Index.Store
  options : ValidatedOptions

namespace Searcher

variable [Monad m]

/-- Builds a searcher. The options are checked first, then the index is loaded, then the provider
is made, and last its dimension is compared with that of the index. -/
def create [Host m] (options : SearcherOptions) (factory : ProviderFactory m ι) :
    ExceptT SearchError m (Searcher m ι) := do
  let options ← MonadExcept.ofExcept options.validate
  let store ← (IndexSource.external options.indexFile).load
  let provider ← factory options.modelFile options.embedding
  if provider.dimension.toNat ≠ store.dimension.toNat then
    throw (.dimensionMismatch store.dimension.toNat provider.dimension.toNat)
  return ⟨provider, store, options⟩

/-- Builds a searcher from the names of a model and an index. -/
def createFromFiles [Host m] (model index : String) (factory : ProviderFactory m ι) :
    ExceptT SearchError m (Searcher m ι) :=
  create (.ofFiles model index) factory

/-- Embeds an input and ranks the index against it. -/
def run (s : Searcher m ι) (input : ι) (region : Option Region)
    (token : Option CancellationToken) : ExceptT SearchError m SearchResult := do
  let embedding ← s.provider.embed input region
  let query := if s.options.embedding.l2Normalize then embedding.normalized else embedding
  MonadExcept.ofExcept (s.store.search query.values
    { maxResults := s.options.maxResults, filter := s.options.filter, token })

/-- The neighbors of an input. -/
def search (s : Searcher m ι) (input : ι) : ExceptT SearchError m SearchResult :=
  s.run input none none

/-- The neighbors of a region of an input. -/
def searchRegion (s : Searcher m ι) (input : ι) (region : Region) :
    ExceptT SearchError m SearchResult := do
  MonadExcept.ofExcept region.check
  s.run input (some region) none

/-- The neighbors of an input, unless the token is cancelled. -/
def searchCancellable (s : Searcher m ι) (input : ι) (token : CancellationToken) :
    ExceptT SearchError m SearchResult :=
  s.run input none (some token)

end Searcher

end NeighborSearch
