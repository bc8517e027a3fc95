import NeighborSearch.Host.Machine
import NeighborSearch.Proofs.Ranking.Search
import NeighborSearch.Proofs.Searcher.Stages

/-!
# Searchers that are ready

What is checked while a searcher is made is never checked again. `Searcher.Ready` is what a searcher
that exists has to rely on, and `Searcher.answer` is all that can become of an embedding then: its
length, its finiteness and the token are looked at, and everything else is ranked. The token may be
cancelled at any time.
-/

namespace NeighborSearch

/-! ## Searches that ask for results -/

namespace Index.Store

/-- A search that asks for results looks at the length of the query, at its components and at the
token, in this order, and ranks the records if nothing is wrong with them. -/
theorem search_of_pos {s : Store} (hvalid : s.Valid) (query : List Float32) {maxResults : Nat}
    (hmax : 0 < maxResults) (filter : Filter) (token : Option CancellationToken) :
    s.search query { maxResults, filter, token }
      = if query.length ≠ s.dimension.toNat then
          .error (.dimensionMismatch s.dimension.toNat query.length)
        else if ¬query.all Float32.isFinite then
          .error (.invalidArgument "Query embedding contains non-finite values")
        else match token.bind (·.stop? s.size) with
          | some scanned => .error (.cancelled scanned s.size)
          | none => .ok ⟨(s.ranking query filter).take maxResults⟩ := by
  unfold search checkMaxResults Dimension.check checkQuery
  have hne : maxResults ≠ 0 := by omega
  rw [if_neg hne, ok_bind]
  by_cases hlength : query.length = s.dimension.toNat
  · rw [if_pos hlength, if_neg (not_not_intro hlength), ok_bind]
    by_cases hfinite : query.all Float32.isFinite = true
    · rw [if_pos hfinite, if_neg (not_not_intro hfinite), ok_bind]
      exact scan_eq { maxResults, filter, token } hvalid
    · rw [if_neg hfinite, if_pos hfinite]
      rfl
  · rw [if_neg hlength, if_pos hlength]
    rfl

/-- Such a search succeeds if the query fits the records and is finite. -/
theorem search_eq_ok_iff {s : Store} (hvalid : s.Valid) {query : List Float32} {maxResults : Nat}
    (hmax : maxResults ≠ 0) (filter : Filter) {result : SearchResult} :
    s.search query { maxResults, filter } = .ok result
      ↔ query.length = s.dimension.toNat ∧ query.all Float32.isFinite = true
        ∧ ⟨(s.ranking query filter).take maxResults⟩ = result := by
  rw [search_of_pos hvalid query (Nat.pos_of_ne_zero hmax) filter none]
  by_cases hlength : query.length = s.dimension.toNat
  · rw [if_neg (not_not_intro hlength)]
    by_cases hfinite : query.all Float32.isFinite = true
    · rw [if_neg (not_not_intro hfinite), Option.bind_none, Except.ok.injEq]
      exact ⟨fun h => ⟨hlength, hfinite, h⟩, fun h => h.2.2⟩
    · rw [if_pos hfinite]
      exact ⟨nofun, fun h => absurd h.2.1 hfinite⟩
  · rw [if_pos hlength]
    exact ⟨nofun, fun h => absurd h.1 hlength⟩

end Index.Store

namespace Searcher

/-! ## What a searcher relies on -/

section Ready

variable {m : Type → Type} {ι : Type}

/-- What becomes of an embedding, where `stop` says after how many records the token is found
cancelled. The provider may have given another number of components than it said. -/
def answer (s : Searcher m ι) (embedding : Embedding) (stop : Option Nat) :
    Except SearchError SearchResult :=
  let query := if s.options.embedding.l2Normalize then embedding.normalized else embedding
  if embedding.dimension ≠ s.store.dimension.toNat then
    .error (.dimensionMismatch s.store.dimension.toNat embedding.dimension)
  else if ¬query.values.all Float32.isFinite then
    .error (.invalidArgument "Query embedding contains non-finite values")
  else match stop with
    | some scanned => .error (.cancelled scanned s.store.size)
    | none => .ok ⟨(s.store.ranking query.values s.options.filter).take s.options.maxResults⟩

end Ready

/-! ## Making a searcher -/

section Create

variable {σ ι : Type} [Host (StateM σ)] {world after : σ}

/-- The stores that are loaded are valid. -/
theorem valid_of_load {source : IndexSource} {store : Index.Store}
    (h : outcome source.load world = (.ok store, after)) : store.Valid := by
  obtain ⟨bytes, opening, -, hbytes⟩ := outcome_bind_eq_ok_iff.1 h
  rw [outcome_ofExcept, Prod.mk.injEq] at hbytes
  exact (Index.Store.Reachable.loaded hbytes.1).valid

end Create

end Searcher

end NeighborSearch
