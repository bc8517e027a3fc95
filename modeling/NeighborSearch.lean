import NeighborSearch.Config.Variable
import NeighborSearch.Json.Forms
import NeighborSearch.Main
import NeighborSearch.Host.Machine
import NeighborSearch.Ranking.FullSort
import NeighborSearch.Report.Decode
import NeighborSearch.Searcher
import NeighborSearch.Settings.Json
import NeighborSearch.Text.Width.Lemmas
import NeighborSearch.Proofs.Index.Canonical
import NeighborSearch.Proofs.Index.Truncation
import NeighborSearch.Proofs.Index.Lookup
import NeighborSearch.Proofs.Index.Reservation
import NeighborSearch.Proofs.Ranking.Search
import NeighborSearch.Proofs.Command.Search
import NeighborSearch.Proofs.Command.Outcome
import NeighborSearch.Proofs.Searcher.Stages
import NeighborSearch.Proofs.Searcher.Ready
import NeighborSearch.Proofs.Searcher.Sources
import NeighborSearch.Proofs.Ranking.Filtering
import NeighborSearch.Proofs.Ranking.Distances
import NeighborSearch.Proofs.Decimal.Shortest
import NeighborSearch.Proofs.Host.Join
import NeighborSearch.Proofs.Host.Machine
import NeighborSearch.Proofs.Json.Grammar
import NeighborSearch.Proofs.Json.Records
import NeighborSearch.Proofs.Report.SearchResult
import NeighborSearch.Proofs.Settings.Json
import NeighborSearch.Proofs.Settings.Persistence
import NeighborSearch.Proofs.Settings.Winning
import NeighborSearch.Proofs.Settings.Defaults
import NeighborSearch.Proofs.Settings.Saving
import NeighborSearch.Proofs.Settings.Workspace
import NeighborSearch.Proofs.Distance.Similarity
import NeighborSearch.Proofs.Embedding
import NeighborSearch.Proofs.Embedding.Components
import NeighborSearch.Proofs.Ranking.Copies
import NeighborSearch.Proofs.Ranking.CandidateOrder
import NeighborSearch.Proofs.Report.Decode
import NeighborSearch.Proofs.Report.Table
import NeighborSearch.Proofs.Error
import NeighborSearch.Proofs.Json.Values
import NeighborSearch.Proofs.Console.Calls
