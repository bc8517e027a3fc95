import NeighborSearch.Command.Run
import NeighborSearch.Host.Machine
import NeighborSearch.Proofs.Outcome
import NeighborSearch.Searcher

/-!
# The search command and searchers

The search command makes the checks of a searcher by hand, because it has no model. It comes to the
same as a searcher whose settings are those of the command line (`SearchArguments.override`) and
whose provider answers with the query that the command reads (`queryFactory`): both make the same
checks in one order (`checked`), and then load, read and rank.
-/

namespace NeighborSearch.Command

variable {m : Type → Type} [Monad m] [Host m] {ι : Type}

/-! ## What a search is compared with -/

/-- The settings in which the arguments of a search and a model take their places. -/
def SearchArguments.override (arguments : SearchArguments) (settings : Settings) (model : String) :
    Settings :=
  { settings with
    modelPath := some model
    indexPath := match arguments.index with
      | some index => some index
      | none => settings.indexPath
    embedding := { settings.embedding with
      l2Normalize := settings.embedding.l2Normalize || arguments.normalize }
    search := {
      maxResults := match arguments.maxResults with
        | some count => count
        | none => settings.search.maxResults
      allowed := if arguments.allowed = [] then settings.search.allowed else arguments.allowed
      denied := if arguments.denied = [] then settings.search.denied else arguments.denied } }

/-- Makes a provider that embeds every input to the query at a path. -/
def queryFactory [Wording] (path : String) : ProviderFactory m ι := fun _ _ => do
  let query ← readQuery path
  let dimension ← MonadExcept.ofExcept (Dimension.ofNat query.dimension)
  return { dimension, embed := fun _ _ => return query }

/-! ## Checks -/

/-- What is known once the arguments of a search have been checked. -/
structure Checked where
  index : String
  filter : Filter
  maxResults : Nat

/-- The checks before any file is opened. -/
def checked (arguments : SearchArguments) (settings : Settings) : Except SearchError Checked := do
  let index ← resolveIndex arguments.index settings
  if settings.embedding.quantize then throw quantizeRefused
  let filter ← Filter.ofLists
    (listOr arguments.allowed settings.search.allowed)
    (listOr arguments.denied settings.search.denied)
  let maxResults := (arguments.maxResults.getD settings.search.maxResults).toNat
  checkMaxResults maxResults
  return ⟨index, filter, maxResults⟩

variable {arguments : SearchArguments} {settings : Settings} {model : String}

/-- A file that is named is empty if the name is. -/
theorem isEmpty_externalFile (path : Option String) :
    (Settings.externalFile path).isEmpty = (path.filter (· ≠ "")).isNone := by
  cases path with
  | none => rfl
  | some path =>
    by_cases hpath : path = ""
    · rw [hpath]
      rfl
    · simp [Settings.externalFile, ExternalFile.ofPath, ExternalFile.isEmpty, hpath]

theorem listOr_eq (given configured : List String) :
    listOr given configured = if given = [] then configured else given := by
  cases given <;> rfl

/-- The options of a searcher with the settings of a command line. -/
theorem toSearcherOptions_override :
    (arguments.override settings model).toSearcherOptions
      = { modelFile := .ofPath model
          embedding := { settings.embedding with
            l2Normalize := settings.embedding.l2Normalize || arguments.normalize }
          search := {
            indexFile := Settings.externalFile (arguments.index <|> settings.indexPath)
            maxResults := (arguments.maxResults.getD settings.search.maxResults).toNat
            allowed := listOr arguments.allowed settings.search.allowed
            denied := listOr arguments.denied settings.search.denied } } := by
  rw [listOr_eq, listOr_eq]
  unfold Settings.toSearcherOptions SearchArguments.override
  cases arguments.index <;> cases arguments.maxResults <;> rfl

/-- A searcher checks the same things in the same order, once it has a model. -/
theorem validate_override (hmodel : model ≠ "") :
    (arguments.override settings model).toSearcherOptions.validate
      = (checked arguments settings).map fun c =>
          ⟨.ofPath model, .ofPath c.index,
            { settings.embedding with
              l2Normalize := settings.embedding.l2Normalize || arguments.normalize },
            c.maxResults, c.filter⟩ := by
  have hmodelFile : (ExternalFile.ofPath model).isEmpty = false := by
    have h := isEmpty_externalFile (some model)
    rw [Option.filter_some_pos (by simpa using hmodel)] at h
    exact h
  rw [toSearcherOptions_override]
  unfold SearcherOptions.validate checked resolveIndex
  dsimp only
  rw [hmodelFile, isEmpty_externalFile]
  cases hindex : (arguments.index <|> settings.indexPath).filter (· ≠ "") with
  | none => rfl
  | some path =>
    have hpath : (arguments.index <|> settings.indexPath) = some path :=
      (Option.filter_eq_some_iff.1 hindex).1
    rw [hpath]
    by_cases hquantize : settings.embedding.quantize = true
    · rw [hquantize]
      rfl
    · rw [Bool.not_eq_true] at hquantize
      rw [hquantize]
      -- now both check the lists and then the number of results
      cases Filter.ofLists (listOr arguments.allowed settings.search.allowed)
          (listOr arguments.denied settings.search.denied) with
      | error e => rfl
      | ok filter =>
        cases checkMaxResults (arguments.maxResults.getD settings.search.maxResults).toNat <;> rfl

theorem checkMaxResults_eq_ok_iff {maxResults : Nat} :
    checkMaxResults maxResults = .ok () ↔ maxResults ≠ 0 := by
  unfold checkMaxResults
  split
  case isTrue hzero => exact ⟨nofun, fun h => absurd hzero h⟩
  case isFalse hne => exact ⟨fun _ => hne, fun _ => rfl⟩

theorem maxResults_ne_zero_of_checked {c : Checked} (h : checked arguments settings = .ok c) :
    c.maxResults ≠ 0 := by
  unfold checked at h
  obtain ⟨index, -, h⟩ := bind_eq_ok_iff.1 h
  by_cases hquantize : settings.embedding.quantize = true
  · rw [if_pos hquantize] at h
    cases h
  · rw [if_neg hquantize] at h
    obtain ⟨filter, -, h⟩ := bind_eq_ok_iff.1 h
    obtain ⟨⟨⟩, hmax, h⟩ := bind_eq_ok_iff.1 h
    cases h
    exact checkMaxResults_eq_ok_iff.1 hmax

/-! ## Answers -/

section Answers

variable [Wording]

/-- What a search does once its arguments have been checked. -/
def answer (arguments : SearchArguments) (settings : Settings) (c : Checked) :
    ExceptT SearchError m SearchResult := do
  let store ← (IndexSource.file c.index).load
  let query ← readQuery arguments.query
  let query :=
    if arguments.normalize || settings.embedding.l2Normalize then query.normalized else query
  MonadExcept.ofExcept
    (store.search query.values { maxResults := c.maxResults, filter := c.filter })

/-- The command checks its arguments and then answers. -/
theorem search_eq [LawfulMonad m] (arguments : SearchArguments) (settings : Settings) :
    (do
      let report ← search arguments settings
      return report.result : ExceptT SearchError m SearchResult)
      = MonadExcept.ofExcept (checked arguments settings) >>= answer arguments settings := by
  unfold search checked
  cases resolveIndex arguments.index settings with
  | error e => rw [error_bind, ofExcept_error_bind, ofExcept_error_bind, throw_bind]
  | ok index =>
    rw [ok_bind, ofExcept_ok_bind]
    by_cases hquantize : settings.embedding.quantize = true
    · rw [if_pos hquantize, if_pos hquantize, throw_bind, throw_bind]
      exact (ofExcept_error_bind _ _).symm
    · rw [if_neg hquantize, if_neg hquantize]
      dsimp only
      cases Filter.ofLists (listOr arguments.allowed settings.search.allowed)
          (listOr arguments.denied settings.search.denied) with
      | error e => rw [error_bind, ofExcept_error_bind, ofExcept_error_bind, throw_bind]
      | ok filter =>
        rw [ok_bind, ofExcept_ok_bind]
        cases checkMaxResults (arguments.maxResults.getD settings.search.maxResults).toNat with
        | error e => rw [error_bind, ofExcept_error_bind, ofExcept_error_bind, throw_bind]
        | ok _ =>
          rw [ok_bind, ofExcept_ok_bind]
          show _ = MonadExcept.ofExcept (Except.ok (Checked.mk index filter _)) >>= _
          rw [ofExcept_ok_bind, answer]
          simp only [bind_assoc, pure_bind, bind_pure]

end Answers

/-! ## Searchers that answer with the query -/

/-- Where an index is named as a file to be opened, it is loaded as from the path itself. -/
theorem load_ofPath (path : String) :
    ((IndexSource.external (.ofPath path)).load : ExceptT SearchError m Index.Store)
      = (IndexSource.file path).load := rfl

/-- Searching for a vector of another dimension fails before anything else is looked at. -/
theorem search_of_length_ne {store : Index.Store} {query : List Float32} {request : SearchRequest}
    (hmax : request.maxResults ≠ 0) (hlength : query.length ≠ store.dimension.toNat) :
    store.search query request = .error (.dimensionMismatch store.dimension.toNat query.length) := by
  unfold Index.Store.search checkMaxResults Dimension.check
  rw [if_neg hmax, ok_bind, if_neg hlength, error_bind]

section Agreement

variable [Wording]

/-- A query that was read has components. -/
theorem dimension_pos_of_parseQuery {text : String} {query : Embedding}
    (h : parseQuery text = .ok query) : 0 < query.dimension := by
  unfold parseQuery at h
  split at h
  · cases h
  · unfold Embedding.ofValues at h
    split at h
    case h_1 values _ dimension hdimension =>
      cases h
      unfold Dimension.ofNat at hdimension
      split at hdimension
      case isTrue hpos => exact hpos
      case isFalse => cases hdimension
    case h_2 => cases h

/-- A provider that gives the query answers as the command does. -/
theorem create_search_eq [LawfulMonad m] (hmodel : model ≠ "") (input : ι) :
    (do
      let searcher ← Searcher.create (arguments.override settings model).toSearcherOptions
        (queryFactory arguments.query)
      searcher.search input : ExceptT SearchError m SearchResult)
      = MonadExcept.ofExcept (checked arguments settings) >>= answer arguments settings := by
  unfold Searcher.create
  rw [validate_override hmodel]
  cases hchecked : checked arguments settings with
  | error e =>
    rw [ofExcept_error_bind]
    show (MonadExcept.ofExcept (Except.error e) >>= _) >>= _ = _
    rw [ofExcept_error_bind, throw_bind]
  | ok c =>
    have hmax := maxResults_ne_zero_of_checked hchecked
    rw [ofExcept_ok_bind]
    show (MonadExcept.ofExcept (Except.ok (ValidatedOptions.mk _ _ _ _ _)) >>= _) >>= _ = _
    rw [ofExcept_ok_bind, answer]
    dsimp only
    rw [load_ofPath, bind_assoc]
    -- the index is loaded, then the query is read
    refine bind_congr fun store => ?_
    unfold queryFactory readQuery
    simp only [bind_assoc]
    refine bind_congr fun text => ?_
    -- what is left has no effects
    cases hquery : parseQuery text with
    | error e => rw [ofExcept_error_bind, ofExcept_error_bind]
    | ok query =>
      have hpos := dimension_pos_of_parseQuery hquery
      have hdimension : Dimension.ofNat query.dimension = .ok ⟨query.dimension, hpos⟩ :=
        dif_pos hpos
      rw [ofExcept_ok_bind, ofExcept_ok_bind, hdimension, ofExcept_ok_bind, pure_bind]
      by_cases hlength : query.dimension ≠ store.dimension.toNat
      · have hvalues : (if (arguments.normalize || settings.embedding.l2Normalize) = true
            then query.normalized else query).values.length = query.dimension := by
          split
          · exact query.length_normalized
          · rfl
        rw [if_pos hlength, throw_bind, throw_bind, search_of_length_ne hmax (by rwa [hvalues]),
          hvalues]
        rfl
      · rw [if_neg hlength, pure_bind, Searcher.search, Searcher.run, pure_bind, Bool.or_comm]

/-- The search command and a searcher agree. For all arguments, settings and hosts, the command
does what a searcher does whose settings are those of the command line, whose model is named, and
whose provider answers every input with the query that the command reads: it fails with the same
error, or it gives the same neighbors at the same distances. -/
theorem search_eq_searcher_search [LawfulMonad m] (arguments : SearchArguments)
    (settings : Settings) (model : String) (hmodel : model ≠ "") (input : ι) :
    (do
      let report ← search arguments settings
      return report.result : ExceptT SearchError m SearchResult)
      = (do
        let searcher ← Searcher.create (arguments.override settings model).toSearcherOptions
          (queryFactory arguments.query)
        searcher.search input) := by
  rw [search_eq, create_search_eq hmodel]

end Agreement

/-- A machine with an index of two records and a query. -/
def machineWithIndex : Machine where
  root := .directory [
    ("index", .file (Index.encode 1 0 "" [("a", [1]), ("b", [0])]).toByteArray),
    ("query", .file "[0]".toUTF8)]
  workingDirectory := []

/-- The searcher that the command stands for, on that machine. -/
theorem searcher_search_machineWithIndex :
    "model" ≠ ""
    ∧ ((do
        let searcher ← Searcher.create
          (SearchArguments.override { index := some "index", query := "query" } {}
            "model").toSearcherOptions
          (queryFactory "query")
        searcher.search () : ExceptT SearchError (StateM Machine) SearchResult).run
          machineWithIndex).1.toOption
      = some ⟨[⟨"b", 0⟩, ⟨"a", 1⟩]⟩ := by
  have hmodel : "model" ≠ "" := by decide
  have hsearch := search_eq_searcher_search (m := StateM Machine)
    { index := some "index", query := "query" } {} "model" hmodel ()
  refine ⟨hmodel, ?_⟩
  rw [← hsearch]
  decide +kernel

end NeighborSearch.Command
