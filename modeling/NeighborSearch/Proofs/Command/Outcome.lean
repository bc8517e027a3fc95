import NeighborSearch.Proofs.Command.Search
import NeighborSearch.Proofs.Console
import NeighborSearch.Proofs.Searcher.Ready

/-!
# What the search command ends with

The search command makes its checks, and then ranks the records that the filter accepts. `Passes`
says that all checks pass; the command fails exactly if one of them does not. So its exit status
tells what it has shown: neighbors, that there are none, or an error.
-/

namespace NeighborSearch.Command

open Index (Store Record)

/-! ## Searches that change nothing -/

theorem keeps_load (path : String) :
    Keeps ((IndexSource.file path).load : ExceptT SearchError (StateM Machine) Store) := by
  refine Keeps.bind (fun world => ?_) fun bytes => keeps_ofExcept _
  rw [IndexSource.openBytes, Searcher.outcome_openPath]
  rfl

theorem keeps_queryText (path : String) :
    Keeps (queryText path : ExceptT SearchError (StateM Machine) String) := by
  rw [queryText]
  split
  · refine Keeps.bind (fun _ => rfl) fun text => ?_
    cases text with
    | ok text => exact keeps_pure text
    | error error => exact keeps_throw _
  · refine Keeps.bind (fun _ => rfl) fun text => ?_
    cases text with
    | ok text => exact keeps_pure text
    | error error => exact keeps_throw _

theorem keeps_readQuery [Wording] (path : String) :
    Keeps (readQuery path : ExceptT SearchError (StateM Machine) Embedding) :=
  (keeps_queryText path).bind fun _ => keeps_ofExcept _

theorem keeps_search [Wording] (arguments : SearchArguments) (settings : Settings) :
    Keeps (search arguments settings : ExceptT SearchError (StateM Machine) SearchReport) := by
  refine (keeps_ofExcept _).bind fun index => ?_
  by_cases hquantize : settings.embedding.quantize = true
  · rw [if_pos hquantize, throw_bind]
    exact keeps_throw _
  · rw [if_neg hquantize]
    refine (keeps_ofExcept _).bind fun filter => (keeps_ofExcept _).bind fun _ => ?_
    refine (keeps_load index).bind fun store => (keeps_readQuery _).bind fun query => ?_
    exact (keeps_ofExcept _).bind fun result => keeps_pure _

/-! ## Time and format -/

/-- Neither the format nor the time decides about the exit status. -/
theorem exitCode_announceSearch (format : OutputFormat) (elapsed : Nat)
    (result : Except SearchError SearchReport) :
    (announceSearch format elapsed result).exitCode = (announceSearch .text 0 result).exitCode := by
  cases result with
  | error error =>
    rw [announceSearch, announceSearch, Announcement.exitCode_ofError,
      Announcement.exitCode_ofError]
  | ok report =>
    rw [announceSearch, announceSearch]
    split
    · rw [Announcement.exitCode_notFound, Announcement.exitCode_notFound]
    · rw [Announcement.exitCode_success, Announcement.exitCode_success]

/-- The time between two looks at the clock. -/
theorem run_timed {α : Type} {action : StateM Machine α} {result : α}
    {machine after : Machine} (h : action.run machine = (result, after)) :
    (timed action).run machine = ((result, after.time - machine.time), after) := by
  show (((action.run machine).1, (action.run machine).2.time - machine.time),
    (action.run machine).2) = _
  rw [h]

/-! ## Checks -/

/-- What a search ranks: the records of a store that a filter accepts, for a query. -/
structure Prepared extends Checked where
  store : Store
  query : List Float32

namespace Prepared

/-- The records that the filter accepts. -/
def eligible (p : Prepared) : List Record :=
  p.store.records.filter fun record => p.filter.accepts record.metadata

/-- The nearest of these records. -/
def report (p : Prepared) : SearchReport where
  index := p.index
  maxResults := p.maxResults
  result := ⟨(p.store.ranking p.query p.filter).take p.maxResults⟩

/-- As many records as are asked for are reported, if the filter accepts so many. -/
theorem size_report (p : Prepared) : p.report.result.size = min p.maxResults p.eligible.length := by
  -- sorting loses none of the records
  have hranking : (p.store.ranking p.query p.filter).length = p.eligible.length := by
    rw [eligible, ← List.zipIdx_map_fst 0 p.store.records, List.filter_map, List.length_map,
      Store.ranking, List.length_map, List.length_mergeSort, Store.accepted, List.length_map]
    rfl
  rw [report, SearchResult.size, List.length_take, hranking]

end Prepared

variable {arguments : SearchArguments} {settings : Settings} {machine after : Machine}
variable {p : Prepared} {report : SearchReport}

theorem resolveIndex_eq_ok_iff {index : String} :
    resolveIndex arguments.index settings = .ok index
      ↔ (arguments.index <|> settings.indexPath) = some index ∧ index ≠ "" := by
  unfold resolveIndex
  have hfilter := Option.filter_eq_some_iff (o := arguments.index <|> settings.indexPath)
    (p := (· ≠ "")) (a := index)
  rw [decide_eq_true_iff] at hfilter
  rw [← hfilter]
  cases (arguments.index <|> settings.indexPath).filter (· ≠ "") with
  | none => exact ⟨nofun, nofun⟩
  | some path => simp

section Search

variable [Wording]

/-- All checks of a search pass: an index is named, quantized embeddings are not asked for, at most
one of the two lists restricts, some results are asked for, the index and the query can be read, and
the query has as many components as the records, all of them finite. -/
structure Passes (arguments : SearchArguments) (settings : Settings) (machine : Machine)
    (p : Prepared) : Prop where
  named : (arguments.index <|> settings.indexPath) = some p.index ∧ p.index ≠ ""
  quantize : settings.embedding.quantize = false
  lists : Filter.ofLists (listOr arguments.allowed settings.search.allowed)
    (listOr arguments.denied settings.search.denied) = .ok p.filter
  limit : (arguments.maxResults.getD settings.search.maxResults).toNat = p.maxResults
    ∧ p.maxResults ≠ 0
  loaded : (outcome (IndexSource.file p.index).load machine).1 = .ok p.store
  read : ∃ embedding, (outcome (readQuery arguments.query) machine).1 = .ok embedding
    ∧ (if arguments.normalize || settings.embedding.l2Normalize then embedding.normalized
      else embedding).values = p.query
  length : p.query.length = p.store.dimension.toNat
  finite : p.query.all Float32.isFinite = true

/-- The store that a search ranks is valid, so it has records. -/
theorem Passes.valid (h : Passes arguments settings machine p) : p.store.Valid :=
  Searcher.valid_of_load (Prod.ext h.loaded (keeps_load p.index machine))

/-- There is one way to pass all checks. -/
theorem Passes.unique {q : Prepared} (hp : Passes arguments settings machine p)
    (hq : Passes arguments settings machine q) : p = q := by
  obtain ⟨⟨index, filter, maxResults⟩, store, query⟩ := p
  obtain ⟨⟨index', filter', maxResults'⟩, store', query'⟩ := q
  obtain rfl : index = index' := Option.some.inj (hp.named.1.symm.trans hq.named.1)
  obtain rfl : filter = filter' := Except.ok.inj (hp.lists.symm.trans hq.lists)
  obtain rfl : maxResults = maxResults' := hp.limit.1.symm.trans hq.limit.1
  obtain rfl : store = store' := Except.ok.inj (hp.loaded.symm.trans hq.loaded)
  obtain ⟨embedding, hread, hquery⟩ := hp.read
  obtain ⟨embedding', hread', hquery'⟩ := hq.read
  obtain rfl : embedding = embedding' := Except.ok.inj (hread.symm.trans hread')
  obtain rfl : query = query' := hquery.symm.trans hquery'
  rfl

/-- A search succeeds exactly if all checks pass, and then reports the nearest records. -/
theorem outcome_search_eq_ok_iff :
    outcome (search arguments settings) machine = (.ok report, machine)
      ↔ ∃ p, Passes arguments settings machine p ∧ p.report = report := by
  rw [search, (keeps_ofExcept _).outcome_bind_eq_ok_iff]
  constructor
  · -- each step is a check that has passed
    rintro ⟨index, hindex, h⟩
    rw [outcome_ofExcept, resolveIndex_eq_ok_iff] at hindex
    by_cases hquantize : settings.embedding.quantize = true
    · rw [if_pos hquantize, throw_bind] at h
      cases h
    · rw [if_neg hquantize] at h
      obtain ⟨filter, hfilter, h⟩ := (keeps_ofExcept _).outcome_bind_eq_ok_iff.1 h
      obtain ⟨⟨⟩, hmax, h⟩ := (keeps_ofExcept _).outcome_bind_eq_ok_iff.1 h
      obtain ⟨store, hstore, h⟩ := (keeps_load index).outcome_bind_eq_ok_iff.1 h
      obtain ⟨query, hquery, h⟩ := (keeps_readQuery _).outcome_bind_eq_ok_iff.1 h
      obtain ⟨result, hresult, h⟩ := (keeps_ofExcept _).outcome_bind_eq_ok_iff.1 h
      rw [outcome_ofExcept] at hfilter hmax hresult
      have hvalid : store.Valid :=
        Searcher.valid_of_load (Prod.ext hstore (keeps_load index machine))
      have hpos := checkMaxResults_eq_ok_iff.1 hmax
      obtain ⟨hlength, hfinite, rfl⟩ := (Store.search_eq_ok_iff hvalid hpos filter).1 hresult
      cases h
      exact ⟨⟨⟨index, filter, _⟩, store, _⟩,
        ⟨hindex, Bool.not_eq_true _ ▸ hquantize, hfilter, ⟨rfl, hpos⟩, hstore, ⟨query, hquery, rfl⟩,
          hlength, hfinite⟩, rfl⟩
  · -- the steps are taken in the order of the program
    rintro ⟨⟨⟨index, filter, maxResults⟩, store, values⟩, h, rfl⟩
    obtain ⟨hlimit, hpos⟩ := h.limit
    obtain ⟨query, hquery, hvalues⟩ := h.read
    dsimp only at hlimit hpos hvalues
    subst hlimit hvalues
    have hresult := (Store.search_eq_ok_iff h.valid hpos filter).2 ⟨h.length, h.finite, rfl⟩
    refine ⟨index, ?_, ?_⟩
    · rw [outcome_ofExcept, resolveIndex_eq_ok_iff]
      exact h.named
    · rw [if_neg (Bool.eq_false_iff.1 h.quantize)]
      refine (keeps_ofExcept _).outcome_bind_eq_ok_iff.2 ⟨filter, ?_, ?_⟩
      · rw [outcome_ofExcept]
        exact h.lists
      · refine (keeps_ofExcept _).outcome_bind_eq_ok_iff.2 ⟨(), ?_, ?_⟩
        · rw [outcome_ofExcept, checkMaxResults_eq_ok_iff]
          exact hpos
        · refine (keeps_load index).outcome_bind_eq_ok_iff.2 ⟨store, h.loaded, ?_⟩
          refine (keeps_readQuery _).outcome_bind_eq_ok_iff.2 ⟨query, hquery, ?_⟩
          refine (keeps_ofExcept _).outcome_bind_eq_ok_iff.2 ⟨_, ?_, rfl⟩
          rw [outcome_ofExcept]
          exact hresult

/-! ## Announcements -/

/-- An announcement in a format agrees with a search. -/
structure Agrees (arguments : SearchArguments) (settings : Settings) (machine : Machine)
    (format : OutputFormat) (a : Announcement) : Prop where
  /-- It is a success exactly if it shows neighbors. -/
  success_iff_shows : a.exitCode = .success ↔ ∃ n, 0 < n ∧ a.ShowsNeighbors n format
  /-- It is a success exactly if all checks pass and the filter accepts a record. -/
  success_iff_eligible :
    a.exitCode = .success ↔ ∃ p, Passes arguments settings machine p ∧ p.eligible ≠ []
  /-- Then it shows the nearest of the records that the filter accepts, as many as are asked for or
  all of them. -/
  shows : a.exitCode = .success → ∃ p elapsed, Passes arguments settings machine p
    ∧ a = .success format p.report.toReport elapsed
    ∧ ∀ n, a.ShowsNeighbors n format ↔ n = min p.maxResults p.eligible.length
  /-- It says that there is no neighbor exactly if all checks pass and the filter accepts none of
  the records, of which there are some. -/
  saysNotFound_iff : a.SaysNotFound format
    ↔ ∃ p, Passes arguments settings machine p ∧ p.store.records ≠ [] ∧ p.eligible = []
  notFound : a.SaysNotFound format → a.exitCode = .notFound
  /-- Otherwise it shows the error of the search, with the status of that error. -/
  failure : a.exitCode ≠ .success → ¬a.SaysNotFound format →
    ∃ error, outcome (search arguments settings) machine = (.error error, machine)
      ∧ a = .ofError format error ∧ a.exitCode = .ofError error
      ∧ ExitCode.ofError error ≠ .success
  encloses : a.Encloses format

variable {format : OutputFormat} {elapsed : Nat} {error : SearchError}

/-- If the filter accepts a record, neighbors are shown. -/
theorem agrees_of_eligible (h : Passes arguments settings machine p) (hne : p.eligible ≠ []) :
    Agrees arguments settings machine format (announceSearch format elapsed (.ok p.report)) := by
  have hpositive : 0 < p.report.result.size := by
    have heligible := List.length_pos_iff.2 hne
    have hlimit := h.limit.2
    rw [p.size_report]
    omega
  have hannounce : announceSearch format elapsed (.ok p.report)
      = .success format p.report.toReport (some elapsed) := by
    rw [announceSearch, SearchResult.isEmpty, List.isEmpty_eq_false_iff.2
      (List.length_pos_iff.1 hpositive), if_neg Bool.false_ne_true]
  have hsuccess : (Announcement.success format p.report.toReport (some elapsed)).exitCode
      = .success := Announcement.exitCode_success format _
  rw [hannounce]
  exact {
    success_iff_shows := by
      refine ⟨fun _ => ⟨_, hpositive, (Announcement.showsNeighbors_success format).2 rfl⟩, ?_⟩
      exact fun _ => hsuccess
    success_iff_eligible := ⟨fun _ => ⟨p, h, hne⟩, fun _ => hsuccess⟩
    shows := by
      intro _
      refine ⟨p, some elapsed, h, rfl, fun n => ?_⟩
      rw [Announcement.showsNeighbors_success, p.size_report]
    saysNotFound_iff := by
      constructor
      · intro hsays
        exact absurd hsays (Announcement.not_saysNotFound_success format)
      · rintro ⟨q, hq, -, hnil⟩
        rw [hq.unique h] at hnil
        exact absurd hnil hne
    notFound := fun hsays => absurd hsays (Announcement.not_saysNotFound_success format)
    failure := fun hfailed => absurd hsuccess hfailed
    encloses := Announcement.encloses_success format _ }

/-- If the filter accepts none, that is said. -/
theorem agrees_of_no_eligible (h : Passes arguments settings machine p) (hnil : p.eligible = []) :
    Agrees arguments settings machine format (announceSearch format elapsed (.ok p.report)) := by
  have hzero : p.report.result.neighbors = [] := by
    apply List.length_eq_zero_iff.1
    show p.report.result.size = 0
    rw [p.size_report, hnil, List.length_nil, Nat.min_zero]
  have hannounce : announceSearch format elapsed (.ok p.report)
      = .notFound format "Neighbor" "any" := by
    rw [announceSearch, SearchResult.isEmpty, hzero, List.isEmpty_nil, if_pos rfl]
  have hcode : (Announcement.notFound format "Neighbor" "any").exitCode = .notFound :=
    Announcement.exitCode_notFound format _ _
  have hfailed : (Announcement.notFound format "Neighbor" "any").exitCode ≠ .success := by
    rw [hcode]
    exact ExitCode.noConfusion
  rw [hannounce]
  exact {
    success_iff_shows := by
      refine ⟨fun hsuccess => absurd hsuccess hfailed, ?_⟩
      rintro ⟨n, -, hshows⟩
      exact absurd hshows (Announcement.not_showsNeighbors_notFound format _ _ n)
    success_iff_eligible := by
      refine ⟨fun hsuccess => absurd hsuccess hfailed, ?_⟩
      rintro ⟨q, hq, hne⟩
      rw [hq.unique h] at hne
      exact absurd hnil hne
    shows := fun hsuccess => absurd hsuccess hfailed
    saysNotFound_iff :=
      ⟨fun _ => ⟨p, h, Store.records_ne_nil h.valid, hnil⟩,
        fun _ => Announcement.saysNotFound_notFound format⟩
    notFound := fun _ => hcode
    failure := fun _ hsays => absurd (Announcement.saysNotFound_notFound format) hsays
    encloses := Announcement.encloses_notFound format _ _ }

/-- If a check does not pass, its error is shown. -/
theorem agrees_of_error (h : outcome (search arguments settings) machine = (.error error, machine)) :
    Agrees arguments settings machine format (announceSearch format elapsed (.error error)) := by
  -- a search whose checks all pass does not fail
  have hchecks : ∀ q, ¬Passes arguments settings machine q := by
    intro q hq
    rw [outcome_search_eq_ok_iff.2 ⟨q, hq, rfl⟩] at h
    cases h
  have hcode : (Announcement.ofError format error).exitCode = .ofError error :=
    Announcement.exitCode_ofError format
  have hfailed : (Announcement.ofError format error).exitCode ≠ .success := by
    rw [hcode]
    exact ExitCode.ofError_ne_success error
  rw [announceSearch]
  exact {
    success_iff_shows := by
      refine ⟨fun hsuccess => absurd hsuccess hfailed, ?_⟩
      rintro ⟨n, -, hshows⟩
      exact absurd hshows (Announcement.not_showsNeighbors_ofError format n)
    success_iff_eligible :=
      ⟨fun hsuccess => absurd hsuccess hfailed, fun ⟨q, hq, _⟩ => absurd hq (hchecks q)⟩
    shows := fun hsuccess => absurd hsuccess hfailed
    saysNotFound_iff :=
      ⟨fun hsays => absurd hsays (Announcement.not_saysNotFound_ofError format),
        fun ⟨q, hq, _⟩ => absurd hq (hchecks q)⟩
    notFound := fun hsays => absurd hsays (Announcement.not_saysNotFound_ofError format)
    failure := fun _ _ => ⟨error, h, rfl, hcode, ExitCode.ofError_ne_success error⟩
    encloses := Announcement.encloses_ofError format }

/-- The announcement of a search agrees with it, whatever time it took. -/
theorem agrees_announceSearch (arguments : SearchArguments) (settings : Settings)
    (machine : Machine) (format : OutputFormat) (elapsed : Nat) :
    Agrees arguments settings machine format
      (announceSearch format elapsed (outcome (search arguments settings) machine).1) := by
  have hsearch := (keeps_search arguments settings).outcome_eq machine
  cases hresult : (outcome (search arguments settings) machine).1 with
  | ok report =>
    rw [hresult] at hsearch
    obtain ⟨p, hp, rfl⟩ := outcome_search_eq_ok_iff.1 hsearch
    by_cases hnil : p.eligible = []
    · exact agrees_of_no_eligible hp hnil
    · exact agrees_of_eligible hp hnil
  | error error =>
    rw [hresult] at hsearch
    exact agrees_of_error hsearch

/-! ## Runs -/

/-- A search command announces the outcome of its search. -/
theorem outcome_runTask_search (arguments : SearchArguments) (settings : Settings)
    (machine : Machine) (json : Bool) : ∃ elapsed,
    outcome (runTask settings (.search arguments json)) machine
      = outcome (announceSearch (.ofJsonFlag json) elapsed
          (outcome (search arguments settings) machine).1).send machine := by
  have htimed := run_timed ((keeps_search arguments settings).outcome_eq machine)
  refine ⟨machine.time - machine.time, ?_⟩
  rw [runTask, outcome_bind_of_ok (outcome_lift htimed)]

/-- The program ends with the exit status of its task. -/
theorem run_of_runTask {line : List String} {settingsFile : Option String} {task : Task}
    {before : Machine} {code : ExitCode}
    (hrequest : request? line = some (.run ⟨settingsFile, task⟩))
    (hsettings : outcome (settingsOf settingsFile) before = (.ok (some settings), machine))
    (hrun : outcome (runTask settings task) machine = (.ok code, after)) :
    (run line : StateM Machine UInt8).run before = (code.toUInt8, after) := by
  have hinvoke : outcome (invoke ⟨settingsFile, task⟩) before = (.ok code, after) := by
    rw [invoke, outcome_bind_of_ok hsettings]
    exact hrun
  unfold run
  rw [hrequest]
  have hstatus : outcome (do
      return (← invoke ⟨settingsFile, task⟩).toUInt8 : ExceptT FileError (StateM Machine) UInt8)
      before = (.ok code.toUInt8, after) := outcome_bind_of_ok hinvoke
  exact run_bind_of_run hstatus

/-- What the search command prints and the status it exits with agree. If the streams can be written
to, there is one exit status for both formats. In each format something is announced that agrees
with the search, nothing else is written, and the program exits with that status, whatever command
line and settings file lead to the search. -/
theorem runTask_search_agrees (arguments : SearchArguments) (settings : Settings)
    (machine : Machine) (hworks : machine.broken = none) :
    ∃ code : ExitCode, ∀ json : Bool, ∃ (a : Announcement) (after : Machine),
      outcome (runTask settings (.search arguments json)) machine = (.ok code, after)
      ∧ machine.write a.stream a.text = .ok after ∧ a.exitCode = code
      ∧ Agrees arguments settings machine (.ofJsonFlag json) a
      ∧ ∀ (line : List String) (settingsFile : Option String) (before : Machine),
        request? line = some (.run ⟨settingsFile, .search arguments json⟩) →
        outcome (settingsOf settingsFile) before = (.ok (some settings), machine) →
        (run line : StateM Machine UInt8).run before = (code.toUInt8, after) := by
  let result := (outcome (search arguments settings) machine).1
  -- any format and any time would do for the exit status
  refine ⟨(announceSearch .text 0 result).exitCode, fun json => ?_⟩
  obtain ⟨elapsed, houtcome⟩ := outcome_runTask_search arguments settings machine json
  let a := announceSearch (.ofJsonFlag json) elapsed result
  have hcode : a.exitCode = (announceSearch .text 0 result).exitCode :=
    exitCode_announceSearch _ elapsed result
  obtain ⟨after, hwrite⟩ : ∃ after, machine.write a.stream a.text = .ok after :=
    ⟨_, Machine.write_of_broken hworks _ _⟩
  have hrun : outcome (runTask settings (.search arguments json)) machine
      = (.ok (announceSearch .text 0 result).exitCode, after) := by
    rw [houtcome, ← hcode]
    exact Announcement.outcome_send hwrite
  exact ⟨a, after, hrun, hwrite, hcode, agrees_announceSearch arguments settings machine _ elapsed,
    fun line settingsFile before hrequest hsettings => run_of_runTask hrequest hsettings hrun⟩

end Search

/-- A search of the index of two records that refuses one of them. -/
def withoutFirst : SearchArguments :=
  { index := some "index", query := "query", denied := ["a"] }

/-- What this search has after its checks. -/
def preparedWithoutFirst : Prepared where
  index := "index"
  filter := .deny (.ofList ["a"])
  maxResults := 5
  store := ⟨⟨1, Nat.one_pos⟩, .squaredL2, "", #["a", "b"], #[1, 0]⟩
  query := [0]

theorem passes_withoutFirst : Passes withoutFirst {} machineWithIndex preparedWithoutFirst where
  named := ⟨rfl, by decide⟩
  quantize := rfl
  lists := rfl
  limit := ⟨rfl, by decide⟩
  loaded := by decide +kernel
  read := ⟨⟨[0]⟩, by decide +kernel, rfl⟩
  length := rfl
  finite := by decide +kernel

/-- It shows the other record and exits with a success, in both formats. -/
theorem runTask_withoutFirst : machineWithIndex.broken = none
    ∧ ∀ json : Bool, ∃ (a : Announcement) (after : Machine),
      outcome (runTask {} (.search withoutFirst json)) machineWithIndex = (.ok .success, after)
      ∧ machineWithIndex.write a.stream a.text = .ok after
      ∧ a.ShowsNeighbors 1 (.ofJsonFlag json) := by
  refine ⟨rfl, fun json => ?_⟩
  obtain ⟨code, hruns⟩ := runTask_search_agrees withoutFirst {} machineWithIndex rfl
  obtain ⟨a, after, hrun, hwrite, rfl, hagrees, -⟩ := hruns json
  have hsuccess : a.exitCode = .success :=
    hagrees.success_iff_eligible.2 ⟨_, passes_withoutFirst, by decide⟩
  obtain ⟨p, elapsed, hp, -, hshows⟩ := hagrees.shows hsuccess
  rw [hp.unique passes_withoutFirst] at hshows
  rw [hsuccess] at hrun
  exact ⟨a, after, hrun, hwrite, (hshows 1).2 (by decide)⟩

end NeighborSearch.Command
