import NeighborSearch.Proofs.World
import NeighborSearch.Searcher

/-!
# The stages of making a searcher

Three things live here:

1. the nine stages of making a searcher and what can be wrong at each of them (`Attempt.fault?`),
   said stage by stage and not by the way in which one check follows another;
2. hosts and factories that take down which files are opened and which providers are asked for;
3. the proof that a searcher fails to be made with the fault of the first stage that has one, and
   that nothing is opened or asked for beyond that stage.
-/

namespace NeighborSearch.Searcher

variable {σ ι : Type}

/-! ## Stages -/

/-- A stage of making a searcher. -/
inductive Stage where
  | model
  | index
  | quantize
  | lists
  | maxResults
  | opening
  | decoding
  | loading
  | dimension
deriving DecidableEq, Repr

namespace Stage

/-- The stages that look at the options only. -/
def checks : List Stage := [model, index, quantize, lists, maxResults]

/-- The stages that give the index. -/
def source : List Stage := [opening, decoding]

/-- The stages that give the provider. -/
def provision : List Stage := [loading, dimension]

/-- All stages in their order. -/
def all : List Stage := checks ++ source ++ provision

end Stage

/-- An attempt to make a searcher in a world of files and models. -/
structure Attempt (σ ι : Type) where
  options : SearcherOptions
  factory : ProviderFactory (StateM σ) ι
  world : σ

namespace Attempt

/-- What the options are once they are checked. -/
def validated (a : Attempt σ ι) (filter : Filter) : ValidatedOptions where
  modelFile := a.options.modelFile
  indexFile := a.options.search.indexFile
  embedding := a.options.embedding
  maxResults := a.options.search.maxResults
  filter := filter

variable [Host (StateM σ)]

/-- Opening the index, in the world as it is at first. -/
def opened (a : Attempt σ ι) : Except SearchError IndexBytes × σ :=
  outcome (IndexSource.external a.options.search.indexFile).openBytes a.world

/-- Decoding the index, if it could be opened. -/
def decoded? (a : Attempt σ ι) : Option (Except SearchError Index.Store) :=
  a.opened.1.toOption.map fun bytes => Index.Store.ofBytes bytes.bytes

/-- Asking for a provider, in the world that opening the index leaves. -/
def loaded (a : Attempt σ ι) : Except SearchError (Provider (StateM σ) ι) × σ :=
  outcome (a.factory a.options.modelFile a.options.embedding) a.opened.2

/-- What is wrong at a stage. Where an earlier stage leaves nothing to look at, nothing is. -/
def fault? (a : Attempt σ ι) : Stage → Option SearchError
  | .model => if a.options.modelFile.isEmpty then some modelMissing else none
  | .index => if a.options.search.indexFile.isEmpty then some indexMissing else none
  | .quantize => if a.options.embedding.quantize then some quantizeRefused else none
  | .lists =>
    if a.options.search.allowed ≠ [] ∧ a.options.search.denied ≠ [] then
      some (.invalidArgument
        "`metadata_allowlist` and `metadata_denylist` are mutually exclusive options.")
    else none
  | .maxResults =>
    if a.options.search.maxResults = 0 then
      some (.invalidArgument "Invalid `max_results` option: value must be != 0")
    else none
  | .opening => error? a.opened.1
  | .decoding => a.decoded?.bind error?
  | .loading => error? a.loaded.1
  | .dimension =>
    match a.decoded?, a.loaded.1 with
    | some (.ok store), .ok provider =>
      if provider.dimension.toNat ≠ store.dimension.toNat then
        some (.dimensionMismatch store.dimension.toNat provider.dimension.toNat)
      else none
    | _, _ => none

/-- The world that is left by the stages up to the first one with a fault. -/
def left (a : Attempt σ ι) : σ :=
  if (Stage.checks.findSome? a.fault?).isSome then a.world
  else if (Stage.source.findSome? a.fault?).isSome then a.opened.2
  else a.loaded.2

end Attempt

/-! ## The outcome -/

section Outcome

variable [Host (StateM σ)] (a : Attempt σ ι)

/-- Two lists that both restrict are refused, and any others give a filter. -/
theorem ofLists_eq (allowed denied : List String) :
    (allowed ≠ [] ∧ denied ≠ [])
      ∧ Filter.ofLists allowed denied = .error (.invalidArgument
        "`metadata_allowlist` and `metadata_denylist` are mutually exclusive options.")
    ∨ ¬(allowed ≠ [] ∧ denied ≠ []) ∧ ∃ filter, Filter.ofLists allowed denied = .ok filter := by
  cases allowed with
  | nil => cases denied <;> exact .inr ⟨by simp, _, rfl⟩
  | cons first rest =>
    cases denied with
    | nil => exact .inr ⟨by simp, _, rfl⟩
    | cons other more => exact .inl ⟨by simp, rfl⟩

/-- Options are refused with the fault of the first check that has one, and accepted if none has. -/
theorem validate_eq :
    (∃ e, Stage.checks.findSome? a.fault? = some e ∧ a.options.validate = .error e)
    ∨ Stage.checks.findSome? a.fault? = none
      ∧ ∃ filter, a.options.validate = .ok (a.validated filter) := by
  simp only [Stage.checks, List.findSome?_cons, List.findSome?_nil, Attempt.fault?]
  unfold SearcherOptions.validate
  -- one case for each check, in the order in which they are made
  by_cases hmodel : a.options.modelFile.isEmpty = true
  · exact .inl ⟨modelMissing, by rw [if_pos hmodel], by rw [if_pos hmodel]; rfl⟩
  rw [if_neg hmodel, if_neg hmodel]
  by_cases hindex : a.options.search.indexFile.isEmpty = true
  · exact .inl ⟨indexMissing, by rw [if_pos hindex], by rw [if_pos hindex]; rfl⟩
  rw [if_neg hindex, if_neg hindex]
  by_cases hquantize : a.options.embedding.quantize = true
  · exact .inl ⟨quantizeRefused, by rw [if_pos hquantize], by rw [if_pos hquantize]; rfl⟩
  rw [if_neg hquantize, if_neg hquantize]
  rcases ofLists_eq a.options.search.allowed a.options.search.denied with
    ⟨hboth, hlists⟩ | ⟨hfree, filter, hlists⟩
  · exact .inl ⟨_, by rw [if_pos hboth], by rw [hlists]; rfl⟩
  rw [if_neg hfree, hlists]
  unfold checkMaxResults
  by_cases hmax : a.options.search.maxResults = 0
  · exact .inl ⟨_, by rw [if_pos hmax], by rw [if_pos hmax]; rfl⟩
  · exact .inr ⟨by rw [if_neg hmax], filter, by rw [if_neg hmax]; rfl⟩

/-- Opening a file is mapping it. -/
theorem outcome_openPath (path : String) (world : σ) :
    outcome (IndexSource.openPath path) world
      = (match ((Host.mapFile path : StateM σ _).run world).1 with
        | .error source => .error (.indexUnreadable path source)
        | .ok bytes => .ok (if bytes.size = 0 then .held .empty else .mapped bytes),
        ((Host.mapFile path : StateM σ _).run world).2) := by
  show outcome (match ((Host.mapFile path : StateM σ _).run world).1 with
    | .error source => throw (SearchError.indexUnreadable path source)
    | .ok bytes =>
      if bytes.size = 0 then pure (IndexBytes.held .empty) else pure (IndexBytes.mapped bytes))
    ((Host.mapFile path : StateM σ _).run world).2 = _
  cases ((Host.mapFile path : StateM σ _).run world).1 with
  | error source => rfl
  | ok bytes =>
    dsimp only
    split <;> rfl

/-- An attempt whose checks pass goes on to open the index. -/
theorem outcome_create_of_validate {options : ValidatedOptions}
    (h : a.options.validate = .ok options) :
    outcome (create a.options a.factory) a.world
      = outcome (do
          let store ← (IndexSource.external options.indexFile).load
          let provider ← a.factory options.modelFile options.embedding
          if provider.dimension.toNat ≠ store.dimension.toNat then
            throw (.dimensionMismatch store.dimension.toNat provider.dimension.toNat)
          return ⟨provider, store, options⟩) a.world := by
  have hvalidate : outcome (MonadExcept.ofExcept a.options.validate
      : ExceptT SearchError (StateM σ) _) a.world = (.ok options, a.world) := by
    rw [outcome_ofExcept, h]
  exact outcome_bind_of_ok hvalidate

/-- A searcher fails to be made with the fault of the first stage that has one, in the world that
the stages up to it leave. -/
theorem outcome_create :
    error? (outcome (create a.options a.factory) a.world).1 = Stage.all.findSome? a.fault?
      ∧ (outcome (create a.options a.factory) a.world).2 = a.left := by
  unfold Attempt.left Stage.all
  rw [List.findSome?_append, List.findSome?_append]
  rcases validate_eq a with ⟨e, hchecks, hvalidate⟩ | ⟨hchecks, filter, hvalidate⟩
  · have hfail : outcome (create a.options a.factory) a.world = (.error e, a.world) := by
      apply outcome_bind_of_error
      rw [outcome_ofExcept, hvalidate]
    rw [hfail, hchecks]
    exact ⟨rfl, rfl⟩
  rw [outcome_create_of_validate a hvalidate, hchecks]
  -- the checks have passed; opening and decoding come next
  have hopen : outcome (IndexSource.external (a.validated filter).indexFile).openBytes a.world
      = (a.opened.1, a.opened.2) := rfl
  cases hopened : a.opened.1 with
  | error e =>
    rw [hopened] at hopen
    have hload : outcome (IndexSource.external (a.validated filter).indexFile).load a.world
        = (.error e, a.opened.2) := outcome_bind_of_error hopen
    rw [outcome_bind_of_error hload]
    simp [Stage.source, Attempt.fault?, hopened]
  | ok bytes =>
  rw [hopened] at hopen
  have hload : outcome (IndexSource.external (a.validated filter).indexFile).load a.world
      = (Index.Store.ofBytes bytes.bytes, a.opened.2) :=
    (outcome_bind_of_ok hopen).trans (outcome_ofExcept _ _)
  have hsource : Stage.source.findSome? a.fault? = error? (Index.Store.ofBytes bytes.bytes) := by
    simp only [Stage.source, List.findSome?_cons, List.findSome?_nil, Attempt.fault?,
      Attempt.decoded?, hopened, Except.toOption, Option.map_some, Option.bind_some, error?_ok]
    cases Index.Store.ofBytes bytes.bytes <;> rfl
  rw [hsource]
  cases hdecoded : Index.Store.ofBytes bytes.bytes with
  | error e =>
    rw [hdecoded] at hload
    rw [outcome_bind_of_error hload]
    exact ⟨rfl, rfl⟩
  | ok store =>
  rw [hdecoded] at hload
  rw [outcome_bind_of_ok hload]
  -- there is an index, and the provider is asked for in the world that opening it has left
  have hask : outcome (a.factory (a.validated filter).modelFile (a.validated filter).embedding)
      a.opened.2 = (a.loaded.1, a.loaded.2) := rfl
  cases hloaded : a.loaded.1 with
  | error e =>
    rw [hloaded] at hask
    rw [outcome_bind_of_error hask]
    simp [Stage.provision, Attempt.fault?, hloaded]
  | ok provider =>
  rw [hloaded] at hask
  rw [outcome_bind_of_ok hask]
  by_cases hdimension : provider.dimension.toNat = store.dimension.toNat
  · simp [Stage.provision, Attempt.fault?, Attempt.decoded?, Except.toOption, hopened, hdecoded,
      hloaded, hdimension]
  · rw [if_pos hdimension]
    simp [Stage.provision, Attempt.fault?, Attempt.decoded?, Except.toOption, hopened, hdecoded,
      hloaded, hdimension]

end Outcome

/-! ## Events -/

/-- What a program does outside itself. -/
inductive Event where
  /-- The file at a path is opened. -/
  | opened (path : String)
  /-- A provider is asked for. -/
  | asked (model : ExternalFile) (embedding : EmbeddingOptions)

/-- A world with the events that have happened in it. -/
structure Recorded (σ : Type) where
  world : σ
  events : List Event

namespace Recorded

variable {α : Type}

/-- Takes an event down. -/
def record (event : Event) : StateM (Recorded σ) Unit :=
  fun s => ((), ⟨s.world, s.events ++ [event]⟩)

/-- Runs a program that takes nothing down itself. -/
def lift (program : StateM σ α) : StateM (Recorded σ) α :=
  fun s => ((program.run s.world).1, ⟨(program.run s.world).2, s.events⟩)

/-- A host on which each file that is opened is taken down. -/
instance [Host (StateM σ)] : Host (StateM (Recorded σ)) where
  status path := lift (Host.status path)
  readFile path := do
    record (.opened path)
    lift (Host.readFile path)
  mapFile path := do
    record (.opened path)
    lift (Host.mapFile path)
  makeDirectory path := lift (Host.makeDirectory path)
  writeFile path content := lift (Host.writeFile path content)
  workingDirectory := lift Host.workingDirectory
  environment := lift Host.environment
  standardInput := lift Host.standardInput
  write stream text := lift (Host.write stream text)
  clock := lift Host.clock

/-- A provider in a world with events. -/
def ofProvider (provider : Provider (StateM σ) ι) : Provider (StateM (Recorded σ)) ι where
  dimension := provider.dimension
  embed input region := ExceptT.mk (lift (provider.embed input region).run)

/-- A factory that takes down what it is asked for. -/
def ofFactory (factory : ProviderFactory (StateM σ) ι) : ProviderFactory (StateM (Recorded σ)) ι :=
  fun model embedding => ExceptT.mk do
    record (.asked model embedding)
    let provider ← lift (factory model embedding).run
    return provider.map ofProvider

end Recorded

namespace Attempt

variable (a : Attempt σ ι)

/-- The attempt with its events taken down from the start. -/
def recorded : Attempt (Recorded σ) ι where
  options := a.options
  factory := Recorded.ofFactory a.factory
  world := ⟨a.world, []⟩

/-- The event of opening the index. An index that is given as content is not opened. -/
def opening : List Event :=
  match a.options.search.indexFile.usableContent?, a.options.search.indexFile.name with
  | some _, _ => []
  | none, some path => [.opened path]
  | none, none => []

/-- The event of asking for the provider. -/
def asking : Event :=
  .asked a.options.modelFile a.options.embedding

variable [Host (StateM σ)]

/-- Opening the index comes to the same, and is taken down. -/
theorem opened_recorded : a.recorded.opened = (a.opened.1, ⟨a.opened.2, a.opening⟩) := by
  unfold opened opening recorded IndexSource.openBytes
  dsimp only
  cases a.options.search.indexFile.usableContent? with
  | some content => rfl
  | none =>
    cases a.options.search.indexFile.name with
    | none => rfl
    | some path =>
      dsimp only
      rw [outcome_openPath, outcome_openPath]
      rfl

/-- Asking for the provider comes to the same, and is taken down. -/
theorem loaded_recorded :
    a.recorded.loaded
      = (a.loaded.1.map Recorded.ofProvider, ⟨a.loaded.2, a.opening ++ [a.asking]⟩) := by
  unfold loaded
  rw [opened_recorded]
  rfl

theorem decoded?_recorded : a.recorded.decoded? = a.decoded? := by
  unfold decoded?
  rw [opened_recorded]

theorem fault?_recorded (stage : Stage) : a.recorded.fault? stage = a.fault? stage := by
  cases stage with
  | opening => rw [fault?, fault?, opened_recorded]
  | decoding => rw [fault?, fault?, decoded?_recorded]
  | loading =>
    rw [fault?, fault?, loaded_recorded]
    cases a.loaded.1 <;> rfl
  | dimension =>
    rw [fault?, fault?, decoded?_recorded, loaded_recorded]
    rcases a.decoded? with _ | _ | _ <;> cases a.loaded.1 <;> rfl
  | _ => rfl

end Attempt

/-- Making a searcher goes through its stages in order. It fails if and only if a stage has a fault,
and with the fault of the first stage that has one. If a check of the options has a fault, no index
is opened and no provider is asked for; if opening or decoding the index has one, no provider is
asked for; and a provider is never asked for more than once, or for another model file or other
options than those that were given. -/
theorem create_staged (a : Attempt σ ι) [Host (StateM σ)] :
    error? (outcome (create a.options a.factory) a.world).1 = Stage.all.findSome? a.fault?
    ∧ error? (outcome (create a.options (Recorded.ofFactory a.factory)) ⟨a.world, []⟩).1
      = Stage.all.findSome? a.fault?
    ∧ (outcome (create a.options (Recorded.ofFactory a.factory)) ⟨a.world, []⟩).2.events
      = if (Stage.checks.findSome? a.fault?).isSome then []
        else if (Stage.source.findSome? a.fault?).isSome then a.opening
        else a.opening ++ [.asked a.options.modelFile a.options.embedding] := by
  have hfault : a.recorded.fault? = a.fault? := funext a.fault?_recorded
  obtain ⟨herror, hleft⟩ := outcome_create a.recorded
  rw [hfault] at herror
  refine ⟨(outcome_create a).1, herror, ?_⟩
  have hevents := congrArg Recorded.events hleft
  rw [Attempt.left, hfault, Attempt.opened_recorded, Attempt.loaded_recorded] at hevents
  rw [apply_ite Recorded.events, apply_ite Recorded.events] at hevents
  exact hevents

end NeighborSearch.Searcher
