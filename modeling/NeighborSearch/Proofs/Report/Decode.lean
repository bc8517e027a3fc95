import NeighborSearch.Proofs.Report.Response
import NeighborSearch.Report.Decode

/-!
# Responses decoded

Every field of a response comes back from its JSON as it was. Only the data of a success may change,
since any value is kept there as it is read.
-/

namespace NeighborSearch

open RawJson (optional?_present required?_present required?_written)

/-! ## The run of a command -/

/-- The members of what is known about a run, with those that are absent. -/
def RunInfo.members (run : RunInfo) : List (String × Option Json) :=
  [("version", some (.string run.version)),
    ("execution_time_ms", run.milliseconds.map .natural)]

theorem RunInfo.ofJson?_toJson (run : RunInfo) : ofJson? run.toJson.toRaw = some run := by
  have hnames : (run.members.map Prod.fst).Nodup :=
    show ["version", "execution_time_ms"].Nodup by decide
  have hnatural : ∀ n : UInt64, (Json.natural n).toRaw ≠ .null := by
    intro n
    rw [Json.natural, Json.toRaw]
    exact RawJson.noConfusion
  have htime : run.members.lookup "execution_time_ms" = some (run.milliseconds.map .natural) := rfl
  have hjson : run.toJson = .object (Named.present run.members) := rfl
  rw [ofJson?, hjson, RawJson.fields?_present _ hnames]
  simp only [Option.bind_eq_bind, Option.bind_some]
  rw [required?_present (by decide) hnames, optional?_present (by decide) hnames, htime,
    Option.join_some, RawJson.optional_readBack RawJson.uint64?_natural hnatural]
  simp [members]

/-! ## Responses -/

namespace Response

theorem suggestionsOfJson?_object (suggestions : List String) :
    suggestionsOfJson? (Json.object [("suggestions", .array (suggestions.map .string))]).toRaw
      = some suggestions := by
  have hfields := RawJson.fields?_object ["suggestions"]
    [("suggestions", .array (suggestions.map .string))] (List.nodup_singleton "suggestions")
  rw [suggestionsOfJson?, hfields]
  simp only [Option.bind_eq_bind, Option.bind_some]
  rw [required?_written (by decide)]
  simp [RawJson.list?_strings]

theorem toRaw_object_ne_null (members : List (String × Json)) :
    (Json.object members).toRaw ≠ .null := by
  rw [Json.toRaw]
  exact RawJson.noConfusion

/-- The data that is read from the data of a response. -/
def readData? (data : Option Json) : Option (Option Json) :=
  data.elim (some none) fun value =>
    RawJson.Fields.nullable? (RawJson.value? (RawJson.greatestDepth - 1)) value.toRaw

/-- A response is decoded to itself, but for the data. -/
theorem ofJson?_toJson {response : Response} {data : Option Json}
    (h : readData? response.data = some data) :
    ofJson? response.toJson.toRaw = some { response with data } := by
  have hnames := response.nodup_members
  have hdata : response.members.lookup "data" = some response.data := rfl
  have herror : response.members.lookup "error" = some (response.suggestions.map
      fun suggestions => .object [("suggestions", .array (suggestions.map .string))]) := rfl
  have hmeta : response.members.lookup "meta" = some (response.run.map RunInfo.toJson) := rfl
  rw [ofJson?, toJson_eq, RawJson.fields?_present fieldNames hnames]
  simp only [Option.bind_eq_bind, Option.bind_some]
  rw [required?_present (by decide) hnames, required?_present (by decide) hnames,
    required?_present (by decide) hnames, optional?_present (by decide) hnames,
    optional?_present (by decide) hnames, required?_present (by decide) hnames,
    optional?_present (by decide) hnames, hdata, herror, hmeta, Option.join_some,
    Option.join_some, Option.join_some,
    RawJson.optional_readBack suggestionsOfJson?_object (fun _ => toRaw_object_ne_null _),
    RawJson.optional_readBack RunInfo.ofJson?_toJson (fun _ => toRaw_object_ne_null _)]
  rw [readData?] at h
  simp [members, List.lookup_cons, h]

/-- A response without data is decoded to itself. -/
theorem ofJson?_toJson_of_data {response : Response} (h : response.data = none) :
    ofJson? response.toJson.toRaw = some response := by
  have hdata : readData? response.data = some none := by
    rw [h]
    rfl
  rw [ofJson?_toJson hdata, ← h]

end Response

end NeighborSearch
