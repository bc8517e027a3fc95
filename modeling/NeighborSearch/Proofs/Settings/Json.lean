import NeighborSearch.Proofs.Json.Records
import NeighborSearch.Settings.Json

/-!
# Settings read back from JSON

Each group of settings is decoded to itself, and so are the settings as a whole, whether or not the
paths are there.
-/

namespace NeighborSearch

open RawJson (defaulted?_present defaulted?_written fields?_object fields?_present)

theorem EmbeddingOptions.ofJson?_toJson (o : EmbeddingOptions) :
    ofJson? o.toJson.toRaw = some o := by
  have hfields := fields?_object ["l2_normalize", "quantize"]
    [("l2_normalize", .bool o.l2Normalize), ("quantize", .bool o.quantize)]
    (show ["l2_normalize", "quantize"].Nodup by decide)
  rw [ofJson?, toJson, hfields]
  simp [defaulted?_written, List.lookup_cons]

namespace SearchSettings

theorem list?_stringsJson (strings : List String) :
    (stringsJson strings).toRaw.list? RawJson.text? = some strings :=
  RawJson.list?_strings strings

theorem ofJson?_toJson (s : SearchSettings) : ofJson? s.toJson.toRaw = some s := by
  have hfields := fields?_object ["max_results", "metadata_allowlist", "metadata_denylist"]
    [("max_results", .natural s.maxResults), ("metadata_allowlist", stringsJson s.allowed),
      ("metadata_denylist", stringsJson s.denied)]
    (show ["max_results", "metadata_allowlist", "metadata_denylist"].Nodup by decide)
  rw [ofJson?, toJson, hfields]
  simp [defaulted?_written, List.lookup_cons, list?_stringsJson]

end SearchSettings

theorem LogSettings.ofJson?_toJson (s : LogSettings) : ofJson? s.toJson.toRaw = some s := by
  have hfields := fields?_object ["level"] [("level", .string s.level)]
    (List.nodup_singleton "level")
  rw [ofJson?, toJson, hfields]
  simp [defaulted?_written]

namespace Settings

/-- A path that is there is read as it is written, and one that is not is left out. -/
theorem path_readBack (path : Option String) :
    (path.map Json.string).elim (some none)
      (fun value => RawJson.Fields.nullable? RawJson.text? value.toRaw) = some path := by
  refine RawJson.optional_readBack RawJson.text?_string (fun text => ?_) path
  rw [Json.toRaw]
  exact RawJson.noConfusion

/-- The members of settings, with those that are absent. -/
def members (s : Settings) : List (String × Option Json) :=
  [("version", some (.natural s.version.toUInt64)),
    ("model_path", s.modelPath.map .string),
    ("index_path", s.indexPath.map .string),
    ("workspace_root", s.workspaceRoot.map .string),
    ("embedding", some s.embedding.toJson),
    ("search", some s.search.toJson),
    ("logging", some s.logging.toJson)]

theorem toJson_eq (s : Settings) : s.toJson = .object (Named.present s.members) := rfl

/-- Settings are decoded to themselves. -/
theorem ofJson?_toJson (s : Settings) : ofJson? s.toJson.toRaw = some s := by
  have hnames : (s.members.map Prod.fst).Nodup := show fieldNames.Nodup by decide
  have hmodel : s.members.lookup "model_path" = some (s.modelPath.map .string) := rfl
  have hindex : s.members.lookup "index_path" = some (s.indexPath.map .string) := rfl
  have hroot : s.members.lookup "workspace_root" = some (s.workspaceRoot.map .string) := rfl
  rw [ofJson?, toJson_eq, fields?_present fieldNames hnames]
  simp only [Option.bind_eq_bind, Option.bind_some]
  rw [defaulted?_present (by decide) hnames, defaulted?_present (by decide) hnames,
    defaulted?_present (by decide) hnames, defaulted?_present (by decide) hnames,
    defaulted?_present (by decide) hnames, defaulted?_present (by decide) hnames,
    defaulted?_present (by decide) hnames, hmodel, hindex, hroot, Option.join_some,
    Option.join_some, Option.join_some, path_readBack, path_readBack, path_readBack]
  simp [members, List.lookup_cons, EmbeddingOptions.ofJson?_toJson, SearchSettings.ofJson?_toJson,
    LogSettings.ofJson?_toJson]

end Settings

end NeighborSearch
