import NeighborSearch.Proofs.Json.Records
import NeighborSearch.Report.Response
import NeighborSearch.Report.Search

/-!
# Responses read back

The members of the envelope around a result, as they are found in its JSON text.
-/

namespace NeighborSearch

namespace Response

variable {α : Type}

/-- The members of a response, with those that are absent. -/
def members (response : Response) : List (String × Option Json) :=
  [("status", some (.string response.status)),
    ("code", some (.string response.code)),
    ("message", some (.string response.message)),
    ("data", response.data),
    ("error", response.suggestions.map fun suggestions =>
      .object [("suggestions", .array (suggestions.map .string))]),
    ("exit_code", some (.natural response.exitCode.toUInt64)),
    ("meta", response.run.map RunInfo.toJson)]

theorem toJson_eq (response : Response) :
    response.toJson = .object (Named.present response.members) := rfl

theorem nodup_members (response : Response) : (response.members.map Prod.fst).Nodup :=
  show ["status", "code", "message", "data", "error", "exit_code", "meta"].Nodup by decide

/-- A member is found under its name, if it is present. -/
theorem member?_toJson (response : Response) (decode : RawJson → Option α) (name : String) :
    response.toJson.toRaw.member? decode name
      = ((response.members.lookup name).join).bind fun value => decode value.toRaw := by
  have hnodup : ((Named.present response.members).map Prod.fst).Nodup :=
    response.nodup_members.sublist (Named.names_present_sublist response.members)
  rw [toJson_eq, RawJson.member?_object hnodup, Named.lookup_present response.nodup_members]

theorem exitCode_toJson (response : Response) :
    response.toJson.toRaw.member? RawJson.uint8? "exit_code" = some response.exitCode :=
  (response.member?_toJson RawJson.uint8? "exit_code").trans (RawJson.uint8?_natural _)

theorem message_toJson (response : Response) :
    response.toJson.toRaw.member? RawJson.text? "message" = some response.message :=
  (response.member?_toJson RawJson.text? "message").trans (RawJson.text?_string _)

theorem data_toJson (response : Response) :
    response.toJson.toRaw.member? some "data" = response.data.map Json.toRaw := by
  rw [member?_toJson]
  show response.data.bind (fun value => some value.toRaw) = _
  exact Option.map_eq_bind.symm

end Response

/-- The neighbors in the data of a report. -/
theorem SearchReport.neighbors_toJson (report : SearchReport) :
    report.toJson.toRaw.member? (RawJson.list? some) "nearest_neighbors"
      = some (report.result.neighbors.map fun n => n.toJson.toRaw) := by
  have hnames : (("index", Json.string report.index)
      :: ("max_results", Json.natural (.ofNat report.maxResults))
      :: report.result.members).map Prod.fst = ["index", "max_results", "nearest_neighbors"] := rfl
  refine (RawJson.member?_object (by rw [hnames]; decide) _ _).trans ?_
  refine (RawJson.list?_array some Neighbor.toJson report.result.neighbors).trans ?_
  exact List.mapM_pure

end NeighborSearch
