import NeighborSearch.Console
import NeighborSearch.Host.Machine
import NeighborSearch.Proofs.Report.Response
import NeighborSearch.Proofs.Report.Table
import NeighborSearch.Proofs.World

/-!
# What announcements show

Whether an announcement shows neighbors, and how many, can be seen from its stream and its text; so
can whether it says that there are none.
-/

namespace NeighborSearch

/-! ## Sending announcements -/

theorem Machine.write_of_broken {machine : Machine} (h : machine.broken = none) (stream : Stream)
    (text : String) : machine.write stream text = .ok { machine with
      written := fun s => if s = stream then machine.written s ++ text else machine.written s } := by
  unfold write
  split
  case h_1 error herror => exact nomatch h.symm.trans herror
  case h_2 => rfl

/-- An announcement that is written gives its exit status. -/
theorem Announcement.outcome_send {a : Announcement} {machine after : Machine}
    (h : machine.write a.stream a.text = .ok after) :
    outcome (a.send : ExceptT FileError (StateM Machine) ExitCode) machine
      = (.ok a.exitCode, after) := by
  have hwrite : outcome (ExceptT.mk (Host.write a.stream a.text) :
      ExceptT FileError (StateM Machine) Unit) machine = (.ok (), after) := by
    show (Machine.update (·.write a.stream a.text)).run machine = _
    rw [StateT.run, Machine.update, h]
  rw [Announcement.send, outcome_bind_of_ok hwrite, outcome_pure]

/-! ## The number of neighbors in a text -/

/-- A number at the start of a text is found again. -/
theorem eq_of_toString_append {n k : Nat} {rest more : String}
    (hrest : Text.startsWith Char.isDigit rest.toList = false)
    (hmore : Text.startsWith Char.isDigit more.toList = false)
    (h : toString n ++ rest = toString k ++ more) : n = k := by
  have hdigits : ∀ (i : Nat) (text : String), Text.startsWith Char.isDigit text.toList = false →
      (toString i ++ text).toList.takeWhile Char.isDigit = Nat.toDigits 10 i := by
    intro i text htext
    rw [String.toList_append, Nat.toString_eq_repr, Nat.toList_repr]
    exact Text.takeWhile_run (Text.isDigits_toDigits i).digits htext
  have hsame : Nat.toDigits 10 n = Nat.toDigits 10 k := by
    rw [← hdigits n rest hrest, h, hdigits k more hmore]
  rw [← Text.foldl_toDigits n, hsame, Text.foldl_toDigits]

/-- The number of neighbors in the data of a response. -/
def RawJson.neighborCount? (document : RawJson) : Option Nat := do
  let data ← document.member? some "data"
  let neighbors ← data.member? (list? some) "nearest_neighbors"
  return neighbors.length

theorem RawJson.neighborCount?_success (report : SearchReport) (milliseconds : Option UInt64) :
    neighborCount? (Response.success report.toJson milliseconds).toJson.toRaw
      = some report.result.size := by
  rw [neighborCount?, Response.data_toJson]
  show (do
    let neighbors ← report.toJson.toRaw.member? (list? some) "nearest_neighbors"
    return neighbors.length) = _
  rw [SearchReport.neighbors_toJson]
  exact congrArg some (List.length_map _)

/-- A response without data has no neighbors. -/
theorem RawJson.neighborCount?_of_data {response : Response} (h : response.data = none) :
    neighborCount? response.toJson.toRaw = none := by
  rw [neighborCount?, Response.data_toJson, h]
  rfl

/-! ## Neighbors and their absence -/

namespace Announcement

/-- An announcement in a format shows a number of neighbors: people see their number and under it a
table with a block of lines for each of them, and programs find as many in the data. -/
def ShowsNeighbors (a : Announcement) (n : Nat) : OutputFormat → Prop
  | .text => a.stream = .output
      ∧ ∃ (index table : String) (columns : ResultColumns) (neighbors : List Neighbor),
        a.text = toString n ++ " nearest neighbors in " ++ index ++ "\n" ++ table ++ "\n"
        ∧ neighbors.length = n ∧ columns.Show neighbors (Text.splitOn '\n' table.toList)
  | .json => a.stream = .output ∧ (RawJson.parse? a.text).bind RawJson.neighborCount? = some n

/-- An announcement in a format says that there is no neighbor. -/
def SaysNotFound (a : Announcement) : OutputFormat → Prop
  | .text => a.stream = .errors ∧ a.text = "Neighbor 'any' not found\n"
  | .json => a.stream = .output
      ∧ (RawJson.parse? a.text).bind (RawJson.member? RawJson.text? "message")
        = some "Neighbor 'any' not found"

/-- If an announcement is in JSON, its exit status stands in the envelope. -/
def Encloses (a : Announcement) : OutputFormat → Prop
  | .text => True
  | .json => (RawJson.parse? a.text).bind (RawJson.member? RawJson.uint8? "exit_code")
      = some a.exitCode.toUInt8

theorem encloses_line {stream : Stream} {response : Response} {code : ExitCode}
    (h : response.exitCode = code.toUInt8) :
    (line stream response.toJson.toPretty code).Encloses .json := by
  rw [Encloses, line, Json.parse?_toPretty_line, Option.bind_some, Response.exitCode_toJson, h]

variable {report : SearchReport} {elapsed : Option Nat} {error : SearchError}

/-! ## Successes -/

theorem exitCode_success (format : OutputFormat) (report : Report) :
    (success format report elapsed).exitCode = .success := by
  cases format <;> rfl

theorem showsNeighbors_success (format : OutputFormat) {n : Nat} :
    (success format report.toReport elapsed).ShowsNeighbors n format
      ↔ n = report.result.size := by
  cases format with
  | text =>
    constructor
    · rintro ⟨-, index, table, columns, neighbors, htext, -⟩
      have hsize : toString report.result.size ++ (" nearest neighbors in " ++ report.index ++ "\n"
            ++ report.result.table.toText ++ "\n")
          = toString n ++ (" nearest neighbors in " ++ index ++ "\n" ++ table ++ "\n") := by
        simp only [← String.append_assoc]
        exact htext
      refine (eq_of_toString_append ?_ ?_ hsize).symm
      · simp only [String.toList_append]
        rfl
      · simp only [String.toList_append]
        rfl
    · rintro rfl
      exact ⟨rfl, report.index, report.result.table.toText, report.result.columns,
        report.result.neighbors, rfl, rfl, report.result.show_table⟩
  | json =>
    have hcount : (RawJson.parse? (success .json report.toReport elapsed).text).bind
        RawJson.neighborCount? = some report.result.size := by
      rw [success, line, Json.parse?_toPretty_line, Option.bind_some]
      exact RawJson.neighborCount?_success report _
    rw [ShowsNeighbors, hcount, Option.some_inj]
    exact ⟨fun h => h.2.symm, fun h => ⟨rfl, h.symm⟩⟩

theorem not_saysNotFound_success (format : OutputFormat) :
    ¬(success format report.toReport elapsed).SaysNotFound format := by
  cases format with
  | text => exact fun h => nomatch h.1
  | json =>
    rintro ⟨-, hmessage⟩
    rw [success, line, Json.parse?_toPretty_line, Option.bind_some, Response.message_toJson]
      at hmessage
    have hdiffer : "Operation completed successfully" ≠ "Neighbor 'any' not found" := by decide
    exact hdiffer (Option.some.inj hmessage)

theorem encloses_success (format : OutputFormat) (report : Report) :
    (success format report elapsed).Encloses format := by
  cases format with
  | text => trivial
  | json => exact encloses_line rfl

/-! ## Absence and errors -/

theorem exitCode_notFound (format : OutputFormat) (entity name : String) :
    (notFound format entity name).exitCode = .notFound := by
  cases format <;> rfl

theorem not_showsNeighbors_notFound (format : OutputFormat) (entity name : String) (n : Nat) :
    ¬(notFound format entity name).ShowsNeighbors n format := by
  cases format with
  | text => exact fun h => nomatch h.1
  | json =>
    rintro ⟨-, hcount⟩
    rw [notFound, line, Json.parse?_toPretty_line, Option.bind_some,
      RawJson.neighborCount?_of_data rfl] at hcount
    cases hcount

theorem saysNotFound_notFound (format : OutputFormat) :
    (notFound format "Neighbor" "any").SaysNotFound format := by
  cases format with
  | text => exact ⟨rfl, by decide⟩
  | json =>
    refine ⟨rfl, ?_⟩
    rw [notFound, line, Json.parse?_toPretty_line, Option.bind_some, Response.message_toJson]
    decide

theorem encloses_notFound (format : OutputFormat) (entity name : String) :
    (notFound format entity name).Encloses format := by
  cases format with
  | text => trivial
  | json => exact encloses_line rfl

theorem stream_ofError (format : OutputFormat) : (ofError format error).stream = .errors := by
  cases format <;> rfl

theorem exitCode_ofError (format : OutputFormat) :
    (ofError format error).exitCode = .ofError error := by
  cases format <;> rfl

theorem not_showsNeighbors_ofError (format : OutputFormat) (n : Nat) :
    ¬(ofError format error).ShowsNeighbors n format := by
  have hstream : (ofError format error).stream = .errors := stream_ofError format
  cases format <;> exact fun h => nomatch hstream.symm.trans h.1

theorem head?_errorLines : ("\n".intercalate (errorLines error) ++ "\n").toList.head? = some 'E' := by
  rw [errorLines, String.toList_append, String.toList_intercalate, List.map_cons,
    String.toList_append]
  cases error.suggestions with
  | nil =>
    rw [List.map_nil, List.map_nil, List.intercalate_singleton]
    rfl
  | cons suggestion rest =>
    rw [List.map_cons, List.map_cons, List.intercalate_cons_cons]
    rfl

/-- The lines of an error start in another way than the line which says that there is no neighbor. -/
theorem not_saysNotFound_ofError (format : OutputFormat) :
    ¬(ofError format error).SaysNotFound format := by
  cases format with
  | text =>
    rintro ⟨-, htext⟩
    have hfirst : some 'E' = "Neighbor 'any' not found\n".toList.head? := by
      rw [← htext]
      exact head?_errorLines.symm
    exact absurd hfirst (by decide)
  | json => exact fun h => nomatch h.1

theorem encloses_ofError (format : OutputFormat) : (ofError format error).Encloses format := by
  cases format with
  | text => trivial
  | json => exact encloses_line rfl

end Announcement

/-- No error ends in a success. -/
theorem ExitCode.ofError_ne_success (error : SearchError) : ofError error ≠ .success := by
  cases error with
  | indexUnreadable path source =>
    rw [ofError]
    split <;> exact ExitCode.noConfusion
  | _ => exact ExitCode.noConfusion

end NeighborSearch
