import NeighborSearch.Proofs.Console
import NeighborSearch.Proofs.Json.Values
import NeighborSearch.Proofs.Report.Decode
import NeighborSearch.Report.IndexInfo

/-!
# Runs of console calls

A command shows results, says that something was not found, and reports errors, in any order and as
often as it likes. This file gives

1. the calls, with the exit status and the stream that go with each of them;
2. the envelopes that are shown in JSON, as they are read back;
3. what one call does to the streams of a machine;
4. what a run of calls does, call by call.
-/

namespace NeighborSearch

/-! ## Calls -/

/-- What is shown as a result. -/
inductive Payload where
  | text (text : String)
  | search (report : SearchReport)
  | index (info : IndexInfo)

/-- What is shown to people and to programs. -/
def Payload.report : Payload → Report
  | .text content => .ofText content
  | .search report => report.toReport
  | .index info => info.toReport

/-- Something to be shown. The time is in microseconds. -/
inductive Call where
  | success (payload : Payload) (elapsed : Option Nat)
  | notFound (entity name : String)
  | error (error : SearchError)

namespace Call

def announcement (format : OutputFormat) : Call → Announcement
  | success payload elapsed => .success format payload.report elapsed
  | notFound entity name => .notFound format entity name
  | error e => .ofError format e

/-- The exit status of a call, in either format. -/
def exitCode : Call → ExitCode
  | success _ _ => .success
  | notFound _ _ => .notFound
  | error e => .ofError e

/-- The stream that a call writes to. Only what was not found goes to different ones. -/
def stream : OutputFormat → Call → Stream
  | _, success _ _ => .output
  | .text, notFound _ _ => .errors
  | .json, notFound _ _ => .output
  | _, error _ => .errors

def perform (format : OutputFormat) (call : Call) : ExceptT FileError (StateM Machine) ExitCode :=
  (call.announcement format).send

/-- Performs calls one after the other and collects what they return. -/
def performAll (format : OutputFormat) (calls : List Call) :
    ExceptT FileError (StateM Machine) (List ExitCode) :=
  calls.mapM (perform format)

/-- The response that a call shows to programs. -/
def response : Call → Response
  | success payload elapsed =>
    .success payload.report.data (elapsed.map fun time => UInt64.ofNat (time / 1000))
  | notFound entity name => .notFound entity name
  | error e => .ofError e

end Call

/-! ## Envelopes -/

/-- A text is one JSON document, and it is read as the response of a call that ends with an exit
status: a success with its data, or the details of an error. -/
structure Envelops (text : String) (code : ExitCode) : Prop where
  read : ∃ response, (RawJson.parse? text).bind Response.ofJson? = some response
    ∧ response.exitCode = code.toUInt8
    ∧ (response.status = "success" ↔ code.toUInt8 = 0)
    ∧ (response.data.isSome = true ↔ code.toUInt8 = 0)
    ∧ (response.suggestions.isSome = true ↔ code.toUInt8 ≠ 0)

/-- Reports are made of texts, natural numbers and singles. -/
theorem Payload.plain_data (payload : Payload) (depth : Nat) :
    RawJson.Plain (depth + 3) payload.report.data := by
  cases payload with
  | text content => exact .string content
  | search report =>
    have hneighbor (n : Neighbor) : RawJson.Plain (depth + 1) n.toJson := by
      refine .object fun member hmember => ?_
      simp only [List.mem_cons, List.not_mem_nil, or_false] at hmember
      rcases hmember with rfl | rfl
      · exact .string _
      · exact .single _
    have hneighbors : RawJson.Plain (depth + 2)
        (.array (report.result.neighbors.map Neighbor.toJson)) := by
      refine .array fun item hitem => ?_
      obtain ⟨n, -, rfl⟩ := List.mem_map.1 hitem
      exact hneighbor n
    refine .object fun member hmember => ?_
    simp only [SearchResult.members, List.mem_cons, List.not_mem_nil, or_false] at hmember
    rcases hmember with rfl | rfl | rfl
    · exact .string _
    · exact .natural _
    · exact hneighbors
  | index info =>
    refine .object fun member hmember => ?_
    obtain ⟨entry, hentry, hvalue⟩ := List.mem_filterMap.1 hmember
    simp only [List.mem_cons, List.not_mem_nil, or_false] at hentry
    rcases hentry with rfl | rfl | rfl | rfl | rfl | rfl <;> dsimp only at hvalue
    · obtain rfl := Option.some.inj hvalue
      exact .string _
    · obtain rfl := Option.some.inj hvalue
      exact .natural _
    · obtain rfl := Option.some.inj hvalue
      exact .natural _
    · obtain rfl := Option.some.inj hvalue
      exact .string _
    · obtain rfl := Option.some.inj hvalue
      exact .string _
    · rw [Option.map_map, Option.map_eq_some_iff] at hvalue
      obtain ⟨size, -, rfl⟩ := hvalue
      exact .natural _

theorem Payload.toRaw_data_ne_null (payload : Payload) : payload.report.data.toRaw ≠ .null := by
  cases payload with
  | text content =>
    show (Json.string content).toRaw ≠ .null
    rw [Json.toRaw]
    exact RawJson.noConfusion
  | search report => exact Response.toRaw_object_ne_null _
  | index info => exact Response.toRaw_object_ne_null _

/-- The data of a success is read as some value. -/
theorem Payload.readData? (payload : Payload) :
    ∃ value, Response.readData? (some payload.report.data) = some (some value) := by
  have hplain := (payload.plain_data 123).isSome_value?
  obtain ⟨value, hvalue⟩ := Option.isSome_iff_exists.1 hplain
  refine ⟨value, ?_⟩
  rw [Response.readData?, Option.elim_some,
    RawJson.nullable?_of_ne_null payload.toRaw_data_ne_null]
  exact congrArg (Option.map some) hvalue

theorem ExitCode.toUInt8_eq_zero {code : ExitCode} : code.toUInt8 = 0 ↔ code = .success := by
  cases code <;> decide

theorem Call.envelops (call : Call) :
    Envelops (call.response.toJson.toPretty ++ "\n") call.exitCode := by
  refine ⟨?_⟩
  have herror : "error" ≠ "success" := by decide
  rw [Json.parse?_toPretty_line, Option.bind_some]
  cases call with
  | success payload elapsed =>
    obtain ⟨value, hvalue⟩ := payload.readData?
    exact ⟨_, Response.ofJson?_toJson hvalue, rfl, iff_of_true rfl rfl, iff_of_true rfl rfl,
      iff_of_false Bool.false_ne_true (fun h => h rfl)⟩
  | notFound entity name =>
    have hcode : ExitCode.notFound.toUInt8 ≠ 0 := by decide
    exact ⟨_, Response.ofJson?_toJson_of_data rfl, rfl, iff_of_false herror hcode,
      iff_of_false Bool.false_ne_true hcode, iff_of_true rfl hcode⟩
  | error error =>
    have hcode : (ExitCode.ofError error).toUInt8 ≠ 0 :=
      fun h => ExitCode.ofError_ne_success error (ExitCode.toUInt8_eq_zero.1 h)
    exact ⟨_, Response.ofJson?_toJson_of_data rfl, rfl, iff_of_false herror hcode,
      iff_of_false Bool.false_ne_true hcode, iff_of_true rfl hcode⟩

/-! ## Single calls -/

namespace Call

variable {call : Call} {format : OutputFormat} {machine before after : Machine}

/-- What a call does: it ends a text for one stream with a newline, and in JSON this is an envelope.
Nothing else changes on the machine. -/
structure Appends (format : OutputFormat) (call : Call) (before after : Machine) : Prop where
  stream : ∃ body : String, after.written (call.stream format)
      = before.written (call.stream format) ++ (body ++ "\n")
    ∧ (format = .json → Envelops (body ++ "\n") call.exitCode)
  other : ∀ stream, stream ≠ call.stream format → after.written stream = before.written stream
  rest : after = { before with written := after.written }

theorem stream_announcement (format : OutputFormat) (call : Call) :
    (call.announcement format).stream = call.stream format := by
  cases format <;> cases call <;> rfl

theorem exitCode_announcement (format : OutputFormat) (call : Call) :
    (call.announcement format).exitCode = call.exitCode := by
  cases format <;> cases call <;> rfl

theorem text_announcement (call : Call) :
    (call.announcement .json).text = call.response.toJson.toPretty ++ "\n" := by
  cases call <;> rfl

/-- The text of an announcement ends with a newline. -/
theorem exists_text_announcement (format : OutputFormat) (call : Call) :
    ∃ body, (call.announcement format).text = body ++ "\n" := by
  cases format with
  | json => exact ⟨_, text_announcement call⟩
  | text =>
    cases call with
    | success payload elapsed => exact ⟨payload.report.text, rfl⟩
    | notFound entity name => exact ⟨Response.notFoundMessage entity name, rfl⟩
    | error error => exact ⟨"\n".intercalate (Announcement.errorLines error), rfl⟩

/-- A call on a machine whose streams work returns its exit status and appends its text. -/
theorem appends_perform (h : machine.broken = none) (format : OutputFormat) (call : Call) :
    ∃ after, outcome (call.perform format) machine = (.ok call.exitCode, after)
      ∧ call.Appends format machine after := by
  obtain ⟨a, ha⟩ : ∃ a, a = call.announcement format := ⟨_, rfl⟩
  have hstream : a.stream = call.stream format := by rw [ha, stream_announcement]
  obtain ⟨after, hafter⟩ : ∃ after, after = { machine with
      written := fun s => if s = a.stream then machine.written s ++ a.text
        else machine.written s } := ⟨_, rfl⟩
  have hwrite : machine.write a.stream a.text = .ok after := by
    rw [hafter, Machine.write_of_broken h]
  refine ⟨after, ?_, ?_, ?_, ?_⟩
  · rw [perform, ← ha, Announcement.outcome_send hwrite, ha, exitCode_announcement]
  · obtain ⟨body, hbody⟩ := exists_text_announcement format call
    rw [← ha] at hbody
    refine ⟨body, ?_, ?_⟩
    · rw [← hstream, ← hbody, hafter]
      exact if_pos rfl
    · rintro rfl
      rw [← hbody, ha, text_announcement]
      exact call.envelops
  · intro stream hother
    rw [← hstream] at hother
    rw [hafter]
    exact if_neg hother
  · rw [hafter]

theorem Appends.broken (h : call.Appends format before after) : after.broken = before.broken := by
  rw [h.rest]

/-! ## Runs -/

/-- What a run of calls does: each of them appends its text to what the calls before it have
left. -/
inductive Transcript (format : OutputFormat) : List Call → Machine → Machine → Prop
  | nil (machine : Machine) : Transcript format [] machine machine
  | cons {call : Call} {calls : List Call} {before between after : Machine}
    (first : call.Appends format before between) (rest : Transcript format calls between after) :
    Transcript format (call :: calls) before after

/-- On a machine whose streams work, a run of calls gets to its end in either format. The exit
statuses that it returns do not depend on the format, and each call appends one text, which in JSON
is the envelope of the exit status, to the one stream that it is for. -/
theorem transcript_performAll (h : machine.broken = none) (format : OutputFormat)
    (calls : List Call) :
    ∃ after, outcome (performAll format calls) machine = (.ok (calls.map exitCode), after)
      ∧ Transcript format calls machine after := by
  induction calls generalizing machine with
  | nil => exact ⟨machine, rfl, .nil machine⟩
  | cons call calls ih =>
    -- a call leaves the streams as they work, so the calls after it start as it did
    obtain ⟨between, hcall, hfirst⟩ := appends_perform h format call
    obtain ⟨after, hcalls, hrest⟩ := ih (hfirst.broken.trans h)
    refine ⟨after, ?_, .cons hfirst hrest⟩
    rw [performAll] at hcalls ⊢
    rw [List.mapM_cons, outcome_bind_of_ok hcall, outcome_bind_of_ok hcalls, outcome_pure,
      List.map_cons]

/-- A machine without files whose streams work. -/
def quietMachine : Machine where
  root := .directory []
  workingDirectory := []

theorem transcript_performAll_quietMachine :
    quietMachine.broken = none
    ∧ ∃ after, outcome (performAll .json [.success (.text "ready") (some 1500),
          .notFound "Neighbor" "any", .error (.indexUnreadable "index.ldb" .missing)]) quietMachine
        = (.ok [.success, .notFound, .notFound], after)
      ∧ Transcript .json [.success (.text "ready") (some 1500), .notFound "Neighbor" "any",
          .error (.indexUnreadable "index.ldb" .missing)] quietMachine after :=
  ⟨rfl, transcript_performAll rfl .json [.success (.text "ready") (some 1500),
    .notFound "Neighbor" "any", .error (.indexUnreadable "index.ldb" .missing)]⟩

end Call

end NeighborSearch
