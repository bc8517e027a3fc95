import NeighborSearch.Proofs.Report.Decode

/-!
# The classifications of errors

An error is classified four times: by its kind, by its status code, by the first word of its message
and by its exit status. This file gives

1. the status code at the start of a message;
2. the classes of errors, as rows of one table;
3. what the classifications say about each other, and the envelope that carries them.
-/

namespace NeighborSearch

/-! ## Messages -/

/-- What a message starts with. -/
def StatusCode.label (code : StatusCode) : String :=
  code.text ++ ": "

/-- No text starts with two status codes. -/
theorem StatusCode.eq_of_label_prefix {c d : StatusCode} {text : List Char}
    (hc : c.label.toList <+: text) (hd : d.label.toList <+: text) : c = d := by
  rcases List.prefix_or_prefix_of_prefix hc hd with h | h
  · revert h
    cases c <;> cases d <;> decide
  · revert h
    cases c <;> cases d <;> decide

namespace SearchError

variable {error : SearchError}

/-- The status code is the first word of a message. -/
theorem label_prefix_message (error : SearchError) :
    error.status.label.toList <+: error.message.toList := by
  have hmore {label start rest : String} (h : label.toList <+: start.toList) :
      label.toList <+: (start ++ rest).toList := by
    rw [String.toList_append]
    exact h.trans (List.prefix_append _ _)
  have hfile (code : StatusCode) :
      code.label.toList <+: (code.text ++ ": Unable to open index file '").toList := by
    cases code <;> decide
  unfold message status
  cases error <;> dsimp only
  case invalidArgument text => exact hmore (by decide)
  case indexUnreadable path source => exact hmore (hmore (hmore (hfile _)))
  case invalidIndex reason => exact hmore (by decide)
  case dimensionMismatch expected actual => exact hmore (hmore (hmore (by decide)))
  case embedding cause => exact hmore (by decide)
  case cancelled scanned total => exact hmore (hmore (hmore (hmore (by decide))))
  case internal text => exact hmore (by decide)

/-! ## Classes -/

/-- The classes of errors: a kind, a status code and an exit status. -/
def classes : List (ErrorKind × StatusCode × ExitCode) := [
  (.configuration, .invalidArgument, .configError),
  (.invalidIndex, .notFound, .notFound),
  (.invalidIndex, .permissionDenied, .fileError),
  (.invalidIndex, .internal, .fileError),
  (.invalidIndex, .invalidArgument, .indexCorrupted),
  (.dimensionMismatch, .invalidArgument, .configError),
  (.embedding, .internal, .generalError),
  (.search, .cancelled, .generalError),
  (.search, .internal, .generalError)]

/-- Every error is in one of the classes. Only a file that cannot be read is classified by more than
its constructor. -/
theorem mem_classes (error : SearchError) :
    (error.kind, error.status, ExitCode.ofError error) ∈ classes := by
  cases error with
  | indexUnreadable path source =>
    rw [kind, status, StatusCode.ofFileError, ExitCode.ofError]
    cases source.kind <;> decide
  | _ => exact List.elem_iff.1 rfl

/-! ## Agreement -/

/-- The classifications of an error agree, and so does what its envelope says. -/
structure Consistent (error : SearchError) : Prop where
  /-- The message starts with the status code and a colon, and so with no other status code. -/
  label : ∀ code : StatusCode,
    (code.text ++ ": ").toList <+: error.message.toList ↔ code = error.status
  envelope : (Response.ofError error).status = "error"
    ∧ (Response.ofError error).code = error.status.text
    ∧ (Response.ofError error).message = error.message
    ∧ (Response.ofError error).data = none
    ∧ (Response.ofError error).exitCode = (ExitCode.ofError error).toUInt8
  failure : (ExitCode.ofError error).toUInt8 ≠ 0
  missing : (ExitCode.ofError error).toUInt8 = 3 ↔ error.status = .notFound
  index : (ExitCode.ofError error).toUInt8 ∈ [3, 5, 7] ↔ error.kind = .invalidIndex
  options : (ExitCode.ofError error).toUInt8 = 6
    ↔ error.kind = .configuration ∨ error.kind = .dimensionMismatch
  general : (ExitCode.ofError error).toUInt8 = 1
    ↔ error.kind = .embedding ∨ error.kind = .search
  /-- The envelope comes back from its text, also around any other message. -/
  readBack : ∀ message : String, (RawJson.parse?
      { Response.ofError error with message }.toJson.toCompact).bind Response.ofJson?
    = some { Response.ofError error with message }

/-- All errors are classified consistently. -/
theorem consistent (error : SearchError) : error.Consistent where
  label code := by
    constructor
    · exact fun h => StatusCode.eq_of_label_prefix h error.label_prefix_message
    · rintro rfl
      exact error.label_prefix_message
  envelope := ⟨rfl, rfl, rfl, rfl, rfl⟩
  failure := (show ∀ c ∈ classes, c.2.2.toUInt8 ≠ 0 by decide) _ error.mem_classes
  missing := (show ∀ c ∈ classes, c.2.2.toUInt8 = 3 ↔ c.2.1 = .notFound by decide)
    _ error.mem_classes
  index := (show ∀ c ∈ classes, c.2.2.toUInt8 ∈ [3, 5, 7] ↔ c.1 = .invalidIndex by decide)
    _ error.mem_classes
  options := (show ∀ c ∈ classes, c.2.2.toUInt8 = 6
      ↔ c.1 = .configuration ∨ c.1 = .dimensionMismatch by decide) _ error.mem_classes
  general := (show ∀ c ∈ classes, c.2.2.toUInt8 = 1 ↔ c.1 = .embedding ∨ c.1 = .search by decide)
    _ error.mem_classes
  readBack message := by
    rw [Json.parse?_toCompact, Option.bind_some]
    exact Response.ofJson?_toJson_of_data rfl

end SearchError

end NeighborSearch
