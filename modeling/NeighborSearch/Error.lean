import NeighborSearch.Error.FileError

/-!
# Errors of a search

Every error has a display text that starts with a status code, so callers can match on the code.
The same causes are classified for programs (`kind`), for users (`suggestions`) and for the shell
(`ExitCode.ofError`).
-/

namespace NeighborSearch

/-- The causes that make a search or its preparation fail. -/
inductive SearchError where
  /-- An option or an input has a value that is not allowed. -/
  | invalidArgument (message : String)
  /-- The index file cannot be read. -/
  | indexUnreadable (path : String) (source : FileError)
  /-- The index is readable and malformed. -/
  | invalidIndex (reason : String)
  /-- A vector has another number of components than the index. -/
  | dimensionMismatch (expected actual : Nat)
  /-- The embedding provider failed. -/
  | embedding (cause : String)
  /-- The caller cancelled the search. -/
  | cancelled (scanned total : Nat)
  /-- Anything else. -/
  | internal (message : String)
deriving DecidableEq, Repr

/-- What a caller can handle in one way. -/
inductive ErrorKind where
  | configuration
  | invalidIndex
  | dimensionMismatch
  | embedding
  | search
deriving DecidableEq, Repr

/-- The machine-readable code at the start of an error's text. -/
inductive StatusCode where
  | invalidArgument
  | notFound
  | permissionDenied
  | internal
  | cancelled
deriving DecidableEq, Repr

namespace StatusCode

/-- The spelling of a status code. -/
def text : StatusCode → String
  | invalidArgument => "INVALID_ARGUMENT"
  | notFound => "NOT_FOUND"
  | permissionDenied => "PERMISSION_DENIED"
  | internal => "INTERNAL"
  | cancelled => "CANCELLED"

/-- The status code of a failed file operation. -/
def ofFileError (error : FileError) : StatusCode :=
  match error.kind with
  | .notFound => notFound
  | .permissionDenied => permissionDenied
  | .other => internal

end StatusCode

namespace SearchError

def kind : SearchError → ErrorKind
  | invalidArgument _ => .configuration
  | indexUnreadable _ _ | invalidIndex _ => .invalidIndex
  | dimensionMismatch _ _ => .dimensionMismatch
  | embedding _ => .embedding
  | cancelled _ _ | internal _ => .search

def status : SearchError → StatusCode
  | invalidArgument _ | invalidIndex _ | dimensionMismatch _ _ => .invalidArgument
  | indexUnreadable _ source => .ofFileError source
  | embedding _ | internal _ => .internal
  | cancelled _ _ => .cancelled

/-- The display text. Its first word is the status code. -/
def message : SearchError → String
  | invalidArgument message => "INVALID_ARGUMENT: " ++ message
  | indexUnreadable path source =>
    (StatusCode.ofFileError source).text ++ ": Unable to open index file '" ++ path ++ "': "
      ++ source.message
  | invalidIndex reason => "INVALID_ARGUMENT: Invalid index: " ++ reason
  | dimensionMismatch expected actual =>
    "INVALID_ARGUMENT: Dimension mismatch: expected " ++ toString expected ++ ", got "
      ++ toString actual
  | embedding cause => "INTERNAL: Embedding failed: " ++ cause
  | cancelled scanned total =>
    "CANCELLED: Search cancelled after scanning " ++ toString scanned ++ " of " ++ toString total
      ++ " records"
  | internal message => "INTERNAL: " ++ message

/-- The text of the underlying failure, where there is one. -/
def source? : SearchError → Option String
  | indexUnreadable _ source => some source.message
  | embedding cause => some cause
  | _ => none

/-- What the user can do about an error. -/
def suggestions : SearchError → List String
  | invalidArgument _ => [
      "Check the searcher options against 'embedsearch config'",
      "max_results must be greater than zero"]
  | indexUnreadable _ _ => [
      "Check that the index file exists and you have read permissions",
      "Pass the index content directly if the file lives in an archive"]
  | invalidIndex _ => [
      "The index file may be corrupted or truncated, rebuild it",
      "Make sure the index was written by a compatible format version"]
  | dimensionMismatch _ _ => ["Ensure the index was built with the same embedding model"]
  | embedding _ => ["Verify the embedding model is properly initialized"]
  | cancelled _ _ => ["Retry the search without a cancellation deadline"]
  | internal _ => []

end SearchError

/-- The exit status of a command. -/
inductive ExitCode where
  | success
  | generalError
  | notFound
  | fileError
  | configError
  | indexCorrupted
deriving DecidableEq, Repr

namespace ExitCode

def toUInt8 : ExitCode → UInt8
  | success => 0
  | generalError => 1
  | notFound => 3
  | fileError => 5
  | configError => 6
  | indexCorrupted => 7

/-- The exit status that reports an error. -/
def ofError : SearchError → ExitCode
  | .indexUnreadable _ source => if source.kind = .notFound then notFound else fileError
  | .invalidIndex _ => indexCorrupted
  | .invalidArgument _ | .dimensionMismatch _ _ => configError
  | .embedding _ | .cancelled _ _ | .internal _ => generalError

end ExitCode

end NeighborSearch
