import NeighborSearch.Error.SystemText

/-!
# Failures of files

A failed file operation carries either the number of an operating-system error or a text of its
own. Callers tell apart only missing files, denied permission and everything else.
-/

namespace NeighborSearch

/-- What callers tell apart about a failed file operation. -/
inductive FileErrorKind where
  | notFound
  | permissionDenied
  | other
deriving DecidableEq, Repr

/-- A failed file operation. -/
inductive FileError where
  /-- An operating-system error, by number. -/
  | system (number : Nat)
  /-- A failure with a text of its own. -/
  | described (kind : FileErrorKind) (text : String)
deriving DecidableEq, Repr

namespace FileError

def kind : FileError → FileErrorKind
  | system 2 => .notFound
  | system 1 => .permissionDenied
  | system 13 => .permissionDenied
  | system _ => .other
  | described kind _ => kind

/-- The text shown to the user. -/
def message : FileError → String
  | system number => systemErrorText number ++ " (os error " ++ toString number ++ ")"
  | described _ text => text

/-- No such file or directory. -/
def missing : FileError := system 2

/-- A file or directory of that name exists. -/
def alreadyExists : FileError := system 17

/-- A directory cannot be mapped into memory. -/
def notMappable : FileError := system 19

/-- A name on the way to the file is no directory. -/
def notDirectory : FileError := system 20

/-- The operation does not work on directories. -/
def isDirectory : FileError := system 21

/-- A name or the whole path is too long. -/
def nameTooLong : FileError := system 36

/-- The path holds a NUL character, which ends a path. -/
def nulInPath : FileError :=
  described .other "file name contained an unexpected NUL byte"

/-- The bytes read are no text. -/
def notText : FileError :=
  described .other "stream did not contain valid UTF-8"

end FileError

end NeighborSearch
