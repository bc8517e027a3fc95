import NeighborSearch.Host
import NeighborSearch.Index.Decode

/-!
# Sources of an index

The bytes of an index come from a file, from a buffer, or from an `ExternalFile` that names a file,
holds a buffer, or does both. Loading depends on the bytes alone and not on where they are from.
-/

namespace NeighborSearch

/-- A file handed over by name or by content. Content that is not empty wins over the name. -/
structure ExternalFile where
  name : Option String := none
  content : Option ByteArray := none

/-- The bytes of an opened source. -/
inductive IndexBytes where
  /-- The content of a mapped file. -/
  | mapped (bytes : ByteArray)
  /-- Bytes that are in memory already. -/
  | held (bytes : ByteArray)

/-- The bytes, wherever they are. -/
def IndexBytes.bytes : IndexBytes → ByteArray
  | mapped bytes => bytes
  | held bytes => bytes

/-- What an index is loaded from. -/
inductive IndexSource where
  | file (path : String)
  | buffer (bytes : ByteArray)
  | external (source : ExternalFile)

namespace ExternalFile

def ofPath (path : String) : ExternalFile :=
  { name := some path }

/-- Whether there is neither a name nor content to use. -/
def isEmpty (file : ExternalFile) : Bool :=
  let named := file.name.any (· ≠ "")
  let filled := file.content.any fun content => content.size ≠ 0
  !named && !filled

/-- The content, if there is any byte of it. -/
def usableContent? (file : ExternalFile) : Option ByteArray :=
  file.content.filter fun content => content.size ≠ 0

end ExternalFile

namespace IndexSource

/-- A short description of a buffer. -/
def describeBuffer (bytes : ByteArray) : String :=
  "<in-memory buffer, " ++ toString bytes.size ++ " bytes>"

/-- A short description of a source. -/
def describe : IndexSource → String
  | file path => path
  | buffer bytes => describeBuffer bytes
  | external source =>
    match source.usableContent?, source.name with
    | some content, _ => describeBuffer content
    | none, some path => path
    | none, none => "<unset>"

variable {m : Type → Type} [Monad m] [Host m]

/-- Opens the file at a path. An empty file cannot be mapped, and needs not be. -/
def openPath (path : String) : ExceptT SearchError m IndexBytes := do
  match ← (Host.mapFile path : m _) with
  | .error source => throw (.indexUnreadable path source)
  | .ok bytes => if bytes.size = 0 then return .held .empty else return .mapped bytes

/-- Opens a source and gives all its bytes. -/
def openBytes : IndexSource → ExceptT SearchError m IndexBytes
  | file path => openPath path
  | buffer bytes => return .held bytes
  | external source =>
    match source.usableContent?, source.name with
    | some content, _ => return .held content
    | none, some path => openPath path
    | none, none => throw Index.Fault.noSource.toError

/-- Loads the index of a source. -/
def load (source : IndexSource) : ExceptT SearchError m Index.Store := do
  let bytes ← source.openBytes
  MonadExcept.ofExcept (Index.Store.ofBytes bytes.bytes)

end IndexSource

end NeighborSearch
