import NeighborSearch.Index.Layout

/-!
# Reading an index

A cursor goes through the bytes once and never past their end. Counts and lengths in the bytes are
checked against what is left before anything is read or reserved, and a buffer is accepted only if
nothing is left over after the last record.

There is one reader. What it asks of the machine on which it runs is its `Access`: to look at bytes,
to make room, and to go on or to refuse the index. `decode` is this reader where all that is known of
a run is its outcome.
-/

namespace NeighborSearch.Index

/-- A position in the bytes of an index. -/
structure Cursor where
  bytes : ByteArray
  offset : Nat

/-- The number of bytes from the position to the end. -/
def Cursor.left (c : Cursor) : Nat :=
  c.bytes.size - c.offset

/-- The fixed-size start of an index. -/
structure Header where
  dimension : Dimension
  count : Nat
  metric : Metric
  userInfoLength : Nat

/-- The fewest bytes a record with this many components takes. -/
def leastRecordSize (dimension : Nat) : Nat :=
  2 * wordSize + dimension * wordSize

/-- The number of records to make room for: no more than the header announces, and no more than the
bytes that are left can hold. -/
def plausibleCount (header : Header) (left : Nat) : Nat :=
  min header.count (left / leastRecordSize header.dimension.toNat)

/-! ## Access -/

/-- What a reader asks of the machine on which it runs. -/
class Access (m : Type → Type) where
  /-- Goes on with a result, or refuses the index. -/
  ofExcept {α : Type} (x : Except Fault α) : m α
  /-- So many bytes from a position on. -/
  slice (bytes : ByteArray) (offset count : Nat) : m ByteArray
  /-- The word that some bytes start with. -/
  word (raw : ByteArray) : m UInt32
  /-- The components that some bytes start with. -/
  values (raw : ByteArray) (count : Nat) : m (List Float32)
  /-- No rows, with room for `count` rows of `width` components. -/
  reserve (count width : Nat) : m Rows

/-- A machine of whose runs nothing but the outcome is known. -/
instance : Access (Except Fault) where
  ofExcept x := x
  slice bytes offset count := .ok (bytes.extract offset (offset + count))
  word raw := .ok (wordAt raw 0)
  values raw count := .ok (valuesAt raw 0 count)
  reserve count width := .ok (Rows.reserve count width)

/-! ## Reading -/

namespace Reading

variable {m : Type → Type} [Monad m] [Access m]

/-- Refuses the index. -/
def refuse {α : Type} (fault : Fault) : m α :=
  Access.ofExcept (.error fault)

/-- Reads `count` bytes of a field. -/
@[specialize] def take (c : Cursor) (field : Field) (count : Nat) : m (ByteArray × Cursor) :=
  if c.left < count then refuse (.truncated field c.offset count c.left)
  else do
    let raw ← Access.slice c.bytes c.offset count
    return (raw, { c with offset := c.offset + count })

/-- Reads a word. -/
@[specialize] def word (c : Cursor) (field : Field) : m (Nat × Cursor) := do
  let (raw, c) ← take c field wordSize
  let w ← Access.word raw
  return (w.toNat, c)

/-- Reads `count` bytes of UTF-8 text. -/
@[specialize] def text (c : Cursor) (field : Field) (count : Nat) : m (String × Cursor) := do
  let (raw, c) ← take c field count
  match String.fromUTF8? raw with
  | some s => return (s, c)
  | none => refuse (.notText field)

/-- Reads `count` components. -/
@[specialize] def values (c : Cursor) (field : Field) (count : Nat) :
    m (List Float32 × Cursor) := do
  let (raw, c) ← take c field (count * wordSize)
  let row ← Access.values raw count
  return (row, c)

/-- The word of the header at a position. -/
@[specialize] def headerWord (bytes : ByteArray) (i : Nat) : m UInt32 := do
  let raw ← Access.slice bytes i wordSize
  Access.word raw

/-- Reads the header. -/
@[specialize] def header (bytes : ByteArray) : m Header :=
  if bytes.size < headerSize then refuse .headerMissing
  else do
    let start ← Access.slice bytes 0 wordSize
    if start.data.toList ≠ magic then refuse .wrongMagic
    else do
      let version ← headerWord bytes 4
      if version ≠ formatVersion then refuse (.unsupportedVersion version)
      else do
        let dimension ← headerWord bytes 8
        if h : 0 < dimension.toNat then do
          let count ← headerWord bytes 12
          if count = 0 then refuse .noRecords
          else do
            let metricId ← headerWord bytes 16
            match Metric.ofId? metricId with
            | none => refuse (.unknownMetric metricId)
            | some metric =>
              let userInfoLength ← headerWord bytes 20
              return ⟨⟨dimension.toNat, h⟩, count.toNat, metric, userInfoLength.toNat⟩
        else refuse .zeroDimension

/-- Reads the record at position `position` of the index. -/
@[specialize] def record (dimension : Dimension) (position : Nat) (c : Cursor) :
    m ((String × List Float32) × Cursor) := do
  let (length, c) ← word c .labelLength
  let (label, c) ← text c .label length
  let (found, c) ← word c .recordDimension
  Access.ofExcept (checkDimension dimension position found)
  let (row, c) ← values c .embedding dimension.toNat
  Access.ofExcept (checkFinite position row)
  return ((label, row), c)

/-- Reads `count` records, the first of which has position `position`. -/
@[specialize] def records (dimension : Dimension) :
    (count position : Nat) → Rows → Cursor → m (Rows × Cursor)
  | 0, _, rows, c => return (rows, c)
  | count + 1, position, rows, c => do
    let ((label, row), c) ← record dimension position c
    records dimension count (position + 1) (rows.push label row) c

/-- Reads the records behind the user info. Nothing may be left after the last one. -/
@[specialize] def body (header : Header) (userInfo : String) (rows : Rows) (c : Cursor) :
    m Store := do
  let (rows, c) ← records header.dimension header.count 0 rows c
  if c.left = 0 then return rows.toStore header.dimension header.metric userInfo
  else refuse (.trailingBytes c.left)

/-- Reads a whole index. -/
@[specialize] def index (bytes : ByteArray) : m Store := do
  let header ← header bytes
  let (userInfo, c) ← text ⟨bytes, headerSize⟩ .userInfo header.userInfoLength
  let rows ← Access.reserve (plausibleCount header c.left) header.dimension.toNat
  body header userInfo rows c

end Reading

/-! ## Outcomes -/

namespace Cursor

/-- The outcome of reading `count` bytes of a field. -/
def take (c : Cursor) (field : Field) (count : Nat) : Except Fault (ByteArray × Cursor) :=
  Reading.take c field count

/-- The outcome of reading a word. -/
def word (c : Cursor) (field : Field) : Except Fault (Nat × Cursor) :=
  Reading.word c field

/-- The outcome of reading `count` bytes of UTF-8 text. -/
def text (c : Cursor) (field : Field) (count : Nat) : Except Fault (String × Cursor) :=
  Reading.text c field count

/-- The outcome of reading `count` components. -/
def values (c : Cursor) (field : Field) (count : Nat) : Except Fault (List Float32 × Cursor) :=
  Reading.values c field count

end Cursor

/-- The outcome of reading the header. -/
def readHeader (bytes : ByteArray) : Except Fault Header :=
  Reading.header bytes

/-- The outcome of reading the record at a position. -/
def readRecord (dimension : Dimension) (position : Nat) (c : Cursor) :
    Except Fault ((String × List Float32) × Cursor) :=
  Reading.record dimension position c

/-- The outcome of reading `count` records, the first of which has position `position`. -/
def readRecords (dimension : Dimension) (count position : Nat) (rows : Rows) (c : Cursor) :
    Except Fault (Rows × Cursor) :=
  Reading.records dimension count position rows c

/-- The outcome of reading a whole index. -/
def decode (bytes : ByteArray) : Except Fault Store :=
  Reading.index bytes

/-- Reads a whole index, as a search reports its failure. -/
def Store.ofBytes (bytes : ByteArray) : Except SearchError Store :=
  (decode bytes).mapError Fault.toError

/-- The stores there are: each is read from bytes or built from records. -/
inductive Store.Reachable : Store → Prop where
  | loaded {bytes : ByteArray} {s : Store} (h : Store.ofBytes bytes = .ok s) : Reachable s
  | built {metric : Metric} {userInfo : String} {records : List (String × List Float32)}
      {s : Store} (h : Store.ofRecords metric userInfo records = .ok s) : Reachable s

end NeighborSearch.Index
