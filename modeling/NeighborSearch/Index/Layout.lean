import NeighborSearch.Index.Store
import NeighborSearch.Index.Word

/-!
# The index format

All words are little-endian.

* The header has 24 bytes: the magic bytes, the format version, the dimension, the number of
  records, the number of the metric, and the length of the user info.
* The user info follows, in UTF-8.
* Each record is the length of its label, the label in UTF-8, its dimension, and its components as
  single-precision bit patterns.

`encode` writes this layout for any records, valid or not; `Store.encode` writes a store.
-/

namespace NeighborSearch.Index

/-- The bytes every index starts with. -/
def magic : List UInt8 :=
  [0x45, 0x4d, 0x42, 0x58]

/-- The number of bytes of the header. -/
def headerSize : Nat := 24

/-- The number of bytes of a word or a component. -/
def wordSize : Nat := 4

/-- A string as its length and its UTF-8 bytes. -/
def encodeText (s : String) : List UInt8 :=
  wordBytes (.ofNat s.utf8ByteSize) ++ s.toUTF8.data.toList

/-- The bit patterns of components. -/
def encodeValues (values : List Float32) : List UInt8 :=
  values.flatMap fun x => wordBytes x.toBits

/-- A record as its label, its number of components, and the components. -/
def encodeRecord (record : String × List Float32) : List UInt8 :=
  encodeText record.1 ++ wordBytes (.ofNat record.2.length) ++ encodeValues record.2

/-- The layout of an index with the given header fields and records. -/
def encode (dimension metricId : UInt32) (userInfo : String)
    (records : List (String × List Float32)) : List UInt8 :=
  magic ++ wordBytes formatVersion ++ wordBytes dimension ++ wordBytes (.ofNat records.length)
    ++ wordBytes metricId ++ encodeText userInfo ++ records.flatMap encodeRecord

/-- The layout of a store. -/
def Store.encode (s : Store) : List UInt8 :=
  Index.encode (.ofNat s.dimension.toNat) s.metric.id s.userInfo
    (s.records.map fun r => (r.metadata, r.embedding))

end NeighborSearch.Index
