import NeighborSearch.Error

/-!
# What can be wrong with an index

One cause for each way in which the bytes or the records of an index are refused.
-/

namespace NeighborSearch.Index

/-- The parts of an index after the header. -/
inductive Field where
  | userInfo
  | labelLength
  | label
  | recordDimension
  | embedding
deriving DecidableEq, Repr

/-- The name of a part in error texts. -/
def Field.name : Field → String
  | userInfo => "user info"
  | labelLength => "record metadata length"
  | label => "record metadata"
  | recordDimension => "record dimension"
  | embedding => "record embedding"

/-- The reason why an index is refused. -/
inductive Fault where
  | headerMissing
  | wrongMagic
  | unsupportedVersion (found : UInt32)
  | zeroDimension
  | noRecords
  | unknownMetric (id : UInt32)
  | truncated (field : Field) (offset need left : Nat)
  | notText (field : Field)
  | wrongDimension (record found expected : Nat)
  | notFinite (record : Nat)
  | trailingBytes (count : Nat)
  | noSource
deriving DecidableEq, Repr

/-- The current version of the index format. -/
def formatVersion : UInt32 := 1

namespace Fault

/-- The text of a reason. -/
def reason : Fault → String
  | headerMissing => "File too small to contain header"
  | wrongMagic => "Invalid magic bytes"
  | unsupportedVersion found =>
    "Unsupported format version: expected " ++ toString formatVersion.toNat ++ ", got "
      ++ toString found.toNat
  | zeroDimension => "Index dimension cannot be zero"
  | noRecords => "Index contains no records"
  | unknownMetric id => "Unknown distance metric id " ++ toString id.toNat
  | truncated field offset need left =>
    "Truncated while reading " ++ field.name ++ " at offset " ++ toString offset ++ ": need "
      ++ toString need ++ " bytes, " ++ toString left ++ " left"
  | notText field => field.name ++ " is not valid UTF-8"
  | wrongDimension record found expected =>
    "Record " ++ toString record ++ " has dimension " ++ toString found ++ ", expected "
      ++ toString expected
  | notFinite record => "Record " ++ toString record ++ " contains non-finite values"
  | trailingBytes count => toString count ++ " unexpected trailing bytes after the last record"
  | noSource => "ExternalFile has neither a file name nor file content"

/-- The error of a search whose index is refused. -/
def toError (fault : Fault) : SearchError :=
  .invalidIndex fault.reason

end Fault

end NeighborSearch.Index
