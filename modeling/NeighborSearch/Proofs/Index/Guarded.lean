import NeighborSearch.Proofs.Index.Reading

/-!
# Reading without leaving the bytes

A look past the end of the bytes is harmless for `byteAt` and for `ByteArray.extract`, so that
`decode` has a result does not say that it never takes such a look. `decode?` is the same reader on a
machine whose accesses have no result outside the bytes: it comes to `none` if a single one of them
is outside. It never does (`decode?_is`).
-/

namespace NeighborSearch.Index

/-! ## Guarded accesses -/

/-- Steps that may fail with a fault, or get stuck at an access outside the bytes. -/
abbrev Guarded : Type → Type :=
  ExceptT Fault Option

/-- The byte at a position of the bytes. -/
def byteAt? (bytes : ByteArray) (i : Nat) : Option UInt8 :=
  if h : i < bytes.size then some bytes[i] else none

/-- The word at a byte position, all four bytes of which lie in the bytes. -/
def wordAt? (bytes : ByteArray) (i : Nat) : Option UInt32 := do
  let b0 ← byteAt? bytes i
  let b1 ← byteAt? bytes (i + 1)
  let b2 ← byteAt? bytes (i + 2)
  let b3 ← byteAt? bytes (i + 3)
  some (wordOfBytes b0 b1 b2 b3)

/-- The `count` consecutive single-precision values from a byte position on. -/
def valuesAt? (bytes : ByteArray) (i : Nat) : (count : Nat) → Option (List Float32)
  | 0 => some []
  | count + 1 => do
    let w ← wordAt? bytes i
    let row ← valuesAt? bytes (i + 4) count
    some (Float32.ofBits w :: row)

/-- The `count` bytes from a position on. -/
def slice? (bytes : ByteArray) (offset count : Nat) : Option ByteArray :=
  if offset + count ≤ bytes.size then some (bytes.extract offset (offset + count)) else none

/-- A machine that gets stuck when it is to look outside the bytes. -/
instance : Access Guarded where
  ofExcept x := MonadExcept.ofExcept x
  slice bytes offset count := liftM (slice? bytes offset count)
  word raw := liftM (wordAt? raw 0)
  values raw count := liftM (valuesAt? raw 0 count)
  reserve count width := pure (Rows.reserve count width)

/-- Reads a whole index, unless this takes an access outside the bytes. -/
def decode? (bytes : ByteArray) : Guarded Store :=
  Reading.index bytes

section Accesses

variable {bytes : ByteArray} {i offset count : Nat}

theorem byteAt?_eq_some (h : i < bytes.size) : byteAt? bytes i = some (byteAt bytes i) := by
  rw [byteAt?, byteAt, dif_pos h, dif_pos h]

theorem wordAt?_eq_some (h : i + wordSize ≤ bytes.size) :
    wordAt? bytes i = some (wordAt bytes i) := by
  simp only [wordSize] at h
  unfold wordAt?
  rw [byteAt?_eq_some (by omega), byteAt?_eq_some (by omega), byteAt?_eq_some (by omega),
    byteAt?_eq_some (by omega)]
  rfl

theorem valuesAt?_eq_some (h : i + count * wordSize ≤ bytes.size) :
    valuesAt? bytes i count = some (valuesAt bytes i count) := by
  induction count generalizing i with
  | zero => rfl
  | succ count ih =>
    simp only [wordSize] at h ih
    have hword : i + wordSize ≤ bytes.size := by
      simp only [wordSize]
      omega
    rw [valuesAt?, wordAt?_eq_some hword, ih (by omega)]
    rfl

theorem slice?_eq_some (h : offset + count ≤ bytes.size) :
    slice? bytes offset count = some (bytes.extract offset (offset + count)) :=
  if_pos h

end Accesses

/-! ## No access is outside -/

namespace Guarded

variable {α : Type}

/-- A guarded run that has an outcome, and is never stuck. -/
def Is (g : Guarded α) (x : Except Fault α) : Prop :=
  g.run = some x

theorem is_ofExcept (x : Except Fault α) : Is (MonadExcept.ofExcept x) x := by
  cases x <;> rfl

theorem is_of_eq_some {o : Option α} {a : α} (h : o = some a) :
    Is (liftM o : Guarded α) (.ok a) := by
  subst h
  rfl

/-- A guarded run has the outcome of the reader as long as its accesses are inside. -/
theorem respected (bytes : ByteArray) : Reading.Respected bytes fun _ => Is where
  pure _ := rfl
  bind {_ _ r x k f} h hk := by
    unfold Is at *
    rw [ExceptT.run_bind, h]
    cases x with
    | error e => rfl
    | ok a => exact hk a rfl
  ofExcept := is_ofExcept
  slice h := is_of_eq_some (slice?_eq_some h)
  word h := is_of_eq_some (wordAt?_eq_some (by omega))
  values h := is_of_eq_some (valuesAt?_eq_some (by omega))

end Guarded

/-- Reading an index never looks outside its bytes, whatever these are. -/
theorem decode?_is (bytes : ByteArray) : (decode? bytes).Is (decode bytes) :=
  (Guarded.respected bytes).index fun _ _ => rfl

end NeighborSearch.Index
