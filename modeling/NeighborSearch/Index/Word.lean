/-!
# Little-endian words

Index files hold 32-bit words with the low byte first. A string or a row of values is stored as a
length word followed by its bytes.
-/

namespace NeighborSearch.Index

/-- The four bytes of a word, low byte first. -/
def wordBytes (w : UInt32) : List UInt8 :=
  [.ofNat w.toNat, .ofNat (w.toNat / 0x100), .ofNat (w.toNat / 0x10000),
    .ofNat (w.toNat / 0x1000000)]

/-- The word of four bytes, low byte first. -/
def wordOfBytes (b0 b1 b2 b3 : UInt8) : UInt32 :=
  .ofNat (b0.toNat + b1.toNat * 0x100 + b2.toNat * 0x10000 + b3.toNat * 0x1000000)

/-- The byte at a position, or zero past the end. -/
def byteAt (bytes : ByteArray) (i : Nat) : UInt8 :=
  if h : i < bytes.size then bytes[i] else 0

/-- The word at a byte position. -/
def wordAt (bytes : ByteArray) (i : Nat) : UInt32 :=
  wordOfBytes (byteAt bytes i) (byteAt bytes (i + 1)) (byteAt bytes (i + 2)) (byteAt bytes (i + 3))

/-- The `count` consecutive single-precision values from a byte position on. -/
def valuesAt (bytes : ByteArray) (i : Nat) : (count : Nat) → List Float32
  | 0 => []
  | count + 1 => Float32.ofBits (wordAt bytes i) :: valuesAt bytes (i + 4) count

/-- Putting the bytes of a word together gives the word. -/
theorem wordOfBytes_wordBytes (w : UInt32) :
    wordOfBytes (.ofNat w.toNat) (.ofNat (w.toNat / 0x100)) (.ofNat (w.toNat / 0x10000))
      (.ofNat (w.toNat / 0x1000000)) = w := by
  have hw := w.toNat_lt
  apply UInt32.toNat_inj.1
  simp only [wordOfBytes, UInt8.toNat_ofNat', UInt32.toNat_ofNat']
  omega

/-- Taking a word apart gives its bytes. -/
theorem wordBytes_wordOfBytes (b0 b1 b2 b3 : UInt8) :
    wordBytes (wordOfBytes b0 b1 b2 b3) = [b0, b1, b2, b3] := by
  have h0 := b0.toNat_lt
  have h1 := b1.toNat_lt
  have h2 := b2.toNat_lt
  have h3 := b3.toNat_lt
  have h : (wordOfBytes b0 b1 b2 b3).toNat
      = b0.toNat + b1.toNat * 0x100 + b2.toNat * 0x10000 + b3.toNat * 0x1000000 := by
    simp only [wordOfBytes, UInt32.toNat_ofNat']
    omega
  simp only [wordBytes, h, List.cons.injEq, and_true]
  refine ⟨?_, ?_, ?_, ?_⟩ <;> apply UInt8.toNat_inj.1 <;> simp only [UInt8.toNat_ofNat'] <;> omega

end NeighborSearch.Index
