import NeighborSearch.Proofs.Index.Reading

/-!
# Room for the records

The header of an index announces how many records follow, and of how many components. A corrupt one
may announce anything, and yet the two numbers are multiplied, and room is made for what they
announce, before a single record has been looked at.

* `plausibleCount` is the number of records that room is made for. The bytes that are left could hold
  that many (`plausibleCount_mul_le`), and no more are ever read (`le_plausibleCount`), because no
  record takes less than `leastRecordSize`.
* `decodeLogged` is the reader on a machine that keeps a log of what it is asked for: of the reads
  and of the room that is made. No read in it ends behind the end of the bytes (`log_decodeLogged`).

So none of the sums and products on the way is too large for a machine word of 64 bits, whatever the
header announces (`decode_bounded`).
-/

namespace NeighborSearch.Index

/-! ## How many records there is room for -/

theorem leastRecordSize_pos (dimension : Nat) : 0 < leastRecordSize dimension := by
  unfold leastRecordSize wordSize
  omega

theorem plausibleCount_le_count (header : Header) (left : Nat) :
    plausibleCount header left ≤ header.count :=
  Nat.min_le_left _ _

/-- No room is made for more records than the bytes that are left can hold. -/
theorem plausibleCount_mul_le (header : Header) (left : Nat) :
    plausibleCount header left * leastRecordSize header.dimension.toNat ≤ left := by
  have hle : plausibleCount header left ≤ left / leastRecordSize header.dimension.toNat :=
    Nat.min_le_right _ _
  exact (Nat.le_div_iff_mul_le (leastRecordSize_pos _)).1 hle

/-! ## What records take -/

section Size

variable {dimension : Dimension} {header : Header} {count position : Nat} {c c' : Cursor}
variable {records seen : List (String × List Float32)} {rows : Rows}

/-- A record takes its two length words and its components, and its label on top of that. -/
theorem length_encodeRecord (record : String × List Float32) :
    (encodeRecord record).length = leastRecordSize record.2.length + record.1.utf8ByteSize := by
  have hlabel : record.1.toUTF8.data.toList.length = record.1.utf8ByteSize := rfl
  simp only [encodeRecord, encodeText, List.length_append, length_wordBytes, length_encodeValues,
    hlabel, leastRecordSize]
  omega

theorem mul_leastRecordSize_le_length (h : ∀ record ∈ records, record.2.length = dimension.toNat) :
    records.length * leastRecordSize dimension.toNat ≤ (records.flatMap encodeRecord).length := by
  induction records with
  | nil => simp
  | cons record records ih =>
    obtain ⟨hrecord, hrecords⟩ := List.forall_mem_cons.1 h
    have hhead := length_encodeRecord record
    have htail := ih hrecords
    rw [hrecord] at hhead
    rw [List.flatMap_cons, List.length_append, List.length_cons, Nat.succ_mul]
    omega

/-- As many records as could be read did fit into the bytes that were left. -/
theorem mul_leastRecordSize_le_left
    (h : readRecords dimension count position (Rows.ofList seen) c = .ok (rows, c')) :
    count * leastRecordSize dimension.toNat ≤ c.left := by
  obtain ⟨records, rfl, -, -, hnone, hconsumes⟩ := readRecords_eq_ok h
  have hwidth : ∀ record ∈ records, record.2.length = dimension.toNat := by
    intro record hrecord
    exact (firstFault?_eq_none_iff.1 hnone record hrecord).1
  have hsize := mul_leastRecordSize_le_length hwidth
  rw [Cursor.left_eq_length_rest, hconsumes.rest_eq, List.length_append]
  omega

/-- The room that was made is never outgrown, whether all records can be read or only the first few
of them. -/
theorem le_plausibleCount (hcount : count ≤ header.count)
    (h : readRecords header.dimension count position (Rows.ofList seen) c = .ok (rows, c')) :
    count ≤ plausibleCount header c.left := by
  apply le_min hcount
  rw [Nat.le_div_iff_mul_le (leastRecordSize_pos _)]
  exact mul_leastRecordSize_le_left h

end Size

/-! ## Reading with a log -/

/-- What a reader asks of the machine. -/
inductive Event where
  /-- So many bytes from a position on are read. The end of the read is computed, and the next read
  starts there. -/
  | read (offset count : Nat)
  /-- Room is made for so many records of so many components each. -/
  | reserve (count width : Nat)
deriving DecidableEq

/-- A read that ends no later than the bytes do. -/
def Event.IsReadWithin (size : Nat) (event : Event) : Prop :=
  ∃ offset count, event = .read offset count ∧ offset + count ≤ size

/-- The outcome of a reader, and what it did until then. -/
structure Logged (α : Type) where
  outcome : Except Fault α
  log : List Event

namespace Logged

variable {α β : Type}

/-- A step that leaves nothing in the log. -/
def ofExcept (x : Except Fault α) : Logged α :=
  ⟨x, []⟩

/-- One step after another, unless the first one fails. -/
def bind (r : Logged α) (k : α → Logged β) : Logged β :=
  match r.outcome with
  | .ok a => ⟨(k a).outcome, r.log ++ (k a).log⟩
  | .error fault => ⟨.error fault, r.log⟩

instance : Monad Logged where
  pure a := ofExcept (.ok a)
  bind := bind

theorem outcome_bind (r : Logged α) (k : α → Logged β) :
    (r >>= k).outcome = r.outcome >>= fun a => (k a).outcome := by
  show (r.bind k).outcome = _
  unfold bind
  cases r.outcome <;> rfl

theorem log_bind_of_ok {r : Logged α} {a : α} (h : r.outcome = .ok a) (k : α → Logged β) :
    (r >>= k).log = r.log ++ (k a).log := by
  show (r.bind k).log = _
  rw [bind, h]

end Logged

/-- A machine that keeps a log. Looking at bytes that were read leaves nothing in it. -/
instance : Access Logged where
  ofExcept := Logged.ofExcept
  slice bytes offset count := ⟨.ok (bytes.extract offset (offset + count)), [.read offset count]⟩
  word raw := .ofExcept (.ok (wordAt raw 0))
  values raw count := .ofExcept (.ok (valuesAt raw 0 count))
  reserve count width := ⟨.ok (Rows.reserve count width), [.reserve count width]⟩

/-- Reads a whole index with a log. -/
def decodeLogged (bytes : ByteArray) : Logged Store :=
  Reading.index bytes

/-! ## What stands in the log -/

namespace Logged

variable {α : Type}

/-- A logged run that comes to an outcome by reads that end no later than the bytes. -/
structure Follows (bytes : ByteArray) (r : Logged α) (x : Except Fault α) : Prop where
  outcome_eq : r.outcome = x
  within : ∀ event ∈ r.log, event.IsReadWithin bytes.size

theorem follows_ofExcept (bytes : ByteArray) (x : Except Fault α) :
    Follows bytes (ofExcept x) x where
  outcome_eq := rfl
  within := List.forall_mem_nil _

/-- Whatever is asked for, a logged run has the outcome of the reader. -/
theorem respected_outcome (bytes : ByteArray) :
    Reading.Respected bytes fun _ (r : Logged _) x => r.outcome = x where
  pure _ := rfl
  bind {_ _ r x k f} h hk := by
    rw [outcome_bind, h]
    cases x with
    | error fault => rfl
    | ok a => exact hk a rfl
  ofExcept _ := rfl
  slice _ := rfl
  word _ := rfl
  values _ := rfl

/-- As long as no room is made, there are only reads in the log, and they end in the bytes. -/
theorem respected_follows (bytes : ByteArray) :
    Reading.Respected bytes fun _ => Follows bytes where
  pure _ := follows_ofExcept bytes _
  bind {_ _ r x k f} h hk := by
    obtain ⟨rfl, hwithin⟩ := h
    obtain ⟨outcome, log⟩ := r
    cases outcome with
    | error fault => exact ⟨rfl, hwithin⟩
    | ok a =>
      obtain ⟨hnext, hwithin'⟩ := hk a rfl
      exact ⟨hnext, List.forall_mem_append.2 ⟨hwithin, hwithin'⟩⟩
  ofExcept := follows_ofExcept bytes
  slice {offset count} h :=
    ⟨rfl, List.forall_mem_singleton.2 ⟨offset, count, rfl, h⟩⟩
  word _ := follows_ofExcept bytes _
  values _ := follows_ofExcept bytes _

end Logged

/-! ## Whole indices -/

section

open Logged

variable {bytes : ByteArray} {header : Header} {userInfo : String} {c : Cursor}

/-- The log does not change what is read. -/
theorem outcome_decodeLogged (bytes : ByteArray) : (decodeLogged bytes).outcome = decode bytes :=
  (respected_outcome bytes).index fun _ _ => rfl

/-- Once header and user info are read, room is made a single time, for as many records as are
plausible. All else in the log are reads that end no later than the bytes. -/
theorem log_decodeLogged (hheader : readHeader bytes = .ok header)
    (hinfo : Cursor.text ⟨bytes, headerSize⟩ .userInfo header.userInfoLength = .ok (userInfo, c)) :
    ∃ before after,
      (decodeLogged bytes).log
        = before ++ .reserve (plausibleCount header c.left) header.dimension.toNat :: after
      ∧ ∀ event ∈ before ++ after, event.IsReadWithin bytes.size := by
  have hreads := respected_follows bytes
  have htext := hreads.userInfo_moves hheader
  have hbody := hreads.body header userInfo
    (Rows.reserve (plausibleCount header c.left) header.dimension.toNat) (htext.on hinfo)
  have hwithin := List.forall_mem_append.2 ⟨hreads.header.within, htext.rel.within⟩
  -- the log is that of the header, that of the user info, the room made, and that of the records
  refine ⟨_, _, ?_, List.forall_mem_append.2 ⟨hwithin, hbody.within⟩⟩
  unfold decodeLogged Reading.index
  rw [log_bind_of_ok (hreads.header.outcome_eq.trans hheader),
    log_bind_of_ok (htext.rel.outcome_eq.trans hinfo), log_bind_of_ok rfl, List.append_assoc]
  rfl

/-- An index that is read has as many records as its header announces, and there was room for all of
them. -/
theorem plausibleCount_of_decode {s : Store} (hheader : readHeader bytes = .ok header)
    (hinfo : Cursor.text ⟨bytes, headerSize⟩ .userInfo header.userInfoLength = .ok (userInfo, c))
    (h : decode bytes = .ok s) :
    plausibleCount header c.left = header.count ∧ s.size = header.count
      ∧ s.dimension = header.dimension := by
  rw [decode_eq, hheader, ok_bind, hinfo, ok_bind] at h
  dsimp only at h
  rw [reserve_eq_ofList] at h
  obtain ⟨⟨rows, c'⟩, hrows, h⟩ := bind_eq_ok_iff.1 h
  dsimp only at h
  split at h
  case isFalse => cases h
  case isTrue =>
    cases h
    obtain ⟨records, hrecords, rfl, -⟩ := readRecords_eq_ok hrows
    refine ⟨?_, ?_, rfl⟩
    · apply le_antisymm (plausibleCount_le_count header c.left)
      exact le_plausibleCount le_rfl hrows
    · show (records.map Prod.fst).length = header.count
      rw [List.length_map, hrecords]

/-- Once header and user info are read, no number of the header can do harm, provided that the number
of bytes itself fits into a word of 64 bits. Neither the size of a row, nor the least size of a
record, nor the number of components to make room for is too large for a word; the least size, which
is divided by, is not zero; and the bytes that are left could hold all records that room is made for.
Whatever the outcome, room is made this one time, and everything else is reading: each read ends no
later than the bytes do, and so the place where it ends fits into a word as well. If the outcome is a
store, room was made for all records that are announced, and these are what the store holds. -/
theorem decode_bounded (hsize : bytes.size < 2 ^ 64) (hheader : readHeader bytes = .ok header)
    (hinfo : Cursor.text ⟨bytes, headerSize⟩ .userInfo header.userInfoLength = .ok (userInfo, c)) :
    let dimension := header.dimension.toNat
    let capacity := plausibleCount header c.left
    dimension * wordSize < 2 ^ 64 ∧ leastRecordSize dimension < 2 ^ 64
    ∧ capacity * dimension < 2 ^ 64
    ∧ leastRecordSize dimension ≠ 0
    ∧ capacity * leastRecordSize dimension ≤ c.left
    ∧ (decodeLogged bytes).outcome = decode bytes
    ∧ (∃ before after,
        (decodeLogged bytes).log = before ++ .reserve capacity dimension :: after
        ∧ ∀ event ∈ before ++ after, ∃ offset count, event = .read offset count
          ∧ offset + count ≤ bytes.size ∧ offset + count < 2 ^ 64)
    ∧ ∀ s, decode bytes = .ok s →
        capacity = header.count ∧ s.labels.size = capacity
        ∧ s.values.size = capacity * dimension := by
  intro dimension capacity
  have hread := readHeader_eq_ok hheader
  have hdimension : dimension < 2 ^ 32 := hread.dimension_lt
  have hcapacity : capacity < 2 ^ 32 :=
    Nat.lt_of_le_of_lt (plausibleCount_le_count header c.left) hread.count_lt
  refine ⟨?_, ?_, ?_, (leastRecordSize_pos dimension).ne', plausibleCount_mul_le header c.left,
    outcome_decodeLogged bytes, ?_, ?_⟩
  · simp only [wordSize]
    omega
  · simp only [leastRecordSize, wordSize]
    omega
  · -- the numbers come from words of 32 bits, so their product fits into one of 64
    calc capacity * dimension
      _ < 2 ^ 32 * 2 ^ 32 := Nat.mul_lt_mul'' hcapacity hdimension
      _ = 2 ^ 64 := by norm_num
  · obtain ⟨before, after, hlog, hwithin⟩ := log_decodeLogged hheader hinfo
    refine ⟨before, after, hlog, ?_⟩
    intro event hevent
    obtain ⟨offset, count, rfl, hstop⟩ := hwithin event hevent
    exact ⟨offset, count, rfl, hstop, Nat.lt_of_le_of_lt hstop hsize⟩
  · intro s h
    obtain ⟨hcount, hlabels, hwidth⟩ := plausibleCount_of_decode hheader hinfo h
    have hvalues := (decode_eq_ok h).1.values_size
    have hlabels' : s.labels.size = capacity := hlabels.trans hcount.symm
    refine ⟨hcount, hlabels', ?_⟩
    rw [hvalues, hlabels', hwidth]

/-- An index with one record of one component, whose header announces some number of records. -/
def announcing (count : UInt32) : ByteArray :=
  (encodeHeader 1 count Metric.l2.id 0 ++ encodeRecord ("a", [1])).toByteArray

/-- The header of such an index. -/
def announced (count : UInt32) : Header :=
  ⟨⟨1, Nat.one_pos⟩, count.toNat, .l2, 0⟩

theorem readHeader_announcing {count : UInt32} (h : count ≠ 0) :
    readHeader (announcing count) = .ok (announced count) := by
  have hbytes : (announcing count).data.toList
      = encodeHeader 1 count Metric.l2.id 0 ++ encodeRecord ("a", [1]) := by
    rw [announcing, List.data_toByteArray]
  rw [readHeader_of_append hbytes, dif_pos (by decide), if_neg h]
  rfl

theorem text_announcing (count : UInt32) :
    Cursor.text ⟨announcing count, headerSize⟩ .userInfo 0
      = .ok ("", ⟨announcing count, headerSize⟩) :=
  Cursor.text_eq_ok_iff.2 ⟨rfl, Cursor.Consumes.refl _⟩

theorem size_announcing (count : UInt32) : (announcing count).size = 37 := by
  rw [announcing, List.size_toByteArray, List.length_append, length_encodeHeader,
    length_encodeRecord]
  rfl

theorem left_announcing (count : UInt32) : (Cursor.mk (announcing count) headerSize).left = 13 := by
  rw [Cursor.left, size_announcing]
  rfl

/-- Where four billion records are announced and one is there, room is made for one. Where one is
announced, it is read. -/
theorem decode_bounded_announcing :
    (announcing 0xffffffff).size < 2 ^ 64
    ∧ readHeader (announcing 0xffffffff) = .ok (announced 0xffffffff)
    ∧ Cursor.text ⟨announcing 0xffffffff, headerSize⟩ .userInfo 0
      = .ok ("", ⟨announcing 0xffffffff, headerSize⟩)
    ∧ (∃ before after,
        (decodeLogged (announcing 0xffffffff)).log = before ++ .reserve 1 1 :: after
        ∧ ∀ event ∈ before ++ after, ∃ offset count, event = .read offset count
          ∧ offset + count ≤ 37 ∧ offset + count < 2 ^ 64)
    ∧ ∃ s, decode (announcing 1) = .ok s
      ∧ plausibleCount (announced 1) 13 = 1 ∧ s.labels.size = 1 ∧ s.values.size = 1 := by
  have hsize (count : UInt32) : (announcing count).size < 2 ^ 64 := by
    rw [size_announcing]
    decide
  have hheader : readHeader (announcing 0xffffffff) = .ok (announced 0xffffffff) :=
    readHeader_announcing (by decide)
  refine ⟨hsize _, hheader, text_announcing _, ?_, ?_⟩
  · obtain ⟨-, -, -, -, -, -, hlog, -⟩ := decode_bounded (hsize _) hheader (text_announcing _)
    rw [left_announcing, size_announcing] at hlog
    exact hlog
  · have hread : (decode (announcing 1)).toOption.isSome = true := by decide +kernel
    cases h : decode (announcing 1) with
    | error fault =>
      rw [h] at hread
      cases hread
    | ok s =>
      obtain ⟨-, -, -, -, -, -, -, hstore⟩ :=
        decode_bounded (hsize _) (readHeader_announcing (by decide)) (text_announcing 1)
      obtain ⟨hcount, hlabels, hvalues⟩ := hstore s h
      rw [left_announcing] at hcount hlabels hvalues
      exact ⟨s, rfl, hcount, hlabels, hvalues⟩

end

end NeighborSearch.Index
