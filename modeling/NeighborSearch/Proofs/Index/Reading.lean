import NeighborSearch.Proofs.Index.Format

/-!
# The reader on any machine

The one reader of an index runs on every machine with an `Access`. A relation between the runs on
such a machine and outcomes that holds of each access inside the bytes, and of one step after
another (`Reading.Respected`), holds of the reader as a whole (`Reading.Respected.index`), because no
cursor ever stands behind the end.
-/

namespace NeighborSearch.Index

/-! ## Cursors in the bytes -/

/-- A cursor that does not stand behind the end of the bytes. -/
def Cursor.Inside (c : Cursor) : Prop :=
  c.offset ≤ c.bytes.size

/-- A cursor that stands in these bytes, and not behind their end. -/
structure Cursor.On (bytes : ByteArray) (c : Cursor) : Prop where
  bytes_eq : c.bytes = bytes
  inside : c.Inside

namespace Cursor

variable {bytes raw : ByteArray} {c c' : Cursor} {field : Field} {count : Nat}

/-- What is there to read at a cursor ends no later than the bytes. -/
theorem Inside.le_size (h : c.Inside) (hleft : ¬c.left < count) :
    c.offset + count ≤ c.bytes.size := by
  unfold Inside at h
  unfold left at hleft
  omega

/-- A cursor is still inside behind the bytes that were taken. -/
theorem Inside.of_take (h : c.Inside) (htake : c.take field count = .ok (raw, c')) :
    c'.Inside := by
  rw [take_eq] at htake
  split at htake
  · cases htake
  case isFalse hleft =>
    cases htake
    exact h.le_size hleft

end Cursor

/-! ## Relations that reading respects -/

namespace Reading

/-- A relation goes through a case distinction that both sides make. -/
theorem rel_ite {m : Type → Type} {Rel : (α : Type) → m α → Except Fault α → Prop} {α : Type}
    {p : Prop} [Decidable p] {r r' : m α} {x x' : Except Fault α}
    (hr : p → Rel α r x) (hr' : ¬p → Rel α r' x') :
    Rel α (if p then r else r') (if p then x else x') := by
  by_cases hp : p
  · rw [if_pos hp, if_pos hp]
    exact hr hp
  · rw [if_neg hp, if_neg hp]
    exact hr' hp

variable {m : Type → Type} [Monad m] [Access m]

/-- A relation between runs on a machine and outcomes: one clause for each thing that a reader of
these bytes does, except that it makes room. -/
structure Respected (bytes : ByteArray) (Rel : (α : Type) → m α → Except Fault α → Prop) :
    Prop where
  pure {α : Type} (a : α) : Rel α (pure a) (.ok a)
  bind {α β : Type} {r : m α} {x : Except Fault α} {k : α → m β} {f : α → Except Fault β} :
    Rel α r x → (∀ a, x = .ok a → Rel β (k a) (f a)) → Rel β (r >>= k) (x >>= f)
  ofExcept {α : Type} (x : Except Fault α) : Rel α (Access.ofExcept x) x
  slice {offset count : Nat} (h : offset + count ≤ bytes.size) :
    Rel ByteArray (Access.slice bytes offset count) (.ok (bytes.extract offset (offset + count)))
  word {raw : ByteArray} (h : raw.size = wordSize) :
    Rel UInt32 (Access.word raw) (.ok (wordAt raw 0))
  values {raw : ByteArray} {count : Nat} (h : raw.size = count * wordSize) :
    Rel (List Float32) (Access.values raw count) (.ok (valuesAt raw 0 count))

variable {bytes : ByteArray} {Rel : (α : Type) → m α → Except Fault α → Prop}
variable {dimension : Dimension} {count position : Nat} {c : Cursor} {field : Field} {rows : Rows}
variable {α β : Type}

/-- A read that is related to its outcome and leaves the cursor in the bytes. -/
structure Moves (bytes : ByteArray) (Rel : (α : Type) → m α → Except Fault α → Prop)
    (r : m (α × Cursor)) (x : Except Fault (α × Cursor)) : Prop where
  rel : Rel (α × Cursor) r x
  on : ∀ {a c}, x = .ok (a, c) → c.On bytes

namespace Respected

theorem refuse (h : Respected bytes Rel) (fault : Fault) :
    Rel α (Reading.refuse fault) (.error fault) :=
  h.ofExcept (.error fault)

theorem moves_ok (h : Respected bytes Rel) (a : α) (hc : c.On bytes) :
    Moves bytes Rel (Pure.pure (a, c)) (.ok (a, c)) where
  rel := h.pure (a, c)
  on := by
    rintro _ _ ⟨⟩
    exact hc

theorem moves_refuse (h : Respected bytes Rel) (fault : Fault) :
    Moves bytes Rel (Reading.refuse fault : m (α × Cursor)) (.error fault) where
  rel := h.refuse fault
  on := by rintro _ _ ⟨⟩

/-- A step before a read. -/
theorem moves_bind (h : Respected bytes Rel) {r : m α} {x : Except Fault α}
    {k : α → m (β × Cursor)} {f : α → Except Fault (β × Cursor)} (hr : Rel α r x)
    (hk : ∀ a, x = .ok a → Moves bytes Rel (k a) (f a)) :
    Moves bytes Rel (r >>= k) (x >>= f) where
  rel := h.bind hr fun a ha => (hk a ha).rel
  on := by
    intro b c hb
    obtain ⟨a, ha, hb⟩ := bind_eq_ok_iff.1 hb
    exact (hk a ha).on hb

/-- One read after another. -/
theorem moves_then (h : Respected bytes Rel) {r : m (α × Cursor)} {x : Except Fault (α × Cursor)}
    {k : α × Cursor → m (β × Cursor)} {f : α × Cursor → Except Fault (β × Cursor)}
    (hr : Moves bytes Rel r x)
    (hk : ∀ a c, x = .ok (a, c) → c.On bytes → Moves bytes Rel (k (a, c)) (f (a, c))) :
    Moves bytes Rel (r >>= k) (x >>= f) :=
  h.moves_bind hr.rel fun (a, c) ha => hk a c ha (hr.on ha)

/-- Bytes of a field are only looked at where they are. -/
theorem take_moves (h : Respected bytes Rel) (hc : c.On bytes) :
    Moves bytes Rel (Reading.take c field count) (c.take field count) := by
  rw [Cursor.take_eq]
  unfold Reading.take
  by_cases hleft : c.left < count
  · -- the read is refused before it looks at any bytes
    rw [if_pos hleft, if_pos hleft]
    exact h.moves_refuse _
  · rw [if_neg hleft, if_neg hleft]
    obtain ⟨rfl, hinside⟩ := hc
    have hstop := hinside.le_size hleft
    refine h.moves_bind (f := fun raw => .ok (raw, { c with offset := c.offset + count }))
      (h.slice hstop) ?_
    intro raw _
    exact h.moves_ok raw ⟨rfl, hstop⟩

/-- A word is made of bytes that were read for it. -/
theorem word_moves (h : Respected bytes Rel) (hc : c.On bytes) :
    Moves bytes Rel (Reading.word c field) (c.word field) := by
  refine h.moves_then (h.take_moves hc) ?_
  intro raw c' htake hc'
  refine h.moves_bind (h.word (Cursor.take_eq_ok_iff.1 htake).1) ?_
  intro w _
  exact h.moves_ok w.toNat hc'

theorem text_moves (h : Respected bytes Rel) (hc : c.On bytes) :
    Moves bytes Rel (Reading.text c field count) (c.text field count) := by
  refine h.moves_then (h.take_moves hc) ?_
  intro raw c' _ hc'
  dsimp only
  cases String.fromUTF8? raw with
  | none => exact h.moves_refuse _
  | some s => exact h.moves_ok s hc'

theorem values_moves (h : Respected bytes Rel) (hc : c.On bytes) :
    Moves bytes Rel (Reading.values c field count) (c.values field count) := by
  refine h.moves_then (h.take_moves hc) ?_
  intro raw c' htake hc'
  refine h.moves_bind (h.values (Cursor.take_eq_ok_iff.1 htake).1) ?_
  intro row _
  exact h.moves_ok row hc'

/-- Every read of a record leaves the cursor where the next one may start. -/
theorem record_moves (h : Respected bytes Rel) (hc : c.On bytes) :
    Moves bytes Rel (Reading.record dimension position c)
      (readRecord dimension position c) := by
  refine h.moves_then (h.word_moves hc) ?_
  intro length c₁ _ h₁
  refine h.moves_then (h.text_moves h₁) ?_
  intro label c₂ _ h₂
  refine h.moves_then (h.word_moves h₂) ?_
  intro found c₃ _ h₃
  refine h.moves_bind (h.ofExcept _) ?_
  intro _ _
  refine h.moves_then (h.values_moves h₃) ?_
  intro row c₄ _ h₄
  refine h.moves_bind (h.ofExcept _) ?_
  intro _ _
  exact h.moves_ok (label, row) h₄

theorem records_moves (h : Respected bytes Rel) (hc : c.On bytes) :
    Moves bytes Rel (Reading.records dimension count position rows c)
      (readRecords dimension count position rows c) := by
  induction count generalizing position rows c with
  | zero => exact h.moves_ok rows hc
  | succ count ih =>
    refine h.moves_then (h.record_moves hc) ?_
    intro record c' _ hc'
    exact ih hc'

/-- A word of the header. The two sides are one reader, on the machine and where only the outcome is
known. -/
theorem headerWord (h : Respected bytes Rel) {i : Nat} (hi : i + wordSize ≤ bytes.size) :
    Rel UInt32 (Reading.headerWord bytes i) (Reading.headerWord bytes i) := by
  refine h.bind (h.slice hi) ?_
  rintro raw ⟨⟩
  apply h.word
  rw [ByteArray.size_extract]
  omega

/-- The header is read only from bytes that are long enough for it. -/
theorem header (h : Respected bytes Rel) :
    Rel Header (Reading.header bytes) (readHeader bytes) := by
  unfold readHeader Reading.header
  refine rel_ite (fun _ => h.refuse _) fun hsize => ?_
  -- from here on there are enough bytes for all words of a header
  have hword (i : Nat) (hi : i + wordSize ≤ headerSize) :
      Rel UInt32 (Reading.headerWord bytes i) (Reading.headerWord bytes i) :=
    h.headerWord (by omega)
  have hstart : 0 + wordSize ≤ bytes.size := by
    simp only [headerSize, wordSize] at *
    omega
  refine h.bind (h.slice hstart) fun start _ => ?_
  refine rel_ite (fun _ => h.refuse _) fun _ => ?_
  refine h.bind (hword 4 (by decide)) fun version _ => ?_
  refine rel_ite (fun _ => h.refuse _) fun _ => ?_
  refine h.bind (hword 8 (by decide)) fun dimension _ => ?_
  by_cases hpos : 0 < dimension.toNat
  · rw [dif_pos hpos, dif_pos hpos]
    refine h.bind (hword 12 (by decide)) fun count _ => ?_
    refine rel_ite (fun _ => h.refuse _) fun _ => ?_
    refine h.bind (hword 16 (by decide)) fun metricId _ => ?_
    cases Metric.ofId? metricId with
    | none => exact h.refuse _
    | some metric => exact h.bind (hword 20 (by decide)) fun _ _ => h.pure _
  · rw [dif_neg hpos, dif_neg hpos]
    exact h.refuse _

/-- The user info is read from behind the header, which is there. -/
theorem userInfo_moves (h : Respected bytes Rel) {header : Header}
    (hheader : readHeader bytes = .ok header) :
    Moves bytes Rel (Reading.text ⟨bytes, headerSize⟩ .userInfo header.userInfoLength)
      (Cursor.text ⟨bytes, headerSize⟩ .userInfo header.userInfoLength) :=
  h.text_moves ⟨rfl, (readHeader_eq_ok hheader).size_le⟩

/-- Behind the user info nothing but reading is left to do. -/
theorem body (h : Respected bytes Rel) (header : Header) (userInfo : String) (rows : Rows)
    (hc : c.On bytes) :
    Rel Store (Reading.body header userInfo rows c) (Reading.body header userInfo rows c) := by
  refine h.bind (h.records_moves hc).rel ?_
  intro result _
  exact rel_ite (fun _ => h.pure _) fun _ => h.refuse _

/-- A whole index is read, if the relation holds of making room as well. -/
theorem index (h : Respected bytes Rel)
    (hreserve : ∀ count width,
      Rel Rows (Access.reserve count width) (.ok (Rows.reserve count width))) :
    Rel Store (Reading.index bytes) (decode bytes) := by
  refine h.bind h.header ?_
  intro header hheader
  have hinfo := h.userInfo_moves hheader
  refine h.bind hinfo.rel ?_
  rintro ⟨userInfo, c⟩ hresult
  refine h.bind (hreserve _ _) ?_
  intro rows _
  exact h.body header userInfo rows (hinfo.on hresult)

end Respected

end Reading

end NeighborSearch.Index
