import WinNetTest.Fnio.GetFrame

/-!
# The layout of a returned frame

The bytes a get-frame IOCTL returns are a `DATA_FRAME`, an array of
`DATA_BUFFER`s and the data, with pointers relative to the start.
`FnMpTxGetFrame` and `FnLwfRxGetFrame` turn them into pointers of the
caller's address space.
-/

namespace WinNetTest.Fnio

open Support

structure Piece where
  dataOffset : ℕ
  data : List UInt8
  deriving DecidableEq

def Piece.span (p : Piece) : ℕ :=
  p.dataOffset + p.data.length

/-- The address of entry `index` of the array, from the start of the frame. -/
def entryOffset (index : ℕ) : ℕ :=
  sizeofDataFrame + sizeofDataBuffer * index

theorem entryOffset_succ (index : ℕ) :
    entryOffset (index + 1) = entryOffset index + 24 := rfl

structure EntryAt
    (m : Memory) (base pointer index address : ℕ) (p : Piece) : Prop where
  virtualAddress : m.readInt (base + entryOffset index) 8 = pointer + address
  dataOffset : m.readInt (base + entryOffset index + 8) 4 = p.dataOffset
  dataLength : m.readInt (base + entryOffset index + 12) 4 = p.data.length
  bufferLength : m.readInt (base + entryOffset index + 16) 4 = p.span
  data : m.read (base + address + p.dataOffset) p.data.length = p.data

/-- The buffers of a frame in memory, from entry `index` and data address
`address` on. -/
def Laid (m : Memory) (base pointer : ℕ) :
    (index address : ℕ) → List Piece → Prop
  | _, _, [] => True
  | index, address, p :: rest =>
    EntryAt m base pointer index address p ∧
      Laid m base pointer (index + 1) (address + p.span) rest

def totalSpan (ps : List Piece) : ℕ :=
  (ps.map Piece.span).sum

variable {base pointer index address offset frame : ℕ} {netBuffer : NetBuffer}
    {mapped : ℕ → Bool}

variable {p : Piece}

theorem EntryAt.transfer {m m' : Memory} {base' : ℕ}
    (h : EntryAt m base pointer index address p)
    (hentry : ∀ a, entryOffset index ≤ a → a < entryOffset (index + 1) →
      m' (base' + a) = m (base + a))
    (hdata : ∀ a, address ≤ a → a < address + p.span →
      m' (base' + a) = m (base + a)) :
    EntryAt m' base' pointer index address p := by
  obtain ⟨hpointer, hoffset, hlength, hbuffer, hbytes⟩ := h
  have hfield {d w : ℕ} (hdw : d + w ≤ 24) :
      m'.readInt (base' + entryOffset index + d) w =
        m.readInt (base + entryOffset index + d) w := by
    apply Memory.readInt_congr
    intro i hi
    have := hentry (entryOffset index + d + i) (by omega)
      (by rw [entryOffset_succ]; omega)
    simpa only [Nat.add_assoc] using this
  refine ⟨(hfield (d := 0) (by omega)).trans hpointer,
    (hfield (by omega)).trans hoffset, (hfield (by omega)).trans hlength,
    (hfield (by omega)).trans hbuffer, ?_⟩
  refine Eq.trans (Memory.read_congr ?_) hbytes
  intro i hi
  have := hdata (address + p.dataOffset + i) (by omega)
    (by unfold Piece.span; omega)
  simpa only [Nat.add_assoc] using this

theorem Laid.transfer {m m' : Memory} {base' : ℕ} (ps : List Piece)
    (h : Laid m base pointer index address ps)
    (hentry : ∀ a, entryOffset index ≤ a →
      a < entryOffset (index + ps.length) → m' (base' + a) = m (base + a))
    (hdata : ∀ a, address ≤ a → a < address + totalSpan ps →
      m' (base' + a) = m (base + a)) :
    Laid m' base' pointer index address ps := by
  induction ps generalizing index address with
  | nil => trivial
  | cons p rest ih =>
    have hspan : totalSpan (p :: rest) = p.span + totalSpan rest := by
      simp [totalSpan]
    rw [hspan] at hdata
    refine ⟨h.1.transfer ?_ ?_, ih h.2 ?_ ?_⟩
    · intro a hlow hhigh
      refine hentry a hlow (hhigh.trans_le ?_)
      simp only [entryOffset, sizeofDataBuffer, List.length_cons]
      omega
    · intro a hlow hhigh
      exact hdata a hlow (by omega)
    · intro a hlow hhigh
      refine hentry a ?_ ?_
      · rw [entryOffset_succ] at hlow
        omega
      · rw [List.length_cons, ← Nat.add_assoc, Nat.add_right_comm]
        exact hhigh
    · intro a hlow hhigh
      exact hdata a (by omega) (by omega)

variable {m : Memory} {ps : List Piece}

theorem Laid.entryAt (h : Laid m base pointer index address ps) {k : ℕ}
    (hk : ps[k]? = some p) :
    EntryAt m base pointer (index + k) (address + totalSpan (ps.take k)) p := by
  induction ps generalizing index address k with
  | nil => simp at hk
  | cons q rest ih =>
    cases k with
    | zero =>
      obtain rfl : q = p := by simpa using hk
      exact h.1
    | succ k =>
      have hentry := ih h.2 (k := k) (by simpa using hk)
      rw [Nat.add_right_comm, Nat.add_assoc index, Nat.add_assoc address]
        at hentry
      simpa [totalSpan] using hentry

/-! ## The second loop of `FnIoGetFilteredFrame` -/

/-- The pieces of a chain of MDLs whose first `offset` bytes are skipped and
of which `dataBytes` bytes are data. -/
def pieces : (offset : ℕ) → List Mdl → (dataBytes : ℕ) → List Piece
  | _, [], _ => []
  | offset, mdl :: rest, dataBytes =>
    let data := (mdl.bytes.drop offset).take dataBytes
    ⟨offset, data⟩ :: pieces 0 rest (dataBytes - data.length)

variable (mdls : List Mdl)

theorem flatMap_data_pieces (dataBytes : ℕ)
    (hoffset : ∀ mdl ∈ mdls.head?, offset ≤ mdl.byteCount) :
    (pieces offset mdls dataBytes).flatMap Piece.data =
      ((mdls.flatMap Mdl.bytes).drop offset).take dataBytes := by
  induction mdls generalizing offset dataBytes with
  | nil => simp [pieces]
  | cons mdl rest ih =>
    have hfirst : offset ≤ mdl.bytes.length := hoffset mdl rfl
    have hleft : dataBytes - ((mdl.bytes.drop offset).take dataBytes).length =
        dataBytes - (mdl.bytes.drop offset).length := by
      rw [List.length_take]
      omega
    rw [pieces, List.flatMap_cons, ih _ (by simp), List.drop_zero, hleft,
      List.flatMap_cons, List.drop_append_of_le_length hfirst, List.take_append]

@[simp] theorem length_pieces (offset : ℕ) (mdls : List Mdl) (dataBytes : ℕ) :
    (pieces offset mdls dataBytes).length = mdls.length := by
  induction mdls generalizing offset dataBytes with
  | nil => rfl
  | cons mdl rest ih => simp [pieces, ih]

def totalBytes (mdls : List Mdl) : ℕ :=
  (mdls.map Mdl.byteCount).sum

theorem totalSpan_pieces_le (dataBytes : ℕ)
    (hoffset : ∀ mdl ∈ mdls.head?, offset ≤ mdl.byteCount) :
    totalSpan (pieces offset mdls dataBytes) ≤ totalBytes mdls := by
  induction mdls generalizing offset dataBytes with
  | nil => simp [pieces, totalSpan, totalBytes]
  | cons mdl rest ih =>
    have hfirst : offset ≤ mdl.bytes.length := hoffset mdl rfl
    have hrest : totalSpan (pieces 0 rest (dataBytes -
        ((mdl.bytes.drop offset).take dataBytes).length)) ≤ totalBytes rest :=
      ih _ (by simp)
    simp only [pieces, totalSpan, totalBytes, List.map_cons, List.sum_cons,
      Piece.span, Mdl.byteCount, List.length_take, List.length_drop]
      at hrest ⊢
    omega

theorem toNat_min (a b : UInt32) : (min a b).toNat = min a.toNat b.toNat := by
  simp only [Min.min, UInt32.le_iff_toNat_le]
  split <;> omega

theorem writeDataBuffer_apply_outside (m : Memory) {a : ℕ}
    (dataOffset dataLength bufferLength : UInt32) (virtualAddress : ℕ)
    (h : a < entryOffset index ∨ entryOffset (index + 1) ≤ a) :
    writeDataBuffer m index dataOffset dataLength bufferLength virtualAddress
      a = m a := by
  have hindex : sizeofDataFrame + sizeofDataBuffer * index =
      entryOffset index := rfl
  rw [entryOffset_succ] at h
  simp only [writeDataBuffer, hindex]
  rw [Memory.writeInt_apply_outside _ _ (by omega),
    Memory.writeInt_apply_outside _ _ (by omega),
    Memory.writeInt_apply_outside _ _ (by omega),
    Memory.writeInt_apply_outside _ _ (by omega)]

theorem entryAt_writeDataBuffer {dataOffset dataLength bufferLength : UInt32}
    (hoffset : dataOffset.toNat = p.dataOffset)
    (hlength : dataLength.toNat = p.data.length)
    (hbuffer : bufferLength.toNat = p.span)
    (haddress : entryOffset (index + 1) ≤ address) (hsmall : address < 2 ^ 64) :
    EntryAt
      (writeDataBuffer (m.write (address + p.dataOffset) p.data) index
        dataOffset dataLength bufferLength address)
      0 0 index address p := by
  have hindex : sizeofDataFrame + sizeofDataBuffer * index =
      entryOffset index := rfl
  rw [entryOffset_succ] at haddress
  refine ⟨?_, ?_, ?_, ?_, ?_⟩
  · rw [Nat.zero_add, Nat.zero_add, writeDataBuffer, hindex]
    exact Memory.readInt_writeInt_same _ _ (by omega)
  · rw [Nat.zero_add, ← hoffset]
    simp only [writeDataBuffer, hindex]
    refine Eq.trans (Memory.readInt_congr fun i hi => ?_)
      (Memory.readInt_writeInt_uint32
        (m.write (address + dataOffset.toNat) p.data) (entryOffset index + 8)
        dataOffset)
    rw [Memory.writeInt_apply_outside _ _ (by omega),
      Memory.writeInt_apply_outside _ _ (by omega),
      Memory.writeInt_apply_outside _ _ (by omega)]
  · rw [Nat.zero_add, ← hlength]
    simp only [writeDataBuffer, hindex]
    refine Eq.trans (Memory.readInt_congr fun i hi => ?_)
      (Memory.readInt_writeInt_uint32
        ((m.write (address + p.dataOffset) p.data).writeInt
          (entryOffset index + 8) 4 dataOffset.toNat)
        (entryOffset index + 12) dataLength)
    rw [Memory.writeInt_apply_outside _ _ (by omega),
      Memory.writeInt_apply_outside _ _ (by omega)]
  · rw [Nat.zero_add, ← hbuffer]
    simp only [writeDataBuffer, hindex]
    refine Eq.trans (Memory.readInt_congr fun i hi =>
      Memory.writeInt_apply_outside _ _ (by omega)) ?_
    exact Memory.readInt_writeInt_uint32 _ _ _
  · rw [Nat.zero_add]
    refine Eq.trans (Memory.read_congr fun i hi => ?_)
      (Memory.read_write_same m (address + p.dataOffset) p.data)
    exact writeDataBuffer_apply_outside _ _ _ _ _
      (Or.inr (by rw [entryOffset_succ]; omega))

theorem copyMdls_round {mdl : Mdl} (dataBytes : UInt32)
    (hmapped : mapped index = true)
    (hoffset : (if index = 0 then UInt32.ofNat netBuffer.currentMdlOffset
      else 0).toNat = offset) (hfits : offset ≤ mdl.byteCount)
    (hsmall : mdl.byteCount < 2 ^ 32) :
    ∃ dataOffset dataLength dataBytes' : UInt32,
      let p : Piece := ⟨offset, (mdl.bytes.drop offset).take dataBytes.toNat⟩
      dataOffset.toNat = p.dataOffset ∧ dataLength.toNat = p.data.length ∧
      (dataOffset + dataLength).toNat = p.span ∧
      dataBytes'.toNat = dataBytes.toNat - p.data.length ∧
      ∀ (count : ℕ) (rest : List Mdl) (address : ℕ) (m : Memory),
        copyMdls netBuffer mapped (count + 1) index (mdl :: rest) address
            dataBytes m =
          copyMdls netBuffer mapped count (index + 1) rest (address + p.span)
            dataBytes'
            (writeDataBuffer (m.write (address + p.dataOffset) p.data) index
              dataOffset dataLength (dataOffset + dataLength) address) := by
  set dataOffset : UInt32 :=
    if index = 0 then UInt32.ofNat netBuffer.currentMdlOffset else 0
    with hdataOffset
  set dataLength : UInt32 :=
    min (UInt32.ofNat mdl.byteCount - dataOffset) dataBytes with hdataLength
  have hcount : (UInt32.ofNat mdl.byteCount).toNat = mdl.byteCount :=
    UInt32.toNat_ofNat_of_lt hsmall
  have hlength : dataLength.toNat =
      ((mdl.bytes.drop offset).take dataBytes.toNat).length := by
    rw [hdataLength, toNat_min, UInt32.toNat_sub_of_le _ _
      (by rw [UInt32.le_iff_toNat_le, hcount, hoffset]; exact hfits), hcount,
      hoffset, List.length_take, List.length_drop, Mdl.byteCount, Nat.min_comm]
  have htake : (mdl.bytes.drop offset).take dataLength.toNat =
      (mdl.bytes.drop offset).take dataBytes.toNat := by
    rw [hlength, List.length_take, List.take_eq_take_iff]
    omega
  refine ⟨dataOffset, dataLength, dataBytes - dataLength, hoffset, hlength,
    ?_, ?_, ?_⟩
  · have hle : ((mdl.bytes.drop offset).take dataBytes.toNat).length ≤
        mdl.byteCount - offset := by
      rw [List.length_take, List.length_drop, Mdl.byteCount]
      exact Nat.min_le_right _ _
    rw [UInt32.toNat_add, hoffset, hlength, Piece.span,
      Nat.mod_eq_of_lt (by omega)]
  · have hle : dataLength ≤ dataBytes := by
      rw [UInt32.le_iff_toNat_le, hlength, List.length_take]
      exact Nat.min_le_left _ _
    exact (UInt32.toNat_sub_of_le _ _ hle).trans (by rw [hlength])
  · intro count rest address m
    rw [copyMdls]
    simp only [hmapped, Bool.not_true, Bool.false_eq_true, if_false,
      ← hdataOffset, ← hdataLength, hoffset, htake]
    rw [hlength, Piece.span, Nat.add_assoc]

theorem copyMdls_cons {mdl : Mdl} (count : ℕ) (rest : List Mdl) (address : ℕ)
    (dataBytes : UInt32) (m : Memory) (hmapped : mapped index = true)
    (hoffset : (if index = 0 then UInt32.ofNat netBuffer.currentMdlOffset
      else 0).toNat = offset) (hfits : offset ≤ mdl.byteCount)
    (hsmall : mdl.byteCount < 2 ^ 32)
    (haddress : entryOffset (index + 1) ≤ address)
    (haddress' : address < 2 ^ 64) :
    ∃ (dataBytes' : UInt32) (m' : Memory),
      let p : Piece := ⟨offset, (mdl.bytes.drop offset).take dataBytes.toNat⟩
      copyMdls netBuffer mapped (count + 1) index (mdl :: rest) address
          dataBytes m =
        copyMdls netBuffer mapped count (index + 1) rest (address + p.span)
          dataBytes' m' ∧
      dataBytes'.toNat = dataBytes.toNat - p.data.length ∧
      EntryAt m' 0 0 index address p ∧
      ∀ a, (a < entryOffset index ∨ entryOffset (index + 1) ≤ a) →
        (a < address ∨ address + p.span ≤ a) → m' a = m a := by
  obtain ⟨_, _, dataBytes', hdataOffset, hdataLength, hspan,
    hdataBytes, hround⟩ := copyMdls_round dataBytes hmapped hoffset hfits hsmall
  refine ⟨dataBytes', _, hround count rest address m, hdataBytes,
    entryAt_writeDataBuffer hdataOffset hdataLength hspan haddress haddress',
    ?_⟩
  intro a hentry hdata
  rw [writeDataBuffer_apply_outside _ _ _ _ _ hentry]
  refine Memory.write_apply_outside m ?_
  dsimp only [Piece.span] at hdata ⊢
  omega

theorem copyMdls_laid (index offset address : ℕ) (dataBytes : UInt32)
    (m : Memory)
    (hmapped : ∀ k, index ≤ k → k < index + mdls.length → mapped k = true)
    (hoffset : mdls ≠ [] →
      (if index = 0 then UInt32.ofNat netBuffer.currentMdlOffset
        else 0).toNat = offset)
    (hfits : ∀ mdl ∈ mdls.head?, offset ≤ mdl.byteCount)
    (haddress : entryOffset (index + mdls.length) ≤ address)
    (hsmall : address + totalBytes mdls < 2 ^ 32) :
    ∃ m', copyMdls netBuffer mapped mdls.length index mdls address dataBytes
        m = (.success, m') ∧
      Laid m' 0 0 index address (pieces offset mdls dataBytes.toNat) ∧
      ∀ a, a < entryOffset index ∨
        (entryOffset (index + mdls.length) ≤ a ∧ a < address) → m' a = m a := by
  induction mdls generalizing index offset address dataBytes m with
  | nil => exact ⟨m, rfl, trivial, fun _ _ => rfl⟩
  | cons mdl rest ih =>
    have hbytes : totalBytes (mdl :: rest) =
        mdl.byteCount + totalBytes rest := by
      simp [totalBytes]
    have hfirst : offset ≤ mdl.byteCount := hfits mdl rfl
    have hentries : entryOffset (index + (mdl :: rest).length) =
        entryOffset (index + 1 + rest.length) := by
      rw [List.length_cons, Nat.add_assoc, Nat.add_comm 1]
    have hnext : entryOffset (index + 1) ≤
        entryOffset (index + 1 + rest.length) := by
      simp only [entryOffset, sizeofDataBuffer]
      omega
    have hspan : Piece.span ⟨offset,
        (mdl.bytes.drop offset).take dataBytes.toNat⟩ ≤ mdl.byteCount := by
      simp only [Piece.span, List.length_take, List.length_drop]
      unfold Mdl.byteCount at hfirst ⊢
      omega
    rw [hentries] at haddress ⊢
    obtain ⟨dataBytes', m₁, hcopy, hbytes', hentry, hkeep⟩ :=
      copyMdls_cons rest.length rest address dataBytes m
        (hmapped index (le_refl _) (by simp))
        (hoffset (by simp)) hfirst (by omega) (by omega) (by omega)
    obtain ⟨m₂, hloop, hlaid, hkeep'⟩ :=
      ih (index + 1) 0
        (address + Piece.span ⟨offset,
          (mdl.bytes.drop offset).take dataBytes.toNat⟩)
        dataBytes' m₁
        (fun k hlow hhigh => hmapped k (by omega)
          (by rw [List.length_cons]; omega))
        (by simp) (by simp) (by omega) (by omega)
    refine ⟨m₂, hcopy.trans hloop, ⟨?_, ?_⟩, ?_⟩
    · refine hentry.transfer (fun a hlow hhigh => ?_) fun a hlow hhigh => ?_
      · rw [Nat.zero_add, hkeep' a (Or.inl hhigh)]
      · rw [Nat.zero_add]
        exact hkeep' a (Or.inr ⟨by omega, hhigh⟩)
    · rw [hbytes'] at hlaid
      exact hlaid
    · intro a ha
      have hindex : entryOffset index ≤ entryOffset (index + 1) := by
        rw [entryOffset_succ]
        omega
      rw [hkeep' a (by omega), hkeep a (by omega) (by omega)]

theorem copyMdls_unmapped (index address : ℕ) (dataBytes : UInt32) (m : Memory)
    (hmapped : ∃ k, index ≤ k ∧ k < index + mdls.length ∧ mapped k = false) :
    (copyMdls netBuffer mapped mdls.length index mdls address dataBytes m).1 =
      .insufficientResources := by
  induction mdls generalizing index address dataBytes m with
  | nil =>
    obtain ⟨k, hlow, hhigh, -⟩ := hmapped
    rw [List.length_nil] at hhigh
    omega
  | cons mdl rest ih =>
    obtain ⟨k, hlow, hhigh, hk⟩ := hmapped
    rw [List.length_cons] at hhigh ⊢
    rw [copyMdls]
    by_cases hindex : mapped index = true
    · have hne : k ≠ index := by
        rintro rfl
        rw [hindex] at hk
        cases hk
      simp only [hindex, Bool.not_true, Bool.false_eq_true, if_false]
      exact ih _ _ _ _ ⟨k, by omega, by omega, hk⟩
    · simp [hindex]

/-! ## Pointers of the caller -/

/-- The loop of `FnMpTxGetFrame` and `FnLwfRxGetFrame` from `BufferIndex` on. -/
def relocateBuffers (frame : ℕ) : (fuel index : ℕ) → Memory → Memory
  | 0, _, m => m
  | fuel + 1, index, m =>
    if index < m.readInt (frame + 8) 2 then
      let slot := m.readInt frame 8 + sizeofDataBuffer * index
      relocateBuffers frame fuel (index + 1)
        (m.writeInt slot 8 (frame + m.readInt slot 8))
    else m

/-- The end of `FnMpTxGetFrame` and `FnLwfRxGetFrame`. -/
def relocateFrame (frame : ℕ) (m : Memory) : Memory :=
  relocateBuffers frame 65536 0
    (m.writeInt frame 8 (frame + m.readInt frame 8))

theorem relocateBuffers_laid {count : ℕ} (ps : List Piece) (fuel index : ℕ)
    (m : Memory) (hfuel : ps.length < fuel) (hcount : count = index + ps.length)
    (hheader : m.readInt (frame + 8) 2 = count)
    (hbuffers : m.readInt frame 8 = frame + entryOffset 0)
    (hlaid : Laid m frame 0 index address ps)
    (haddress : entryOffset count ≤ address)
    (hspace : frame + address + totalSpan ps < 2 ^ 64) :
    Laid (relocateBuffers frame fuel index m) frame frame index address ps ∧
      ∀ a, a < frame + entryOffset index ∨ frame + entryOffset count ≤ a →
        relocateBuffers frame fuel index m a = m a := by
  induction ps generalizing fuel index address m with
  | nil =>
    obtain ⟨fuel, rfl⟩ : ∃ f, fuel = f + 1 := ⟨fuel - 1, by omega⟩
    have hdone : ¬ index < m.readInt (frame + 8) 2 := by
      rw [hheader, hcount, List.length_nil]
      omega
    rw [relocateBuffers, if_neg hdone]
    exact ⟨trivial, fun _ _ => rfl⟩
  | cons p rest ih =>
    obtain ⟨fuel, rfl⟩ : ∃ f, fuel = f + 1 := ⟨fuel - 1, by omega⟩
    rw [List.length_cons] at hfuel hcount
    have hspan : totalSpan (p :: rest) = p.span + totalSpan rest := by
      simp [totalSpan]
    have hgo : index < m.readInt (frame + 8) 2 := by omega
    have hslot : m.readInt frame 8 + sizeofDataBuffer * index =
        frame + entryOffset index := by
      rw [hbuffers, Nat.add_assoc]
      rfl
    have hvalue : m.readInt (frame + entryOffset index) 8 = address := by
      rw [hlaid.1.virtualAddress, Nat.zero_add]
    have hend : entryOffset (index + 1) ≤ entryOffset count := by
      simp only [entryOffset, sizeofDataBuffer]
      omega
    have hstart : entryOffset 0 ≤ entryOffset index := by
      simp only [entryOffset]
      omega
    have hsize : entryOffset 0 = 56 := rfl
    rw [relocateBuffers, if_pos hgo]
    simp only [hslot, hvalue]
    have hkeep : ∀ a, a < frame + entryOffset index ∨
        frame + entryOffset (index + 1) ≤ a →
        m.writeInt (frame + entryOffset index) 8 (frame + address) a = m a := by
      intro a ha
      rw [entryOffset_succ] at ha
      exact Memory.writeInt_apply_outside _ _ (by omega)
    have hrest : Laid
        (m.writeInt (frame + entryOffset index) 8 (frame + address)) frame 0
          (index + 1) (address + p.span) rest :=
      hlaid.2.transfer rest
        (fun a hlow _ => hkeep _ (Or.inr (by omega)))
        (fun a hlow _ => hkeep _ (Or.inr (by omega)))
    obtain ⟨hdone, hsame⟩ := ih fuel (index + 1) _ (by omega) (by omega)
      ((Memory.readInt_congr fun i hi =>
        hkeep _ (Or.inl (by omega))).trans hheader)
      ((Memory.readInt_congr fun i hi =>
        hkeep _ (Or.inl (by omega))).trans hbuffers)
      hrest (by omega) (by omega)
    have hentry : EntryAt
        (m.writeInt (frame + entryOffset index) 8 (frame + address)) frame
          frame index address p := by
      obtain ⟨-, hoffset, hlength, hbuffer, hdata⟩ := hlaid.1
      refine ⟨Memory.readInt_writeInt_same _ _ (by omega), ?_, ?_, ?_, ?_⟩
      · exact (Memory.readInt_congr fun i hi =>
          Memory.writeInt_apply_outside _ _ (by omega)).trans hoffset
      · exact (Memory.readInt_congr fun i hi =>
          Memory.writeInt_apply_outside _ _ (by omega)).trans hlength
      · exact (Memory.readInt_congr fun i hi =>
          Memory.writeInt_apply_outside _ _ (by omega)).trans hbuffer
      · exact (Memory.read_congr fun i hi =>
          hkeep _ (Or.inr (by omega))).trans hdata
    refine ⟨⟨?_, hdone⟩, ?_⟩
    · refine hentry.transfer (fun a _ hhigh => ?_) fun a hlow _ => ?_
      · exact hsame _ (Or.inl (by omega))
      · exact hsame _ (Or.inr (by omega))
    · intro a ha
      have hindex := entryOffset_succ index
      rw [hsame a (by omega), hkeep a (by omega)]

/-! ## Reading a frame through its pointers -/

/-- The buffers of a `DATA_FRAME` as its owner sees them: the data offset and
the bytes at `VirtualAddress + DataOffset`. -/
def readFrame (frame : ℕ) (m : Memory) : List Piece :=
  (List.range (m.readInt (frame + 8) 2)).map fun k =>
    let entry := m.readInt frame 8 + sizeofDataBuffer * k
    { dataOffset := m.readInt (entry + 8) 4
      data :=
        m.read (m.readInt entry 8 + m.readInt (entry + 8) 4)
          (m.readInt (entry + 12) 4) }

structure FrameAt (m : Memory) (frame address : ℕ) (ps : List Piece) :
    Prop where
  bufferCount : m.readInt (frame + 8) 2 = ps.length
  buffers : m.readInt frame 8 = frame + entryOffset 0
  laid : Laid m frame frame 0 address ps

theorem FrameAt.readFrame (h : FrameAt m frame address ps) :
    readFrame frame m = ps := by
  obtain ⟨hcount, hbuffers, hlaid⟩ := h
  apply List.ext_getElem?
  intro k
  unfold Fnio.readFrame
  rw [List.getElem?_map, hcount]
  by_cases hk : k < ps.length
  · obtain ⟨hpointer, hoffset, hlength, -, hdata⟩ :=
      hlaid.entryAt (List.getElem?_eq_getElem hk)
    have hentry : m.readInt frame 8 + sizeofDataBuffer * k =
        frame + entryOffset (0 + k) := by
      rw [hbuffers, Nat.add_assoc, Nat.zero_add]
      rfl
    rw [List.getElem?_range hk, List.getElem?_eq_getElem hk]
    simp only [Option.map_some, hentry, hpointer, hoffset, hlength, hdata]
  · rw [List.getElem?_eq_none (by simpa using hk),
      List.getElem?_eq_none (by simpa using hk), Option.map_none]

theorem frameAt_relocateFrame (address : ℕ)
    (hcount : m.readInt (frame + 8) 2 = ps.length) (hshort : ps.length < 65536)
    (hbuffers : m.readInt frame 8 = entryOffset 0)
    (hlaid : Laid m frame 0 0 address ps)
    (haddress : entryOffset ps.length ≤ address)
    (hspace : frame + address + totalSpan ps < 2 ^ 64) :
    FrameAt (relocateFrame frame m) frame address ps := by
  have hentries : entryOffset ps.length = 56 + 24 * ps.length := rfl
  have hzero : entryOffset 0 = 56 := rfl
  have hkeep : ∀ a, 8 ≤ a →
      m.writeInt frame 8 (frame + entryOffset 0) (frame + a) = m (frame + a) :=
    fun a ha => Memory.writeInt_apply_outside _ _ (by omega)
  have hcount' :
      (m.writeInt frame 8 (frame + entryOffset 0)).readInt (frame + 8) 2 =
        ps.length := by
    refine Eq.trans (Memory.readInt_congr fun i hi => ?_) hcount
    rw [Nat.add_assoc]
    exact hkeep (8 + i) (by omega)
  have hbuffers' :
      (m.writeInt frame 8 (frame + entryOffset 0)).readInt frame 8 =
        frame + entryOffset 0 :=
    Memory.readInt_writeInt_same _ _ (by omega)
  rw [relocateFrame, hbuffers]
  obtain ⟨hdone, hsame⟩ :=
    relocateBuffers_laid ps 65536 0 _ hshort (Nat.zero_add _).symm hcount'
      hbuffers'
      (hlaid.transfer ps (fun a hlow _ => hkeep a (by omega))
        (fun a hlow _ => hkeep a (by omega)))
      haddress hspace
  refine ⟨?_, ?_, hdone⟩
  · exact (Memory.readInt_congr fun i hi =>
      hsame _ (Or.inl (by omega))).trans hcount'
  · exact (Memory.readInt_congr fun i hi =>
      hsame _ (Or.inl (by omega))).trans hbuffers'

end WinNetTest.Fnio
