import WinNetTest.Fnio.FilterList
import WinNetTest.Fnio.RoundTrip

/-!
# Bytes of a returned frame that nobody has written

The IO manager does not clear the system buffer of a get-frame IOCTL, and it
copies as many bytes of it to the caller as `FnIoGetFilteredFrame` says.  The
call writes the fields of the `DATA_FRAME` and of the `DATA_BUFFER`s and the
data.  It does not write the padding of the structures, the rest of the union
of the `DATA_FRAME`, the space before the data of the first MDL, and the space
that is left behind the data.  These bytes are returned as they were, unless
the size of the output is so large that it wraps around to ten bytes or less.
-/

namespace WinNetTest.Fnio

open Support

/-- What NDIS promises about a net buffer, and that its lengths are 32-bit
integers. -/
structure NetBuffer.Valid (nb : NetBuffer) : Prop where
  offset_le : ∀ mdl ∈ nb.currentMdls.head?, nb.currentMdlOffset ≤ mdl.byteCount
  byteCount_lt : ∀ mdl ∈ nb.currentMdls, mdl.byteCount < 2 ^ 32
  dataLength_lt : nb.dataLength < 2 ^ 32

/-! ## The bytes that are written -/

/-- The bytes of the data and of the entries of pieces; the last four bytes of
an entry are padding. -/
def writtenFrom : (index address : ℕ) → List Piece → Set ℕ
  | _, _, [] => ∅
  | index, address, p :: rest =>
    Set.Ico (address + p.dataOffset) (address + p.span) ∪
      Set.Ico (entryOffset index) (entryOffset index + 20) ∪
      writtenFrom (index + 1) (address + p.span) rest

def writtenBytes (nb : NetBuffer) : Set ℕ :=
  Set.Ico 0 10 ∪ Set.Ico 16 48 ∪
    writtenFrom 0 (entryOffset nb.currentMdls.length)
      (pieces nb.currentMdlOffset nb.currentMdls nb.dataLength)

variable {index subIndex : ℕ}

theorem le_of_mem_writtenFrom {ps : List Piece} {address a : ℕ}
    (haddress : 56 ≤ address) (h : a ∈ writtenFrom index address ps) :
    56 ≤ a := by
  induction ps generalizing index address with
  | nil => cases h
  | cons p rest ih =>
    rcases h with (hdata | hentry) | hrest
    · exact haddress.trans ((Nat.le_add_right _ _).trans hdata.1)
    · exact (Nat.le_add_right _ _).trans hentry.1
    · exact ih (haddress.trans (Nat.le_add_right _ _)) hrest

/-- The padding behind `BufferCount`. -/
theorem ten_notMem_writtenBytes (nb : NetBuffer) : 10 ∉ writtenBytes nb := by
  rintro ((hcount | houtput) | hrest)
  · exact absurd hcount.2 (by decide)
  · exact absurd houtput.1 (by decide)
  · exact absurd (le_of_mem_writtenFrom (Nat.le_add_right _ _) hrest)
      (by decide)

theorem writes_writeDataBuffer (index : ℕ)
    (dataOffset dataLength bufferLength : UInt32) (virtualAddress : ℕ) :
    Memory.Writes
      (fun m => writeDataBuffer m index dataOffset dataLength bufferLength
        virtualAddress)
      (Set.Ico (entryOffset index) (entryOffset index + 20)) := by
  have hfields :=
    (Memory.writes_writeInt (entryOffset index) 8 virtualAddress).comp
      ((Memory.writes_writeInt (entryOffset index + 16) 4
        bufferLength.toNat).comp
        ((Memory.writes_writeInt (entryOffset index + 12) 4
          dataLength.toNat).comp
          (Memory.writes_writeInt (entryOffset index + 8) 4
            dataOffset.toNat)))
  refine hfields.congr ?_
  ext a
  simp only [Set.mem_union, Set.mem_Ico]
  omega

theorem writes_writeDataFrame (context : FilterNblContext) (info : NblInfo)
    (bufferCount : UInt8) :
    Memory.Writes (fun m => writeDataFrame m context info bufferCount)
      (Set.Ico 0 10 ∪ Set.Ico 16 48) := by
  have hfields :=
    (Memory.writes_writeInt 0 8 sizeofDataFrame).comp
      ((Memory.writes_writeInt 8 2 bufferCount.toNat).comp
      ((Memory.writes_writeInt 40 8 info.udpSegmentation.toNat).comp
      ((Memory.writes_writeInt 32 8 info.tcpLargeSend.toNat).comp
      ((Memory.writes_writeInt 24 8 info.tcpIpChecksum.toNat).comp
      ((Memory.writes_writeInt 20 4 info.hashValue.toNat).comp
      ((Memory.writes_writeInt 19 1 0).comp
      ((Memory.writes_writeInt 18 1
        context.processorNumber.number.toNat).comp
      (Memory.writes_writeInt 16 2
        context.processorNumber.group.toNat))))))))
  refine hfields.congr ?_
  ext a
  simp only [Set.mem_union, Set.mem_Ico]
  omega

theorem copyMdls_writes
    {netBuffer : NetBuffer} {mapped : ℕ → Bool} (mdls : List Mdl)
    (index offset address : ℕ) (dataBytes : UInt32)
    (hmapped : ∀ k, index ≤ k → k < index + mdls.length → mapped k = true)
    (hoffset : mdls ≠ [] →
      (if index = 0 then UInt32.ofNat netBuffer.currentMdlOffset
        else 0).toNat = offset)
    (hfits : ∀ mdl ∈ mdls.head?, offset ≤ mdl.byteCount)
    (hsmall : ∀ mdl ∈ mdls, mdl.byteCount < 2 ^ 32) :
    Memory.Writes
      (fun m => (copyMdls netBuffer mapped mdls.length index mdls address
        dataBytes m).2)
      (writtenFrom index address (pieces offset mdls dataBytes.toNat)) := by
  induction mdls generalizing index offset address dataBytes with
  | nil => exact Memory.writes_id
  | cons mdl rest ih =>
    obtain ⟨dataOffset, dataLength, dataBytes', -, -, -, hdataBytes,
      hround⟩ := copyMdls_round dataBytes
        (hmapped index le_rfl (by simp)) (hoffset (by simp))
        (hfits mdl rfl) (hsmall mdl (by simp))
    have hrest := ih (index + 1) 0
      (address + Piece.span ⟨offset,
        (mdl.bytes.drop offset).take dataBytes.toNat⟩) dataBytes'
      (fun k hlow hhigh => hmapped k (by omega)
        (by rw [List.length_cons]; omega))
      (by simp) (by simp) (fun mdl hmdl => hsmall mdl (by simp [hmdl]))
    rw [hdataBytes] at hrest
    have hpiece := Memory.writes_write (address + offset)
      ((mdl.bytes.drop offset).take dataBytes.toNat)
    have hall := hrest.comp ((writes_writeDataBuffer index dataOffset
      dataLength (dataOffset + dataLength) address).comp hpiece)
    simp only [List.length_cons, hround]
    rw [Nat.add_assoc] at hall
    exact hall

/-! ## Two calls -/

variable {bufferCount : UInt8} {mdls : List Mdl}

theorem of_outputSize {size : UInt32} {result : UInt8 × UInt32}
    (h : outputSize mdls bufferCount size = .ok result) :
    result.1.toNat = bufferCount.toNat + mdls.length ∧
      result.2.toNat =
        (size.toNat + 24 * mdls.length + totalBytes mdls) % 2 ^ 32 := by
  induction mdls generalizing bufferCount size with
  | nil =>
    cases h
    exact ⟨rfl, (Nat.mod_eq_of_lt size.toNat_lt).symm⟩
  | cons mdl rest ih =>
    rw [outputSize] at h
    split at h
    · cases h
    · rename_i hlast
      have hlt : bufferCount.toNat < 255 := by
        have hbound := bufferCount.toNat_lt
        have hne : bufferCount.toNat ≠ 255 :=
          fun heq => hlast (UInt8.toNat_inj.mp heq)
        omega
      obtain ⟨hcount, hsize⟩ := ih h
      rw [hcount, hsize, UInt8.toNat_add, UInt8.toNat_one, List.length_cons]
      simp only [UInt32.toNat_add, UInt32.toNat_ofNat', sizeofDataBuffer,
        totalBytes, List.map_cons, List.sum_cons]
      omega

theorem status_of_outputSize {size : UInt32} {status : NtStatus}
    (h : outputSize mdls bufferCount size = .error status) :
    status = .integerOverflow := by
  induction mdls generalizing bufferCount size with
  | nil => cases h
  | cons mdl rest ih =>
    rw [outputSize] at h
    split at h
    · cases h
      rfl
    · exact ih h

variable {request : OutputRequest} {result : OutputResult}
variable {filter : DataFilter} {pool : ContextPool}

theorem success_of_fnIoGetFilteredFrame
    (h : fnIoGetFilteredFrame pool filter index subIndex request = some result)
    (hsuccess : result.status = .success) :
    ∃ nbl nb context bufferCount size,
      fnIoGetFilteredFrameNb filter index subIndex = some (nbl, nb) ∧
      fnIoFilterNblContext pool nbl = some context ∧
      outputSize nb.currentMdls 0 (UInt32.ofNat sizeofDataFrame) =
        .ok (bufferCount, size) ∧
      copyMdls nb request.mapped nb.currentMdls.length 0 nb.currentMdls
          (entryOffset nb.currentMdls.length) (UInt32.ofNat nb.dataLength)
          (writeDataFrame request.buffer context nbl.info bufferCount) =
        (.success, result.buffer) ∧
      result.bytesReturned = size.toNat := by
  unfold fnIoGetFilteredFrame at h
  dsimp only at h
  split at h
  · cases h
    cases hsuccess
  · rename_i nbl nb hnb
    split at h
    · rename_i status hsize
      cases h
      cases (status_of_outputSize hsize).symm.trans hsuccess
    · rename_i bufferCount size hsize
      split_ifs at h
      · cases h
        cases hsuccess
      · cases h
        cases hsuccess
      · split at h
        · cases h
        · rename_i context hcontext
          have hcount := (of_outputSize hsize).1
          rw [UInt8.toNat_zero, Nat.zero_add] at hcount
          dsimp only at hcount
          rw [hcount] at h
          cases h
          exact ⟨nbl, nb, context, bufferCount, size, hnb, hcontext, hsize,
            Prod.ext hsuccess rfl, if_pos hsuccess⟩

theorem copyMdls_fst_congr (netBuffer : NetBuffer) (mapped : ℕ → Bool)
    (mdls : List Mdl) (count index data : ℕ) (dataBytes : UInt32)
    (m m' : Memory) :
    (copyMdls netBuffer mapped count index mdls data dataBytes m).1 =
      (copyMdls netBuffer mapped count index mdls data dataBytes m').1 := by
  induction mdls generalizing count index data dataBytes m m' with
  | nil => cases count <;> rfl
  | cons mdl rest ih =>
    cases count with
    | zero => rfl
    | succ count =>
      simp only [copyMdls]
      split
      · rfl
      · exact ih _ _ _ _ _ _

/-- What was in the system buffer does not matter for the status. -/
theorem exists_of_fnIoGetFilteredFrame
    (h : fnIoGetFilteredFrame pool filter index subIndex request = some result)
    (systemBuffer : Memory) :
    ∃ result', fnIoGetFilteredFrame pool filter index subIndex
        { request with buffer := systemBuffer } = some result' ∧
      result'.status = result.status := by
  unfold fnIoGetFilteredFrame at h ⊢
  dsimp only at h ⊢
  split at h
  · cases h
    exact ⟨_, rfl, rfl⟩
  · split at h
    · cases h
      exact ⟨_, rfl, rfl⟩
    · split_ifs at h ⊢
      · cases h
        exact ⟨_, rfl, rfl⟩
      · cases h
        exact ⟨_, rfl, rfl⟩
      · split at h
        · cases h
        · cases h
          exact ⟨_, rfl, copyMdls_fst_congr ..⟩

/-- Two successful calls on different system buffers return the same bytes
exactly if the buffers agree wherever nothing is written below the size of the
output. -/
theorem returned_bytes_eq_iff
    {pool : ContextPool} {filter : DataFilter}
    (hvalid : ∀ nbl ∈ filter.nblQueue.chain, ∀ nb ∈ nbl.netBuffers, nb.Valid)
    {index subIndex : ℕ} {request : OutputRequest} {systemBuffer : Memory}
    {result result' : OutputResult}
    (h : fnIoGetFilteredFrame pool filter index subIndex request = some result)
    (h' : fnIoGetFilteredFrame pool filter index subIndex
      { request with buffer := systemBuffer } = some result')
    (hsuccess : result.status = .success)
    (hsuccess' : result'.status = .success) :
    ∃ nbl nb, fnIoGetFilteredFrameNb filter index subIndex = some (nbl, nb) ∧
      (result.bytesReturned = result'.bytesReturned ∧
          result.buffer.read 0 result.bytesReturned =
            result'.buffer.read 0 result'.bytesReturned ↔
        ∀ a < result.bytesReturned, a ∉ writtenBytes nb →
          request.buffer a = systemBuffer a) := by
  obtain ⟨nbl, nb, context, bufferCount, size, hnb, hcontext, hsize, hcopy,
    hbytes⟩ := success_of_fnIoGetFilteredFrame h hsuccess
  obtain ⟨_, nb', _, _, _, hnb', hcontext', hsize',
    hcopy', hbytes'⟩ := success_of_fnIoGetFilteredFrame h' hsuccess'
  cases hnb.symm.trans hnb'
  cases hcontext.symm.trans hcontext'
  cases hsize.symm.trans hsize'
  refine ⟨nbl, nb, hnb, ?_⟩
  obtain ⟨hmem, hmem'⟩ := mem_of_fnIoGetFilteredFrameNb hnb
  obtain ⟨hoffset, hsmall, hlength⟩ := hvalid nbl hmem nb hmem'
  have hmapped : ∀ k < nb.currentMdls.length, request.mapped k = true := by
    intro k hk
    by_contra hunmapped
    have hfailed := congrArg Prod.fst hcopy
    rw [copyMdls_unmapped nb.currentMdls 0 _ _ _
      ⟨k, Nat.zero_le k, by omega, by simpa using hunmapped⟩] at hfailed
    cases hfailed
  have hwindow : nb.currentMdls ≠ [] →
      (UInt32.ofNat nb.currentMdlOffset).toNat = nb.currentMdlOffset := by
    intro hne
    obtain ⟨mdl, _, hmdls⟩ := List.exists_cons_of_ne_nil hne
    have hfirst := hoffset mdl (by simp [hmdls])
    have hbound := hsmall mdl (by simp [hmdls])
    exact UInt32.toNat_ofNat_of_lt (lt_of_le_of_lt hfirst hbound)
  have hwrites := (copyMdls_writes nb.currentMdls 0 nb.currentMdlOffset
    (entryOffset nb.currentMdls.length) (UInt32.ofNat nb.dataLength)
    (fun k _ hk => hmapped k (by omega)) hwindow hoffset hsmall).comp
      (writes_writeDataFrame context nbl.info bufferCount)
  have hdata : (UInt32.ofNat nb.dataLength).toNat = nb.dataLength :=
    UInt32.toNat_ofNat_of_lt hlength
  rw [hdata] at hwrites
  have hiff := hwrites.read_eq_iff request.buffer systemBuffer size.toNat
  dsimp only at hcopy'
  rw [hcopy, hcopy'] at hiff
  rw [hbytes, hbytes']
  exact (and_iff_right rfl).trans hiff

/-- No returned byte depends on what was in the system buffer behind the input
before the call. -/
def NoStaleBytes (pool : ContextPool) (filter : DataFilter)
    (index subIndex : ℕ) (request : OutputRequest) : Prop :=
  ∀ (systemBuffer : Memory) (result result' : OutputResult),
    (∀ a < FilterList.sizeofDataGetFrameIn,
      systemBuffer a = request.buffer a) →
    fnIoGetFilteredFrame pool filter index subIndex request = some result →
    fnIoGetFilteredFrame pool filter index subIndex
      { request with buffer := systemBuffer } = some result' →
    result.status = .success → result'.status = .success →
    result.bytesReturned = result'.bytesReturned ∧
      result.buffer.read 0 result.bytesReturned =
        result'.buffer.read 0 result'.bytesReturned

/-- A call that succeeds returns stale bytes, whatever the frame, unless the
size of the output wraps around to ten bytes or less. -/
theorem noStaleBytes_iff
    (hvalid : ∀ nbl ∈ filter.nblQueue.chain, ∀ nb ∈ nbl.netBuffers, nb.Valid)
    {nbl : NetBufferList} {nb : NetBuffer}
    (hnb : fnIoGetFilteredFrameNb filter index subIndex = some (nbl, nb))
    (h : fnIoGetFilteredFrame pool filter index subIndex request = some result)
    (hsuccess : result.status = .success) :
    NoStaleBytes pool filter index subIndex request ↔
      frameSize nb.currentMdls % 2 ^ 32 ≤ 10 := by
  obtain ⟨_, nb', -, _, size, hnb', -, hsize, -, hbytes⟩ :=
    success_of_fnIoGetFilteredFrame h hsuccess
  cases hnb.symm.trans hnb'
  have hreturned : result.bytesReturned =
      frameSize nb.currentMdls % 2 ^ 32 := hbytes.trans (of_outputSize hsize).2
  constructor
  · intro hno
    by_contra hlarge
    let systemBuffer : Memory := fun a =>
      if a = 10 then request.buffer 10 + 1 else request.buffer a
    obtain ⟨result', h', hstatus⟩ :=
      exists_of_fnIoGetFilteredFrame h systemBuffer
    have hsuccess' := hstatus.trans hsuccess
    have hsame := hno systemBuffer result result'
      (fun a ha => if_neg fun heq => absurd (heq ▸ ha) (by decide))
      h h' hsuccess hsuccess'
    obtain ⟨_, _, hnb'', hiff⟩ :=
      returned_bytes_eq_iff hvalid h h' hsuccess hsuccess'
    cases hnb.symm.trans hnb''
    have hten := hiff.mp hsame 10 (by omega) (ten_notMem_writtenBytes nb)
    simp [systemBuffer] at hten
  · intro hsmall systemBuffer result₁ result' _ h₁ h' hsuccess₁ hsuccess'
    cases h.symm.trans h₁
    obtain ⟨_, _, -, hiff⟩ :=
      returned_bytes_eq_iff hvalid h h' hsuccess hsuccess'
    exact hiff.mpr fun a ha hunwritten => absurd
      (Or.inl (Or.inl ⟨Nat.zero_le a, by omega⟩)) hunwritten

def oneByteFilter : DataFilter :=
  { matchAll with
    nblQueue :=
      ⟨[⟨0, ⟨[], [⟨[1]⟩], 0, 1⟩, [], ⟨0, 0, 0, 0, 0, 0⟩, some ⟨0, ⟨0, 0⟩, 0⟩⟩],
        1, rfl⟩
    captured := [0] }

def oneByteRequest (buffer : Memory) : OutputRequest where
  outputBufferLength := 200
  inputOperation := true
  mapped := fun _ => true
  buffer := buffer

theorem noStaleBytes_iff_oneByte :
    frameSize [⟨[1]⟩] = 81 ∧
      ¬NoStaleBytes ⟨1, [], false⟩ oneByteFilter 0 0
        (oneByteRequest fun _ => 0) := by
  have hvalid : ∀ nbl ∈ oneByteFilter.nblQueue.chain,
      ∀ nb ∈ nbl.netBuffers, nb.Valid := by
    intro nbl hnbl nb hnb
    cases List.mem_singleton.mp hnbl
    cases List.mem_singleton.mp hnb
    exact ⟨by decide, by decide, by decide⟩
  obtain ⟨result, hresult, hstatus⟩ : ∃ result,
      fnIoGetFilteredFrame ⟨1, [], false⟩ oneByteFilter 0 0
        (oneByteRequest fun _ => 0) = some result ∧
      result.status = .success := ⟨_, rfl, rfl⟩
  have hnb : fnIoGetFilteredFrameNb oneByteFilter 0 0 =
      some (⟨0, ⟨[], [⟨[1]⟩], 0, 1⟩, [], ⟨0, 0, 0, 0, 0, 0⟩,
        some ⟨0, ⟨0, 0⟩, 0⟩⟩, ⟨[], [⟨[1]⟩], 0, 1⟩) := rfl
  refine ⟨rfl, fun hno => ?_⟩
  exact absurd ((noStaleBytes_iff hvalid hnb hresult hstatus).mp hno)
    (by decide)

/-- The byte behind `BufferCount` is returned as it was before the call. -/
theorem stale_byte_returned : ∃ result result',
      fnIoGetFilteredFrame ⟨1, [], false⟩ oneByteFilter 0 0
          (oneByteRequest fun _ => 0) = some result ∧
      fnIoGetFilteredFrame ⟨1, [], false⟩ oneByteFilter 0 0
          (oneByteRequest fun a => if a < 8 then 0 else 0xff) =
        some result' ∧
      result.status = .success ∧ result'.status = .success ∧
      10 < result.bytesReturned ∧ 10 < result'.bytesReturned ∧
      result.buffer 10 = 0 ∧ result'.buffer 10 = 0xff :=
  ⟨_, _, rfl, rfl, rfl, rfl, by decide, by decide, by decide, by decide⟩

end WinNetTest.Fnio
