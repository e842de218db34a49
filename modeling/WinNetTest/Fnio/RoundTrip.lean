import WinNetTest.Fnio.Enqueue
import WinNetTest.Fnio.FrameLayout

/-!
# From an injected frame to a captured one

A frame that `FnIoEnqueueFrameBegin` accepts and that reaches a capture filter
unmodified is returned by the get-frame call with the same buffers: the same
data offsets, and the same data.
-/

namespace WinNetTest.Fnio

open Support

/-! ## The pieces of the built net buffer -/

def BouncedBuffer.piece (buffer : BouncedBuffer) : Piece :=
  ⟨buffer.dataOffset.toNat, buffer.data⟩

theorem pieces_map_mdl
    (buffers : List BouncedBuffer) {offset : ℕ}
    (hfirst : ∀ buffer ∈ buffers.head?, buffer.dataOffset.toNat = offset)
    (hzero : ∀ buffer ∈ buffers.tail, buffer.dataOffset.toNat = 0)
    (hfull : ∀ buffer ∈ buffers.dropLast, buffer.Full) :
    pieces offset (buffers.map BouncedBuffer.mdl) (dataBytes buffers) =
      buffers.map BouncedBuffer.piece := by
  induction buffers generalizing offset with
  | nil => rfl
  | cons buffer rest ih =>
    obtain rfl := hfirst buffer rfl
    have hdata : (buffer.bytes.drop buffer.dataOffset.toNat).take
          (dataBytes (buffer :: rest)) = buffer.data := by
      rw [dataBytes_cons, BouncedBuffer.data]
      cases rest with
      | nil => rfl
      | cons next tail =>
        have hwhole : buffer.Full :=
          hfull buffer (by simp [List.dropLast_cons_cons])
        have hlength := buffer.length_bytes
        unfold BouncedBuffer.Full at hwhole
        rw [List.take_of_length_le (by rw [List.length_drop]; omega),
          List.take_of_length_le (by rw [List.length_drop]; omega)]
    have hrest : dataBytes (buffer :: rest) - buffer.data.length =
        dataBytes rest := by
      rw [dataBytes_cons, BouncedBuffer.length_data]
      omega
    have htail : pieces 0 (rest.map BouncedBuffer.mdl) (dataBytes rest) =
        rest.map BouncedBuffer.piece := by
      apply ih
      · intro next hnext
        exact hzero next (List.mem_of_mem_head? hnext)
      · intro next hnext
        exact hzero next (List.mem_of_mem_tail hnext)
      · intro next hnext
        cases rest with
        | nil => simp at hnext
        | cons head tail =>
          exact hfull next (by
            rw [List.dropLast_cons_cons]
            exact List.mem_cons_of_mem _ hnext)
    rw [List.map_cons, List.map_cons, pieces]
    simp only [BouncedBuffer.mdl] at htail ⊢
    rw [hdata, hrest, htail]
    rfl

/-! ## The get-frame call -/

structure UserFrame where
  address : ℕ
  length : UInt32
  memory : Memory
  address_lt : address + length.toNat < 2 ^ 64

/-- A get-frame call of either library: the IOCTL, the copy to the caller, and
on success the relocation of the pointers. -/
def getFrame (pool : ContextPool) (filter : DataFilter) (index subIndex : ℕ)
    (inputOperation : Bool) (mapped : ℕ → Bool) (systemBuffer : Memory)
    (user : UserFrame) : Option (NtStatus × Memory) :=
  match fnIoGetFilteredFrame pool filter index subIndex
    ⟨user.length, inputOperation, mapped, systemBuffer⟩ with
  | none => none
  | some result =>
    if result.status = .success then
      some (.success, relocateFrame user.address
          (user.memory.write user.address
            (result.buffer.read 0 result.bytesReturned)))
    else some (result.status, user.memory)

def fnMpTxGetFrame (pool : ContextPool) (filter : DataFilter)
    (frameIndex frameSubIndex : ℕ) (inputOperation : Bool) (mapped : ℕ → Bool)
    (systemBuffer : Memory) (user : UserFrame) : Option (NtStatus × Memory) :=
  getFrame pool filter frameIndex frameSubIndex inputOperation mapped
    systemBuffer user

/-- `FnLwfRxGetFrame`.  The sub-index of its input is zero. -/
def fnLwfRxGetFrame (pool : ContextPool) (filter : DataFilter)
    (frameIndex : ℕ) (inputOperation : Bool) (mapped : ℕ → Bool)
    (systemBuffer : Memory) (user : UserFrame) : Option (NtStatus × Memory) :=
  getFrame pool filter frameIndex 0 inputOperation mapped systemBuffer user

/-- At a queue position stands an NBL with one net buffer, which matches the
filter, and the context of its capture. -/
def CapturedAt (pool : ContextPool) (filter : DataFilter) (index : ℕ)
    (nb : NetBuffer) : Prop :=
  ∃ nbl context, filter.nblQueue.chain[index]? = some nbl ∧
    nbl.netBuffers = [nb] ∧ fnIoFilterNb filter nb = true ∧
    fnIoFilterNblContext pool nbl = some context

theorem capturedAt_of_pending
    {env : CaptureEnv} {h : ℕ} {pool pool' : ContextPool}
    {filter filter' : DataFilter} {nbl : NetBufferList} {nb : NetBuffer}
    (hfresh : pool.allocated ∉ pool.freed) (hnb : nbl.netBuffers = [nb])
    (hcapture : fnIoFilterNbl env h pool filter nbl =
      (.pending, pool', filter')) :
    CapturedAt pool' filter' filter.nblQueue.chain.length nb := by
  unfold fnIoFilterNbl at hcapture
  split at hcapture
  · next hmatch =>
      split at hcapture
      · cases hcapture
        refine ⟨_, _, List.getElem?_concat_length, hnb, ?_, if_neg hfresh⟩
        change fnIoFilterNb filter nb = true
        simpa [hnb] using hmatch
      · cases hcapture
  · cases hcapture

theorem fnIoGetFilteredFrameNb_of_capturedAt
    {pool : ContextPool} {filter : DataFilter} {index : ℕ} {nb : NetBuffer}
    (h : CapturedAt pool filter index nb) :
    ∃ nbl context, fnIoGetFilteredFrameNb filter index 0 = some (nbl, nb) ∧
        fnIoFilterNblContext pool nbl = some context := by
  obtain ⟨nbl, context, hindex, hnb, hmatch, hcontext⟩ := h
  refine ⟨nbl, context, ?_, hcontext⟩
  simp [fnIoGetFilteredFrameNb, hindex, hnb, nthMatchingNb, hmatch]

theorem outputSize_eq_ok
    (mdls : List Mdl) {bufferCount : UInt8} {size : UInt32}
    (hcount : bufferCount.toNat + mdls.length ≤ 255)
    (hsize : size.toNat + 24 * mdls.length + totalBytes mdls < 2 ^ 32) :
    ∃ bufferCount' size',
      outputSize mdls bufferCount size = .ok (bufferCount', size') ∧
      bufferCount'.toNat = bufferCount.toNat + mdls.length ∧
      size'.toNat = size.toNat + 24 * mdls.length + totalBytes mdls := by
  induction mdls generalizing bufferCount size with
  | nil => exact ⟨bufferCount, size, rfl, by simp, by simp [totalBytes]⟩
  | cons mdl rest ih =>
    have hbytes : totalBytes (mdl :: rest) =
        mdl.byteCount + totalBytes rest := by
      simp [totalBytes]
    rw [List.length_cons] at hcount hsize
    have hlast : bufferCount ≠ 255 := by
      rintro rfl
      have : (255 : UInt8).toNat = 255 := rfl
      omega
    have hnext : (bufferCount + 1).toNat = bufferCount.toNat + 1 := by
      rw [UInt8.toNat_add, UInt8.toNat_one]
      omega
    have hentry : (UInt32.ofNat sizeofDataBuffer).toNat = 24 := rfl
    have hmdl : (UInt32.ofNat mdl.byteCount).toNat = mdl.byteCount :=
      UInt32.toNat_ofNat_of_lt (show mdl.byteCount < 2 ^ 32 by omega)
    have hgrow : (size + UInt32.ofNat sizeofDataBuffer +
          UInt32.ofNat mdl.byteCount).toNat =
        size.toNat + 24 + mdl.byteCount := by
      rw [UInt32.toNat_add, UInt32.toNat_add, hentry, hmdl]
      omega
    obtain ⟨bufferCount', size', hloop, hcount', hsize'⟩ :=
      @ih (bufferCount + 1)
        (size + UInt32.ofNat sizeofDataBuffer + UInt32.ofNat mdl.byteCount)
        (by omega) (by omega)
    refine ⟨bufferCount', size', ?_, ?_, ?_⟩
    · rw [outputSize, if_neg hlast, hloop]
    · rw [hcount', hnext, List.length_cons]
      omega
    · rw [hsize', hgrow, List.length_cons, hbytes]
      omega

theorem writeDataFrame_header
    (m : Memory) (context : FilterNblContext) (info : NblInfo)
    (bufferCount : UInt8) :
    (writeDataFrame m context info bufferCount).readInt 8 2 =
        bufferCount.toNat ∧
      (writeDataFrame m context info bufferCount).readInt 0 8 =
        sizeofDataFrame := by
  have hcount := bufferCount.toNat_lt
  unfold writeDataFrame
  constructor
  · refine Eq.trans (Memory.readInt_congr fun i hi =>
      Memory.writeInt_apply_outside _ _ (by omega)) ?_
    exact Memory.readInt_writeInt_same _ _ (by omega)
  · exact Memory.readInt_writeInt_same _ _ (by decide)

def frameSize (mdls : List Mdl) : ℕ :=
  entryOffset mdls.length + totalBytes mdls

section Captured

variable {pool : ContextPool} {filter : DataFilter} {index subIndex : ℕ}
  {nbl : NetBufferList} {nb : NetBuffer} {context : FilterNblContext}

section

variable (hnb : fnIoGetFilteredFrameNb filter index subIndex = some (nbl, nb))

include hnb

section

variable (hcontext : fnIoFilterNblContext pool nbl = some context)

include hcontext

section

variable (hcount : nb.currentMdls.length ≤ 255)

include hcount

theorem fnIoGetFilteredFrame_eq_copyMdls (request : OutputRequest)
    (hlarge : frameSize nb.currentMdls ≤ request.outputBufferLength.toNat) :
    ∃ m : Memory, m.readInt 8 2 = nb.currentMdls.length ∧
      m.readInt 0 8 = entryOffset 0 ∧
      fnIoGetFilteredFrame pool filter index subIndex request =
        let copied := copyMdls nb request.mapped nb.currentMdls.length 0
          nb.currentMdls (entryOffset nb.currentMdls.length)
          (UInt32.ofNat nb.dataLength) m
        some ⟨copied.1,
          if copied.1 = .success then frameSize nb.currentMdls else 0,
          copied.2⟩ := by
  have hbound := request.outputBufferLength.toNat_lt
  have hsizeof : (UInt32.ofNat sizeofDataFrame).toNat = 56 := rfl
  have hentries : entryOffset nb.currentMdls.length =
      56 + 24 * nb.currentMdls.length := rfl
  have hframe : frameSize nb.currentMdls =
      entryOffset nb.currentMdls.length + totalBytes nb.currentMdls := rfl
  obtain ⟨bufferCount, size, hsize, hcount', hsize'⟩ :=
    @outputSize_eq_ok nb.currentMdls 0 (UInt32.ofNat sizeofDataFrame)
      (by simpa using hcount) (by omega)
  rw [UInt8.toNat_zero, Nat.zero_add] at hcount'
  rw [hsizeof, ← hentries, ← hframe] at hsize'
  obtain ⟨hheader, harray⟩ :=
    writeDataFrame_header request.buffer context nbl.info bufferCount
  refine ⟨_, hheader.trans hcount', harray, ?_⟩
  have hprobe : request.outputBufferLength ≠ 0 := by
    intro hzero
    rw [hzero, UInt32.toNat_zero] at hlarge
    omega
  have hroom : ¬ request.outputBufferLength < size := by
    rw [UInt32.lt_iff_toNat_lt]
    omega
  unfold fnIoGetFilteredFrame
  simp only [hnb, hsize, decide_eq_false hprobe, Bool.false_and,
    Bool.false_eq_true, if_false, hroom, hcontext, hcount', hsize']
  rfl

theorem fnIoGetFilteredFrame_laid
    (hoffset : ∀ mdl ∈ nb.currentMdls.head?,
      nb.currentMdlOffset ≤ mdl.byteCount) (hdata : nb.dataLength < 2 ^ 32)
    (request : OutputRequest)
    (hlarge : frameSize nb.currentMdls ≤ request.outputBufferLength.toNat)
    (hmapped : ∀ k < nb.currentMdls.length, request.mapped k = true) :
    ∃ m, fnIoGetFilteredFrame pool filter index subIndex request =
        some ⟨.success, frameSize nb.currentMdls, m⟩ ∧
      m.readInt 8 2 = nb.currentMdls.length ∧
      m.readInt 0 8 = entryOffset 0 ∧
      Laid m 0 0 0 (entryOffset nb.currentMdls.length)
        (pieces nb.currentMdlOffset nb.currentMdls nb.dataLength) := by
  obtain ⟨m₀, hheader, harray, hcall⟩ :=
    fnIoGetFilteredFrame_eq_copyMdls hnb hcontext hcount request hlarge
  have hbound := request.outputBufferLength.toNat_lt
  unfold frameSize at hlarge
  have hwindow : nb.currentMdls ≠ [] →
      (UInt32.ofNat nb.currentMdlOffset).toNat = nb.currentMdlOffset := by
    intro hne
    obtain ⟨mdl, _, hmdls⟩ := List.exists_cons_of_ne_nil hne
    have hfirst := hoffset mdl (by simp [hmdls])
    have hbytes : mdl.byteCount ≤ totalBytes nb.currentMdls := by
      simp [hmdls, totalBytes]
    exact UInt32.toNat_ofNat_of_lt (show nb.currentMdlOffset < 2 ^ 32 by omega)
  have hlength : (UInt32.ofNat nb.dataLength).toNat = nb.dataLength :=
    UInt32.toNat_ofNat_of_lt hdata
  obtain ⟨m, hcopy, hlaid, hkeep⟩ :=
    copyMdls_laid nb.currentMdls 0 nb.currentMdlOffset
      (entryOffset nb.currentMdls.length) (UInt32.ofNat nb.dataLength) m₀
      (fun k _ hk => hmapped k (by omega)) hwindow hoffset
      (by rw [Nat.zero_add]) (by omega)
  have hsame : ∀ a < 56, m a = m₀ a := fun a ha => hkeep a (Or.inl ha)
  rw [hcall, hcopy]
  refine ⟨m, rfl, ?_, ?_, ?_⟩
  · exact (Memory.readInt_congr fun i hi => hsame _ (by omega)).trans hheader
  · exact (Memory.readInt_congr fun i hi => hsame _ (by omega)).trans harray
  · rw [hlength] at hlaid
    exact hlaid

variable {mapped : ℕ → Bool}

theorem getFrame_frameAt
    (hoffset : ∀ mdl ∈ nb.currentMdls.head?,
      nb.currentMdlOffset ≤ mdl.byteCount) (hdata : nb.dataLength < 2 ^ 32)
    (inputOperation : Bool) (systemBuffer : Memory) (user : UserFrame)
    (hlarge : frameSize nb.currentMdls ≤ user.length.toNat)
    (hmapped : ∀ k < nb.currentMdls.length, mapped k = true) :
    ∃ m, getFrame pool filter index subIndex inputOperation mapped systemBuffer
        user = some (.success, m) ∧
      FrameAt m user.address (entryOffset nb.currentMdls.length)
        (pieces nb.currentMdlOffset nb.currentMdls nb.dataLength) := by
  obtain ⟨m, hcall, hheader, harray, hlaid⟩ :=
    fnIoGetFilteredFrame_laid hnb hcontext hcount hoffset hdata
      ⟨user.length, inputOperation, mapped, systemBuffer⟩ hlarge hmapped
  have hspace := user.address_lt
  have hspan := totalSpan_pieces_le nb.currentMdls nb.dataLength hoffset
  have hentries : entryOffset nb.currentMdls.length =
      56 + 24 * nb.currentMdls.length := rfl
  have hzero : entryOffset 0 = 56 := rfl
  set size := frameSize nb.currentMdls with hsize
  unfold frameSize at hsize
  set copy := user.memory.write user.address (m.read 0 size) with hcopy
  have hagree : ∀ a < size, copy (user.address + a) = m a := by
    intro a ha
    simp [hcopy, Memory.write, Memory.read, List.getD, ha]
  refine ⟨relocateFrame user.address copy, by rw [getFrame, hcall]; rfl, ?_⟩
  refine frameAt_relocateFrame (entryOffset nb.currentMdls.length)
    ?_ ?_ ?_ ?_ ?_ ?_
  · refine Eq.trans (Memory.readInt_congr fun i hi => ?_)
      (hheader.trans (length_pieces _ _ _).symm)
    rw [Nat.add_assoc]
    exact hagree (8 + i) (by omega)
  · rw [length_pieces]
    omega
  · refine Eq.trans (Memory.readInt_congr fun i hi => ?_) harray
    rw [Nat.zero_add]
    exact hagree i (by omega)
  · refine hlaid.transfer _ (fun a hlow hhigh => ?_) fun a hlow hhigh => ?_
    · rw [length_pieces, Nat.zero_add] at hhigh
      rw [Nat.zero_add]
      exact hagree a (by omega)
    · rw [Nat.zero_add]
      exact hagree a (by omega)
  · rw [length_pieces]
  · omega

theorem getFrame_unmapped (inputOperation : Bool) (systemBuffer : Memory)
    (user : UserFrame) (hlarge : frameSize nb.currentMdls ≤ user.length.toNat)
    (hmapped : ¬ ∀ k < nb.currentMdls.length, mapped k = true) :
    getFrame pool filter index subIndex inputOperation mapped systemBuffer
      user = some (.insufficientResources, user.memory) := by
  obtain ⟨m₀, -, -, hcall⟩ :=
    fnIoGetFilteredFrame_eq_copyMdls hnb hcontext hcount
      ⟨user.length, inputOperation, mapped, systemBuffer⟩ hlarge
  simp only [not_forall] at hmapped
  obtain ⟨k, hk, hunmapped⟩ := hmapped
  have hstatus : (copyMdls nb mapped nb.currentMdls.length 0 nb.currentMdls
        (entryOffset nb.currentMdls.length) (UInt32.ofNat nb.dataLength)
        m₀).1 = .insufficientResources :=
    copyMdls_unmapped nb.currentMdls 0 _ _ _
      ⟨k, by omega, by omega, by simpa using hunmapped⟩
  rw [getFrame, hcall]
  simp only [hstatus]
  rfl

end

end

end

end Captured

/-! ## The round trip -/

def DataBuffer.piece? (buffer : DataBuffer) : Option Piece :=
  buffer.virtualAddress.contents.map fun byte =>
    { dataOffset := buffer.dataOffset.toNat
      data := (List.range buffer.dataLength.toNat).map fun i =>
        byte (buffer.dataOffset.toNat + i) }

theorem Copies.piece
    {buffer : DataBuffer} {bounced : BouncedBuffer}
    (h : Copies buffer bounced) : buffer.piece? = some bounced.piece := by
  obtain ⟨hoffset, hlength, hbuffer, _, hbyte, hbytes⟩ := h
  have hdata := bounced.data_le
  rw [hoffset, hlength, hbuffer] at hdata
  rw [DataBuffer.piece?, hbyte, Option.map_some, BouncedBuffer.piece,
    BouncedBuffer.data, hbytes, hoffset, hlength]
  congr 2
  apply List.ext_getElem
  · simp
    omega
  · intro i hi _
    simp

variable {bounced : List BouncedBuffer} {buffers : List DataBuffer}

theorem pieces_of_copies (h : List.Forall₂ Copies buffers bounced) :
    buffers.map DataBuffer.piece? =
      (bounced.map BouncedBuffer.piece).map some := by
  induction h with
  | nil => rfl
  | cons hfirst _ ih => simp [hfirst.piece, ih]

theorem totalBytes_of_copies (h : List.Forall₂ Copies buffers bounced) :
    totalBytes (bounced.map BouncedBuffer.mdl) =
      (buffers.map fun buffer => buffer.bufferLength.toNat).sum := by
  induction h with
  | nil => rfl
  | cons hfirst _ ih =>
    rw [totalBytes] at ih ⊢
    simp only [List.map_cons, List.sum_cons, ih,
      BouncedBuffer.byteCount_mdl, hfirst.2.2.1]

theorem dataBytes_le (buffers : List BouncedBuffer) :
    dataBytes buffers ≤ totalBytes (buffers.map BouncedBuffer.mdl) := by
  induction buffers with
  | nil => exact le_refl _
  | cons buffer rest ih =>
    have hdata := buffer.data_le
    rw [dataBytes_cons]
    simp only [totalBytes, List.map_cons, List.sum_cons,
      BouncedBuffer.byteCount_mdl] at ih ⊢
    omega

theorem netBuffer_of_enqueued
    {request : EnqueueRequest} {buffers : ℕ → DataBuffer}
    {frame : EnqueuedFrame} (hbuffers : request.buffers = some buffers)
    (hbegin : fnIoEnqueueFrameBegin request = .ok frame)
    (hfirst : (buffers 0).dataOffset < (buffers 0).bufferLength) :
    let callers := (List.range request.bufferCount.toNat).map buffers
    let nb := frame.netBuffer
    nb.currentMdls.length = request.bufferCount.toNat ∧
      totalBytes nb.currentMdls =
        (callers.map fun buffer => buffer.bufferLength.toNat).sum ∧
      (∀ mdl ∈ nb.currentMdls.head?, nb.currentMdlOffset ≤ mdl.byteCount) ∧
      nb.dataLength ≤ totalBytes nb.currentMdls ∧
      (pieces nb.currentMdlOffset nb.currentMdls nb.dataLength).map some =
        callers.map DataBuffer.piece? := by
  intro callers nb
  obtain ⟨hcount, hcopies, hloop⟩ :=
    fnIoEnqueueFrameBegin_eq_ok hbuffers hbegin
  have hlength : request.bufferCount.toNat = frame.buffers.length := by
    simpa using hcopies.length_eq
  have hbytes := totalBytes_of_copies hcopies
  have hpieces := pieces_of_copies hcopies
  have hsum := dataBytes_le frame.buffers
  cases hframe : frame.buffers with
  | nil =>
    rw [hframe] at hlength
    exact absurd (UInt16.toNat_inj.mp hlength) hcount
  | cons buffer rest =>
    rw [hframe] at hcopies hlength hloop hbytes hpieces hsum
    have hstart : buffer.dataOffset.toNat < buffer.bufferLength.toNat := by
      rw [hlength, List.length_cons, List.range_succ_eq_map,
        List.map_cons, List.forall₂_cons] at hcopies
      obtain ⟨hoffset, -, hbuffer, -⟩ := hcopies.1
      rw [hoffset, hbuffer]
      exact UInt32.lt_iff_toNat_lt.mp hfirst
    obtain ⟨hnb, hzero, hfull⟩ := enqueueLoop_eq_ok hstart hloop
    have hmdls : nb.currentMdls = (buffer :: rest).map BouncedBuffer.mdl :=
      congrArg NetBuffer.currentMdls hnb
    have hdata : nb.dataLength = dataBytes (buffer :: rest) :=
      congrArg NetBuffer.dataLength hnb
    have hoffset : nb.currentMdlOffset = buffer.dataOffset.toNat :=
      congrArg NetBuffer.currentMdlOffset hnb
    refine ⟨?_, ?_, ?_, ?_, ?_⟩
    · rw [hmdls, List.length_map, hlength]
    · rw [hmdls, hbytes]
    · rw [hmdls, hoffset]
      rintro mdl ⟨⟩
      exact (buffer.byteCount_mdl ▸ hstart).le
    · rw [hmdls, hdata]
      exact hsum
    · rw [hmdls, hdata, hoffset, pieces_map_mdl (buffer :: rest)
        (by simp) hzero hfull, ← hpieces]

/-- A frame that `FnIoEnqueueFrameBegin` accepts, whose first buffer has a byte
behind its data offset and that is captured unmodified, is returned by both
libraries into a large enough buffer: the call succeeds when the MDLs can be
mapped, with the buffers of the injected frame. -/
theorem injected_frame_returned
    (request : EnqueueRequest) {buffers : ℕ → DataBuffer}
    {frame : EnqueuedFrame} (hbuffers : request.buffers = some buffers)
    (hbegin : fnIoEnqueueFrameBegin request = .ok frame)
    (hcount : request.bufferCount.toNat ≤ 255)
    (hfirst : (buffers 0).dataOffset < (buffers 0).bufferLength)
    {pool : ContextPool} {filter : DataFilter} {index : ℕ}
    (hcaptured : CapturedAt pool filter index frame.netBuffer)
    (inputOperation : Bool) (mapped : ℕ → Bool) (systemBuffer : Memory)
    (user : UserFrame)
    (hlarge : sizeofDataFrame + sizeofDataBuffer * request.bufferCount.toNat +
      (((List.range request.bufferCount.toNat).map buffers).map
        fun buffer => buffer.bufferLength.toNat).sum ≤ user.length.toNat) :
    ∃ status m,
      fnMpTxGetFrame pool filter index 0 inputOperation mapped systemBuffer
        user = some (status, m) ∧
      fnLwfRxGetFrame pool filter index inputOperation mapped systemBuffer
        user = some (status, m) ∧
      (status = .success ↔ ∀ k < request.bufferCount.toNat, mapped k = true) ∧
      (status = .success → (readFrame user.address m).map some =
          ((List.range request.bufferCount.toNat).map buffers).map
            DataBuffer.piece?) := by
  obtain ⟨hlength, hbytes, hoffset, hdata, hpieces⟩ :=
    netBuffer_of_enqueued hbuffers hbegin hfirst
  obtain ⟨nbl, _, hnb, hcontext⟩ :=
    fnIoGetFilteredFrameNb_of_capturedAt hcaptured
  have hbound := user.length.toNat_lt
  have hsize : frameSize frame.netBuffer.currentMdls ≤ user.length.toNat := by
    rw [frameSize, hlength, hbytes]
    exact hlarge
  have hshort : frame.netBuffer.dataLength < 2 ^ 32 := by
    unfold frameSize at hsize
    omega
  rw [← hlength] at hcount ⊢
  by_cases hmapped : ∀ k < frame.netBuffer.currentMdls.length, mapped k = true
  · obtain ⟨m, hcall, hframe⟩ :=
      getFrame_frameAt hnb hcontext hcount hoffset hshort inputOperation
        systemBuffer user hsize hmapped
    refine ⟨.success, m, hcall, hcall, iff_of_true rfl hmapped, fun _ => ?_⟩
    rw [hframe.readFrame, hpieces, hlength]
  · have hcall := getFrame_unmapped hnb hcontext hcount inputOperation
      systemBuffer user hsize hmapped
    refine ⟨_, _, hcall, hcall, iff_of_false (by decide) hmapped, ?_⟩
    intro h
    cases h

def twoBuffers : ℕ → DataBuffer
  | 0 => ⟨⟨true, some fun i => UInt8.ofNat (i + 1)⟩, 1, 2, 3⟩
  | _ => ⟨⟨true, some fun i => UInt8.ofNat (i + 10)⟩, 0, 1, 4⟩

def twoBufferRequest : EnqueueRequest := .granted 2 twoBuffers

def matchAll : DataFilter :=
  ⟨⟨[0], [0], rfl, by decide⟩, .empty, .empty, []⟩

theorem injected_frame_returned_twoBuffers : ∃ frame pool filter m,
      fnIoEnqueueFrameBegin twoBufferRequest = .ok frame ∧
      CapturedAt pool filter 0 frame.netBuffer ∧
      fnMpTxGetFrame pool filter 0 0 false (fun _ => true) (fun _ => 0xff)
        ⟨4096, 200, fun _ => 0, by decide⟩ = some (.success, m) ∧
      readFrame 4096 m = [⟨1, [2, 3]⟩, ⟨0, [10]⟩] := by
  obtain ⟨frame, hbegin⟩ :
      ∃ frame, fnIoEnqueueFrameBegin twoBufferRequest = .ok frame := ⟨_, rfl⟩
  obtain ⟨pool, filter, hcapture⟩ : ∃ pool filter,
      fnIoFilterNbl ⟨fun _ _ => true, fun _ _ => 0, ⟨0, 0⟩⟩ 0 .empty matchAll
        ⟨0, frame.netBuffer, [], ⟨0, 0, 0, 0, 0, 0⟩, none⟩ =
          (.pending, pool, filter) := by
    cases hbegin
    exact ⟨_, _, rfl⟩
  have hcaptured : CapturedAt pool filter 0 frame.netBuffer :=
    capturedAt_of_pending (by decide) rfl hcapture
  obtain ⟨_, m, hcall, -, hsuccess, hread⟩ :=
    injected_frame_returned twoBufferRequest rfl hbegin (by decide)
      (by decide) hcaptured false (fun _ => true) (fun _ => 0xff)
      ⟨4096, 200, fun _ => 0, by decide⟩ (by decide)
  obtain rfl := hsuccess.mpr fun _ _ => rfl
  refine ⟨frame, pool, filter, m, hbegin, hcaptured, hcall, ?_⟩
  exact List.map_injective_iff.mpr (Option.some_injective _) (hread rfl)

end WinNetTest.Fnio
