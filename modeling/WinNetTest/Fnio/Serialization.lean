import WinNetTest.Fnio.Conservation
import WinNetTest.Fnio.RoundTrip
import Mathlib.Order.CompletePartialOrder
import Mathlib.Order.Interval.Set.Disjoint

/-!
# The regions of a returned frame

A captured net buffer of at most 255 MDLs is returned in one piece of memory.
A probe without an output buffer reports the size of the piece, and a buffer of
this size or more receives it.  After the relocation of the pointers the array
of `DATA_BUFFER`s and the regions it describes lie inside the piece and do not
overlap, whatever the fragmentation of the net buffer is, and the data slices
of the regions are the data of the net buffer.
-/

namespace WinNetTest.Fnio

open Support

/-! ## Reading the buffers of a frame -/

/-- A `DATA_BUFFER` as the owner of a frame reads it. -/
structure FrameBuffer where
  virtualAddress : ℕ
  dataOffset : ℕ
  dataLength : ℕ
  bufferLength : ℕ
  deriving DecidableEq

/-- The array of `DATA_BUFFER`s of a frame. -/
def readBuffers (frame : ℕ) (m : Memory) : List FrameBuffer :=
  (List.range (m.readInt (frame + 8) 2)).map fun k =>
    let entry := m.readInt frame 8 + sizeofDataBuffer * k
    { virtualAddress := m.readInt entry 8
      dataOffset := m.readInt (entry + 8) 4
      dataLength := m.readInt (entry + 12) 4
      bufferLength := m.readInt (entry + 16) 4 }

def FrameBuffer.region (buffer : FrameBuffer) : Set ℕ :=
  Set.Ico buffer.virtualAddress (buffer.virtualAddress + buffer.bufferLength)

def FrameBuffer.slice (m : Memory) (buffer : FrameBuffer) : List UInt8 :=
  m.read (buffer.virtualAddress + buffer.dataOffset) buffer.dataLength

def arrayRegion (frame : ℕ) (m : Memory) : Set ℕ :=
  Set.Ico (m.readInt frame 8)
    (m.readInt frame 8 + sizeofDataBuffer * m.readInt (frame + 8) 2)

/-- A frame of the given size holds the data of a net buffer: the array and the
buffers lie inside it and apart, with a buffer for each MDL that ends with its
data. -/
structure Serialized (m : Memory) (frame size : ℕ) (nb : NetBuffer) : Prop where
  bufferCount : m.readInt (frame + 8) 2 = nb.currentMdls.length
  arrayInside : frame ≤ m.readInt frame 8 ∧
    m.readInt frame 8 + sizeofDataBuffer * m.readInt (frame + 8) 2 ≤
      frame + size
  buffersInside : ∀ buffer ∈ readBuffers frame m,
    frame ≤ buffer.virtualAddress ∧
      buffer.virtualAddress + buffer.bufferLength ≤ frame + size
  disjoint : (arrayRegion frame m ::
    (readBuffers frame m).map FrameBuffer.region).Pairwise Disjoint
  bufferLength : ∀ buffer ∈ readBuffers frame m,
    buffer.dataOffset + buffer.dataLength = buffer.bufferLength
  data : (readBuffers frame m).flatMap (FrameBuffer.slice m) = nb.data

def buffersFrom : (start : ℕ) → List Piece → List FrameBuffer
  | _, [] => []
  | start, p :: rest =>
    { virtualAddress := start
      dataOffset := p.dataOffset
      dataLength := p.data.length
      bufferLength := p.span } :: buffersFrom (start + p.span) rest

theorem getElem?_buffersFrom (start k : ℕ) (ps : List Piece) :
    (buffersFrom start ps)[k]? = ps[k]?.map fun p =>
      { virtualAddress := start + totalSpan (ps.take k)
        dataOffset := p.dataOffset
        dataLength := p.data.length
        bufferLength := p.span } := by
  induction ps generalizing start k with
  | nil => rfl
  | cons p rest ih =>
    cases k with
    | zero => rfl
    | succ k =>
      simp only [buffersFrom, List.getElem?_cons_succ, ih, List.take_succ_cons,
        totalSpan, List.map_cons, List.sum_cons, Nat.add_assoc]

variable {ps : List Piece} {frame start : ℕ}

theorem FrameAt.readBuffers {m : Memory} {address : ℕ}
    (h : FrameAt m frame address ps) :
    readBuffers frame m = buffersFrom (frame + address) ps := by
  apply List.ext_getElem?
  intro k
  unfold Fnio.readBuffers
  rw [List.getElem?_map, h.bufferCount, getElem?_buffersFrom]
  by_cases hk : k < ps.length
  · obtain ⟨hpointer, hoffset, hlength, hbuffer, -⟩ :=
      h.laid.entryAt (List.getElem?_eq_getElem hk)
    have hentry : m.readInt frame 8 + sizeofDataBuffer * k =
        frame + entryOffset (0 + k) := by
      rw [h.buffers, Nat.add_assoc, Nat.zero_add]
      rfl
    rw [List.getElem?_range hk, List.getElem?_eq_getElem hk,
      Nat.add_assoc frame]
    simp only [Option.map_some, hentry, hpointer, hoffset, hlength, hbuffer]
  · rw [List.getElem?_eq_none (by simpa using hk),
      List.getElem?_eq_none (by simpa using hk)]
    rfl

variable {buffer : FrameBuffer}

theorem inside_of_mem_buffersFrom (h : buffer ∈ buffersFrom start ps) :
    start ≤ buffer.virtualAddress ∧
      buffer.virtualAddress + buffer.bufferLength ≤ start + totalSpan ps := by
  induction ps generalizing start with
  | nil => cases h
  | cons p rest ih =>
    have hspan : totalSpan (p :: rest) = p.span + totalSpan rest := by
      simp [totalSpan]
    rcases List.mem_cons.mp h with rfl | hrest
    · exact ⟨le_rfl, by dsimp only; omega⟩
    · obtain ⟨hlow, hhigh⟩ := ih hrest
      exact ⟨by omega, by omega⟩

theorem bufferLength_of_mem_buffersFrom (h : buffer ∈ buffersFrom start ps) :
    buffer.dataOffset + buffer.dataLength = buffer.bufferLength := by
  induction ps generalizing start with
  | nil => cases h
  | cons p rest ih =>
    rcases List.mem_cons.mp h with rfl | hrest
    · rfl
    · exact ih hrest

theorem disjoint_buffersFrom (start : ℕ) (ps : List Piece) :
    ((buffersFrom start ps).map FrameBuffer.region).Pairwise Disjoint := by
  induction ps generalizing start with
  | nil => exact .nil
  | cons p rest ih =>
    refine .cons ?_ (ih (start + p.span))
    intro region hregion
    obtain ⟨_, hbuffer, rfl⟩ := List.mem_map.mp hregion
    obtain ⟨hlow, -⟩ := inside_of_mem_buffersFrom hbuffer
    exact Set.Ico_disjoint_Ico.mpr (by dsimp only; omega)

theorem FrameAt.serialized {m : Memory} {nb : NetBuffer}
    (hoffset : ∀ mdl ∈ nb.currentMdls.head?,
      nb.currentMdlOffset ≤ mdl.byteCount)
    (h : FrameAt m frame (entryOffset nb.currentMdls.length)
      (pieces nb.currentMdlOffset nb.currentMdls nb.dataLength)) :
    Serialized m frame (frameSize nb.currentMdls) nb := by
  have hcount : m.readInt (frame + 8) 2 = nb.currentMdls.length :=
    h.bufferCount.trans (length_pieces _ _ _)
  have hbuffers := h.readBuffers
  have hspan := totalSpan_pieces_le nb.currentMdls nb.dataLength hoffset
  have hzero : entryOffset 0 = 56 := rfl
  have hentries : entryOffset nb.currentMdls.length =
      56 + sizeofDataBuffer * nb.currentMdls.length := rfl
  have hsize : frameSize nb.currentMdls =
      entryOffset nb.currentMdls.length + totalBytes nb.currentMdls := rfl
  have harray := h.buffers
  refine ⟨hcount, ?_, ?_, ?_, ?_, ?_⟩
  · rw [harray, hcount]
    exact ⟨by omega, by omega⟩
  · intro buffer hbuffer
    rw [hbuffers] at hbuffer
    obtain ⟨hlow, hhigh⟩ := inside_of_mem_buffersFrom hbuffer
    exact ⟨by omega, by omega⟩
  · rw [hbuffers]
    refine .cons ?_ (disjoint_buffersFrom _ _)
    intro region hregion
    obtain ⟨buffer, hbuffer, rfl⟩ := List.mem_map.mp hregion
    obtain ⟨hlow, -⟩ := inside_of_mem_buffersFrom hbuffer
    refine Set.Ico_disjoint_Ico.mpr ?_
    rw [harray, hcount]
    omega
  · intro buffer hbuffer
    rw [hbuffers] at hbuffer
    exact bufferLength_of_mem_buffersFrom hbuffer
  · have hslices : (Fnio.readBuffers frame m).flatMap (FrameBuffer.slice m) =
        (Fnio.readFrame frame m).flatMap Piece.data := by
      rw [Fnio.readBuffers, Fnio.readFrame, List.flatMap_map, List.flatMap_map]
      rfl
    rw [hslices, h.readFrame, flatMap_data_pieces _ _ hoffset]
    rfl

/-! ## The calls -/

section Captured

variable {filter : DataFilter} {index subIndex : ℕ} {nbl : NetBufferList}
  {nb : NetBuffer}

theorem outputSize_eq_frameSize
    (hcount : nb.currentMdls.length ≤ 255)
    (hsize : frameSize nb.currentMdls < 2 ^ 32) :
    ∃ bufferCount size,
      outputSize nb.currentMdls 0 (UInt32.ofNat sizeofDataFrame) =
        .ok (bufferCount, size) ∧
      size.toNat = frameSize nb.currentMdls := by
  have hsizeof : (UInt32.ofNat sizeofDataFrame).toNat = 56 := rfl
  have hframe : frameSize nb.currentMdls =
      56 + 24 * nb.currentMdls.length + totalBytes nb.currentMdls := rfl
  obtain ⟨bufferCount, size, hloop, -, hsize'⟩ :=
    @outputSize_eq_ok nb.currentMdls 0 (UInt32.ofNat sizeofDataFrame)
      (by simpa using hcount) (by omega)
  exact ⟨bufferCount, size, hloop, by omega⟩

theorem fnIoGetFilteredFrame_probe (pool : ContextPool)
    (hnb : fnIoGetFilteredFrameNb filter index subIndex = some (nbl, nb))
    (hcount : nb.currentMdls.length ≤ 255)
    (hsize : frameSize nb.currentMdls < 2 ^ 32)
    (mapped : ℕ → Bool) (systemBuffer : Memory) :
    fnIoGetFilteredFrame pool filter index subIndex
        ⟨0, false, mapped, systemBuffer⟩ =
      some ⟨.bufferOverflow, frameSize nb.currentMdls, systemBuffer⟩ := by
  obtain ⟨_, _, hloop, hsize'⟩ :=
    outputSize_eq_frameSize hcount hsize
  simp [fnIoGetFilteredFrame, hnb, hloop, hsize']

theorem fnIoGetFilteredFrame_short (pool : ContextPool)
    (hnb : fnIoGetFilteredFrameNb filter index subIndex = some (nbl, nb))
    (hcount : nb.currentMdls.length ≤ 255)
    (hsize : frameSize nb.currentMdls < 2 ^ 32) (request : OutputRequest)
    (hpos : 0 < request.outputBufferLength.toNat)
    (hshort : request.outputBufferLength.toNat < frameSize nb.currentMdls) :
    fnIoGetFilteredFrame pool filter index subIndex request =
      some ⟨.bufferTooSmall, 0, request.buffer⟩ := by
  obtain ⟨_, size, hloop, hsize'⟩ :=
    outputSize_eq_frameSize hcount hsize
  have hprobe : request.outputBufferLength ≠ 0 := by
    rintro hzero
    rw [hzero] at hpos
    cases hpos
  have hroom : request.outputBufferLength < size := by
    rw [UInt32.lt_iff_toNat_lt]
    omega
  simp [fnIoGetFilteredFrame, hnb, hloop, hprobe, hroom]

end Captured

theorem irpGetFrame_eq
    {fl : FilterList} {h inputBufferLength index subIndex : ℕ}
    {filter : DataFilter} {request : OutputRequest} {result : OutputResult}
    (hfilter : fl.filter? h = some filter)
    (hinput : FilterList.sizeofDataGetFrameIn ≤ inputBufferLength)
    (hresult : fnIoGetFilteredFrame fl.pool filter index subIndex request =
      some result) :
    fl.irpGetFrame h inputBufferLength index subIndex request =
      (result.status, fl) := by
  rw [FilterList.irpGetFrame, hfilter]
  simp only [hresult, if_neg (Nat.not_lt.mpr hinput)]

/-- A captured net buffer is returned exactly: a probe reports the size of its
frame, a buffer of this size receives it, with all regions inside and apart, and
a shorter buffer is refused.  No get-frame IOCTL changes the filters. -/
theorem captured_frame_serialized
    {fl : FilterList} {h index subIndex : ℕ} {filter : DataFilter}
    {nbl : NetBufferList} {nb : NetBuffer} {context : FilterNblContext}
    (hfilter : fl.filter? h = some filter)
    (hnb : fnIoGetFilteredFrameNb filter index subIndex = some (nbl, nb))
    (hcontext : fnIoFilterNblContext fl.pool nbl = some context)
    (hcount : nb.currentMdls.length ≤ 255)
    (hoffset : ∀ mdl ∈ nb.currentMdls.head?,
      nb.currentMdlOffset ≤ mdl.byteCount)
    (hdata : nb.currentMdlOffset + nb.dataLength ≤ totalBytes nb.currentMdls)
    (hsize : frameSize nb.currentMdls < 2 ^ 32)
    (mapped : ℕ → Bool) (hmapped : ∀ k, mapped k = true)
    (systemBuffer : Memory) (inputBufferLength : ℕ)
    (hinput : FilterList.sizeofDataGetFrameIn ≤ inputBufferLength) :
    (fnIoGetFilteredFrame fl.pool filter index subIndex
          ⟨0, false, mapped, systemBuffer⟩ =
        some ⟨.bufferOverflow, frameSize nb.currentMdls, systemBuffer⟩ ∧
      fl.irpGetFrame h inputBufferLength index subIndex
          ⟨0, false, mapped, systemBuffer⟩ = (.bufferOverflow, fl)) ∧
    (∀ (user : UserFrame) (inputOperation : Bool),
      frameSize nb.currentMdls ≤ user.length.toNat →
      ∃ buffer m, fnIoGetFilteredFrame fl.pool filter index subIndex
            ⟨user.length, inputOperation, mapped, systemBuffer⟩ =
          some ⟨.success, frameSize nb.currentMdls, buffer⟩ ∧
        fl.irpGetFrame h inputBufferLength index subIndex
            ⟨user.length, inputOperation, mapped, systemBuffer⟩ =
          (.success, fl) ∧
        fnMpTxGetFrame fl.pool filter index subIndex inputOperation mapped
            systemBuffer user = some (.success, m) ∧
        Serialized m user.address (frameSize nb.currentMdls) nb) ∧
    (∀ request : OutputRequest, 0 < request.outputBufferLength.toNat →
      request.outputBufferLength.toNat < frameSize nb.currentMdls →
      fnIoGetFilteredFrame fl.pool filter index subIndex request =
          some ⟨.bufferTooSmall, 0, request.buffer⟩ ∧
        fl.irpGetFrame h inputBufferLength index subIndex request =
          (.bufferTooSmall, fl)) ∧
    ∀ (h' inputBufferLength' index' subIndex' : ℕ) (request : OutputRequest),
      (fl.irpGetFrame h' inputBufferLength' index' subIndex' request).2.handles =
        fl.handles := by
  have hprobe := fnIoGetFilteredFrame_probe fl.pool hnb hcount hsize mapped
    systemBuffer
  refine ⟨⟨hprobe, irpGetFrame_eq hfilter hinput hprobe⟩, ?_, ?_, ?_⟩
  · intro user inputOperation hlarge
    have hlength : nb.dataLength < 2 ^ 32 := by
      unfold frameSize at hsize
      omega
    obtain ⟨buffer, hcall, -⟩ := fnIoGetFilteredFrame_laid hnb hcontext hcount
      hoffset hlength ⟨user.length, inputOperation, mapped, systemBuffer⟩
      hlarge (fun k _ => hmapped k)
    obtain ⟨m, hget, hframe⟩ := getFrame_frameAt hnb hcontext hcount hoffset
      hlength inputOperation systemBuffer user hlarge (fun k _ => hmapped k)
    exact ⟨buffer, m, hcall, irpGetFrame_eq hfilter hinput hcall, hget,
      hframe.serialized hoffset⟩
  · intro request hpos hshort
    have hcall := fnIoGetFilteredFrame_short fl.pool hnb hcount hsize request
      hpos hshort
    exact ⟨hcall, irpGetFrame_eq hfilter hinput hcall⟩
  · intro h' inputBufferLength' index' subIndex' request
    obtain ⟨_, heq⟩ := fl.irpGetFrame_cases h' inputBufferLength' index'
      subIndex' request
    rw [heq]

def fragmentedNb : NetBuffer where
  passedMdls := []
  currentMdls := [⟨[1, 2, 3]⟩, ⟨[4, 5]⟩]
  currentMdlOffset := 1
  dataLength := 3

def fragmentedNbl : NetBufferList where
  id := 0
  firstNb := fragmentedNb
  nextNbs := []
  info := ⟨0, 0, 0, 0, 0, 0⟩
  scratch := some ⟨0, ⟨0, 0⟩, 0⟩

def fragmentedFilter : DataFilter :=
  { matchAll with
    nblQueue := ⟨[fragmentedNbl], 1, List.length_singleton.symm⟩
    captured := [0] }

def fragmentedFilters : FilterList where
  handles := (∅ : Table ℕ (Option DataFilter)).insert 0 (some fragmentedFilter)
  links := [0]
  pool := ⟨1, [], false⟩
  nullFilter := false

theorem captured_frame_serialized_fragmented :
    fnIoGetFilteredFrame fragmentedFilters.pool fragmentedFilter 0 0
        ⟨0, false, fun _ => true, fun _ => 0xff⟩ =
      some ⟨.bufferOverflow, 109, fun _ => 0xff⟩ ∧
    ∃ m, fnMpTxGetFrame fragmentedFilters.pool fragmentedFilter 0 0 false
          (fun _ => true) (fun _ => 0xff) ⟨4096, 200, fun _ => 0, by decide⟩ =
        some (.success, m) ∧
      Serialized m 4096 109 fragmentedNb := by
  have hfilter : fragmentedFilters.filter? 0 = some fragmentedFilter := rfl
  have hnb : fnIoGetFilteredFrameNb fragmentedFilter 0 0 =
      some (fragmentedNbl, fragmentedNb) := by decide
  have hcontext : fnIoFilterNblContext fragmentedFilters.pool fragmentedNbl =
      some ⟨0, ⟨0, 0⟩, 0⟩ := by decide
  obtain ⟨hprobe, hlarge, -⟩ := captured_frame_serialized hfilter hnb hcontext
    (by decide) (by decide) (by decide) (by decide) (fun _ => true)
    (fun _ => rfl) (fun _ => 0xff) 8 (by decide)
  obtain ⟨_, m, -, -, hget, hserialized⟩ :=
    hlarge ⟨4096, 200, fun _ => 0, by decide⟩ false (by decide)
  exact ⟨hprobe.1, m, hget, hserialized⟩

end WinNetTest.Fnio
