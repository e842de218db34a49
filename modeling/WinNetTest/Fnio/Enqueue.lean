import Mathlib.Data.List.Forall2
import WinNetTest.Fnio.Filter

/-!
# Building a frame

`FnIoEnqueueFrameBegin` (`enqueue.c`) copies the caller's buffers into kernel
memory and builds a net buffer from them, back to front.  NDIS is assumed to
prepend one MDL of exactly the requested size when the data start is moved
back and no room is left, and to move the data start forward by the given
amount.
-/

namespace WinNetTest.Fnio

/-- `sizeof(DATA_FLUSH_IN)`. -/
def sizeofDataFlushIn : ℕ := 8

/-! ## Moving the data start -/

namespace NetBuffer

/-- A net buffer without MDLs, as `NdisAllocateNetBufferAndNetBufferList`
returns it. -/
def empty : NetBuffer := ⟨[], [], 0, 0⟩

/-- `NdisRetreatNetBufferDataStart` without room in front of the data: one MDL
is prepended, with the bytes the caller writes to it. -/
def retreatDataStart (nb : NetBuffer) (bytes : List UInt8) : NetBuffer :=
  { passedMdls := []
    currentMdls := ⟨bytes⟩ :: nb.currentMdls
    currentMdlOffset := 0
    dataLength := nb.dataLength + bytes.length }

def settleOffset :
    (passed current : List Mdl) → (offset : ℕ) → List Mdl × List Mdl × ℕ
  | passed, [], offset => (passed, [], offset)
  | passed, mdl :: rest, offset =>
    if offset < mdl.byteCount then (passed, mdl :: rest, offset)
    else settleOffset (mdl :: passed) rest (offset - mdl.byteCount)

/-- `NdisAdvanceNetBufferDataStart` without freeing MDLs. -/
def advanceDataStart (nb : NetBuffer) (delta : ℕ) : NetBuffer :=
  let (passed, current, offset) :=
    settleOffset nb.passedMdls nb.currentMdls (nb.currentMdlOffset + delta)
  { passedMdls := passed
    currentMdls := current
    currentMdlOffset := offset
    dataLength := nb.dataLength - delta }

theorem advanceDataStart_inside
    {mdl : Mdl} (rest : List Mdl) (dataLength : ℕ) {delta : ℕ}
    (h : delta < mdl.byteCount) :
    advanceDataStart ⟨[], mdl :: rest, 0, dataLength⟩ delta =
      ⟨[], mdl :: rest, delta, dataLength - delta⟩ := by
  simp [advanceDataStart, settleOffset, h]

def shorten (nb : NetBuffer) (bytes : ℕ) : NetBuffer :=
  { nb with dataLength := nb.dataLength - bytes }

end NetBuffer

/-! ## The caller's buffers -/

/-- A `DATA_BUFFER` of the caller, with what reading its memory meets. -/
structure DataBuffer where
  virtualAddress : UserRead
  dataOffset : UInt32
  dataLength : UInt32
  bufferLength : UInt32

/-- A `DATA_BUFFER` in kernel memory with its contents. -/
structure BouncedBuffer where
  bytes : List UInt8
  dataOffset : UInt32
  dataLength : UInt32
  bufferLength : UInt32
  length_bytes : bytes.length = bufferLength.toNat
  bufferLength_pos : 0 < bufferLength.toNat
  data_le : dataOffset.toNat + dataLength.toNat ≤ bufferLength.toNat

/-- The input of an enqueue IOCTL: the length of the system buffer,
`BufferCount`, the caller's array, and which allocations and mappings succeed.
-/
structure EnqueueRequest where
  inputBufferLength : ℕ
  bufferCount : UInt16
  arrayAllocated : Bool
  buffers : Option (ℕ → DataBuffer)
  nblAllocated : Bool
  retreated : ℕ → Bool
  mapped : ℕ → Bool

def sizeofDataEnqueueIn : ℕ := 56

/-- A request whose allocations and mappings succeed. -/
def EnqueueRequest.granted (bufferCount : UInt16) (buffers : ℕ → DataBuffer) :
    EnqueueRequest where
  inputBufferLength := sizeofDataEnqueueIn
  bufferCount := bufferCount
  arrayAllocated := true
  buffers := some buffers
  nblAllocated := true
  retreated := fun _ => true
  mapped := fun _ => true

/-- One round of the loop of `FnIoIoctlBounceEnqueue`. -/
def bounceDataBuffer (buffer : DataBuffer) : Except NtStatus BouncedBuffer :=
  if hpos : buffer.bufferLength.toNat = 0 then .error .invalidParameter
  else if 2 ^ 32 ≤ buffer.dataOffset.toNat + buffer.dataLength.toNat then
    .error .integerOverflow
  else if hdata : buffer.bufferLength.toNat <
      buffer.dataOffset.toNat + buffer.dataLength.toNat then
    .error .invalidParameter
  else
    match hbytes :
      bounceBuffer buffer.virtualAddress buffer.bufferLength.toNat with
    | .error status => .error status
    | .ok bytes =>
      .ok
        { bytes
          dataOffset := buffer.dataOffset
          dataLength := buffer.dataLength
          bufferLength := buffer.bufferLength
          length_bytes := bounceBuffer_length hbytes
          bufferLength_pos := Nat.pos_of_ne_zero hpos
          data_le := Nat.le_of_not_lt hdata }

/-- The loop of `FnIoIoctlBounceEnqueue`. -/
def bounceDataBuffers : List DataBuffer → Except NtStatus (List BouncedBuffer)
  | [] => .ok []
  | buffer :: rest =>
    match bounceDataBuffer buffer with
    | .error status => .error status
    | .ok bounced =>
      match bounceDataBuffers rest with
      | .error status => .error status
      | .ok rest => .ok (bounced :: rest)

/-- `FnIoIoctlBounceEnqueue`.  The result is the bounced array. -/
def fnIoIoctlBounceEnqueue (request : EnqueueRequest) :
    Except NtStatus (List BouncedBuffer) :=
  if request.inputBufferLength < sizeofDataEnqueueIn then
    .error .bufferTooSmall
  else if request.bufferCount = 0 then .error .invalidParameter
  else if !request.arrayAllocated then .error .noMemory
  else
    match request.buffers with
    | none => .error .accessViolation
    | some buffers =>
      bounceDataBuffers ((List.range request.bufferCount.toNat).map buffers)

/-! ## The net buffer -/

/-- One round of the loop of `FnIoEnqueueFrameBegin`: the net buffer built so
far and `TrailingMdlBytes`. -/
def enqueueBuffer (request : EnqueueRequest) (bufferCount bufferIndex : ℕ)
    (buffer : BouncedBuffer) (built : NetBuffer × ℕ) :
    Except NtStatus (NetBuffer × ℕ) :=
  if 0 < buffer.dataOffset.toNat ∧ 0 < bufferIndex then
    .error .invalidParameter
  else if buffer.dataOffset.toNat + buffer.dataLength.toNat <
      buffer.bufferLength.toNat ∧ bufferIndex + 1 < bufferCount then
    .error .invalidParameter
  else if !request.retreated bufferIndex then .error .noMemory
  else if !request.mapped bufferIndex then .error .noMemory
  else
    let nb := built.1.retreatDataStart buffer.bytes
    let trailing := buffer.bufferLength.toNat - buffer.dataLength.toNat -
      buffer.dataOffset.toNat
    let built :=
      if bufferIndex + 1 = bufferCount then (nb.shorten trailing, trailing)
      else (nb, built.2)
    if bufferIndex = 0 then
      .ok (built.1.advanceDataStart buffer.dataOffset.toNat, built.2)
    else .ok built

/-- The loop of `FnIoEnqueueFrameBegin` over the buffers from `bufferIndex`
on.  The last buffer is handled first. -/
def enqueueLoop (request : EnqueueRequest) (bufferCount : ℕ) :
    (bufferIndex : ℕ) → List BouncedBuffer → Except NtStatus (NetBuffer × ℕ)
  | _, [] => .ok (.empty, 0)
  | bufferIndex, buffer :: rest =>
    match enqueueLoop request bufferCount (bufferIndex + 1) rest with
    | .error status => .error status
    | .ok built => enqueueBuffer request bufferCount bufferIndex buffer built

/-- What a successful `FnIoEnqueueFrameBegin` leaves: the bounced frame, the net
buffer, and `TrailingMdlBytes`. -/
structure EnqueuedFrame where
  buffers : List BouncedBuffer
  netBuffer : NetBuffer
  trailingMdlBytes : ℕ

def fnIoEnqueueFrameBegin (request : EnqueueRequest) :
    Except NtStatus EnqueuedFrame :=
  match fnIoIoctlBounceEnqueue request with
  | .error status => .error status
  | .ok buffers =>
    if !request.nblAllocated then .error .noMemory
    else
      match enqueueLoop request buffers.length 0 buffers with
      | .error status => .error status
      | .ok (netBuffer, trailingMdlBytes) =>
        .ok ⟨buffers, netBuffer, trailingMdlBytes⟩

/-- Whether the call allocates a net buffer list, which it returns itself if it
fails afterwards. -/
def EnqueueRequest.allocatesNbl (request : EnqueueRequest) : Bool :=
  match fnIoIoctlBounceEnqueue request with
  | .error _ => false
  | .ok _ => request.nblAllocated

/-! ## What a successful call has built -/

namespace BouncedBuffer

def mdl (buffer : BouncedBuffer) : Mdl := ⟨buffer.bytes⟩

def data (buffer : BouncedBuffer) : List UInt8 :=
  (buffer.bytes.drop buffer.dataOffset.toNat).take buffer.dataLength.toNat

def Full (buffer : BouncedBuffer) : Prop :=
  buffer.dataOffset.toNat + buffer.dataLength.toNat = buffer.bufferLength.toNat

theorem length_data (buffer : BouncedBuffer) :
    buffer.data.length = buffer.dataLength.toNat := by
  have hlength := buffer.length_bytes
  have hdata := buffer.data_le
  rw [data, List.length_take, List.length_drop]
  omega

@[simp] theorem byteCount_mdl (buffer : BouncedBuffer) :
    buffer.mdl.byteCount = buffer.bufferLength.toNat :=
  buffer.length_bytes

end BouncedBuffer

def dataBytes (buffers : List BouncedBuffer) : ℕ :=
  (buffers.map fun buffer => buffer.dataLength.toNat).sum

theorem dataBytes_cons (buffer : BouncedBuffer) (rest : List BouncedBuffer) :
    dataBytes (buffer :: rest) = buffer.dataLength.toNat + dataBytes rest := by
  simp [dataBytes]

variable {request : EnqueueRequest} {bufferCount bufferIndex trailing : ℕ}
variable {buffer : BouncedBuffer}

theorem enqueueBuffer_eq_ok {built built' : NetBuffer × ℕ}
    (h : enqueueBuffer request bufferCount bufferIndex buffer built =
      .ok built') :
    (bufferIndex = 0 ∨ buffer.dataOffset.toNat = 0) ∧
      (bufferIndex + 1 < bufferCount → buffer.Full) ∧
      built' = let nb := built.1.retreatDataStart buffer.bytes
        let trailing := buffer.bufferLength.toNat - buffer.dataLength.toNat -
          buffer.dataOffset.toNat
        let built :=
          if bufferIndex + 1 = bufferCount then (nb.shorten trailing, trailing)
          else (nb, built.2)
        if bufferIndex = 0 then
          (built.1.advanceDataStart buffer.dataOffset.toNat, built.2)
        else built := by
  have hdata := buffer.data_le
  unfold enqueueBuffer at h
  split at h
  · cases h
  · next hoffset =>
      split at h
      · cases h
      · next htrailer =>
          split at h
          · cases h
          · split at h
            · cases h
            · refine ⟨by omega, fun hlast => ?_, ?_⟩
              · unfold BouncedBuffer.Full
                omega
              · simp only at h ⊢
                split at h <;> cases h <;> simp_all

theorem enqueueLoop_behind (buffers : List BouncedBuffer) {nb : NetBuffer}
    (hindex : 0 < bufferIndex)
    (hcount : bufferIndex + buffers.length = bufferCount)
    (h : enqueueLoop request bufferCount bufferIndex buffers =
      .ok (nb, trailing)) :
    nb = ⟨[], buffers.map BouncedBuffer.mdl, 0, dataBytes buffers⟩ ∧
      (∀ buffer ∈ buffers, buffer.dataOffset.toNat = 0) ∧
      ∀ buffer ∈ buffers.dropLast, buffer.Full := by
  induction buffers generalizing bufferIndex nb trailing with
  | nil =>
    cases h
    exact ⟨rfl, by simp, by simp⟩
  | cons buffer rest ih =>
    rw [enqueueLoop] at h
    split at h
    · cases h
    · next built hrest =>
        rw [List.length_cons] at hcount
        obtain ⟨hnb, hzero, hfull⟩ :=
          ih (by omega) (by omega) hrest
        obtain ⟨hoffset, hlast, hbuilt⟩ := enqueueBuffer_eq_ok h
        have hoffset' : buffer.dataOffset.toNat = 0 := by omega
        have hdata := buffer.data_le
        have hlength := buffer.length_bytes
        refine ⟨?_, ?_, ?_⟩
        · simp only [if_neg (Nat.ne_of_gt hindex)] at hbuilt
          cases rest with
          | nil =>
            rw [if_pos (by simpa using hcount)] at hbuilt
            obtain ⟨rfl, rfl⟩ := Prod.mk.inj hbuilt
            simp only [hnb, NetBuffer.retreatDataStart, NetBuffer.shorten,
              List.map_cons, List.map_nil, BouncedBuffer.mdl, dataBytes,
              List.sum_cons, List.sum_nil, hlength, NetBuffer.mk.injEq,
              true_and]
            omega
          | cons next tail =>
            rw [List.length_cons] at hcount
            have hfirst := hlast (by omega)
            unfold BouncedBuffer.Full at hfirst
            rw [if_neg (by omega)] at hbuilt
            obtain ⟨rfl, rfl⟩ := Prod.mk.inj hbuilt
            rw [hnb, dataBytes_cons buffer]
            simp only [NetBuffer.retreatDataStart, List.map_cons,
              BouncedBuffer.mdl, hlength, NetBuffer.mk.injEq, true_and]
            omega
        · simp only [List.mem_cons, forall_eq_or_imp]
          exact ⟨hoffset', hzero⟩
        · cases rest with
          | nil => simp
          | cons next tail =>
            rw [List.length_cons] at hcount
            simp only [List.dropLast_cons_cons, List.mem_cons, forall_eq_or_imp]
            exact ⟨hlast (by omega), hfull⟩

theorem enqueueLoop_eq_ok {rest : List BouncedBuffer} {nb : NetBuffer}
    (hfirst : buffer.dataOffset.toNat < buffer.bufferLength.toNat)
    (h : enqueueLoop request (buffer :: rest).length 0 (buffer :: rest) =
      .ok (nb, trailing)) : nb = ⟨[], (buffer :: rest).map BouncedBuffer.mdl,
        buffer.dataOffset.toNat, dataBytes (buffer :: rest)⟩ ∧
      (∀ next ∈ rest, next.dataOffset.toNat = 0) ∧
      ∀ next ∈ (buffer :: rest).dropLast, next.Full := by
  rw [enqueueLoop] at h
  split at h
  · cases h
  · next built hrest =>
      obtain ⟨hbuilt, hzero, hfull⟩ :=
        enqueueLoop_behind rest (by omega)
          (by rw [List.length_cons]; omega) hrest
      obtain ⟨-, hlast, hnb⟩ := enqueueBuffer_eq_ok h
      have hdata := buffer.data_le
      have hlength := buffer.length_bytes
      have hinside : buffer.dataOffset.toNat < buffer.mdl.byteCount :=
        buffer.byteCount_mdl ▸ hfirst
      simp only [if_pos trivial, Nat.zero_add] at hnb
      cases rest with
      | nil =>
        rw [if_pos (by simp)] at hnb
        obtain ⟨rfl, -⟩ := Prod.mk.inj hnb
        refine ⟨?_, by simp, by simp⟩
        simp only [hbuilt, NetBuffer.retreatDataStart, NetBuffer.shorten,
          List.map_nil, List.map_cons]
        refine (NetBuffer.advanceDataStart_inside _ _ hinside).trans ?_
        simp only [BouncedBuffer.mdl, NetBuffer.mk.injEq, true_and,
          dataBytes, List.map_cons, List.map_nil, List.sum_cons,
          List.sum_nil, hlength]
        omega
      | cons next tail =>
        have hwhole := hlast (by simp)
        rw [if_neg (by simp)] at hnb
        obtain ⟨rfl, -⟩ := Prod.mk.inj hnb
        refine ⟨?_, hzero, ?_⟩
        · simp only [hbuilt, NetBuffer.retreatDataStart]
          refine (NetBuffer.advanceDataStart_inside _ _ hinside).trans ?_
          unfold BouncedBuffer.Full at hwhole
          rw [dataBytes_cons buffer]
          simp only [List.map_cons, BouncedBuffer.mdl, NetBuffer.mk.injEq,
            true_and, hlength]
          omega
        · simp only [List.dropLast_cons_cons, List.mem_cons, forall_eq_or_imp]
          exact ⟨hwhole, hfull⟩

/-! ## The bounced copy -/

/-- The kernel's copy of a buffer: the same fields, and the contents of the
caller's memory. -/
def Copies (buffer : DataBuffer) (bounced : BouncedBuffer) : Prop :=
  bounced.dataOffset = buffer.dataOffset ∧
    bounced.dataLength = buffer.dataLength ∧
    bounced.bufferLength = buffer.bufferLength ∧
    ∃ byte, buffer.virtualAddress.contents = some byte ∧
      bounced.bytes = (List.range buffer.bufferLength.toNat).map byte

theorem bounceDataBuffer_eq_ok
    {buffer : DataBuffer} {bounced : BouncedBuffer}
    (h : bounceDataBuffer buffer = .ok bounced) : Copies buffer bounced := by
  unfold bounceDataBuffer at h
  split at h
  · cases h
  · next hpos =>
      split at h
      · cases h
      · split at h
        · cases h
        · split at h
          · cases h
          · next bytes hbytes =>
              cases h
              refine ⟨rfl, rfl, rfl, ?_⟩
              unfold bounceBuffer at hbytes
              rw [if_neg hpos] at hbytes
              split at hbytes
              · cases hbytes
              · split at hbytes
                · cases hbytes
                · next byte hbyte =>
                    cases hbytes
                    exact ⟨byte, hbyte, rfl⟩

theorem bounceDataBuffers_eq_ok
    {buffers : List DataBuffer} {bounced : List BouncedBuffer}
    (h : bounceDataBuffers buffers = .ok bounced) :
    List.Forall₂ Copies buffers bounced := by
  induction buffers generalizing bounced with
  | nil =>
    cases h
    exact .nil
  | cons buffer rest ih =>
    rw [bounceDataBuffers] at h
    split at h
    · cases h
    · next first hfirst =>
        split at h
        · cases h
        · next tail htail =>
            cases h
            exact .cons (bounceDataBuffer_eq_ok hfirst) (ih htail)

theorem fnIoEnqueueFrameBegin_eq_ok {frame : EnqueuedFrame}
    {buffers : ℕ → DataBuffer} (hbuffers : request.buffers = some buffers)
    (h : fnIoEnqueueFrameBegin request = .ok frame) :
    request.bufferCount ≠ 0 ∧ List.Forall₂ Copies
        ((List.range request.bufferCount.toNat).map buffers) frame.buffers ∧
      enqueueLoop request frame.buffers.length 0 frame.buffers =
        .ok (frame.netBuffer, frame.trailingMdlBytes) := by
  unfold fnIoEnqueueFrameBegin at h
  split at h
  · cases h
  · next bounced hbounce =>
      split at h
      · cases h
      · split at h
        · cases h
        · next hloop =>
            cases h
            unfold fnIoIoctlBounceEnqueue at hbounce
            rw [hbuffers] at hbounce
            split at hbounce
            · cases hbounce
            · split at hbounce
              · cases hbounce
              · next hcount =>
                  split at hbounce
                  · cases hbounce
                  · exact ⟨hcount, bounceDataBuffers_eq_ok hbounce, hloop⟩

end WinNetTest.Fnio
