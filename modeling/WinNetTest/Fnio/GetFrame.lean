import WinNetTest.Fnio.Filter
import WinNetTest.Support.Memory

/-!
# Returning a captured frame

`FnIoGetFilteredFrame` copies one captured net buffer into the output buffer
of the IOCTL: a `DATA_FRAME`, an array of `DATA_BUFFER`s, one for each MDL,
and the data.  Pointers are stored as offsets from the start of the buffer.
The structures have the layout of the 64-bit build.
-/

namespace WinNetTest.Fnio

open Support

def sizeofDataFrame : ℕ := 56

def sizeofDataBuffer : ℕ := 24

/-- The output side of a get-frame IOCTL: the length of the output buffer,
`IRP_INPUT_OPERATION`, which MDLs can be mapped, and the system buffer. -/
structure OutputRequest where
  outputBufferLength : UInt32
  inputOperation : Bool
  mapped : ℕ → Bool
  buffer : Memory

/-- The status, `IoStatus.Information` and the system buffer afterwards. -/
structure OutputResult where
  status : NtStatus
  bytesReturned : ℕ
  buffer : Memory

/-- The first loop of `FnIoGetFilteredFrame`: the number of MDLs, as a
`UINT8`, and the size of the output, as a `UINT32`. -/
def outputSize : List Mdl → UInt8 → UInt32 → Except NtStatus (UInt8 × UInt32)
  | [], bufferCount, size => .ok (bufferCount, size)
  | mdl :: rest, bufferCount, size =>
    if bufferCount = 255 then .error .integerOverflow
    else
      outputSize rest (bufferCount + 1)
        (size + UInt32.ofNat sizeofDataBuffer + UInt32.ofNat mdl.byteCount)

/-- Write entry `index` of the `DATA_BUFFER` array. -/
def writeDataBuffer (m : Memory) (index : ℕ)
    (dataOffset dataLength bufferLength : UInt32) (virtualAddress : ℕ) :
    Memory :=
  let entry := sizeofDataFrame + sizeofDataBuffer * index
  (((m.writeInt (entry + 8) 4 dataOffset.toNat).writeInt
    (entry + 12) 4 dataLength.toNat).writeInt
      (entry + 16) 4 bufferLength.toNat).writeInt entry 8 virtualAddress

/-- The second loop of `FnIoGetFilteredFrame`, for `count` more buffers from
`index` on, with `dataBytes` bytes left. -/
def copyMdls (netBuffer : NetBuffer) (mapped : ℕ → Bool) :
    (count index : ℕ) → List Mdl → (data : ℕ) → (dataBytes : UInt32) →
      Memory → NtStatus × Memory
  | 0, _, _, _, _, m => (.success, m)
  | _ + 1, _, [], _, _, m => (.unsuccessful, m)
  | count + 1, index, mdl :: rest, data, dataBytes, m =>
    if !mapped index then (.insufficientResources, m)
    else
      let dataOffset : UInt32 :=
        if index = 0 then UInt32.ofNat netBuffer.currentMdlOffset else 0
      let dataLength : UInt32 :=
        min (UInt32.ofNat mdl.byteCount - dataOffset) dataBytes
      let m := m.write (data + dataOffset.toNat)
        ((mdl.bytes.drop dataOffset.toNat).take dataLength.toNat)
      let m := writeDataBuffer m index dataOffset dataLength
        (dataOffset + dataLength) data
      copyMdls netBuffer mapped count (index + 1) rest
        (data + dataOffset.toNat + dataLength.toNat)
        (dataBytes - dataLength) m

/-- The fields of the `DATA_FRAME` that `FnIoGetFilteredFrame` sets. -/
def writeDataFrame (m : Memory) (context : FilterNblContext) (info : NblInfo)
    (bufferCount : UInt8) : Memory :=
  let m := m.writeInt 16 2 context.processorNumber.group.toNat
  let m := m.writeInt 18 1 context.processorNumber.number.toNat
  let m := m.writeInt 19 1 0
  let m := m.writeInt 20 4 info.hashValue.toNat
  let m := m.writeInt 24 8 info.tcpIpChecksum.toNat
  let m := m.writeInt 32 8 info.tcpLargeSend.toNat
  let m := m.writeInt 40 8 info.udpSegmentation.toNat
  let m := m.writeInt 8 2 bufferCount.toNat
  m.writeInt 0 8 sizeofDataFrame

/-- `FnIoGetFilteredFrame`; `none` where the NBL's context does not exist. -/
def fnIoGetFilteredFrame (pool : ContextPool) (filter : DataFilter)
    (index subIndex : ℕ) (request : OutputRequest) : Option OutputResult :=
  let failed (status : NtStatus) : OutputResult := ⟨status, 0, request.buffer⟩
  match fnIoGetFilteredFrameNb filter index subIndex with
  | none => some (failed .notFound)
  | some (nbl, netBuffer) =>
    match outputSize netBuffer.currentMdls 0
      (UInt32.ofNat sizeofDataFrame) with
    | .error status => some (failed status)
    | .ok (bufferCount, size) =>
      if request.outputBufferLength = 0 && !request.inputOperation then
        some ⟨.bufferOverflow, size.toNat, request.buffer⟩
      else if request.outputBufferLength < size then
        some (failed .bufferTooSmall)
      else
        match fnIoFilterNblContext pool nbl with
        | none => none
        | some context =>
          let m := writeDataFrame request.buffer context nbl.info
            bufferCount
          let (status, m) :=
            copyMdls netBuffer request.mapped bufferCount.toNat 0
              netBuffer.currentMdls
              (sizeofDataFrame + sizeofDataBuffer * bufferCount.toNat)
              (UInt32.ofNat netBuffer.dataLength) m
          some ⟨status, if status = .success then size.toNat else 0, m⟩

theorem fnIoGetFilteredFrame_isSome
    {pool : ContextPool} {filter : DataFilter}
    (hcontexts : ∀ nbl ∈ filter.nblQueue.chain,
      (fnIoFilterNblContext pool nbl).isSome)
    (index subIndex : ℕ) (request : OutputRequest) :
    (fnIoGetFilteredFrame pool filter index subIndex request).isSome := by
  unfold fnIoGetFilteredFrame
  simp only
  split
  · rfl
  · rename_i nbl netBuffer hframe
    obtain ⟨hmem, -⟩ := mem_of_fnIoGetFilteredFrameNb hframe
    obtain ⟨_, hcontext⟩ :=
      Option.isSome_iff_exists.mp (hcontexts nbl hmem)
    split
    · rfl
    · split
      · rfl
      · split
        · rfl
        · simp [hcontext]

end WinNetTest.Fnio
