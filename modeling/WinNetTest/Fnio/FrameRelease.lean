import WinNetTest.Fnio.RoundTrip

/-!
# Building and releasing a frame

`FnIoEnqueueFrameBegin` builds a net buffer back to front and stops at the
first buffer that is refused or for which NDIS has no memory.  Whatever has
been built by then, `FnIoEnqueueFrameReturn` gives it back: it takes the data
start to the beginning of the MDL chain and advances it over all data.

NDIS is assumed to prepend an MDL when the data start is moved back beyond the
beginning of the chain, to reuse the space in front of the data otherwise, and
to free the MDLs that an advance has fully passed, if it is asked to.  The
data length of a net buffer is a `ULONG`.
-/

namespace WinNetTest.Fnio

/-! ## The net buffer and its MDLs -/

structure PoolMdl where
  id : ℕ
  bytes : List UInt8
  deriving DecidableEq

/-- The net buffer of an NBL and its `ENQUEUE_NBL_CONTEXT`, with the number of
MDLs allocated for it and those freed. -/
structure BuiltNbl where
  mdlChain : List PoolMdl
  dataOffset : ℕ
  dataLength : UInt32
  trailingMdlBytes : UInt32
  allocated : ℕ
  freed : List ℕ
  deriving DecidableEq

def freePassedMdls : List PoolMdl → (offset : ℕ) → List PoolMdl × ℕ × List ℕ
  | [], offset => ([], offset, [])
  | mdl :: rest, offset =>
    if mdl.bytes.length ≤ offset then
      let (chain, offset, freed) :=
        freePassedMdls rest (offset - mdl.bytes.length)
      (chain, offset, mdl.id :: freed)
    else (mdl :: rest, offset, [])

namespace BuiltNbl

/-- `NdisAllocateNetBufferAndNetBufferList` and the zeroed context. -/
def allocate : BuiltNbl := ⟨[], 0, 0, 0, 0, []⟩

def retreatDataStart (s : BuiltNbl) (delta : UInt32) : BuiltNbl :=
  if delta.toNat ≤ s.dataOffset then
    { s with
      dataOffset := s.dataOffset - delta.toNat
      dataLength := s.dataLength + delta }
  else
    { s with
      mdlChain :=
        ⟨s.allocated, List.replicate (delta.toNat - s.dataOffset) 0⟩ ::
          s.mdlChain
      dataOffset := 0
      dataLength := s.dataLength + delta
      allocated := s.allocated + 1 }

def advanceDataStart (s : BuiltNbl) (delta : UInt32) (freeMdl : Bool) :
    BuiltNbl :=
  let s :=
    { s with
      dataOffset := s.dataOffset + delta.toNat
      dataLength := s.dataLength - delta }
  if freeMdl then
    let (mdlChain, dataOffset, freed) :=
      freePassedMdls s.mdlChain s.dataOffset
    { s with
      mdlChain := mdlChain
      dataOffset := dataOffset
      freed := s.freed ++ freed }
  else s

def copyToMdl (s : BuiltNbl) (bytes : List UInt8) : BuiltNbl :=
  match s.mdlChain with
  | [] => s
  | mdl :: rest =>
    { s with
      mdlChain :=
        { mdl with bytes := bytes ++ mdl.bytes.drop bytes.length } :: rest }

def byteCount (s : BuiltNbl) : ℕ :=
  (s.mdlChain.map fun mdl => mdl.bytes.length).sum

def data (s : BuiltNbl) : List UInt8 :=
  ((s.mdlChain.flatMap PoolMdl.bytes).drop s.dataOffset).take
    s.dataLength.toNat

/-- `FnIoEnqueueFrameReturn` up to the final advance. -/
def restoreDataStart (s : BuiltNbl) : BuiltNbl :=
  let s := { s with dataLength := s.dataLength + s.trailingMdlBytes }
  s.retreatDataStart (UInt32.ofNat s.dataOffset)

def fnIoEnqueueFrameReturn (s : BuiltNbl) : BuiltNbl :=
  s.restoreDataStart.advanceDataStart s.restoreDataStart.dataLength true

/-- A round of the loop of `FnIoEnqueueFrameBegin` whose MDL has been allocated
and mapped: fill it, and cut off the trailing bytes of the last buffer and the
leading bytes of the first. -/
def placeBuffer (bufferCount bufferIndex : ℕ) (buffer : BouncedBuffer)
    (s : BuiltNbl) : BuiltNbl :=
  let s := s.copyToMdl buffer.bytes
  let trailing := buffer.bufferLength - buffer.dataLength - buffer.dataOffset
  let s :=
    if bufferIndex + 1 = bufferCount then
      { s with
        trailingMdlBytes := trailing
        dataLength := s.dataLength - trailing }
    else s
  if bufferIndex = 0 then s.advanceDataStart buffer.dataOffset false else s

/-- One round of the loop of `FnIoEnqueueFrameBegin`. -/
def buildRound (request : EnqueueRequest) (bufferCount bufferIndex : ℕ)
    (buffer : BouncedBuffer) (s : BuiltNbl) : NtStatus × BuiltNbl :=
  if 0 < buffer.dataOffset.toNat ∧ 0 < bufferIndex then (.invalidParameter, s)
  else if buffer.dataOffset.toNat + buffer.dataLength.toNat <
      buffer.bufferLength.toNat ∧ bufferIndex + 1 < bufferCount then
    (.invalidParameter, s)
  else if !request.retreated bufferIndex then (.noMemory, s)
  else
    let s := s.retreatDataStart buffer.bufferLength
    if !request.mapped bufferIndex then (.noMemory, s)
    else (.success, placeBuffer bufferCount bufferIndex buffer s)

/-- The loop of `FnIoEnqueueFrameBegin` over the buffers from `bufferIndex`
on.  The last buffer is handled first. -/
def buildLoop (request : EnqueueRequest) (bufferCount : ℕ) :
    (bufferIndex : ℕ) → List BouncedBuffer → NtStatus × BuiltNbl
  | _, [] => (.success, allocate)
  | bufferIndex, buffer :: rest =>
    match buildLoop request bufferCount (bufferIndex + 1) rest with
    | (.success, s) => buildRound request bufferCount bufferIndex buffer s
    | (status, s) => (status, s)

/-! ## What is to be released -/

/-- The chain consists of the MDLs allocated and not freed; the data and the
bytes around it are those of the chain, modulo `2 ^ 32`. -/
structure Consistent (s : BuiltNbl) : Prop where
  ids : s.mdlChain.map PoolMdl.id = (List.range s.allocated).reverse
  freed : s.freed = []
  nonempty : ∀ mdl ∈ s.mdlChain, 0 < mdl.bytes.length
  offset_le : s.dataOffset ≤ s.byteCount
  offset_lt : s.dataOffset < 2 ^ 32
  extent : (s.dataLength.toNat + s.trailingMdlBytes.toNat + s.dataOffset) %
    2 ^ 32 = s.byteCount % 2 ^ 32

theorem consistent_allocate : allocate.Consistent :=
  ⟨rfl, rfl, by simp [allocate], Nat.zero_le _, by decide, rfl⟩

theorem trailingMdlBytes_retreatDataStart (s : BuiltNbl) (delta : UInt32) :
    (s.retreatDataStart delta).trailingMdlBytes = s.trailingMdlBytes := by
  unfold retreatDataStart
  split <;> rfl

theorem dataLength_retreatDataStart (s : BuiltNbl) (delta : UInt32) :
    (s.retreatDataStart delta).dataLength = s.dataLength + delta := by
  unfold retreatDataStart
  split <;> rfl

variable {s : BuiltNbl} {buffer : BouncedBuffer} {bufferCount bufferIndex : ℕ}
    {request : EnqueueRequest}

theorem Consistent.retreat (h : s.Consistent) (hzero : s.dataOffset = 0)
    {delta : UInt32} (hdelta : 0 < delta.toNat) :
    (s.retreatDataStart delta).Consistent ∧
      (s.retreatDataStart delta).dataOffset = 0 ∧
      (s.retreatDataStart delta).mdlChain =
        ⟨s.allocated, List.replicate delta.toNat 0⟩ :: s.mdlChain := by
  have hlt : ¬delta.toNat ≤ s.dataOffset := by omega
  have hextent := h.extent
  rw [retreatDataStart, if_neg hlt, hzero, Nat.sub_zero]
  refine ⟨⟨?_, h.freed, ?_, Nat.zero_le _, Nat.two_pow_pos 32, ?_⟩, rfl, rfl⟩
  · simp [h.ids, List.range_succ]
  · simp only [List.mem_cons, forall_eq_or_imp, List.length_replicate]
    exact ⟨hdelta, h.nonempty⟩
  · simp only [byteCount, List.map_cons, List.length_replicate, List.sum_cons,
      UInt32.toNat_add] at hextent ⊢
    omega

variable {mdl : PoolMdl} {rest : List PoolMdl}

section

variable (h : s.Consistent)

include h

theorem Consistent.copy (hchain : s.mdlChain = mdl :: rest) {bytes : List UInt8}
    (hlength : bytes.length = mdl.bytes.length) :
    (s.copyToMdl bytes).Consistent ∧ s.copyToMdl bytes =
        { s with mdlChain := ⟨mdl.id, bytes⟩ :: rest } := by
  have heq : s.copyToMdl bytes =
      { s with mdlChain := ⟨mdl.id, bytes⟩ :: rest } := by
    simp [copyToMdl, hchain, hlength]
  have hbyteCount : (s.copyToMdl bytes).byteCount = s.byteCount := by
    simp [heq, byteCount, hchain, hlength]
  have hids := h.ids
  have hnonempty := h.nonempty
  rw [hchain] at hids hnonempty
  refine ⟨⟨?_, ?_, ?_, ?_, ?_, ?_⟩, heq⟩
  · simpa [heq] using hids
  · rw [heq]
    exact h.freed
  · simpa [heq, hlength] using hnonempty
  · rw [hbyteCount, heq]
    exact h.offset_le
  · rw [heq]
    exact h.offset_lt
  · rw [hbyteCount, heq]
    exact h.extent

theorem Consistent.trail (hnone : s.trailingMdlBytes = 0) (trailing : UInt32) :
    Consistent
      { s with
        trailingMdlBytes := trailing
        dataLength := s.dataLength - trailing } := by
  have hextent := h.extent
  have hlt := trailing.toNat_lt
  have hlt' := s.dataLength.toNat_lt
  refine ⟨h.ids, h.freed, h.nonempty, h.offset_le, h.offset_lt, ?_⟩
  have hbyteCount : byteCount
      { s with
        trailingMdlBytes := trailing
        dataLength := s.dataLength - trailing } = s.byteCount := rfl
  rw [hbyteCount, ← hextent, hnone]
  simp only [UInt32.toNat_sub, UInt32.toNat_zero]
  omega

theorem Consistent.advance (hzero : s.dataOffset = 0) {delta : UInt32}
    (hdelta : delta.toNat ≤ s.byteCount) :
    (s.advanceDataStart delta false).Consistent := by
  have hextent := h.extent
  have hlt := delta.toNat_lt
  have hlt' := s.dataLength.toNat_lt
  have heq : s.advanceDataStart delta false = { s with
        dataOffset := delta.toNat
        dataLength := s.dataLength - delta } := by
    simp [advanceDataStart, hzero]
  rw [heq]
  refine ⟨h.ids, h.freed, h.nonempty, hdelta, hlt, ?_⟩
  have hbyteCount : byteCount
      { s with
        dataOffset := delta.toNat
        dataLength := s.dataLength - delta } = s.byteCount := rfl
  rw [hbyteCount, ← hextent, hzero]
  simp only [UInt32.toNat_sub]
  omega

theorem Consistent.place (hzero : s.dataOffset = 0)
    (hchain : s.mdlChain = mdl :: rest)
    (hlength : mdl.bytes.length = buffer.bufferLength.toNat)
    (hnone : bufferIndex + 1 = bufferCount → s.trailingMdlBytes = 0) :
    (placeBuffer bufferCount bufferIndex buffer s).Consistent ∧
      (placeBuffer bufferCount bufferIndex buffer s).mdlChain =
        ⟨mdl.id, buffer.bytes⟩ :: rest ∧
      (placeBuffer bufferCount bufferIndex buffer s).dataOffset =
        if bufferIndex = 0 then buffer.dataOffset.toNat else 0 := by
  have hdata := buffer.data_le
  obtain ⟨hcopy, heq⟩ := h.copy hchain (buffer.length_bytes.trans hlength.symm)
  have hbytes : buffer.dataOffset.toNat ≤
      (s.copyToMdl buffer.bytes).byteCount := by
    simp only [heq, byteCount, List.map_cons, List.sum_cons,
      buffer.length_bytes]
    omega
  have hzero' : (s.copyToMdl buffer.bytes).dataOffset = 0 := by
    rw [heq]
    exact hzero
  have hchain' : (s.copyToMdl buffer.bytes).mdlChain =
      ⟨mdl.id, buffer.bytes⟩ :: rest := by
    rw [heq]
  have hnone' : bufferIndex + 1 = bufferCount →
      (s.copyToMdl buffer.bytes).trailingMdlBytes = 0 := by
    rw [heq]
    exact hnone
  simp only [placeBuffer]
  generalize s.copyToMdl buffer.bytes = t at hcopy hbytes hzero' hchain' hnone'
  by_cases hlast : bufferIndex + 1 = bufferCount
  · have htrail := hcopy.trail (hnone' hlast)
      (buffer.bufferLength - buffer.dataLength - buffer.dataOffset)
    by_cases hfirst : bufferIndex = 0
    · simp only [if_pos hlast, if_pos hfirst]
      exact ⟨htrail.advance hzero' hbytes, hchain', by
        simp [advanceDataStart, hzero']⟩
    · simp only [if_pos hlast, if_neg hfirst]
      exact ⟨htrail, hchain', hzero'⟩
  · by_cases hfirst : bufferIndex = 0
    · simp only [if_neg hlast, if_pos hfirst]
      exact ⟨hcopy.advance hzero' hbytes, hchain', by
        simp [advanceDataStart, hzero']⟩
    · simp only [if_neg hlast, if_neg hfirst]
      exact ⟨hcopy, hchain', hzero'⟩

end

theorem dataLength_placeBuffer
    (hoffset : bufferIndex = 0 ∨ buffer.dataOffset.toNat = 0)
    (hfull : bufferIndex + 1 ≠ bufferCount → buffer.Full) (s : BuiltNbl) :
    (placeBuffer bufferCount bufferIndex buffer s).dataLength.toNat =
      (s.dataLength.toNat + buffer.dataLength.toNat + 2 ^ 32 -
        buffer.bufferLength.toNat) % 2 ^ 32 := by
  have hdata := buffer.data_le
  have hlt := buffer.bufferLength.toNat_lt
  have hlt' := s.dataLength.toNat_lt
  have hcopy : (s.copyToMdl buffer.bytes).dataLength = s.dataLength := by
    unfold copyToMdl
    split <;> rfl
  have htrailing : (buffer.bufferLength - buffer.dataLength -
      buffer.dataOffset).toNat = buffer.bufferLength.toNat -
        buffer.dataLength.toNat - buffer.dataOffset.toNat := by
    simp only [UInt32.toNat_sub]
    omega
  unfold BouncedBuffer.Full at hfull
  simp only [placeBuffer]
  by_cases hlast : bufferIndex + 1 = bufferCount
  · by_cases hfirst : bufferIndex = 0
    · simp only [if_pos hlast, if_pos hfirst, advanceDataStart,
        Bool.false_eq_true, if_false, UInt32.toNat_sub, htrailing, hcopy]
      omega
    · simp only [if_pos hlast, if_neg hfirst, UInt32.toNat_sub, htrailing,
        hcopy]
      omega
  · have hwhole := hfull hlast
    by_cases hfirst : bufferIndex = 0
    · simp only [if_neg hlast, if_pos hfirst, advanceDataStart,
        Bool.false_eq_true, if_false, UInt32.toNat_sub, hcopy]
      omega
    · simp only [if_neg hlast, if_neg hfirst, hcopy]
      omega

/-! ## The loop -/

/-- Only the first buffer has leading bytes, and only the last one trailing
bytes. -/
def WellShaped (bufferIndex : ℕ) (buffers : List BouncedBuffer) : Prop :=
  (∀ buffer ∈ if bufferIndex = 0 then buffers.tail else buffers,
    buffer.dataOffset.toNat = 0) ∧
    ∀ buffer ∈ buffers.dropLast, buffer.Full

theorem wellShaped_cons {rest : List BouncedBuffer}
    (hcount : bufferIndex + (rest.length + 1) = bufferCount) :
    WellShaped bufferIndex (buffer :: rest) ↔
      WellShaped (bufferIndex + 1) rest ∧
        (bufferIndex = 0 ∨ buffer.dataOffset.toNat = 0) ∧
        (bufferIndex + 1 ≠ bufferCount → buffer.Full) := by
  have hlast : bufferIndex + 1 ≠ bufferCount ↔ rest ≠ [] := by
    rw [← List.length_pos_iff]
    omega
  rw [hlast]
  cases rest with
  | nil =>
    by_cases hfirst : bufferIndex = 0 <;> simp [WellShaped, hfirst]
  | cons next tail =>
    by_cases hfirst : bufferIndex = 0
    · simp only [WellShaped, hfirst, if_true, List.tail_cons, List.mem_cons,
        forall_eq_or_imp, List.dropLast_cons_cons, Nat.add_eq_zero_iff,
        one_ne_zero, and_false, if_false, true_or, ne_eq, reduceCtorEq,
        not_false_eq_true, forall_const, and_assoc, true_and]
      tauto
    · simp only [WellShaped, hfirst, if_false, List.mem_cons,
        forall_eq_or_imp, List.dropLast_cons_cons, Nat.add_eq_zero_iff,
        false_and, false_or, ne_eq, reduceCtorEq, not_false_eq_true,
        forall_const, and_assoc]
      tauto

/-- The buffer passes the checks of its round, and NDIS moves the data start
back for it. -/
def retreats (request : EnqueueRequest) (bufferCount bufferIndex : ℕ)
    (buffer : BouncedBuffer) : Bool :=
  (bufferIndex == 0 || buffer.dataOffset.toNat == 0) &&
    (bufferIndex + 1 == bufferCount || buffer.bufferLength.toNat ==
      buffer.dataOffset.toNat + buffer.dataLength.toNat) &&
    request.retreated bufferIndex

/-- The rounds of all buffers from `bufferIndex` on succeed. -/
def handled (request : EnqueueRequest) (bufferCount : ℕ) :
    (bufferIndex : ℕ) → List BouncedBuffer → Bool
  | _, [] => true
  | bufferIndex, buffer :: rest =>
    handled request bufferCount (bufferIndex + 1) rest &&
      retreats request bufferCount bufferIndex buffer &&
      request.mapped bufferIndex

/-- The lengths of the buffers for which the data start is moved back, which are
those behind which every round succeeds. -/
def retreatedBytes (request : EnqueueRequest) (bufferCount : ℕ) :
    (bufferIndex : ℕ) → List BouncedBuffer → ℕ
  | _, [] => 0
  | bufferIndex, buffer :: rest =>
    retreatedBytes request bufferCount (bufferIndex + 1) rest +
      if handled request bufferCount (bufferIndex + 1) rest &&
          retreats request bufferCount bufferIndex buffer then
        buffer.bufferLength.toNat
      else 0

theorem buildRound_cases (request : EnqueueRequest)
    (buffer : BouncedBuffer) (s : BuiltNbl) {bufferCount bufferIndex : ℕ}
    (hcount : bufferIndex + 1 ≤ bufferCount) :
    (retreats request bufferCount bufferIndex buffer = false ∧
      ∃ status, status ≠ .success ∧
        buildRound request bufferCount bufferIndex buffer s = (status, s)) ∨
    retreats request bufferCount bufferIndex buffer = true ∧
      (request.mapped bufferIndex = false ∧
        buildRound request bufferCount bufferIndex buffer s =
          (.noMemory, s.retreatDataStart buffer.bufferLength) ∨
      request.mapped bufferIndex = true ∧
        buildRound request bufferCount bufferIndex buffer s =
          (.success, placeBuffer bufferCount bufferIndex buffer
            (s.retreatDataStart buffer.bufferLength))) := by
  have hdata := buffer.data_le
  have hretreats : retreats request bufferCount bufferIndex buffer = true ↔
      (bufferIndex = 0 ∨ buffer.dataOffset.toNat = 0) ∧
        (bufferIndex + 1 = bufferCount ∨ buffer.bufferLength.toNat =
          buffer.dataOffset.toNat + buffer.dataLength.toNat) ∧
        request.retreated bufferIndex = true := by
    simp [retreats, and_assoc]
  rw [← Bool.not_eq_true, hretreats]
  unfold buildRound
  split_ifs with hoffset htrailer hretreated hmapped
  · exact Or.inl ⟨by omega, _, by decide, rfl⟩
  · exact Or.inl ⟨by omega, _, by decide, rfl⟩
  · exact Or.inl ⟨fun h => by simp [h.2.2] at hretreated, _, by decide, rfl⟩
  · exact Or.inr ⟨⟨by omega, by omega, by simpa using hretreated⟩,
      Or.inl ⟨by simpa using hmapped, rfl⟩⟩
  · exact Or.inr ⟨⟨by omega, by omega, by simpa using hretreated⟩,
      Or.inr ⟨by simpa using hmapped, rfl⟩⟩

theorem shape_of_retreats
    (h : retreats request bufferCount bufferIndex buffer = true) :
    (bufferIndex = 0 ∨ buffer.dataOffset.toNat = 0) ∧
      (bufferIndex + 1 ≠ bufferCount → buffer.Full) := by
  simp only [retreats, Bool.and_eq_true, Bool.or_eq_true, beq_iff_eq] at h
  unfold BouncedBuffer.Full
  omega

theorem buildRound_of_shaped (hretreated : request.retreated bufferIndex = true)
    (hmapped : request.mapped bufferIndex = true)
    (hoffset : bufferIndex = 0 ∨ buffer.dataOffset.toNat = 0)
    (hfull : bufferIndex + 1 < bufferCount → buffer.Full) (s : BuiltNbl) :
    (buildRound request bufferCount bufferIndex buffer s).1 = .success := by
  unfold BouncedBuffer.Full at hfull
  rw [buildRound, if_neg (by omega), if_neg (by omega)]
  simp [hretreated, hmapped]

theorem Consistent.round (h : s.Consistent) (hzero : s.dataOffset = 0)
    {rest : List BouncedBuffer} (hnone : rest = [] → s.trailingMdlBytes = 0)
    (hcount : bufferIndex + (rest.length + 1) = bufferCount)
    (buffer : BouncedBuffer) :
    ((s.retreatDataStart buffer.bufferLength).Consistent ∧
      (s.retreatDataStart buffer.bufferLength).dataOffset = 0 ∧
      (s.retreatDataStart buffer.bufferLength).mdlChain =
        ⟨s.allocated, List.replicate buffer.bufferLength.toNat 0⟩ ::
          s.mdlChain) ∧
    (placeBuffer bufferCount bufferIndex buffer
      (s.retreatDataStart buffer.bufferLength)).Consistent ∧
    (placeBuffer bufferCount bufferIndex buffer
      (s.retreatDataStart buffer.bufferLength)).mdlChain =
        ⟨s.allocated, buffer.bytes⟩ :: s.mdlChain ∧
    (placeBuffer bufferCount bufferIndex buffer
      (s.retreatDataStart buffer.bufferLength)).dataOffset =
        if bufferIndex = 0 then buffer.dataOffset.toNat else 0 := by
  obtain ⟨hretreat, hzero', hchain⟩ := h.retreat hzero buffer.bufferLength_pos
  refine ⟨⟨hretreat, hzero', hchain⟩,
    hretreat.place hzero' hchain (List.length_replicate ..) fun hlast => ?_⟩
  rw [trailingMdlBytes_retreatDataStart]
  exact hnone (List.length_eq_zero_iff.mp (by omega))

theorem buildLoop_consistent (request : EnqueueRequest) (bufferCount : ℕ)
    (buffers : List BouncedBuffer) (bufferIndex : ℕ)
    (hcount : bufferIndex + buffers.length = bufferCount) :
    (buildLoop request bufferCount bufferIndex buffers).2.Consistent ∧
      (0 < bufferIndex →
        (buildLoop request bufferCount bufferIndex buffers).2.dataOffset = 0) ∧
      (buffers = [] → (buildLoop request bufferCount bufferIndex
        buffers).2.trailingMdlBytes = 0) := by
  induction buffers generalizing bufferIndex with
  | nil => exact ⟨consistent_allocate, fun _ => rfl, fun _ => rfl⟩
  | cons buffer rest ih =>
    rw [List.length_cons] at hcount
    obtain ⟨hrest, hzero, hnone⟩ := ih (bufferIndex + 1) (by omega)
    have hzero := hzero (Nat.succ_pos _)
    rw [buildLoop]
    split
    · next s hs =>
        simp only [hs] at hrest hzero hnone
        obtain ⟨⟨hretreat, hzero', -⟩, hplace, -, hoffset⟩ :=
          hrest.round hzero hnone hcount buffer
        have hround : bufferIndex + 1 ≤ bufferCount := by omega
        rcases buildRound_cases request buffer s hround with
          ⟨-, _, -, heq⟩ | ⟨-, ⟨-, heq⟩ | ⟨-, heq⟩⟩
        · rw [heq]
          exact ⟨hrest, fun _ => hzero, by simp⟩
        · rw [heq]
          exact ⟨hretreat, fun _ => hzero', by simp⟩
        · rw [heq]
          exact ⟨hplace, fun hpos => by rw [hoffset, if_neg (by omega)],
            by simp⟩
    · next hs =>
        simp only [hs] at hrest hzero
        exact ⟨hrest, fun _ => hzero, by simp⟩

theorem byteCount_of_mdlChain {u : BuiltNbl}
    (h : u.mdlChain = mdl :: s.mdlChain) :
    u.byteCount = s.byteCount + mdl.bytes.length := by
  rw [byteCount, h, List.map_cons, List.sum_cons, Nat.add_comm]
  rfl

theorem buildLoop_byteCount (request : EnqueueRequest) (bufferCount : ℕ)
    (buffers : List BouncedBuffer) (bufferIndex : ℕ)
    (hcount : bufferIndex + buffers.length = bufferCount) :
    ((buildLoop request bufferCount bufferIndex buffers).1 = .success ↔
      handled request bufferCount bufferIndex buffers = true) ∧
    (buildLoop request bufferCount bufferIndex buffers).2.byteCount =
      retreatedBytes request bufferCount bufferIndex buffers := by
  induction buffers generalizing bufferIndex with
  | nil => exact ⟨iff_of_true rfl rfl, rfl⟩
  | cons buffer rest ih =>
    rw [List.length_cons] at hcount
    obtain ⟨hsuccess, hbytes⟩ := ih (bufferIndex + 1) (by omega)
    obtain ⟨hrest, hzero, hnone⟩ := buildLoop_consistent request bufferCount
      rest (bufferIndex + 1) (by omega)
    have hzero := hzero (Nat.succ_pos _)
    rw [buildLoop, handled, retreatedBytes]
    split
    · next s hs =>
        simp only [hs] at hsuccess hbytes hrest hzero hnone
        have hhandled := hsuccess.mp trivial
        obtain ⟨⟨-, -, hchain⟩, -, hplaced, -⟩ :=
          hrest.round hzero hnone hcount buffer
        have hround : bufferIndex + 1 ≤ bufferCount := by omega
        rcases buildRound_cases request buffer s hround with
          ⟨hnot, status, hstatus, heq⟩ |
            ⟨hretreats, ⟨hmapped, heq⟩ | ⟨hmapped, heq⟩⟩
        · simp [heq, hnot, hstatus, hbytes]
        · simp [heq, hmapped, hhandled, hretreats, hbytes,
            byteCount_of_mdlChain hchain]
        · simp [heq, hmapped, hhandled, hretreats, hbytes,
            byteCount_of_mdlChain hplaced, buffer.length_bytes]
    · next status s hne hs =>
        simp only [hs] at hsuccess hbytes
        have hnot : handled request bufferCount (bufferIndex + 1) rest =
            false := by
          rw [← Bool.not_eq_true, ← hsuccess]
          exact hne
        have hfailed : status ≠ .success := hne
        simp [hnot, hbytes, hfailed]

theorem buildLoop_eq_success (buffers : List BouncedBuffer)
    (hcount : bufferIndex + buffers.length = bufferCount)
    (h : buildLoop request bufferCount bufferIndex buffers = (.success, s)) :
    WellShaped bufferIndex buffers ∧
      s.mdlChain.map PoolMdl.bytes = buffers.map BouncedBuffer.bytes ∧
      s.dataLength.toNat = dataBytes buffers % 2 ^ 32 ∧
      s.dataOffset = if bufferIndex = 0 then
          buffers.head?.elim 0 fun buffer => buffer.dataOffset.toNat
        else 0 := by
  induction buffers generalizing bufferIndex s with
  | nil =>
    cases h
    exact ⟨⟨by simp, by simp⟩, rfl, rfl, by simp [allocate]⟩
  | cons buffer rest ih =>
    rw [List.length_cons] at hcount
    obtain ⟨hrest, hzero, hnone⟩ :=
      buildLoop_consistent request bufferCount rest (bufferIndex + 1)
        (by omega)
    have hzero := hzero (Nat.succ_pos _)
    rw [buildLoop] at h
    split at h
    · next t ht =>
        simp only [ht] at hrest hzero hnone
        obtain ⟨hshaped, hchain, hlength, -⟩ := ih (by omega) ht
        obtain ⟨-, -, hmdls, hoffset⟩ :=
          hrest.round hzero hnone hcount buffer
        have hround : bufferIndex + 1 ≤ bufferCount := by omega
        rcases buildRound_cases request buffer t hround with
          ⟨-, status, hstatus, heq⟩ | ⟨hretreats, ⟨-, heq⟩ | ⟨-, heq⟩⟩
        · rw [heq] at h
          exact absurd (Prod.ext_iff.mp h).1 hstatus
        · rw [heq] at h
          cases h
        · rw [heq] at h
          cases h
          obtain ⟨hleading, hfull⟩ := shape_of_retreats hretreats
          refine ⟨(wellShaped_cons hcount).mpr ⟨hshaped, hleading, hfull⟩,
            ?_, ?_, hoffset⟩
          · rw [hmdls, List.map_cons, List.map_cons, hchain]
          · have hlt := buffer.bufferLength.toNat_lt
            rw [dataLength_placeBuffer hleading hfull,
              dataLength_retreatDataStart, UInt32.toNat_add, hlength,
              dataBytes_cons]
            omega
    · next status t hne heq =>
        cases h
        exact absurd rfl hne

theorem buildLoop_of_wellShaped
    (hndis : ∀ i, request.retreated i = true ∧ request.mapped i = true)
    (buffers : List BouncedBuffer)
    (hcount : bufferIndex + buffers.length = bufferCount)
    (h : WellShaped bufferIndex buffers) :
    (buildLoop request bufferCount bufferIndex buffers).1 = .success := by
  induction buffers generalizing bufferIndex with
  | nil => rfl
  | cons buffer rest ih =>
    rw [List.length_cons] at hcount
    obtain ⟨hshaped, hleading, hfull⟩ := (wellShaped_cons hcount).mp h
    have hrest := ih (by omega) hshaped
    rw [buildLoop]
    split
    · exact buildRound_of_shaped (hndis _).1 (hndis _).2 hleading
        (fun hlt => hfull (by omega)) _
    · next status t hne heq =>
        rw [heq] at hrest
        exact hrest

/-! ## The release -/

theorem freePassedMdls_all (mdls : List PoolMdl) :
    freePassedMdls mdls (mdls.map fun mdl => mdl.bytes.length).sum =
      ([], 0, mdls.map PoolMdl.id) := by
  induction mdls with
  | nil => rfl
  | cons mdl rest ih => simp [freePassedMdls, ih]

theorem freePassedMdls_part {mdls : List PoolMdl} {offset : ℕ}
    (h : offset < (mdls.map fun mdl => mdl.bytes.length).sum) :
    (freePassedMdls mdls offset).1 ≠ [] := by
  induction mdls generalizing offset with
  | nil => simp at h
  | cons mdl rest ih =>
    rw [List.map_cons, List.sum_cons] at h
    unfold freePassedMdls
    split
    · exact ih (by omega)
    · exact List.cons_ne_nil _ _

theorem Consistent.restore (h : s.Consistent) :
    s.restoreDataStart.dataLength.toNat = s.byteCount % 2 ^ 32 ∧
      s.restoreDataStart.dataOffset = 0 ∧
      s.restoreDataStart.mdlChain = s.mdlChain ∧
      s.restoreDataStart.allocated = s.allocated ∧
      s.restoreDataStart.freed = [] := by
  have hextent := h.extent
  have hoffset : (UInt32.ofNat s.dataOffset).toNat = s.dataOffset :=
    UInt32.toNat_ofNat_of_lt h.offset_lt
  simp only [restoreDataStart, retreatDataStart, hoffset, le_refl, if_true,
    Nat.sub_self, UInt32.toNat_add]
  refine ⟨?_, trivial, trivial, trivial, h.freed⟩
  omega

theorem Consistent.released (h : s.Consistent) (hlt : s.byteCount < 2 ^ 32) :
    s.fnIoEnqueueFrameReturn.mdlChain = [] ∧
      s.fnIoEnqueueFrameReturn.freed.Perm (List.range s.allocated) := by
  obtain ⟨hlength, hoffset, hchain, -, hfreed⟩ := h.restore
  rw [Nat.mod_eq_of_lt hlt] at hlength
  have hall := freePassedMdls_all s.mdlChain
  rw [show (s.mdlChain.map fun mdl => mdl.bytes.length).sum = s.byteCount from
    rfl] at hall
  simp only [fnIoEnqueueFrameReturn, advanceDataStart, if_true, hlength,
    hoffset, Nat.zero_add, hchain, hall, hfreed, List.nil_append, h.ids]
  exact ⟨trivial, List.reverse_perm _⟩

theorem Consistent.not_released (h : s.Consistent)
    (hge : 2 ^ 32 ≤ s.byteCount) : s.fnIoEnqueueFrameReturn.mdlChain ≠ [] := by
  obtain ⟨hlength, hoffset, hchain, -, -⟩ := h.restore
  have hlt : s.byteCount % 2 ^ 32 < s.byteCount :=
    (Nat.mod_lt _ (by decide)).trans_le hge
  simp only [fnIoEnqueueFrameReturn, advanceDataStart, if_true, hlength,
    hoffset, Nat.zero_add, hchain]
  exact freePassedMdls_part hlt

/-! ## Building and releasing -/

/-- The loop of `FnIoEnqueueFrameBegin` over a bounced array. -/
def buildFrame (request : EnqueueRequest) (buffers : List BouncedBuffer) :
    NtStatus × BuiltNbl :=
  buildLoop request buffers.length 0 buffers

/-- The frame is built if and only if its buffers have the right shape, with
their data; wherever the loop has ended, the release advances over the bytes
retreated and frees each allocated MDL once. -/
structure BuildsAndReleases (request : EnqueueRequest)
    (buffers : List BouncedBuffer) : Prop where
  succeeds_iff : (∀ i, request.retreated i = true ∧ request.mapped i = true) →
      ((buildFrame request buffers).1 = .success ↔ WellShaped 0 buffers)
  data : (buildFrame request buffers).1 = .success →
    (buildFrame request buffers).2.data = buffers.flatMap BouncedBuffer.data
  advances : (buildFrame request buffers).2.restoreDataStart.dataLength.toNat =
    retreatedBytes request buffers.length 0 buffers
  released :
    (buildFrame request buffers).2.fnIoEnqueueFrameReturn.mdlChain = [] ∧
      (buildFrame request buffers).2.fnIoEnqueueFrameReturn.freed.Perm
        (List.range (buildFrame request buffers).2.allocated)

theorem buildFrame_consistent (request : EnqueueRequest)
    (buffers : List BouncedBuffer) :
    (buildFrame request buffers).2.Consistent :=
  (buildLoop_consistent request _ buffers 0 (Nat.zero_add _)).1

theorem data_buildFrame {buffers : List BouncedBuffer}
    (h : buildFrame request buffers = (.success, s))
    (hlt : s.byteCount < 2 ^ 32) :
    s.data = buffers.flatMap BouncedBuffer.data := by
  obtain ⟨⟨hzero, hfull⟩, hchain, hlength, hoffset⟩ :=
    buildLoop_eq_success buffers (Nat.zero_add _) h
  rw [if_pos rfl] at hzero hoffset
  have hbytes : s.mdlChain.flatMap PoolMdl.bytes =
      (buffers.map BouncedBuffer.mdl).flatMap Mdl.bytes := by
    rw [List.flatMap_def, hchain, List.flatMap_map, List.flatMap_def]
    rfl
  have htotal : s.byteCount = totalBytes (buffers.map BouncedBuffer.mdl) := by
    calc
      s.byteCount = ((s.mdlChain.map PoolMdl.bytes).map List.length).sum := by
        rw [byteCount, List.map_map]
        rfl
      _ = totalBytes (buffers.map BouncedBuffer.mdl) := by
        rw [hchain, totalBytes, List.map_map, List.map_map]
        rfl
  have hle := dataBytes_le buffers
  rw [Nat.mod_eq_of_lt (by omega)] at hlength
  have hfirst : ∀ buffer ∈ buffers.head?,
      buffer.dataOffset.toNat = s.dataOffset := by
    intro buffer hbuffer
    rw [hoffset, Option.mem_def.mp hbuffer]
    rfl
  have hreach : ∀ mdl ∈ (buffers.map BouncedBuffer.mdl).head?,
      s.dataOffset ≤ mdl.byteCount := by
    intro mdl hmdl
    rw [List.head?_map, Option.mem_map] at hmdl
    obtain ⟨buffer, hbuffer, rfl⟩ := hmdl
    have hdata := buffer.data_le
    rw [← hfirst buffer hbuffer, buffer.byteCount_mdl]
    omega
  calc
    s.data = ((buffers.map BouncedBuffer.mdl).flatMap Mdl.bytes |>.drop
        s.dataOffset).take (dataBytes buffers) := by
      rw [data, hbytes, hlength]
    _ = (buffers.map BouncedBuffer.piece).flatMap Piece.data := by
      rw [← flatMap_data_pieces _ _ hreach,
        pieces_map_mdl buffers hfirst hzero hfull]
    _ = buffers.flatMap BouncedBuffer.data := List.flatMap_map ..

/-- Building and releasing are inverse if and only if the buffers for which the
data start is moved back have fewer than `2 ^ 32` bytes. -/
theorem buildsAndReleases_iff (request : EnqueueRequest)
    (buffers : List BouncedBuffer) :
    BuildsAndReleases request buffers ↔
      retreatedBytes request buffers.length 0 buffers < 2 ^ 32 := by
  have hconsistent := buildFrame_consistent request buffers
  have hbytes : (buildFrame request buffers).2.byteCount =
      retreatedBytes request buffers.length 0 buffers :=
    (buildLoop_byteCount request _ buffers 0 (Nat.zero_add _)).2
  rw [← hbytes]
  constructor
  · intro h
    by_contra hge
    exact hconsistent.not_released (Nat.le_of_not_lt hge) h.released.1
  · intro hlt
    refine ⟨fun hndis => ⟨fun h => ?_, fun h => ?_⟩, fun h => ?_, ?_,
      hconsistent.released hlt⟩
    · exact (buildLoop_eq_success buffers (Nat.zero_add _)
        (Prod.ext h rfl)).1
    · exact buildLoop_of_wellShaped hndis buffers (Nat.zero_add _) h
    · exact data_buildFrame (Prod.ext h rfl) hlt
    · rw [hconsistent.restore.1, Nat.mod_eq_of_lt hlt, hbytes]

def halfRange : BouncedBuffer where
  dataOffset := 0
  dataLength := 2147483648
  bufferLength := 2147483648
  bytes := List.replicate 2147483648 0
  length_bytes := List.length_replicate ..
  data_le := by decide
  bufferLength_pos := by decide

/-- Two such buffers make an accepted frame of data length zero, whose release
leaves MDLs behind. -/
theorem two_half_ranges_kept :
    (buildFrame twoBufferRequest [halfRange, halfRange]).1 = .success ∧
      (buildFrame twoBufferRequest [halfRange, halfRange]).2.dataLength = 0 ∧
      (buildFrame twoBufferRequest
        [halfRange, halfRange]).2.fnIoEnqueueFrameReturn.mdlChain ≠ [] := by
  have hsuccess :
      (buildFrame twoBufferRequest [halfRange, halfRange]).1 = .success :=
    buildLoop_of_wellShaped (fun _ => ⟨rfl, rfl⟩) _ rfl
      ⟨List.forall_mem_singleton.mpr rfl, List.forall_mem_singleton.mpr rfl⟩
  obtain ⟨-, hchain, hlength, -⟩ :=
    buildLoop_eq_success [halfRange, halfRange] rfl (Prod.ext hsuccess rfl)
  have hbytes :
      (buildFrame twoBufferRequest [halfRange, halfRange]).2.byteCount =
        2 ^ 32 := by
    rw [byteCount, ← Function.comp_def List.length PoolMdl.bytes,
      ← List.map_map]
    refine (congrArg (fun chain => (chain.map List.length).sum) hchain).trans ?_
    have hsum (buffer : BouncedBuffer) :
        (([buffer, buffer].map BouncedBuffer.bytes).map List.length).sum =
          buffer.bufferLength.toNat + buffer.bufferLength.toNat := by
      simp [buffer.length_bytes]
    exact hsum halfRange
  refine ⟨hsuccess, UInt32.toNat_inj.mp (hlength.trans ?_),
    (buildFrame_consistent _ _).not_released hbytes.ge⟩
  decide

end BuiltNbl

end WinNetTest.Fnio
