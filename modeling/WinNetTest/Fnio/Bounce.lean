import WinNetTest.Support.Heap
import WinNetTest.Fnio.Enqueue
import WinNetTest.Fnio.GetFrame

/-!
# Bouncing the caller's memory

`BounceBuffer` (`bounce.c`) copies memory of the caller into the pool.
`FnIoIoctlBounceEnqueue` and `FnIoIoctlBounceFilter` (`ioctlbounce.c`) bounce
all that an input structure points to; the structure itself has been copied by
the I/O manager.

The model keeps the pool and its memory.  Every read of the caller's memory and
every allocation happens at an instant of its own, and the caller's memory may
be different at each.  While the array of a frame is worked through it holds
pointers to bounced buffers in front and pointers of the caller behind.
-/

namespace WinNetTest.Fnio.Bounce

open Support

/-! ## The pool and the caller -/

/-- The code of an exception.  Those raised for a bad address or a bad
alignment are failure codes. -/
structure ExceptionCode where
  status : NtStatus
  failed : status.ntSuccess = false

inductive KProcessorMode where
  | kernelMode
  | userMode
  deriving DecidableEq

/-- What a call meets: where the pool places a block, or `none` without memory;
the byte of the caller's memory at an instant and an address, or the exception
of reading it; and the exception `ProbeForRead` raises. -/
structure Surroundings where
  place : ℕ → Option ℕ
  byte : ℕ → ℕ → Except ExceptionCode UInt8
  probeForRead : ℕ → ℕ → ℕ → Option ExceptionCode

/-- The nonpaged pool, whose addresses fit into a pointer, and the present
instant. -/
structure Kernel where
  heap : Heap (256 ^ 8)
  clock : ℕ

variable (env : Surroundings)

/-- `ExAllocatePoolZero`.  The null pointer is zero. -/
def exAllocatePoolZero (k : Kernel) (size : ℕ) : ℕ × Kernel :=
  match env.place k.clock with
  | none => (0, { k with clock := k.clock + 1 })
  | some address =>
    if hroom : k.heap.Room address size then
      (address, ⟨k.heap.allocate address size hroom, k.clock + 1⟩)
    else (0, { k with clock := k.clock + 1 })

def bounceFree (k : Kernel) (buffer : ℕ) : Kernel :=
  if buffer ≠ 0 then { k with heap := k.heap.free buffer } else k

/-- The bytes that `RtlCopyVolatileMemory` reads from the caller, one at an
instant, and the exception that stops it. -/
def fetch (env : Surroundings) :
    (clock source size : ℕ) → List UInt8 × Option ExceptionCode
  | _, _, 0 => ([], none)
  | clock, source, size + 1 =>
    match env.byte clock source with
    | .error code => ([], some code)
    | .ok byte =>
      let (bytes, code) := fetch env (clock + 1) (source + 1) size
      (byte :: bytes, code)

variable (requestorMode : KProcessorMode)

/-- The guarded block of `BounceBuffer`: probe the caller's range and copy it
to the new buffer. -/
def copyIn (k : Kernel) (bounce buffer bufferSize alignment : ℕ) :
    Option ExceptionCode × Kernel :=
  let probe :=
    if requestorMode ≠ .kernelMode then
      env.probeForRead buffer bufferSize alignment
    else none
  match probe with
  | some code => (some code, k)
  | none =>
    let (bytes, code) := fetch env k.clock buffer bufferSize
    (code, ⟨k.heap.write bounce bytes, k.clock + bufferSize⟩)

/-- `BounceBuffer`.  The result holds the new value of `Bounce->Buffer`, which
is null before the call. -/
def bounceBuffer (k : Kernel) (buffer bufferSize alignment : ℕ) :
    NtStatus × ℕ × Kernel :=
  if bufferSize = 0 then (.success, 0, k)
  else
    let (bounce, k) := exAllocatePoolZero env k bufferSize
    if bounce = 0 then (.noMemory, 0, k)
    else
      match copyIn env requestorMode k bounce buffer bufferSize alignment with
      | (some code, k) => (code.status, 0, bounceFree k bounce)
      | (none, k) => (.success, bounce, k)

/-! ## The input of an enqueue -/

/-- A `DATA_BUFFER` as the bytes of memory give it. -/
structure DataBufferEntry where
  virtualAddress : ℕ
  dataOffset : ℕ
  dataLength : ℕ
  bufferLength : ℕ
  deriving DecidableEq

def readDataBuffer (m : Memory) (address : ℕ) : DataBufferEntry :=
  ⟨m.readInt address 8, m.readInt (address + 8) 4, m.readInt (address + 12) 4,
    m.readInt (address + 16) 4⟩

/-- A `DATA_ENQUEUE_IN`: the pointer and the count of its frame, and its other
bytes. -/
structure DataEnqueueIn where
  buffers : ℕ
  bufferCount : UInt16
  input : Fin 46 → UInt8

def DataEnqueueIn.zero : DataEnqueueIn := ⟨0, 0, fun _ => 0⟩

def DataEnqueueIn.entry (enqueueIn : DataEnqueueIn) (bufferIndex : ℕ) : ℕ :=
  enqueueIn.buffers + sizeofDataBuffer * bufferIndex

def fnIoIoctlCleanupEnqueue (k : Kernel) (enqueueIn : DataEnqueueIn) : Kernel :=
  if enqueueIn.buffers ≠ 0 then
    let k := (List.range enqueueIn.bufferCount.toNat).foldl
      (fun k bufferIndex => bounceFree k
        (readDataBuffer k.heap.memory
          (enqueueIn.entry bufferIndex)).virtualAddress) k
    bounceFree k enqueueIn.buffers
  else k

/-- The state of `FnIoIoctlBounceEnqueue`: the kernel, the output structure,
and the two bounce buffers. -/
structure EnqueueLocals where
  kernel : Kernel
  enqueueIn : DataEnqueueIn
  buffers : ℕ
  buffer : ℕ

/-- One round of the loop of `FnIoIoctlBounceEnqueue`, without the copy of the
entry to itself. -/
def bounceRound (s : EnqueueLocals) : NtStatus × EnqueueLocals :=
  let address := s.enqueueIn.entry s.enqueueIn.bufferCount.toNat
  let rxBuffer := readDataBuffer s.kernel.heap.memory address
  if rxBuffer.bufferLength = 0 then (.invalidParameter, s)
  else if 2 ^ 32 ≤ rxBuffer.dataOffset + rxBuffer.dataLength then
    (.integerOverflow, s)
  else if rxBuffer.bufferLength < rxBuffer.dataOffset + rxBuffer.dataLength then
    (.invalidParameter, s)
  else
    let (status, buffer, k) :=
      bounceBuffer env requestorMode s.kernel rxBuffer.virtualAddress
        rxBuffer.bufferLength 1
    if !status.ntSuccess then (status, { s with kernel := k, buffer := buffer })
    else
      (status, { s with
          kernel := { k with heap := k.heap.write address (leBytes 8 buffer) }
          buffer := 0
          enqueueIn :=
            { s.enqueueIn with
              bufferCount := s.enqueueIn.bufferCount + 1 } })

/-- The loop of `FnIoIoctlBounceEnqueue` over the remaining buffers. -/
def bounceLoop (env : Surroundings) (requestorMode : KProcessorMode) :
    (remaining : ℕ) → EnqueueLocals → NtStatus × EnqueueLocals
  | 0, s => (.success, s)
  | remaining + 1, s =>
    let (status, s) := bounceRound env requestorMode s
    if status.ntSuccess then bounceLoop env requestorMode remaining s
    else (status, s)

/-- `FnIoIoctlBounceEnqueue` up to its exit label. -/
def bounceFrame (requestorMode : KProcessorMode) (k : Kernel)
    (inputBufferLength : ℕ) (ioBuffer : DataEnqueueIn) :
    NtStatus × EnqueueLocals :=
  let s : EnqueueLocals := ⟨k, .zero, 0, 0⟩
  if inputBufferLength < sizeofDataEnqueueIn then (.bufferTooSmall, s)
  else
    let s :=
      { s with enqueueIn := { ioBuffer with buffers := 0, bufferCount := 0 } }
    if ioBuffer.bufferCount = 0 then (.invalidParameter, s)
    else
      let (status, buffers, k) :=
        bounceBuffer env requestorMode s.kernel ioBuffer.buffers
          (sizeofDataBuffer * ioBuffer.bufferCount.toNat) 8
      if !status.ntSuccess then
        (status, { s with kernel := k, buffers := buffers })
      else
        bounceLoop env requestorMode ioBuffer.bufferCount.toNat
          { s with
            kernel := k
            enqueueIn := { s.enqueueIn with buffers := buffers }
            buffers := 0 }

/-- `FnIoIoctlBounceEnqueue` and its allocations; its bytes are in `Enqueue`.
The result holds the output structure. -/
def fnIoIoctlBounceEnqueue (k : Kernel) (inputBufferLength : ℕ)
    (ioBuffer : DataEnqueueIn) : NtStatus × DataEnqueueIn × Kernel :=
  let (status, s) :=
    bounceFrame env requestorMode k inputBufferLength ioBuffer
  let s :=
    if !status.ntSuccess then
      { s with
        kernel := fnIoIoctlCleanupEnqueue s.kernel s.enqueueIn
        enqueueIn := .zero }
    else s
  (status, s.enqueueIn, bounceFree (bounceFree s.kernel s.buffer) s.buffers)

/-! ## The input of a filter -/

structure DataFilterIn where
  pattern : ℕ
  mask : ℕ
  length : UInt32
  deriving DecidableEq

def DataFilterIn.zero : DataFilterIn := ⟨0, 0, 0⟩

def fnIoIoctlCleanupFilter (k : Kernel) (filterIn : DataFilterIn) :
    Kernel × DataFilterIn :=
  (bounceFree (bounceFree k filterIn.mask) filterIn.pattern, .zero)

/-- The state of `FnIoIoctlBounceFilter`: the kernel, the output structure, and
the two bounce buffers. -/
structure FilterLocals where
  kernel : Kernel
  filterIn : DataFilterIn
  pattern : ℕ
  mask : ℕ

/-- `FnIoIoctlBounceFilter` up to its exit label. -/
def bounceFilter (requestorMode : KProcessorMode) (k : Kernel)
    (inputBufferLength : ℕ) (ioBuffer : DataFilterIn) :
    NtStatus × FilterLocals :=
  let s : FilterLocals := ⟨k, .zero, 0, 0⟩
  if inputBufferLength < sizeofDataFilterIn then (.bufferTooSmall, s)
  else if ioBuffer.length = 0 then (.success, s)
  else
    let (status, pattern, k) :=
      bounceBuffer env requestorMode s.kernel ioBuffer.pattern
        ioBuffer.length.toNat 1
    let s := { s with kernel := k, pattern := pattern }
    if !status.ntSuccess then (status, s)
    else
      let (status, mask, k) :=
        bounceBuffer env requestorMode s.kernel ioBuffer.mask
          ioBuffer.length.toNat 1
      let s := { s with kernel := k, mask := mask }
      if !status.ntSuccess then (status, s)
      else
        (status, { s with
            filterIn := ⟨s.pattern, s.mask, ioBuffer.length⟩
            pattern := 0
            mask := 0 })

/-- `FnIoIoctlBounceFilter`.  The result holds the output structure. -/
def fnIoIoctlBounceFilter (k : Kernel) (inputBufferLength : ℕ)
    (ioBuffer : DataFilterIn) : NtStatus × DataFilterIn × Kernel :=
  let (status, s) :=
    bounceFilter env requestorMode k inputBufferLength ioBuffer
  let s :=
    if !status.ntSuccess then
      { s with
        kernel := (fnIoIoctlCleanupFilter s.kernel s.filterIn).1
        filterIn := .zero }
    else s
  (status, s.filterIn, bounceFree (bounceFree s.kernel s.mask) s.pattern)

/-! ## One bounced buffer -/

/-- The block holds the bytes that the caller's memory had at successive
instants. -/
def Copied (source : ℕ) (m : Memory) (b : Block) : Prop :=
  ∃ clock, ∀ i < b.size,
    env.byte (clock + i) (source + i) = .ok (m (b.address + i))

theorem length_fetch_le (clock source size : ℕ) :
    (fetch env clock source size).1.length ≤ size := by
  induction size generalizing clock source with
  | zero => exact Nat.zero_le _
  | succ size ih =>
    rw [fetch]
    split
    · exact Nat.zero_le _
    · exact Nat.succ_le_succ (ih _ _)

theorem fetch_complete {env : Surroundings} {clock source size : ℕ}
    (h : (fetch env clock source size).2 = none) :
    (fetch env clock source size).1.length = size ∧ ∀ i < size, ∃ byte,
        (fetch env clock source size).1[i]? = some byte ∧
        env.byte (clock + i) (source + i) = .ok byte := by
  induction size generalizing clock source with
  | zero => exact ⟨rfl, fun i hi => absurd hi (Nat.not_lt_zero i)⟩
  | succ size ih =>
    rw [fetch] at h ⊢
    split at h
    · cases h
    · next byte hbyte =>
        obtain ⟨hlength, hbytes⟩ := ih h
        simp only
        refine ⟨by rw [List.length_cons, hlength], fun i hi => ?_⟩
        cases i with
        | zero => exact ⟨byte, rfl, hbyte⟩
        | succ i =>
          obtain ⟨next, hnext, hread⟩ := hbytes i (by omega)
          rw [Nat.add_right_comm, Nat.add_right_comm source,
            Nat.add_assoc clock, Nat.add_assoc source] at hread
          exact ⟨next, hnext, hread⟩

theorem exAllocatePoolZero_cases (k : Kernel) (size : ℕ) :
    (∃ k', exAllocatePoolZero env k size = (0, k') ∧ k'.heap = k.heap) ∨
    ∃ b k', exAllocatePoolZero env k size = (b.address, k') ∧
      b.address ≠ 0 ∧ b.size = size ∧ k.heap.Holds k'.heap [b] ∧
      k'.heap.freed = k.heap.freed := by
  unfold exAllocatePoolZero
  split
  · exact Or.inl ⟨_, rfl, rfl⟩
  · next address _ =>
      split
      · next hroom =>
          refine Or.inr ⟨⟨k.heap.next, address, size⟩, _, rfl, ?_, rfl,
            Heap.holds_allocate _ hroom, rfl⟩
          exact Nat.ne_of_gt hroom.1
      · exact Or.inl ⟨_, rfl, rfl⟩

theorem bounceFree_address {k : Kernel} {b : Block} (hb : b ∈ k.heap.live) :
    k.heap.Frees (bounceFree k b.address).heap [b] := by
  rw [bounceFree, if_pos (Nat.ne_of_gt (k.heap.placed b hb).1)]
  exact Heap.frees_free hb

theorem copyIn_spec (env : Surroundings) (requestorMode : KProcessorMode)
    {h : Heap (256 ^ 8)} {k : Kernel} {b : Block} (hheld : h.Holds k.heap [b])
    (buffer alignment : ℕ) :
    ∃ code k', copyIn env requestorMode k b.address buffer b.size alignment =
        (code, k') ∧
      h.Holds k'.heap [b] ∧ k'.heap.freed = k.heap.freed ∧
      (code = none → Copied env buffer k'.heap.memory b) := by
  unfold copyIn
  simp only
  split
  · next code _ => exact ⟨some code, k, rfl, hheld, rfl, by simp⟩
  · have hle := length_fetch_le env k.clock buffer b.size
    refine ⟨_, _, rfl, hheld.write (List.mem_singleton_self b) (le_refl _)
      (by omega), rfl, fun hcode => ?_⟩
    obtain ⟨-, hbytes⟩ := fetch_complete hcode
    refine ⟨k.clock, fun i hi => ?_⟩
    obtain ⟨_, hget, hread⟩ := hbytes i hi
    rw [hread]
    simp [Heap.write, Memory.write, List.getD, hget]

theorem bounceBuffer_cases (k : Kernel) (buffer : ℕ) {bufferSize : ℕ}
    (alignment : ℕ) (hsize : bufferSize ≠ 0) :
    (∃ status k', bounceBuffer env requestorMode k buffer bufferSize alignment =
        (status, 0, k') ∧
      status.ntSuccess = false ∧ k.heap.Holds k'.heap []) ∨
    ∃ b k', bounceBuffer env requestorMode k buffer bufferSize alignment =
        (.success, b.address, k') ∧
      b.size = bufferSize ∧ k.heap.Holds k'.heap [b] ∧
      k'.heap.freed = k.heap.freed ∧
      Copied env buffer k'.heap.memory b := by
  rw [bounceBuffer, if_neg hsize]
  rcases exAllocatePoolZero_cases env k bufferSize with
    ⟨k₁, hnull, hheap⟩ | ⟨b, k₁, hblock, hne, rfl, hheld, hfreed⟩
  · rw [hnull]
    refine Or.inl ⟨.noMemory, k₁, rfl, rfl, ?_⟩
    rw [hheap]
    exact Heap.Holds.refl _
  · rw [hblock]
    simp only [if_neg hne]
    obtain ⟨code, k₂, hcopy, hheld₂, hfreed₂, hcopied⟩ :=
      copyIn_spec env requestorMode hheld buffer alignment
    rw [hcopy]
    cases code with
    | none =>
      exact Or.inr ⟨b, k₂, rfl, rfl, hheld₂, hfreed₂.trans hfreed, hcopied rfl⟩
    | some code =>
      refine Or.inl ⟨code.status, _, rfl, code.failed, ?_⟩
      exact hheld₂.frees
        (bounceFree_address (hheld₂.mem_live (List.mem_singleton_self b)))

end WinNetTest.Fnio.Bounce
