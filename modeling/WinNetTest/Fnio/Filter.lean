import WinNetTest.Fnio.NetBuffer
import WinNetTest.Status
import Mathlib.Algebra.Order.Ring.Nat

/-!
# Data filters

The capture filter shared by the drivers (`filter.c`).  A filter holds a
pattern and a mask, the queue of NBLs it has captured and the queue of those
that were dequeued and wait to be returned.  Each captured NBL owns one pool
allocation, its context, through its scratch pointer.

Pool allocations are identified by their serial number.  Using the context of
an NBL whose scratch pointer is null, or refers to a freed allocation, stops
the system: the checked build asserts and the free build passes a bad pointer
to the pool.  The pool records this as a fault.
-/

namespace WinNetTest.Fnio

/-! ## The context pool -/

/-- The context allocations made so far, those freed, in order, and whether a
context has been used that does not exist. -/
structure ContextPool where
  allocated : ℕ
  freed : List ℕ
  fault : Bool
  deriving DecidableEq

namespace ContextPool

def empty : ContextPool := ⟨0, [], false⟩

end ContextPool

variable (pool : ContextPool)

/-- `FnIoFilterNblContext`: the context of a captured NBL, or `none` where the
scratch pointer is null or dangling. -/
def fnIoFilterNblContext (nbl : NetBufferList) : Option FilterNblContext :=
  match nbl.scratch with
  | none => none
  | some context =>
    if context.address ∈ pool.freed then none else some context

/-! ## Filter parameters -/

/-- The pattern and mask of a filter, not empty and of one length. -/
structure FilterParams where
  pattern : List UInt8
  mask : List UInt8
  mask_length : mask.length = pattern.length
  pattern_ne_nil : pattern ≠ []
  deriving DecidableEq

def FilterParams.length (params : FilterParams) : ℕ :=
  params.pattern.length

def FilterParams.ofPairs (first : UInt8 × UInt8)
    (rest : List (UInt8 × UInt8)) : FilterParams where
  pattern := first.1 :: rest.map Prod.fst
  mask := first.2 :: rest.map Prod.snd
  mask_length := by simp
  pattern_ne_nil := List.cons_ne_nil _ _

/-- What a `BounceBuffer` call meets: whether its allocation succeeds, and the
caller's memory, or `none` when reading it raises an exception. -/
structure UserRead where
  allocated : Bool
  contents : Option (ℕ → UInt8)

/-- `BounceBuffer`: copy `size` bytes of the caller's memory. -/
def bounceBuffer (read : UserRead) (size : ℕ) : Except NtStatus (List UInt8) :=
  if size = 0 then .ok []
  else if !read.allocated then .error .noMemory
  else
    match read.contents with
    | none => .error .accessViolation
    | some byte => .ok ((List.range size).map byte)

theorem bounceBuffer_length
    {read : UserRead} {size : ℕ} {bytes : List UInt8}
    (h : bounceBuffer read size = .ok bytes) : bytes.length = size := by
  unfold bounceBuffer at h
  split at h
  · cases h
    simp_all
  · split at h
    · cases h
    · split at h
      · cases h
      · cases h
        simp

/-- The input of a filter IOCTL: the length of the system buffer, the `Length`
field, the caller's pattern and mask, and which pool allocations succeed. -/
structure FilterRequest where
  inputBufferLength : ℕ
  length : UInt32
  pattern : UserRead
  mask : UserRead
  filterAllocated : Bool
  bufferAllocated : Bool

def sizeofDataFilterIn : ℕ := 24

/-- `FnIoIoctlBounceFilter`: the pattern and the mask, both empty when the
requested length is zero. -/
def fnIoIoctlBounceFilter (request : FilterRequest) :
    Except NtStatus (List UInt8 × List UInt8) :=
  if request.inputBufferLength < sizeofDataFilterIn then
    .error .bufferTooSmall
  else if request.length = 0 then .ok ([], [])
  else
    match bounceBuffer request.pattern request.length.toNat with
    | .error status => .error status
    | .ok pattern =>
      match bounceBuffer request.mask request.length.toNat with
      | .error status => .error status
      | .ok mask => .ok (pattern, mask)

variable {request : FilterRequest}

theorem fnIoIoctlBounceFilter_mask_length {pattern mask : List UInt8}
    (h : fnIoIoctlBounceFilter request = .ok (pattern, mask)) :
    mask.length = pattern.length := by
  unfold fnIoIoctlBounceFilter at h
  split at h
  · cases h
  · split at h
    · cases h
      rfl
    · split at h
      · cases h
      · rename_i hpattern
        split at h
        · cases h
        · rename_i hmask
          cases h
          rw [bounceBuffer_length hmask, bounceBuffer_length hpattern]

structure DataFilter where
  params : FilterParams
  nblQueue : NblCountedQueue
  nblReturn : NblCountedQueue
  captured : List ℕ
  deriving DecidableEq

def fnIoCreateFilter (request : FilterRequest) : Option DataFilter :=
  if !request.filterAllocated then none
  else
    match hbounce : fnIoIoctlBounceFilter request with
    | .error _ => none
    | .ok (pattern, mask) =>
      if hempty : pattern = [] then none
      else if !request.bufferAllocated then none
      else
        some
          { params :=
              ⟨pattern, mask, fnIoIoctlBounceFilter_mask_length hbounce, hempty⟩
            nblQueue := .empty
            nblReturn := .empty
            captured := [] }

variable {filter : DataFilter}

theorem fnIoCreateFilter_queues (h : fnIoCreateFilter request = some filter) :
    filter.nblQueue = .empty ∧ filter.nblReturn = .empty ∧
      filter.captured = [] := by
  unfold fnIoCreateFilter at h
  split at h
  · cases h
  · split at h
    · cases h
    · split at h
      · cases h
      · split at h
        · cases h
        · cases h
          exact ⟨rfl, rfl, rfl⟩

/-! ## Capturing -/

/-- `FnIoFilterNb`: the first bytes of the packet agree with the pattern on
every bit of the mask. -/
def fnIoFilterNb (filter : DataFilter) (netBuffer : NetBuffer) : Bool :=
  let dataLength := min netBuffer.dataLength filter.params.length
  ((netBuffer.data.take dataLength).zip
    (filter.params.pattern.zip filter.params.mask)).all
      fun (byte, pattern, mask) => (byte ^^^ pattern) &&& mask == 0

/-- What a capture depends on besides the filter and the NBL: which context
allocations succeed, the interrupt time of each capture, and the processor. -/
structure CaptureEnv where
  allocated : ℕ → ℕ → Bool
  interruptTime : ℕ → ℕ → UInt64
  processorNumber : ProcessorNumber

/-- Queue an NBL with its context, as `FnIoFilterNbl` does on a match. -/
def DataFilter.capture (filter : DataFilter) (nbl : NetBufferList)
    (context : FilterNblContext) : DataFilter :=
  { filter with
    nblQueue :=
      filter.nblQueue.appendSingleNbl
        (nbl.fnIoFilterNblSetContext (some context))
    captured := filter.captured ++ [nbl.id] }

/-- `FnIoFilterNbl` on the filter of handle `h`. -/
def fnIoFilterNbl (env : CaptureEnv) (h : ℕ) (pool : ContextPool)
    (filter : DataFilter) (nbl : NetBufferList) :
    NtStatus × ContextPool × DataFilter :=
  if nbl.netBuffers.any (fnIoFilterNb filter) then
    if env.allocated nbl.id h then
      let context : FilterNblContext :=
        { address := pool.allocated
          processorNumber := env.processorNumber
          timestamp := env.interruptTime nbl.id h }
      (.pending, { pool with allocated := pool.allocated + 1 },
        filter.capture nbl context)
    else (.noMemory, pool, filter)
  else (.success, pool, filter)

theorem fnIoFilterNbl_cases
    (env : CaptureEnv) (h : ℕ) (pool : ContextPool)
    (filter : DataFilter) (nbl : NetBufferList) :
    (∃ context : FilterNblContext, context.address = pool.allocated ∧
      fnIoFilterNbl env h pool filter nbl = (.pending,
          { pool with allocated := pool.allocated + 1 },
          filter.capture nbl context)) ∨
    ∃ status, status ≠ .pending ∧
      fnIoFilterNbl env h pool filter nbl = (status, pool, filter) := by
  by_cases hmatch : nbl.netBuffers.any (fnIoFilterNb filter) = true
  · by_cases halloc : env.allocated nbl.id h = true
    · left
      exact ⟨⟨pool.allocated, env.processorNumber, env.interruptTime nbl.id h⟩,
        rfl, by simp only [fnIoFilterNbl, hmatch, halloc, if_true]⟩
    · right
      exact ⟨.noMemory, by decide, by simp [fnIoFilterNbl, hmatch, halloc]⟩
  · right
    exact ⟨.success, by decide, by simp [fnIoFilterNbl, hmatch]⟩

/-! ## Captured frames -/

/-- The matching net buffer with number `subIndex` among `netBuffers`. -/
def nthMatchingNb (filter : DataFilter) : ℕ → List NetBuffer → Option NetBuffer
  | _, [] => none
  | subIndex, netBuffer :: rest =>
    if fnIoFilterNb filter netBuffer then
      match subIndex with
      | 0 => some netBuffer
      | subIndex + 1 => nthMatchingNb filter subIndex rest
    else nthMatchingNb filter subIndex rest

/-- `FnIoGetFilteredFrameNb`: the NBL at a queue position and its matching net
buffer with the given number. -/
def fnIoGetFilteredFrameNb (filter : DataFilter) (index subIndex : ℕ) :
    Option (NetBufferList × NetBuffer) :=
  match filter.nblQueue.chain[index]? with
  | none => none
  | some nbl =>
    match nthMatchingNb filter subIndex nbl.netBuffers with
    | none => none
    | some netBuffer => some (nbl, netBuffer)

theorem mem_of_nthMatchingNb {subIndex : ℕ} {netBuffers : List NetBuffer}
    {nb : NetBuffer} (h : nthMatchingNb filter subIndex netBuffers = some nb) :
    nb ∈ netBuffers := by
  induction netBuffers generalizing subIndex with
  | nil => cases h
  | cons netBuffer rest ih =>
    unfold nthMatchingNb at h
    split at h
    · cases subIndex with
      | zero =>
        cases h
        exact List.mem_cons_self
      | succ subIndex => exact List.mem_cons_of_mem _ (ih h)
    · exact List.mem_cons_of_mem _ (ih h)

theorem mem_of_fnIoGetFilteredFrameNb {index subIndex : ℕ} {nbl : NetBufferList}
    {nb : NetBuffer}
    (h : fnIoGetFilteredFrameNb filter index subIndex = some (nbl, nb)) :
    nbl ∈ filter.nblQueue.chain ∧ nb ∈ nbl.netBuffers := by
  unfold fnIoGetFilteredFrameNb at h
  split at h
  · cases h
  · rename_i nbl' hindex
    split at h
    · cases h
    · rename_i nb' hnb
      cases h
      exact ⟨List.mem_of_getElem? hindex, mem_of_nthMatchingNb hnb⟩

/-- The `Input` side of a `DATA_FRAME`; a field is present when its flag is
set. -/
structure FrameInput where
  bufferCount : UInt16
  rssHashQueueId : Option UInt32
  checksum : Option UInt64
  rsc : Option (UInt16 × UInt64)
  timestamp : Option UInt64

def updateInfo (frame : FrameInput) (info : NblInfo) : NtStatus × NblInfo :=
  let info :=
    match frame.checksum with
    | none => info
    | some value => { info with tcpIpChecksum := value }
  match frame.rsc with
  | some (coalescedSegCount, value) =>
    if coalescedSegCount < 1 then (.invalidParameter, info)
    else
      let info := { info with tcpRecvSegCoalesce := value }
      (.success, match frame.timestamp with
        | none => info
        | some time => { info with timestamp := time })
  | none =>
    (.success, match frame.timestamp with
      | none => info
      | some time => { info with timestamp := time })

namespace NblCountedQueue

def modify (q : NblCountedQueue) (index : ℕ)
    (f : NetBufferList → NetBufferList) : NblCountedQueue :=
  ⟨q.chain.modify index f, q.nblCount, by simp [q.counted]⟩

theorem map_chain_modify
    {α : Type*} {g : NetBufferList → α} {f : NetBufferList → NetBufferList}
    (q : NblCountedQueue) (index : ℕ) (hf : ∀ nbl, g (f nbl) = g nbl) :
    (q.modify index f).chain.map g = q.chain.map g := by
  simp only [modify]
  generalize q.chain = nbls
  induction nbls generalizing index with
  | nil => simp
  | cons nbl rest ih =>
    cases index with
    | zero => simp [hf]
    | succ index => simpa using ih index

end NblCountedQueue

def fnIoSetFilteredFrame (filter : DataFilter) (index subIndex : ℕ)
    (frame : FrameInput) : NtStatus × DataFilter :=
  if frame.bufferCount > 0 then (.notSupported, filter)
  else
    match fnIoGetFilteredFrameNb filter index subIndex with
    | none => (.notFound, filter)
    | some (nbl, _) =>
      if frame.rssHashQueueId.isSome then (.notSupported, filter)
      else
        ((updateInfo frame nbl.info).1, { filter with
            nblQueue := filter.nblQueue.modify index fun nbl =>
              { nbl with info := (updateInfo frame nbl.info).2 } })

theorem fnIoSetFilteredFrame_cases
    (filter : DataFilter) (index subIndex : ℕ) (frame : FrameInput) :
    (∃ status, status ≠ .success ∧
      fnIoSetFilteredFrame filter index subIndex frame = (status, filter)) ∨
    ∃ nbl nb, fnIoGetFilteredFrameNb filter index subIndex = some (nbl, nb) ∧
      frame.bufferCount = 0 ∧ frame.rssHashQueueId = none ∧
      fnIoSetFilteredFrame filter index subIndex frame =
        ((updateInfo frame nbl.info).1, { filter with
            nblQueue := filter.nblQueue.modify index fun nbl =>
              { nbl with info := (updateInfo frame nbl.info).2 } }) := by
  unfold fnIoSetFilteredFrame
  split
  · exact Or.inl ⟨.notSupported, by decide, rfl⟩
  · next hcount =>
      split
      · exact Or.inl ⟨.notFound, by decide, rfl⟩
      · next nbl nb hfound =>
          split
          · exact Or.inl ⟨.notSupported, by decide, rfl⟩
          · next hrss =>
              refine Or.inr ⟨nbl, nb, hfound, ?_, by simpa using hrss, rfl⟩
              exact UInt16.toNat_inj.mp (Nat.eq_zero_of_not_pos hcount)

theorem fnIoSetFilteredFrame_map
    {α : Type*} {g : NetBufferList → α}
    (hg : ∀ nbl info, g { nbl with info := info } = g nbl)
    (filter : DataFilter) (index subIndex : ℕ) (frame : FrameInput) :
    (fnIoSetFilteredFrame filter index subIndex frame).2.nblQueue.chain.map g =
      filter.nblQueue.chain.map g := by
  rcases fnIoSetFilteredFrame_cases filter index subIndex frame with
    ⟨_, -, heq⟩ | ⟨nbl, nb, -, -, -, heq⟩
  · rw [heq]
  · rw [heq]
    exact NblCountedQueue.map_chain_modify _ _ fun nbl => hg nbl _

/-- The loop of `FnIoDequeueFilteredFrame` with its 32-bit counter: the NBL at
`index` goes to the return queue. -/
def dequeueLoop (index : ℕ) :
    ℕ → List NetBufferList → NtStatus × NblCountedQueue × NblCountedQueue →
      NtStatus × NblCountedQueue × NblCountedQueue
  | _, [], acc => acc
  | nblIndex, nbl :: rest, (status, nblReturn, nblChain) =>
    if nblIndex = index then
      dequeueLoop index ((nblIndex + 1) % 2 ^ 32) rest
        (.success, nblReturn.appendSingleNbl nbl, nblChain)
    else
      dequeueLoop index ((nblIndex + 1) % 2 ^ 32) rest
        (status, nblReturn, nblChain.appendSingleNbl nbl)

def fnIoDequeueFilteredFrame (filter : DataFilter) (index : ℕ) :
    NtStatus × DataFilter :=
  let (status, nblReturn, nblChain) :=
    dequeueLoop index 0 filter.nblQueue.chain
      (.notFound, filter.nblReturn, .empty)
  (status, { filter with
      nblQueue := NblCountedQueue.empty.appendQueue nblChain
      nblReturn := nblReturn })

/-! ## Flushing -/

/-- `FnIoFreeFlushedFrameContexts` on a chain.  It stops at the first NBL
whose context does not exist. -/
def fnIoFreeFlushedFrameContexts (pool : ContextPool) :
    List NetBufferList → ContextPool × List NetBufferList
  | [] => (pool, [])
  | nbl :: rest =>
    match fnIoFilterNblContext pool nbl with
    | none => ({ pool with fault := true }, nbl :: rest)
    | some context =>
      let (pool, rest) :=
        fnIoFreeFlushedFrameContexts
          { pool with freed := pool.freed ++ [context.address] } rest
      (pool, nbl.fnIoFilterNblSetContext none :: rest)

theorem fnIoFreeFlushedFrameContexts_ids (nbls : List NetBufferList) :
    (fnIoFreeFlushedFrameContexts pool nbls).2.map NetBufferList.id =
      nbls.map NetBufferList.id := by
  induction nbls generalizing pool with
  | nil => rfl
  | cons nbl rest ih =>
    unfold fnIoFreeFlushedFrameContexts
    split
    · rfl
    · simp [ih]

def NblCountedQueue.freeContexts (q : NblCountedQueue) :
    ContextPool × NblCountedQueue :=
  ((fnIoFreeFlushedFrameContexts pool q.chain).1,
    ⟨(fnIoFreeFlushedFrameContexts pool q.chain).2, q.nblCount, by
      have hids := congrArg List.length
        (fnIoFreeFlushedFrameContexts_ids pool q.chain)
      simp only [List.length_map] at hids
      rw [hids, q.counted]⟩)

def fnIoFlushDequeuedFrames (pool : ContextPool) (filter : DataFilter)
    (flushQueue : NblCountedQueue) :
    ContextPool × DataFilter × NblCountedQueue :=
  let (pool, flushQueue) :=
    (flushQueue.appendQueue filter.nblReturn).freeContexts pool
  (pool, { filter with nblReturn := .empty }, flushQueue)

def fnIoFlushAllFrames (filter : DataFilter) (flushQueue : NblCountedQueue) :
    ContextPool × DataFilter × NblCountedQueue :=
  let (pool, flushQueue) :=
    ((flushQueue.appendQueue filter.nblQueue).appendQueue
      filter.nblReturn).freeContexts pool
  (pool, { filter with nblQueue := .empty, nblReturn := .empty }, flushQueue)

/-! ## The watchdog -/

def watchdogGracePeriod : UInt64 := 50000000

/-- `FnIoIsNblQueueWatchdogExpired` at a given time; `none` where a context
does not exist. -/
def fnIoIsNblQueueWatchdogExpired (pool : ContextPool) (currentTime : UInt64) :
    List NetBufferList → Option Bool
  | [] => some false
  | nbl :: rest =>
    match fnIoFilterNblContext pool nbl with
    | none => none
    | some context =>
      if currentTime > context.timestamp + watchdogGracePeriod then
        some true
      else fnIoIsNblQueueWatchdogExpired pool currentTime rest

/-- `FnIoIsFilterWatchdogExpired`.  The time is read once for each queue. -/
def fnIoIsFilterWatchdogExpired (queueTime returnTime : UInt64)
    (filter : DataFilter) : Option Bool :=
  match fnIoIsNblQueueWatchdogExpired pool queueTime filter.nblQueue.chain with
  | none => none
  | some true => some true
  | some false =>
    fnIoIsNblQueueWatchdogExpired pool returnTime filter.nblReturn.chain

end WinNetTest.Fnio
