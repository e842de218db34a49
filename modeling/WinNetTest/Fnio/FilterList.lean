import WinNetTest.Fnio.GetFrame
import WinNetTest.Support.Table

/-!
# The filter list of an adapter

FNMP's shared adapter and FNLWF's filter module each keep a list of open
handles, every one with at most one data filter, and link those with a filter
into a list in the order of registration.  One spin lock protects all of it.
The functions of this module are the bodies of the sections that run under
that lock; they are the same in both drivers.
-/

namespace WinNetTest.Fnio

open Support

/-- The lock-protected state: the open handles with their data filters, possibly
null, the handles in the order of their links, and the context pool. -/
structure FilterList where
  handles : Table ℕ (Option DataFilter)
  links : List ℕ
  pool : ContextPool
  nullFilter : Bool

namespace FilterList

def empty : FilterList := ⟨∅, [], .empty, false⟩

def filter? (fl : FilterList) (h : ℕ) : Option DataFilter :=
  (fl.handles.lookup h).join

def isOpen (fl : FilterList) (h : ℕ) : Bool :=
  (fl.handles.lookup h).isSome

def stopped (fl : FilterList) : Bool :=
  fl.pool.fault || fl.nullFilter

def setFilter (fl : FilterList) (h : ℕ) (filter : Option DataFilter)
    (pool : ContextPool) : FilterList :=
  { fl with handles := fl.handles.insert h filter, pool := pool }

end FilterList

/-- A section in progress: the protected state, the flush queue, and a record of
the filters it has cleared, each as its handle and captured NBLs. -/
structure Sweep where
  filters : FilterList
  queue : NblCountedQueue
  cleared : List (ℕ × List ℕ)

namespace Sweep

def start (fl : FilterList) : Sweep := ⟨fl, .empty, []⟩

/-- `SharedTxClearFilter` and `RxClearFilter`: unlink the handle, flush its
frames into the queue and delete the filter. -/
def clearFilter (s : Sweep) (h : ℕ) : Sweep :=
  let filters := { s.filters with links := s.filters.links.erase h }
  match filters.filter? h with
  | none => { s with filters := filters }
  | some filter =>
    let (pool, _, queue) := fnIoFlushAllFrames filters.pool filter s.queue
    { filters := filters.setFilter h none pool
      queue := queue
      cleared := s.cleared ++ [(h, filter.captured)] }

/-- The loop of `SharedTxWatchdogTimeout` and `RxWatchdogTimeout`, with the
times read for the queues of each filter. -/
def watchdogLoop (clock : ℕ → UInt64 × UInt64) : List ℕ → Sweep → Sweep
  | [], s => s
  | h :: rest, s =>
    if s.filters.stopped then s
    else
      match s.filters.filter? h with
      | none => { s with filters := { s.filters with nullFilter := true } }
      | some filter =>
        match fnIoIsFilterWatchdogExpired s.filters.pool
          (clock h).1 (clock h).2 filter with
        | none =>
          { s with filters :=
            { s.filters with
              pool := { s.filters.pool with fault := true } } }
        | some true => watchdogLoop clock rest (s.clearFilter h)
        | some false => watchdogLoop clock rest s

end Sweep

namespace FilterList

variable (fl : FilterList)

/-- `SharedTxCreate` and `RxCreate`: a handle without a filter. -/
def create (h : ℕ) : FilterList :=
  { fl with handles := fl.handles.insert h none }

/-- What `SharedIrpTxFilter` and `RxIrpFilter` do before the lock; `ok none`
when the filter is only to be cleared. -/
def prepareFilter (request : FilterRequest) :
    Except NtStatus (Option DataFilter) :=
  if request.inputBufferLength < sizeofDataFilterIn then
    .error .bufferTooSmall
  else if request.length = 0 then .ok none
  else
    match fnIoCreateFilter request with
    | none => .error .noMemory
    | some filter => .ok (some filter)

variable {request : FilterRequest}

theorem prepareFilter_cases {dataFilter : Option DataFilter}
    (h : prepareFilter request = .ok dataFilter) :
    request.length = 0 ∧ dataFilter = none ∨
      ∃ filter, dataFilter = some filter ∧
        fnIoCreateFilter request = some filter := by
  unfold prepareFilter at h
  split at h
  · cases h
  · split at h
    · rename_i hlength
      cases h
      exact Or.inl ⟨hlength, rfl⟩
    · split at h
      · cases h
      · rename_i filter hcreate
        cases h
        exact Or.inr ⟨filter, rfl, hcreate⟩

theorem prepareFilter_error {status : NtStatus}
    (h : prepareFilter request = .error status) : status ≠ .success := by
  unfold prepareFilter at h
  split at h
  · cases h
    decide
  · split at h
    · cases h
    · split at h
      · cases h
        decide
      · cases h

/-- The lock section of `SharedIrpTxFilter` and `RxIrpFilter`: clear the filter,
then link the new one, if any. -/
def irpFilter (h : ℕ) (dataFilter : Option DataFilter) : Sweep :=
  let s := (Sweep.start fl).clearFilter h
  match dataFilter with
  | none => s
  | some filter =>
    { s with filters :=
      { s.filters with
        handles := s.filters.handles.insert h (some filter)
        links := s.filters.links ++ [h] } }

def sizeofDataGetFrameIn : ℕ := 8

def sizeofDataSetFrameIn : ℕ := 64

def sizeofDataDequeueFrameIn : ℕ := 4

/-- The lock section of `SharedIrpTxGetFrame` and `RxIrpGetFrame`.  A bad
context stops the system. -/
def irpGetFrame (h inputBufferLength index subIndex : ℕ)
    (request : OutputRequest) : NtStatus × FilterList :=
  match fl.filter? h with
  | none => (.notFound, fl)
  | some filter =>
    if inputBufferLength < sizeofDataGetFrameIn then (.bufferTooSmall, fl)
    else
      match fnIoGetFilteredFrame fl.pool filter index subIndex request with
      | none =>
        (.unsuccessful, { fl with pool := { fl.pool with fault := true } })
      | some result => (result.status, fl)

def irpFrame (h inputBufferLength size : ℕ)
    (body : DataFilter → NtStatus × DataFilter) : NtStatus × FilterList :=
  match fl.filter? h with
  | none => (.notFound, fl)
  | some filter =>
    if inputBufferLength < size then (.bufferTooSmall, fl)
    else
      let (status, filter) := body filter
      (status, fl.setFilter h (some filter) fl.pool)

/-- The lock section of `SharedIrpTxSetFrame`. -/
def irpSetFrame (h inputBufferLength index subIndex : ℕ) (frame : FrameInput) :
    NtStatus × FilterList :=
  fl.irpFrame h inputBufferLength sizeofDataSetFrameIn fun filter =>
    fnIoSetFilteredFrame filter index subIndex frame

/-- The lock section of `SharedIrpTxDequeueFrame` and `RxIrpDequeueFrame`. -/
def irpDequeueFrame (h inputBufferLength index : ℕ) : NtStatus × FilterList :=
  fl.irpFrame h inputBufferLength sizeofDataDequeueFrameIn fun filter =>
    fnIoDequeueFilteredFrame filter index

/-- The lock section of `SharedIrpTxFlush` and `RxIrpFlush`. -/
def irpFlush (h : ℕ) : Sweep :=
  match fl.filter? h with
  | none => .start fl
  | some filter =>
    let (pool, filter, queue) :=
      fnIoFlushDequeuedFrames fl.pool filter .empty
    { filters := fl.setFilter h (some filter) pool
      queue := queue
      cleared := [] }

/-- The loop of `SharedTxFilterNbl` and `RxFilterNbl`: offer the NBL to the
linked filters until one captures it. -/
def filterNblLoop (env : CaptureEnv) (nbl : NetBufferList) (fl : FilterList) :
    List ℕ → Bool × FilterList
  | [] => (false, fl)
  | h :: rest =>
    match fl.filter? h with
    | none => (false, { fl with nullFilter := true })
    | some filter =>
      let (status, pool, filter) := fnIoFilterNbl env h fl.pool filter nbl
      if status = .pending then
        (true, fl.setFilter h (some filter) pool)
      else filterNblLoop env nbl fl rest

/-- `SharedTxFilterNbl` and `RxFilterNbl`. -/
def filterNbl (env : CaptureEnv) (fl : FilterList) (nbl : NetBufferList) :
    Bool × FilterList :=
  filterNblLoop env nbl fl fl.links

/-- The loop of `MpSendNetBufferLists` and `FilterReceiveNetBufferLists`:
uncaptured NBLs go to the queue that is passed on. -/
def filterNbls (env : CaptureEnv) : List NetBufferList → Sweep → Sweep
  | [], s => s
  | nbl :: rest, s =>
    let (captured, filters) := s.filters.filterNbl env nbl
    filterNbls env rest
      { s with
        filters := filters
        queue := if captured then s.queue else s.queue.appendSingleNbl nbl }

/-- The lock section of `MpSendNetBufferLists` and
`FilterReceiveNetBufferLists`. -/
def capture (env : CaptureEnv) (fl : FilterList) (chain : NblCountedQueue) :
    Sweep :=
  filterNbls env chain.chain (.start fl)

def watchdog (clock : ℕ → UInt64 × UInt64) (fl : FilterList) : Sweep :=
  Sweep.watchdogLoop clock fl.links (.start fl)

/-- `SharedTxCleanup` and `RxCleanup` up to the completion of the flushed
frames. -/
def cleanup (h : ℕ) : Sweep :=
  let s := (Sweep.start fl).clearFilter h
  { s with filters :=
    { s.filters with handles := s.filters.handles.erase h } }

end FilterList

inductive Section where
  | create (h : ℕ)
  | filter (h : ℕ) (request : FilterRequest)
  | getFrame (h inputBufferLength index subIndex : ℕ)
      (request : OutputRequest)
  | setFrame (h inputBufferLength index subIndex : ℕ) (frame : FrameInput)
  | dequeueFrame (h inputBufferLength index : ℕ)
  | flush (h : ℕ)
  | capture (env : CaptureEnv) (chain : NblCountedQueue)
  | watchdog (clock : ℕ → UInt64 × UInt64)
  | cleanup (h : ℕ)

namespace Section

def incoming : Section → Multiset ℕ
  | capture _ chain => chain.ids
  | _ => 0

def apply (fl : FilterList) : Section → NtStatus × Sweep
  | create h => (.success, .start (fl.create h))
  | filter h request =>
    match FilterList.prepareFilter request with
    | .error status => (status, .start fl)
    | .ok dataFilter => (.success, fl.irpFilter h dataFilter)
  | getFrame h inputBufferLength index subIndex request =>
    let (status, fl) :=
      fl.irpGetFrame h inputBufferLength index subIndex request
    (status, .start fl)
  | setFrame h inputBufferLength index subIndex frame =>
    let (status, fl) := fl.irpSetFrame h inputBufferLength index subIndex frame
    (status, .start fl)
  | dequeueFrame h inputBufferLength index =>
    let (status, fl) := fl.irpDequeueFrame h inputBufferLength index
    (status, .start fl)
  | flush h =>
    let s := fl.irpFlush h
    (if s.queue.isEmpty then .notFound else .success, s)
  | capture env chain => (.success, fl.capture env chain)
  | watchdog clock => (.success, fl.watchdog clock)
  | cleanup h => (.success, fl.cleanup h)

end Section

end WinNetTest.Fnio
