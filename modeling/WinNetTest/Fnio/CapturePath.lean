import WinNetTest.Fnio.FilterList
import WinNetTest.Support.Machine
import WinNetTest.Support.Rundown

/-!
# The capture path

FNMP's send path and FNLWF's receive path are one protocol.  NDIS hands over a
chain of NBLs; the driver takes one rundown reference for each, offers them to
the linked filters under the lock and passes on those nobody captured.  Other
calls change filters, dequeue frames and give captured NBLs back.  Whatever a
call took out under the lock sits in its private queue until the call hands
it back to NDIS and releases the references.

Any other call may run between two lock sections, and before and after each NDIS
call and each rundown operation.  A driver supplies the points in which the
paths differ.
-/

namespace WinNetTest.Fnio

open Support

def ulong (n : ℕ) : ℕ := n % 2 ^ 32

/-- What distinguishes the two drivers: the references taken for a chain, given
its length and the declared number, whether the uncaptured part gives up its
references before it is passed on, and whether an IOCTL rewrites captured
frames. -/
structure Driver where
  acquired : (nblCount declared : ℕ) → ℕ
  releaseFirst : Bool
  hasSetFrame : Bool

namespace CapturePath

inductive Entry where
  | transfer
  | create (h : ℕ)
  | filter (h : ℕ)
  | getFrame (h : ℕ)
  | setFrame (h : ℕ)
  | dequeueFrame (h : ℕ)
  | flush (h : ℕ)
  | watchdog
  | cleanup (h : ℕ)
  deriving DecidableEq

def Entry.handle? : Entry → Option ℕ
  | transfer => none
  | create h => some h
  | filter h => some h
  | getFrame h => some h
  | setFrame h => some h
  | dequeueFrame h => some h
  | flush h => some h
  | watchdog => none
  | cleanup h => some h

def Entry.ofSection : Section → Entry
  | .create h => create h
  | .filter h _ => filter h
  | .getFrame h _ _ _ _ => getFrame h
  | .setFrame h _ _ _ _ => setFrame h
  | .dequeueFrame h _ _ => dequeueFrame h
  | .flush h => flush h
  | .capture _ _ => transfer
  | .watchdog _ => watchdog
  | .cleanup h => cleanup h

/-- Where a call stands: a chain with its references before the lock, NBLs to be
handed back with or without references to release afterwards, NBLs whose
references are released first, references left to release, or nothing left to
do. -/
inductive Phase where
  | accepted (chain : NblCountedQueue)
  | completing (queue : NblCountedQueue)
  | releasing (queue : NblCountedQueue)
  | passing (queue : NblCountedQueue)
  | completed (count : ℕ)
  | finished
  deriving DecidableEq

/-- A call in progress: its entry point, the status it will return, the
filters it has cleared and where it stands. -/
structure Call where
  entry : Entry
  status : NtStatus
  cleared : List (ℕ × List ℕ)
  phase : Phase
  deriving DecidableEq

/-- The state of the path and, as a record, how many NBLs have been received,
which were accepted and which handed back, in order, the calls that have
returned, the number of handles opened, and whether all counts have fitted a
`ULONG`. -/
structure State where
  filters : FilterList
  rundown : Rundown
  calls : Table ℕ Call
  received : ℕ
  accepted : List ℕ
  completed : List ℕ
  returned : List Call
  nextHandle : ℕ
  countsFit : Bool

def init : State :=
  { filters := .empty
    rundown := .rundown
    calls := ∅
    received := 0
    accepted := []
    completed := []
    returned := []
    nextHandle := 0
    countsFit := true }

inductive Label where
  | receive (c declared : ℕ) (nbls : List NetBufferList)
  | transferLocked (c : ℕ) (env : CaptureEnv)
  | locked (c : ℕ) (sec : Section)
  | complete (c : ℕ)
  | release (c : ℕ)
  | pause
  | restart

variable (s : State)

def State.settle (c : ℕ) (call : Call) : State :=
  if call.phase = .finished then
    { s with calls := s.calls.erase c, returned := s.returned ++ [call] }
  else { s with calls := s.calls.insert c call }

def numbered (start : ℕ) : List NetBufferList → List NetBufferList
  | [] => []
  | nbl :: rest => { nbl with id := start } :: numbered (start + 1) rest

variable (d : Driver)

/-- The head of `MpSendNetBufferLists` and `FilterReceiveNetBufferLists`: take
references for the chain, or go on to pass it on unfiltered. -/
def receive (s : State) (c declared : ℕ) (nbls : List NetBufferList) : State :=
  let chain :=
    NblCountedQueue.empty.appendNblChain (numbered s.received nbls)
  let s := { s with received := s.received + nbls.length }
  match s.rundown.acquire (d.acquired chain.nblCount declared) with
  | none => s.settle c ⟨.transfer, .success, [], .passing chain⟩
  | some rundown =>
    State.settle
      { s with
        rundown := rundown
        accepted := s.accepted ++ chain.chain.map NetBufferList.id
        countsFit :=
          s.countsFit && d.acquired chain.nblCount declared == chain.nblCount }
      c ⟨.transfer, .success, [], .accepted chain⟩

def afterSection (queue : NblCountedQueue) : Phase :=
  if queue.isEmpty then .finished else .completing queue

def transferLocked (s : State) (c : ℕ) (env : CaptureEnv)
    (chain : NblCountedQueue) : State :=
  let sweep := s.filters.capture env chain
  State.settle { s with filters := sweep.filters } c
    ⟨.transfer, .success, [], if d.releaseFirst then .releasing sweep.queue
      else afterSection sweep.queue⟩

def handlesOpened : Section → ℕ
  | .create _ => 1
  | _ => 0

def locked (c : ℕ) (sec : Section) : State :=
  let result := sec.apply s.filters
  State.settle
    { s with
      filters := result.2.filters
      nextHandle := s.nextHandle + handlesOpened sec }
    c ⟨.ofSection sec, result.1, result.2.cleared, afterSection result.2.queue⟩

/-- A call may start: its key is free, its handle is new or open, and a handle
is closed only when no call on it is running. -/
def mayStart (s : State) (c : ℕ) (sec : Section) : Bool :=
  (s.calls.lookup c).isNone &&
    match sec with
    | .create h => h == s.nextHandle
    | .capture _ _ => false
    | .watchdog _ => true
    | .cleanup h =>
      s.filters.isOpen h &&
        s.calls.entries.all fun call => call.2.entry.handle? != some h
    | .filter h _ => s.filters.isOpen h
    | .getFrame h _ _ _ _ => s.filters.isOpen h
    | .setFrame h _ _ _ _ => d.hasSetFrame && s.filters.isOpen h
    | .dequeueFrame h _ _ => s.filters.isOpen h
    | .flush h => s.filters.isOpen h

def State.handBack (queue : NblCountedQueue) : State :=
  { s with completed := s.completed ++ queue.chain.map NetBufferList.id }

def State.releaseCount (count : ℕ) : State :=
  { s with rundown := s.rundown.release count }

/-- Record whether a count fits in a `ULONG`. -/
def State.converted (count : ℕ) : State :=
  { s with countsFit := s.countsFit && ulong count == count }

/-- `NdisMSendNetBufferListsComplete` or `NdisFIndicateReceiveNetBufferLists`
by one call. -/
def complete (c : ℕ) (call : Call) : Option State :=
  match call.phase with
  | .completing queue =>
    some (((s.handBack queue).converted queue.nblCount).settle c
      { call with phase := .completed (ulong queue.nblCount) })
  | .passing queue =>
    some ((s.handBack queue).settle c { call with phase := .finished })
  | _ => none

/-- `ExReleaseRundownProtectionEx` by one call. -/
def release (c : ℕ) (call : Call) : Option State :=
  match call.phase with
  | .completed count =>
    some ((s.releaseCount count).settle c { call with phase := .finished })
  | .releasing queue =>
    some
      (((s.releaseCount (ulong queue.nblCount)).converted
        queue.nblCount).settle c
        { call with
          phase := if queue.isEmpty then .finished else .passing queue })
  | _ => none

/-- The step function.  Nothing happens after the system has stopped. -/
def step (s : State) (label : Label) : Option State :=
  if s.filters.stopped then none
  else
    match label with
    | .receive c declared nbls =>
      if (s.calls.lookup c).isNone then some (receive d s c declared nbls)
      else none
    | .transferLocked c env =>
      match s.calls.lookup c with
      | some ⟨.transfer, _, _, .accepted chain⟩ =>
        some (transferLocked d s c env chain)
      | _ => none
    | .locked c sec =>
      if mayStart d s c sec then some (locked s c sec) else none
    | .complete c =>
      match s.calls.lookup c with
      | some call => complete s c call
      | none => none
    | .release c =>
      match s.calls.lookup c with
      | some call => release s c call
      | none => none
    | .pause => some { s with rundown := s.rundown.beginWait }
    | .restart =>
      if s.rundown.released && !s.rundown.active then
        some { s with rundown := .initialized }
      else none

def machine : Machine State Label := ⟨init, step d⟩

end CapturePath

end WinNetTest.Fnio
