import WinNetTest.Fnio.Enqueue
import WinNetTest.Support.Interleaving
import WinNetTest.Support.Rundown

/-!
# The send path of FNLWF

The calls of `tx.c`: `TxIrpEnqueue` builds an NBL and queues it on its handle,
`TxIrpFlush` takes the queue and sends it down, and the lower layers give the
NBLs back through `FilterSendNetBufferListsComplete`, in chains that mix them
with the NBLs of the components above, which `FilterSendNetBufferLists` has
passed down.  The run-down of the filter module is shared with its receive
path.

Closing a handle does not wait for the calls on it, as the I/O manager makes it
do; this only adds interleavings.  NDIS completes only NBLs it has been sent,
each as often as it was sent, and the NBLs of other components have another
source handle.
-/

namespace WinNetTest.Fnlwf.Tx

open Support Fnio

/-! ## The calls -/

/-- The identity of an NBL: the handle of the component that allocated it and
its number there. -/
structure NblKey where
  sourceHandle : ℕ
  id : ℕ
  deriving DecidableEq

/-- A `NET_BUFFER_LIST` with its `SourceHandle`. -/
structure SendNbl where
  sourceHandle : ℕ
  nbl : NetBufferList
  deriving DecidableEq

def SendNbl.key (nbl : SendNbl) : NblKey :=
  ⟨nbl.sourceHandle, nbl.nbl.id⟩

def keys (nbls : List SendNbl) : List NblKey :=
  nbls.map SendNbl.key

/-- The input of `TxIrpEnqueue`: the frame and the field of its `Input` part
that is read. -/
structure EnqueueInput where
  frame : EnqueueRequest
  rssHashQueueId : UInt32

/-- What `TxIrpEnqueue` holds when it reaches the lock: a finished NBL, or a
failure, with or without an NBL that has to be freed. -/
inductive Prepared where
  | ready (nbl : SendNbl)
  | failed (status : NtStatus) (allocated : Bool)

/-- `TxIrpEnqueue` up to the lock. -/
def prepareNbl (ndisFilterHandle id : ℕ) (input : EnqueueInput) : Prepared :=
  match fnIoEnqueueFrameBegin input.frame with
  | .error status => .failed status input.frame.allocatesNbl
  | .ok frame =>
    if input.rssHashQueueId ≠ 0 then .failed .notSupported true
    else
      .ready
        { sourceHandle := ndisFilterHandle
          nbl :=
            { id
              firstNb := frame.netBuffer
              nextNbs := []
              info :=
                { hashValue := 0
                  tcpIpChecksum := 0
                  tcpLargeSend := 0
                  udpSegmentation := 0
                  tcpRecvSegCoalesce := 0
                  timestamp := 0 }
              scratch := none } }

/-- The input of `TxIrpFlush`: the length of the system buffer and the options
that are refused. -/
structure FlushInput where
  inputBufferLength : ℕ
  lowResources : Bool
  rssCpu : Bool

/-- The checks of `TxIrpFlush` before the lock, with the status of a failure. -/
def FlushInput.refusal (input : FlushInput) : Option NtStatus :=
  if input.inputBufferLength < sizeofDataFlushIn then some .bufferTooSmall
  else if input.lowResources || input.rssCpu then some .notSupported
  else none

/-! ## The state -/

/-- Why an NBL is passed to `FnIoEnqueueFrameReturn`: its enqueue failed, its
handle is cleaned up, the run-down refused its flush, or a call completes it. -/
inductive Cause where
  | failed
  | cleanup (h : ℕ)
  | refused
  | completion (c : ℕ)
  deriving DecidableEq

/-- What can be observed of a run: `TxIrpEnqueue` queues an NBL, an IOCTL
returns, a chain is passed to `NdisFSendNetBufferLists`, NDIS completes a chain,
an NBL is passed to `FnIoEnqueueFrameReturn`, and a chain is passed to
`NdisFSendNetBufferListsComplete`. -/
inductive Event where
  | accepted (h n : ℕ)
  | answered (h : ℕ) (status : NtStatus)
  | sent (nbls : List NblKey)
  | completed (c : ℕ) (nbls : List NblKey)
  | released (nbl : NblKey) (cause : Cause)
  | passedUp (c : ℕ) (nbls : List NblKey)
  deriving DecidableEq

structure Shared where
  rundown : Rundown
  handles : Table ℕ (List SendNbl)
  nextNbl : ℕ
  flushReferences : ℕ
  receiveReferences : ℕ
  ndis : Multiset NblKey
  events : List Event

def Shared.initial : Shared where
  rundown := .rundown
  handles := ∅
  nextNbl := 0
  flushReferences := 0
  receiveReferences := 0
  ndis := 0
  events := []

def Shared.record (x : Shared) (event : Event) : Shared :=
  { x with events := event :: x.events }

def Shared.ndisFSendNetBufferLists (x : Shared) (nbls : List SendNbl) :
    Shared :=
  ({ x with ndis := x.ndis + keys nbls }).record (.sent (keys nbls))

def Shared.releaseReference (x : Shared) : Shared :=
  { x with
    rundown := x.rundown.release 1
    flushReferences := x.flushReferences - 1 }

/-- Where a call stands: an enqueue before the lock; a call in
`TxCleanupNblChain`, with the status it returns then, if it is an IOCTL; a flush
that has taken a queue, or that has its references; an IOCTL about to return;
and a completion in its loop, at its head or about to release the reference of
the NBL it has just freed. -/
inductive Call where
  | enqueuing (h : ℕ) (nbl : SendNbl)
  | cleaning (nbls : List NblKey) (cause : Cause)
      (answer : Option (ℕ × NtStatus))
  | flushing (h : ℕ) (nbls : List SendNbl)
  | referenced (h : ℕ) (nbls : List SendNbl)
  | returning (h : ℕ) (status : NtStatus)
  | completing (nblQueue passList : List SendNbl)
  | releasing (nblQueue passList : List SendNbl)
  deriving DecidableEq

inductive Input where
  | open
  | close (h : ℕ)
  | enqueue (h : ℕ) (input : EnqueueInput)
  | flush (h : ℕ) (input : FlushInput)
  | send (nbls : List SendNbl)
  | complete (nbls : List SendNbl)
  | receive (n : ℕ)
  | returnReceived (n : ℕ)
  | pause
  | restart

/-- `TxIrpEnqueue` up to the lock. -/
def beginEnqueue (ndisFilterHandle : ℕ) (x : Shared) (h : ℕ)
    (input : EnqueueInput) : Shared × Option Call :=
  match prepareNbl ndisFilterHandle x.nextNbl input with
  | .ready nbl =>
    ({ x with nextNbl := x.nextNbl + 1 }, some (.enqueuing h nbl))
  | .failed status true =>
    ({ x with nextNbl := x.nextNbl + 1 },
      some (.cleaning [⟨ndisFilterHandle, x.nextNbl⟩] .failed
        (some (h, status))))
  | .failed status false => (x.record (.answered h status), none)

/-- `TxIrpFlush` up to the end of its lock section. -/
def beginFlush (x : Shared) (h : ℕ) (input : FlushInput)
    (queue : List SendNbl) : Shared × Option Call :=
  match input.refusal with
  | some status => (x.record (.answered h status), none)
  | none =>
    if queue = [] then (x.record (.answered h .success), none)
    else
      ({ x with handles := x.handles.insert h [] }, some (.flushing h queue))

def start (ndisFilterHandle : ℕ) (x : Shared) (c : ℕ) :
    Input → Option (Shared × Option Call)
  | .open => some ({ x with handles := x.handles.insert c [] }, none)
  | .close h =>
    (x.handles.lookup h).map fun queue =>
      ({ x with handles := x.handles.erase h },
        some (.cleaning (keys queue) (.cleanup h) none))
  | .enqueue h input =>
    (x.handles.lookup h).map fun _ => beginEnqueue ndisFilterHandle x h input
  | .flush h input =>
    (x.handles.lookup h).map fun queue => beginFlush x h input queue
  | .send nbls =>
    if ∀ nbl ∈ nbls, nbl.sourceHandle ≠ ndisFilterHandle then
      some (x.ndisFSendNetBufferLists nbls, none)
    else none
  | .complete nbls =>
    if (keys nbls : Multiset NblKey) ≤ x.ndis then
      some
        (({ x with ndis := x.ndis - keys nbls }).record
            (.completed c (keys nbls)), some (.completing nbls []))
    else none
  | .receive n =>
    (x.rundown.acquire n).map fun rundown =>
      ({ x with rundown, receiveReferences := x.receiveReferences + n }, none)
  | .returnReceived n =>
    if n ≤ x.receiveReferences then
      some
        ({ x with
            rundown := x.rundown.release n
            receiveReferences := x.receiveReferences - n }, none)
    else none
  | .pause => some ({ x with rundown := x.rundown.beginWait }, none)
  | .restart =>
    if x.rundown.released && !x.rundown.active then
      some ({ x with rundown := .initialized }, none)
    else none

/-- The lock section of `TxIrpEnqueue`.  The count of the queue is the length
of its chain. -/
def appendNbl (x : Shared) (h : ℕ) (nbl : SendNbl) (queue : List SendNbl) :
    Shared × Option Call :=
  if queue.length < 0xFFFFFFFF then
    (({ x with handles := x.handles.insert h (queue ++ [nbl]) }).record
        (.accepted h nbl.nbl.id), some (.returning h .success))
  else
    (x, some (.cleaning [nbl.key] .failed (some (h, .integerOverflow))))

/-- `ExAcquireRundownProtectionEx` by a flush. -/
def acquireReferences (x : Shared) (h : ℕ) (nbls : List SendNbl) :
    Shared × Option Call :=
  match x.rundown.acquire (nbls.length % 2 ^ 32) with
  | none =>
    (x, some (.cleaning (keys nbls) .refused (some (h, .deviceNotReady))))
  | some rundown =>
    ({ x with
        rundown
        flushReferences := x.flushReferences + nbls.length % 2 ^ 32 },
      some (.referenced h nbls))

/-- The loop of `FilterSendNetBufferListsComplete`, up to the release of a
reference or the end of the call. -/
def completeLoop (ndisFilterHandle : ℕ) (x : Shared) (c : ℕ)
    (nblQueue passList : List SendNbl) : Shared × Option Call :=
  match nblQueue with
  | nbl :: rest =>
    if nbl.sourceHandle = ndisFilterHandle then
      (x.record (.released nbl.key (.completion c)),
        some (.releasing rest passList))
    else (x, some (.completing rest (passList ++ [nbl])))
  | [] =>
    if passList = [] then (x, none)
    else (x.record (.passedUp c (keys passList)), none)

def advance (ndisFilterHandle : ℕ) (x : Shared) (c : ℕ) :
    Call → Option (Shared × Option Call)
  | .enqueuing h nbl => (x.handles.lookup h).map (appendNbl x h nbl)
  | .cleaning (nbl :: rest) cause answer =>
    some (x.record (.released nbl cause), some (.cleaning rest cause answer))
  | .cleaning [] _ answer =>
    some (x, answer.map fun answer => .returning answer.1 answer.2)
  | .flushing h nbls => some (acquireReferences x h nbls)
  | .referenced h nbls =>
    some (x.ndisFSendNetBufferLists nbls, some (.returning h .success))
  | .returning h status => some (x.record (.answered h status), none)
  | .completing nblQueue passList =>
    some (completeLoop ndisFilterHandle x c nblQueue passList)
  | .releasing nblQueue passList =>
    some (x.releaseReference, some (.completing nblQueue passList))

def program (ndisFilterHandle : ℕ) : Program Shared Call Input where
  init := .initial
  start := start ndisFilterHandle
  advance := advance ndisFilterHandle

def machine (ndisFilterHandle : ℕ) : Machine (Pool Shared Call) (Move Input) :=
  (program ndisFilterHandle).machine

/-! ## What an action does -/

/-- The actions of a call with a number, by what they change and by the
position of the call before and after them. -/
inductive Action (ndisFilterHandle : ℕ) (x : Shared) (c : ℕ) :
    Option Call → Shared → Option Call → Prop
  | opened : Action ndisFilterHandle x c none
        { x with handles := x.handles.insert c [] } none
  | closed {h : ℕ} {queue : List SendNbl}
      (hqueue : x.handles.lookup h = some queue) :
      Action ndisFilterHandle x c none
        { x with handles := x.handles.erase h }
        (some (.cleaning (keys queue) (.cleanup h) none))
  | prepared {h : ℕ} {nbl : SendNbl}
      (hkey : nbl.key = ⟨ndisFilterHandle, x.nextNbl⟩) :
      Action ndisFilterHandle x c none
        { x with nextNbl := x.nextNbl + 1 } (some (.enqueuing h nbl))
  | spoiled {h : ℕ} {status : NtStatus} : Action ndisFilterHandle x c none
        { x with nextNbl := x.nextNbl + 1 }
        (some (.cleaning [⟨ndisFilterHandle, x.nextNbl⟩] .failed
          (some (h, status))))
  | answered {h : ℕ} {status : NtStatus} :
      Action ndisFilterHandle x c none (x.record (.answered h status)) none
  | took {h : ℕ} {queue : List SendNbl}
      (hqueue : x.handles.lookup h = some queue) :
      Action ndisFilterHandle x c none
        { x with handles := x.handles.insert h [] } (some (.flushing h queue))
  | forwarded {nbls : List SendNbl}
      (hforeign : ∀ nbl ∈ nbls, nbl.sourceHandle ≠ ndisFilterHandle) :
      Action ndisFilterHandle x c none (x.ndisFSendNetBufferLists nbls) none
  | completed {nbls : List SendNbl}
      (hle : (keys nbls : Multiset NblKey) ≤ x.ndis) :
      Action ndisFilterHandle x c none
        (({ x with ndis := x.ndis - keys nbls }).record
          (.completed c (keys nbls)))
        (some (.completing nbls []))
  | received {n : ℕ} {rundown : Rundown}
      (hacquire : x.rundown.acquire n = some rundown) :
      Action ndisFilterHandle x c none
        { x with rundown, receiveReferences := x.receiveReferences + n } none
  | receivedBack {n : ℕ} (hle : n ≤ x.receiveReferences) :
      Action ndisFilterHandle x c none
        { x with
          rundown := x.rundown.release n
          receiveReferences := x.receiveReferences - n } none
  | paused : Action ndisFilterHandle x c none
        { x with rundown := x.rundown.beginWait } none
  | restarted (hreleased : x.rundown.count = 0) :
      Action ndisFilterHandle x c none
        { x with rundown := .initialized } none
  | appended {h : ℕ} {nbl : SendNbl} {queue : List SendNbl}
      (hqueue : x.handles.lookup h = some queue)
      (hroom : queue.length < 0xFFFFFFFF) :
      Action ndisFilterHandle x c (some (.enqueuing h nbl))
        (({ x with handles := x.handles.insert h (queue ++ [nbl]) }).record
          (.accepted h nbl.nbl.id))
        (some (.returning h .success))
  | overflowed {h : ℕ} {nbl : SendNbl} :
      Action ndisFilterHandle x c (some (.enqueuing h nbl)) x
        (some (.cleaning [nbl.key] .failed (some (h, .integerOverflow))))
  | cleaned {nbl : NblKey} {rest : List NblKey} {cause : Cause}
      {answer : Option (ℕ × NtStatus)} :
      Action ndisFilterHandle x c (some (.cleaning (nbl :: rest) cause answer))
        (x.record (.released nbl cause)) (some (.cleaning rest cause answer))
  | cleanedAll {cause : Cause} {answer : Option (ℕ × NtStatus)} :
      Action ndisFilterHandle x c (some (.cleaning [] cause answer)) x
        (answer.map fun answer => .returning answer.1 answer.2)
  | refused {h : ℕ} {nbls : List SendNbl} :
      Action ndisFilterHandle x c (some (.flushing h nbls)) x
        (some (.cleaning (keys nbls) .refused (some (h, .deviceNotReady))))
  | acquired {h : ℕ} {nbls : List SendNbl} {rundown : Rundown}
      (hacquire : x.rundown.acquire (nbls.length % 2 ^ 32) = some rundown) :
      Action ndisFilterHandle x c (some (.flushing h nbls))
        { x with
          rundown
          flushReferences := x.flushReferences + nbls.length % 2 ^ 32 }
        (some (.referenced h nbls))
  | sent {h : ℕ} {nbls : List SendNbl} :
      Action ndisFilterHandle x c (some (.referenced h nbls))
        (x.ndisFSendNetBufferLists nbls) (some (.returning h .success))
  | returned {h : ℕ} {status : NtStatus} :
      Action ndisFilterHandle x c (some (.returning h status))
        (x.record (.answered h status)) none
  | freed {nbl : SendNbl} {rest passList : List SendNbl}
      (hown : nbl.sourceHandle = ndisFilterHandle) :
      Action ndisFilterHandle x c (some (.completing (nbl :: rest) passList))
        (x.record (.released nbl.key (.completion c)))
        (some (.releasing rest passList))
  | released {nblQueue passList : List SendNbl} :
      Action ndisFilterHandle x c (some (.releasing nblQueue passList))
        x.releaseReference (some (.completing nblQueue passList))
  | kept {nbl : SendNbl} {rest passList : List SendNbl}
      (hforeign : nbl.sourceHandle ≠ ndisFilterHandle) :
      Action ndisFilterHandle x c (some (.completing (nbl :: rest) passList)) x
        (some (.completing rest (passList ++ [nbl])))
  | passedUp {passList : List SendNbl} (hne : passList ≠ []) :
      Action ndisFilterHandle x c (some (.completing [] passList))
        (x.record (.passedUp c (keys passList))) none
  | ended : Action ndisFilterHandle x c (some (.completing [] [])) x none

section Inversion

variable {ndisFilterHandle : ℕ} {x : Shared} {c : ℕ}

theorem prepareNbl_ready_key {id : ℕ} {input : EnqueueInput} {nbl : SendNbl}
    (h : prepareNbl ndisFilterHandle id input = .ready nbl) :
    nbl.key = ⟨ndisFilterHandle, id⟩ := by
  unfold prepareNbl at h
  split at h
  · cases h
  · split at h
    · cases h
    · cases h
      rfl

theorem Action.of_beginEnqueue (h : ℕ) (input : EnqueueInput) :
    Action ndisFilterHandle x c none
      (beginEnqueue ndisFilterHandle x h input).1
      (beginEnqueue ndisFilterHandle x h input).2 := by
  unfold beginEnqueue
  split
  · rename_i nbl hready
    exact .prepared (prepareNbl_ready_key hready)
  · exact .spoiled
  · exact .answered

theorem Action.of_beginFlush {h : ℕ} (input : FlushInput)
    {queue : List SendNbl} (hqueue : x.handles.lookup h = some queue) :
    Action ndisFilterHandle x c none (beginFlush x h input queue).1
      (beginFlush x h input queue).2 := by
  unfold beginFlush
  split
  · exact .answered
  · split
    · exact .answered
    · exact .took hqueue

variable {after : Option Call}

theorem Action.of_start {y : Shared} {input : Input}
    (h : start ndisFilterHandle x c input = some (y, after)) :
    Action ndisFilterHandle x c none y after := by
  cases input with
  | «open» =>
    cases h
    exact .opened
  | close h' =>
    obtain ⟨queue, hqueue, heq⟩ := Option.map_eq_some_iff.mp h
    cases heq
    exact .closed hqueue
  | enqueue h' input =>
    obtain ⟨queue, -, heq⟩ := Option.map_eq_some_iff.mp h
    have haction : Action ndisFilterHandle x c none _ _ :=
      Action.of_beginEnqueue h' input
    rwa [heq] at haction
  | flush h' input =>
    obtain ⟨queue, hqueue, heq⟩ := Option.map_eq_some_iff.mp h
    have haction : Action ndisFilterHandle x c none _ _ :=
      Action.of_beginFlush input hqueue
    rwa [heq] at haction
  | send nbls =>
    obtain ⟨hforeign, heq⟩ := Option.ite_none_right_eq_some.mp h
    cases heq
    exact .forwarded hforeign
  | complete nbls =>
    obtain ⟨hle, heq⟩ := Option.ite_none_right_eq_some.mp h
    cases heq
    exact .completed hle
  | receive n =>
    obtain ⟨_, hacquire, heq⟩ := Option.map_eq_some_iff.mp h
    cases heq
    exact .received hacquire
  | returnReceived n =>
    obtain ⟨hle, heq⟩ := Option.ite_none_right_eq_some.mp h
    cases heq
    exact .receivedBack hle
  | pause =>
    cases h
    exact .paused
  | restart =>
    obtain ⟨hreleased, heq⟩ := Option.ite_none_right_eq_some.mp h
    cases heq
    exact .restarted (by
      simpa [Rundown.released] using (Bool.and_eq_true_iff.mp hreleased).1)

theorem Action.of_completeLoop (nblQueue passList : List SendNbl) :
    Action ndisFilterHandle x c (some (.completing nblQueue passList))
      (completeLoop ndisFilterHandle x c nblQueue passList).1
      (completeLoop ndisFilterHandle x c nblQueue passList).2 := by
  cases nblQueue with
  | nil =>
    by_cases hempty : passList = []
    · subst hempty
      exact .ended
    · simp only [completeLoop, if_neg hempty]
      exact .passedUp hempty
  | cons nbl rest =>
    by_cases hown : nbl.sourceHandle = ndisFilterHandle
    · simp only [completeLoop, if_pos hown]
      exact .freed hown
    · simp only [completeLoop, if_neg hown]
      exact .kept hown

theorem Action.of_advance {y : Shared} {call : Call}
    (h : advance ndisFilterHandle x c call = some (y, after)) :
    Action ndisFilterHandle x c (some call) y after := by
  cases call with
  | enqueuing h' nbl =>
    obtain ⟨_, hqueue, heq⟩ := Option.map_eq_some_iff.mp h
    unfold appendNbl at heq
    split at heq <;> cases heq
    · rename_i hroom
      exact .appended hqueue hroom
    · exact .overflowed
  | cleaning nbls cause answer =>
    cases nbls with
    | nil =>
      cases h
      exact .cleanedAll
    | cons nbl rest =>
      cases h
      exact .cleaned
  | flushing h' nbls =>
    simp only [advance, acquireReferences] at h
    split at h <;> cases h
    · exact .refused
    · rename_i rundown hacquire
      exact .acquired hacquire
  | referenced h' nbls =>
    cases h
    exact .sent
  | returning h' status =>
    cases h
    exact .returned
  | completing nblQueue passList =>
    have haction : Action ndisFilterHandle x c _ _ _ :=
      Action.of_completeLoop nblQueue passList
    rwa [Option.some.inj h] at haction
  | releasing nblQueue passList =>
    cases h
    exact .released

end Inversion

theorem Action.of_turn {ndisFilterHandle : ℕ} {s : Pool Shared Call} {c n : ℕ}
    {y : Shared} {before after : Option Call}
    (h : (program ndisFilterHandle).Turn s c before n y after) :
    Action ndisFilterHandle s.shared c before y after := by
  cases h with
  | start hc hstart => exact .of_start hstart
  | advance hc hadvance => exact .of_advance hadvance

end WinNetTest.Fnlwf.Tx
