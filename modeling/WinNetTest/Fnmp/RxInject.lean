import WinNetTest.Fnio.Enqueue
import WinNetTest.Support.Interleaving
import WinNetTest.Support.Rundown

/-!
# Receive injection

The calls of `rx.c` on shared handles: `SharedIrpRxEnqueue` builds an NBL and
queues it on its handle, `SharedIrpRxFlush` takes the queue and indicates it,
and NDIS gives the NBLs back through `MpReturnNetBufferLists`, or at once when
they were indicated with low resources.  A pause runs the NBL run-down of the
adapter down; the send path takes references of the same run-down.

Closing a handle does not wait for the calls on it, as the I/O manager makes it
do; this only adds interleavings.  NDIS gives back only NBLs it owns, and hands
a low-resources chain back unmodified.
-/

namespace WinNetTest.Fnmp.RxInject

open Support Fnio

/-! ## The calls -/

structure RssQueues where
  numRssQueues : UInt32
  rssHash : UInt32 → UInt32

/-- The input of `SharedIrpRxEnqueue`: the frame and its `Input` fields. -/
structure EnqueueInput where
  frame : EnqueueRequest
  rssHashQueueId : UInt32
  checksum : UInt64
  rsc : UInt64
  coalescedSegCount : UInt16
  timestamp : UInt64

/-- What `SharedIrpRxEnqueue` holds when it reaches the lock: a finished NBL,
or a failure, with or without an NBL that has been freed. -/
inductive Prepared where
  | ready (nbl : NetBufferList)
  | failed (status : NtStatus) (allocated : Bool)

/-- `SharedIrpRxEnqueue` up to the lock. -/
def prepareNbl (rss : RssQueues) (id : ℕ) (input : EnqueueInput) : Prepared :=
  match fnIoEnqueueFrameBegin input.frame with
  | .error status => .failed status input.frame.allocatesNbl
  | .ok frame =>
    if input.rssHashQueueId ≠ 0xFFFFFFFF ∧
        rss.numRssQueues ≤ input.rssHashQueueId then
      .failed .invalidParameter true
    else if input.rsc ≠ 0 ∧ input.coalescedSegCount < 1 then
      .failed .invalidParameter true
    else
      .ready
        { id
          firstNb := frame.netBuffer
          nextNbs := []
          info :=
            { hashValue :=
                if input.rssHashQueueId = 0xFFFFFFFF then 0
                else rss.rssHash input.rssHashQueueId
              tcpIpChecksum := input.checksum
              tcpLargeSend := 0
              udpSegmentation := 0
              tcpRecvSegCoalesce := input.rsc
              timestamp := input.timestamp }
          scratch := none }

/-- The input of `SharedIrpRxFlush`: the length of the system buffer, the RSS
queue whose processor is to be used, and the low-resources option. -/
structure FlushInput where
  inputBufferLength : ℕ
  rssCpuQueueId : Option UInt32
  lowResources : Bool

/-- The checks of `SharedIrpRxFlush` before the lock. -/
def FlushInput.accepted (rss : RssQueues) (input : FlushInput) : Bool :=
  sizeofDataFlushIn ≤ input.inputBufferLength &&
    input.rssCpuQueueId.all fun queue => queue < rss.numRssQueues

/-! ## The state -/

structure Shared where
  rundown : Rundown
  handles : Table ℕ NblCountedQueue
  nextHandle : ℕ
  nextNbl : ℕ
  flushReferences : ℕ
  sendReferences : ℕ
  ndis : Multiset ℕ
  freed : List ℕ
  failed : List ℕ
  enqueued : List (ℕ × ℕ)
  taken : List (ℕ × List ℕ)
  indicated : List (ℕ × List ℕ)
  uncounted : ℕ

def Shared.initial : Shared :=
  { rundown := .rundown
    handles := ∅
    nextHandle := 0
    nextNbl := 0
    flushReferences := 0
    sendReferences := 0
    ndis := 0
    freed := []
    failed := []
    enqueued := []
    taken := []
    indicated := []
    uncounted := 0 }

/-- Where a call stands: an enqueue before the lock or with an NBL it could
not queue; a flush that has taken a queue, that has its references, that is
inside a low-resources indication, that has got the chain back; a call about
to free a chain; a return that is about to free its chain or to release its
count. -/
inductive Call where
  | enqueuing (h : ℕ) (nbl : NetBufferList)
  | discarding (nbl : NetBufferList)
  | flushing (h : ℕ) (lowResources : Bool) (nbls : NblCountedQueue)
  | referenced (h : ℕ) (lowResources : Bool) (nbls : NblCountedQueue)
  | indicating (nbls : NblCountedQueue)
  | handedBack (nbls : NblCountedQueue)
  | freeing (nbls : NblCountedQueue)
  | returning (nbls : List ℕ)
  | releasing (count : ℕ)
  deriving DecidableEq

inductive Input where
  | open
  | close (h : ℕ)
  | enqueue (h : ℕ) (input : EnqueueInput)
  | flush (h : ℕ) (input : FlushInput)
  | returnNbls (nbls : List ℕ)
  | send (n : ℕ)
  | sendComplete (n : ℕ)
  | pause
  | restart

def queueIds (queue : NblCountedQueue) : List ℕ :=
  queue.chain.map NetBufferList.id

/-- `SharedRxCleanupNblChain` on a chain. -/
def Shared.cleanupNblChain (x : Shared) (ids : List ℕ) : Shared :=
  { x with freed := x.freed ++ ids }

def Shared.releaseReferences (x : Shared) (n : ℕ) : Shared :=
  { x with
    rundown := x.rundown.release n
    flushReferences := x.flushReferences - n }

/-- `SharedIrpRxEnqueue` up to the lock. -/
def beginEnqueue (rss : RssQueues) (x : Shared) (h : ℕ) (input : EnqueueInput) :
    Shared × Option Call :=
  match prepareNbl rss x.nextNbl input with
  | .ready nbl =>
    ({ x with nextNbl := x.nextNbl + 1 }, some (.enqueuing h nbl))
  | .failed _ true =>
    ({ x with
        nextNbl := x.nextNbl + 1
        freed := x.freed ++ [x.nextNbl]
        failed := x.failed ++ [x.nextNbl] }, none)
  | .failed _ false => (x, none)

/-- `SharedIrpRxFlush` up to the end of its lock section. -/
def beginFlush (rss : RssQueues) (x : Shared) (h : ℕ) (input : FlushInput)
    (queue : NblCountedQueue) : Shared × Option Call :=
  if !input.accepted rss then (x, none)
  else if queue.isEmpty then (x, none)
  else
    ({ x with
        handles := x.handles.insert h .empty
        taken := x.taken ++ [(h, queueIds queue)] },
      some (.flushing h input.lowResources queue))

def start (rss : RssQueues) (x : Shared) : Input → Option (Shared × Option Call)
  | .open =>
    some
      ({ x with
          handles := x.handles.insert x.nextHandle .empty
          nextHandle := x.nextHandle + 1 }, none)
  | .close h =>
    (x.handles.lookup h).map fun queue =>
      ({ x with
          handles := x.handles.erase h
          taken := x.taken ++ [(h, queueIds queue)]
          freed := x.freed ++ queueIds queue }, none)
  | .enqueue h input =>
    (x.handles.lookup h).map fun _ => beginEnqueue rss x h input
  | .flush h input =>
    (x.handles.lookup h).map fun queue => beginFlush rss x h input queue
  | .returnNbls nbls =>
    if (nbls : Multiset ℕ) ≤ x.ndis then
      some ({ x with ndis := x.ndis - nbls }, some (.returning nbls))
    else none
  | .send n =>
    (x.rundown.acquire n).map fun rundown =>
      ({ x with rundown, sendReferences := x.sendReferences + n }, none)
  | .sendComplete n =>
    if n ≤ x.sendReferences then
      some
        ({ x with
            rundown := x.rundown.release n
            sendReferences := x.sendReferences - n }, none)
    else none
  | .pause => some ({ x with rundown := x.rundown.beginWait }, none)
  | .restart =>
    if x.rundown.released && !x.rundown.active then
      some ({ x with rundown := .initialized }, none)
    else none

/-- The lock section of `SharedIrpRxEnqueue`. -/
def appendNbl (x : Shared) (h : ℕ) (nbl : NetBufferList)
    (queue : NblCountedQueue) : Shared × Option Call :=
  if queue.nblCount < 0xFFFFFFFF then
    ({ x with
        handles := x.handles.insert h (queue.appendSingleNbl nbl)
        enqueued := x.enqueued ++ [(h, nbl.id)] }, none)
  else ({ x with failed := x.failed ++ [nbl.id] }, some (.discarding nbl))

/-- `ExAcquireRundownProtectionEx` by a flush. -/
def acquireReferences (x : Shared) (h : ℕ) (lowResources : Bool)
    (nbls : NblCountedQueue) : Shared × Option Call :=
  match x.rundown.acquire (nbls.nblCount % 2 ^ 32) with
  | none => (x, some (.freeing nbls))
  | some rundown =>
    ({ x with
        rundown
        flushReferences := x.flushReferences + nbls.nblCount % 2 ^ 32 },
      some (.referenced h lowResources nbls))

def indicate (x : Shared) (h : ℕ) (lowResources : Bool)
    (nbls : NblCountedQueue) : Shared × Option Call :=
  let x := { x with indicated := x.indicated ++ [(h, queueIds nbls)] }
  if lowResources then (x, some (.indicating nbls))
  else ({ x with ndis := x.ndis + queueIds nbls }, none)

def advance (x : Shared) : Call → Option (Shared × Option Call)
  | .enqueuing h nbl => (x.handles.lookup h).map (appendNbl x h nbl)
  | .discarding nbl => some (x.cleanupNblChain [nbl.id], none)
  | .flushing h lowResources nbls =>
    some (acquireReferences x h lowResources nbls)
  | .referenced h lowResources nbls => some (indicate x h lowResources nbls)
  | .indicating nbls => some (x, some (.handedBack nbls))
  | .handedBack nbls =>
    some (x.releaseReferences (nbls.nblCount % 2 ^ 32), some (.freeing nbls))
  | .freeing nbls => some (x.cleanupNblChain (queueIds nbls), none)
  | .returning nbls =>
    some
      ({ x.cleanupNblChain nbls with
          uncounted :=
            x.uncounted + (nbls.length - nbls.length % 2 ^ 32) },
        some (.releasing (nbls.length % 2 ^ 32)))
  | .releasing count => some (x.releaseReferences count, none)

def program (rss : RssQueues) : Program Shared Call Input where
  init := .initial
  start x _ := start rss x
  advance x _ := advance x

def machine (rss : RssQueues) : Machine (Pool Shared Call) (Move Input) :=
  (program rss).machine

/-! ## What an action does -/

inductive Action (x : Shared) : Option Call → Shared → Option Call → Prop
  | idle : Action x none x none
  | opened : Action x none
        { x with
          handles := x.handles.insert x.nextHandle .empty
          nextHandle := x.nextHandle + 1 } none
  | closed {h : ℕ} {queue : NblCountedQueue}
      (hqueue : x.handles.lookup h = some queue) :
      Action x none
        { x with
          handles := x.handles.erase h
          taken := x.taken ++ [(h, queueIds queue)]
          freed := x.freed ++ queueIds queue } none
  | prepared {h : ℕ} {nbl : NetBufferList} (hid : nbl.id = x.nextNbl) :
      Action x none { x with nextNbl := x.nextNbl + 1 }
        (some (.enqueuing h nbl))
  | rejected : Action x none
        { x with
          nextNbl := x.nextNbl + 1
          freed := x.freed ++ [x.nextNbl]
          failed := x.failed ++ [x.nextNbl] } none
  | took {h : ℕ} {lowResources : Bool} {queue : NblCountedQueue}
      (hqueue : x.handles.lookup h = some queue) :
      Action x none
        { x with
          handles := x.handles.insert h .empty
          taken := x.taken ++ [(h, queueIds queue)] }
        (some (.flushing h lowResources queue))
  | returned {nbls : List ℕ} (hle : (nbls : Multiset ℕ) ≤ x.ndis) :
      Action x none { x with ndis := x.ndis - nbls } (some (.returning nbls))
  | sent {n : ℕ} {rundown : Rundown}
      (hacquire : x.rundown.acquire n = some rundown) :
      Action x none
        { x with rundown, sendReferences := x.sendReferences + n } none
  | sendCompleted {n : ℕ} (hle : n ≤ x.sendReferences) : Action x none
        { x with
          rundown := x.rundown.release n
          sendReferences := x.sendReferences - n } none
  | paused : Action x none { x with rundown := x.rundown.beginWait } none
  | restarted (hreleased : x.rundown.count = 0) :
      Action x none { x with rundown := .initialized } none
  | appended {h : ℕ} {nbl : NetBufferList} {queue : NblCountedQueue}
      (hqueue : x.handles.lookup h = some queue)
      (hroom : queue.nblCount < 0xFFFFFFFF) :
      Action x (some (.enqueuing h nbl))
        { x with
          handles := x.handles.insert h (queue.appendSingleNbl nbl)
          enqueued := x.enqueued ++ [(h, nbl.id)] } none
  | overflowed {h : ℕ} {nbl : NetBufferList} :
      Action x (some (.enqueuing h nbl))
        { x with failed := x.failed ++ [nbl.id] } (some (.discarding nbl))
  | discarded {nbl : NetBufferList} :
      Action x (some (.discarding nbl)) (x.cleanupNblChain [nbl.id]) none
  | refused {h : ℕ} {lowResources : Bool} {nbls : NblCountedQueue} :
      Action x (some (.flushing h lowResources nbls)) x (some (.freeing nbls))
  | acquired {h : ℕ} {lowResources : Bool} {nbls : NblCountedQueue}
      {rundown : Rundown}
      (hacquire : x.rundown.acquire (nbls.nblCount % 2 ^ 32) = some rundown) :
      Action x (some (.flushing h lowResources nbls))
        { x with
          rundown
          flushReferences := x.flushReferences + nbls.nblCount % 2 ^ 32 }
        (some (.referenced h lowResources nbls))
  | lent {h : ℕ} {nbls : NblCountedQueue} :
      Action x (some (.referenced h true nbls))
        { x with indicated := x.indicated ++ [(h, queueIds nbls)] }
        (some (.indicating nbls))
  | indicated {h : ℕ} {nbls : NblCountedQueue} :
      Action x (some (.referenced h false nbls))
        { x with
          indicated := x.indicated ++ [(h, queueIds nbls)]
          ndis := x.ndis + queueIds nbls } none
  | handedBack {nbls : NblCountedQueue} :
      Action x (some (.indicating nbls)) x (some (.handedBack nbls))
  | released {nbls : NblCountedQueue} : Action x (some (.handedBack nbls))
        (x.releaseReferences (nbls.nblCount % 2 ^ 32)) (some (.freeing nbls))
  | freed {nbls : NblCountedQueue} :
      Action x (some (.freeing nbls)) (x.cleanupNblChain (queueIds nbls)) none
  | cleaned {nbls : List ℕ} : Action x (some (.returning nbls))
        { x.cleanupNblChain nbls with
          uncounted := x.uncounted + (nbls.length - nbls.length % 2 ^ 32) }
        (some (.releasing (nbls.length % 2 ^ 32)))
  | counted {count : ℕ} :
      Action x (some (.releasing count)) (x.releaseReferences count) none

variable {rss : RssQueues}

theorem prepareNbl_ready_id {id : ℕ} {input : EnqueueInput}
    {nbl : NetBufferList} (h : prepareNbl rss id input = .ready nbl) :
    nbl.id = id := by
  unfold prepareNbl at h
  split at h
  · cases h
  · split at h
    · cases h
    · split at h
      · cases h
      · cases h
        rfl

theorem Action.of_beginEnqueue (rss : RssQueues) (x : Shared) (h : ℕ)
    (input : EnqueueInput) :
    Action x none (beginEnqueue rss x h input).1
      (beginEnqueue rss x h input).2 := by
  unfold beginEnqueue
  split
  · rename_i nbl hready
    exact .prepared (prepareNbl_ready_id hready)
  · exact .rejected
  · exact .idle

variable {x y : Shared}

theorem Action.of_beginFlush (rss : RssQueues) {h : ℕ} (input : FlushInput)
    {queue : NblCountedQueue} (hqueue : x.handles.lookup h = some queue) :
    Action x none (beginFlush rss x h input queue).1
      (beginFlush rss x h input queue).2 := by
  unfold beginFlush
  split
  · exact .idle
  · split
    · exact .idle
    · exact .took hqueue

variable {after : Option Call}

theorem Action.of_start {input : Input}
    (h : start rss x input = some (y, after)) : Action x none y after := by
  cases input with
  | «open» =>
    cases h
    exact .opened
  | close h' =>
    obtain ⟨queue, hqueue, heq⟩ := Option.map_eq_some_iff.mp h
    cases heq
    exact .closed hqueue
  | enqueue h' input =>
    obtain ⟨queue, -, heq⟩ := Option.map_eq_some_iff.mp h
    have haction := Action.of_beginEnqueue rss x h' input
    rwa [heq] at haction
  | flush h' input =>
    obtain ⟨queue, hqueue, heq⟩ := Option.map_eq_some_iff.mp h
    have haction := Action.of_beginFlush rss input hqueue
    rwa [heq] at haction
  | returnNbls nbls =>
    obtain ⟨hle, heq⟩ := Option.ite_none_right_eq_some.mp h
    cases heq
    exact .returned hle
  | send n =>
    obtain ⟨_, hacquire, heq⟩ := Option.map_eq_some_iff.mp h
    cases heq
    exact .sent hacquire
  | sendComplete n =>
    obtain ⟨hle, heq⟩ := Option.ite_none_right_eq_some.mp h
    cases heq
    exact .sendCompleted hle
  | pause =>
    cases h
    exact .paused
  | restart =>
    obtain ⟨hreleased, heq⟩ := Option.ite_none_right_eq_some.mp h
    cases heq
    exact .restarted (by
      simpa [Rundown.released] using (Bool.and_eq_true_iff.mp hreleased).1)

theorem Action.of_advance {call : Call} (h : advance x call = some (y, after)) :
    Action x (some call) y after := by
  cases call with
  | enqueuing h' nbl =>
    obtain ⟨_, hqueue, heq⟩ := Option.map_eq_some_iff.mp h
    unfold appendNbl at heq
    split at heq <;> cases heq
    · rename_i hroom
      exact .appended hqueue hroom
    · exact .overflowed
  | discarding nbl =>
    cases h
    exact .discarded
  | flushing h' lowResources nbls =>
    simp only [advance, acquireReferences] at h
    split at h <;> cases h
    · exact .refused
    · rename_i rundown hacquire
      exact .acquired hacquire
  | referenced h' lowResources nbls =>
    cases lowResources <;> cases h
    · exact .indicated
    · exact .lent
  | indicating nbls =>
    cases h
    exact .handedBack
  | handedBack nbls =>
    cases h
    exact .released
  | freeing nbls =>
    cases h
    exact .freed
  | returning nbls =>
    cases h
    exact .cleaned
  | releasing count =>
    cases h
    exact .counted

theorem Action.of_turn {s : Pool Shared Call} {c n : ℕ} {before : Option Call}
    (h : (program rss).Turn s c before n y after) :
    Action s.shared before y after := by
  cases h with
  | start hc hstart => exact .of_start hstart
  | advance hc hadvance => exact .of_advance hadvance

end WinNetTest.Fnmp.RxInject
