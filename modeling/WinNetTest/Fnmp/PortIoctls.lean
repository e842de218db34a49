import WinNetTest.Fnmp.Port
import WinNetTest.Support.Interleaving

/-!
# The port IOCTLs

The IOCTLs of the exclusive handle that allocate, free, activate and
deactivate NDIS ports, and its close (`port.c`), one action at a time: a
section under the adapter's push lock, or an NDIS call.  `NdisMAllocatePort`
and `NdisMNetPnPEvent` are called without the lock and `NdisMFreePort` with
it, so a number that NDIS has taken back can be given to another allocation
before its old entry leaves the list.

The answers of NDIS are part of what a call is made with.  NDIS gives out only
numbers that are not allocated, and a request it refuses changes nothing.  The
handle is closed when no IOCTL is running.  There is one handle: what a second
one would find after the close, and the cleanup of an open that is refused, are
left out.
-/

namespace WinNetTest.Fnmp.PortIoctls

open Support

/-! ## The state -/

/-- A port entry in the list.  An entry is identified by the call that
allocated it.  The owner is the call that has set it to a transitional state
and not yet left that state. -/
structure Listed extends PortEntry where
  address : ℕ
  owner : Option ℕ
  deriving DecidableEq

def Listed.new (c : ℕ) (number : UInt32) : Listed :=
  { number, state := .allocated, address := c, owner := none }

/-- What is asked of NDIS: the two events and `NdisMFreePort`. -/
inductive Request where
  | activate (number : UInt32)
  | deactivate (number : UInt32)
  | free (number : UInt32)
  deriving DecidableEq

structure Reply where
  call : ℕ
  status : NtStatus
  output : Option UInt32
  deriving DecidableEq

/-- The port list, its lock, and NDIS's own table of the allocated ports, with
whether they are active.  Beside these, the state records the entries
allocated and freed, the requests made, each with what NDIS knew of the port,
the entry whose number NDIS has already taken back, the IOCTLs running with and
without an entry in a transitional state, the close, and whether a `FRE_ASSERT`
has stopped the system. -/
structure Shared where
  lock : Option ℕ
  portList : List Listed
  ndis : Table UInt32 Bool
  entries : List ℕ
  freed : List ℕ
  requests : List (Request × Option Bool)
  replies : List Reply
  givenBack : Option ℕ
  ioctls : ℕ
  transitions : ℕ
  closer : Option ℕ
  closed : Bool
  stopped : Bool

def Shared.initial : Shared :=
  { lock := none
    portList := []
    ndis := ∅
    entries := []
    freed := []
    requests := []
    replies := []
    givenBack := none
    ioctls := 0
    transitions := 0
    closer := none
    closed := false
    stopped := false }

/-- Who runs `MpDeactivatePort` or `MpFreePort`, with the answers NDIS gives:
an IOCTL, or the close, which has made a number of requests. -/
inductive Caller where
  | ioctl (accepted : Bool)
  | close (answers : ℕ → Bool) (requests : ℕ)

def Caller.accepted : Caller → Bool
  | ioctl accepted => accepted
  | close answers requests => answers requests

def Caller.next : Caller → Caller
  | ioctl accepted => ioctl accepted
  | close answers requests => close answers (requests + 1)

/-- Where a call stands.  An entry is remembered as it was found in the list:
before the allocation and the insertion of an entry; before and after a
request to activate or deactivate; before and after `NdisMFreePort`, under the
lock; at the head of the loop of `MpPortCleanup`, under the lock. -/
inductive Call where
  | allocating (answer : Option UInt32)
  | inserting (number : UInt32)
  | activating (found : Listed) (accepted : Bool)
  | activated (found : Listed) (accepted : Bool)
  | deactivating (found : Listed) (caller : Caller)
  | deactivated (found : Listed) (accepted : Bool) (caller : Caller)
  | freeing (found : Listed) (caller : Caller)
  | removing (found : Listed) (caller : Caller)
  | cleaning (answers : ℕ → Bool) (requests : ℕ)

/-- What a call is made with: the length of its buffer, the port number, and
what the pool and NDIS answer. -/
inductive Input where
  | allocate (outputBufferLength : ℕ) (pool : Bool) (answer : Option UInt32)
  | free (inputBufferLength : ℕ) (number : UInt32) (accepted : Bool)
  | activate (inputBufferLength : ℕ) (number : UInt32) (accepted : Bool)
  | deactivate (inputBufferLength : ℕ) (number : UInt32) (accepted : Bool)
  | close (answers : ℕ → Bool)

/-! ## Operations -/

def sizeofPortNumber : ℕ := 4

namespace Shared

def mpFindPortEntry (x : Shared) (number : UInt32) : Option Listed :=
  x.portList.find? fun entry => entry.number == number

def setState (x : Shared) (address : ℕ) (state : PortState)
    (owner : Option ℕ) : Shared :=
  { x with
    portList := x.portList.map fun entry =>
      if entry.address = address then { entry with state, owner } else entry }

def removeEntry (x : Shared) (address : ℕ) : Shared :=
  { x with
    portList := x.portList.filter fun entry => entry.address ≠ address
    freed := x.freed ++ [address]
    givenBack := none }

def ask (x : Shared) (request : Request) (number : UInt32) : Shared :=
  { x with requests := x.requests ++ [(request, x.ndis.lookup number)] }

def reply (x : Shared) (c : ℕ) (status : NtStatus) (output : Option UInt32) :
    Shared :=
  { x with replies := x.replies ++ [⟨c, status, output⟩] }

end Shared

/-- The status for an answer of NDIS; all failures are one here. -/
def statusOf (accepted : Bool) : NtStatus :=
  if accepted then .success else .unsuccessful

variable (x : Shared)

/-- The lock section with which the IOCTLs on a port begin: find the entry, and
go on if it is in the required state. -/
def withPort (c inputBufferLength : ℕ) (number : UInt32) (required : PortState)
    (body : Listed → Shared × Option Call) : Option (Shared × Option Call) :=
  if inputBufferLength < sizeofPortNumber then
    some (x.reply c .bufferTooSmall none, none)
  else if x.lock.isSome then none
  else
    match x.mpFindPortEntry number with
    | none => some (x.reply c .notFound none, none)
    | some found =>
      if found.state = required then some (body found)
      else some (x.reply c .invalidDeviceState none, none)

def start (c : ℕ) (input : Input) : Option (Shared × Option Call) :=
  if x.stopped || x.closer.isSome then none
  else
    match input with
    | .allocate outputBufferLength pool answer =>
      if outputBufferLength < sizeofPortNumber then
        some (x.reply c .bufferTooSmall none, none)
      else if !pool then some (x.reply c .noMemory none, none)
      else
        some
          ({ x with entries := x.entries ++ [c], ioctls := x.ioctls + 1 },
            some (.allocating answer))
    | .free inputBufferLength number accepted =>
      withPort x c inputBufferLength number .allocated fun found =>
        ({ x with lock := some c, ioctls := x.ioctls + 1 },
          some (.freeing found (.ioctl accepted)))
    | .activate inputBufferLength number accepted =>
      withPort x c inputBufferLength number .allocated fun found =>
        ({ x.setState found.address .activating (some c) with
            transitions := x.transitions + 1 },
          some (.activating found accepted))
    | .deactivate inputBufferLength number accepted =>
      withPort x c inputBufferLength number .activated fun found =>
        ({ x.setState found.address .deactivating (some c) with
            transitions := x.transitions + 1 },
          some (.deactivating found (.ioctl accepted)))
    | .close answers =>
      if x.lock.isNone && x.ioctls == 0 && x.transitions == 0 then
        some
          ({ x with lock := some c, closer := some c },
            some (.cleaning answers 0))
      else none

/-- `NdisMAllocatePort`.  On failure the entry is freed. -/
def allocatePort (c : ℕ) :
    Option UInt32 → Option (Shared × Option Call)
  | none =>
    some
      (({ x with freed := x.freed ++ [c], ioctls := x.ioctls - 1 }).reply c
        (statusOf false) none, none)
  | some number =>
    match x.ndis.lookup number with
    | none =>
      some ({ x with ndis := x.ndis.insert number false },
        some (.inserting number))
    | some _ => none

/-- A request to activate or deactivate a port: on success NDIS has it so. -/
def netPnPEvent (request : Request) (number : UInt32) (active accepted : Bool) :
    Shared :=
  if accepted then
    { x.ask request number with ndis := x.ndis.insert number active }
  else x.ask request number

/-- The end of `MpDeactivatePort`, under the lock. -/
def endDeactivation (c : ℕ) (found : Listed) (accepted : Bool) :
    Caller → Shared × Option Call
  | .ioctl _ =>
    (({ x.setState found.address
          (if accepted then .allocated else .activated) none with
        transitions := x.transitions - 1 }).reply c (statusOf accepted) none,
      none)
  | .close answers requests =>
    if accepted then
      ({ x.setState found.address .allocated none with lock := some c },
        some (.freeing { found with state := .allocated, owner := none }
          (.close answers requests)))
    else
      ({ x.setState found.address .activated none with
          lock := some c
          stopped := true }, none)

def freePort (c : ℕ) (found : Listed) (caller : Caller) :
    Shared × Option Call :=
  if caller.accepted then
    ({ x.ask (.free found.number) found.number with
        ndis := x.ndis.erase found.number
        givenBack := some found.address }, some (.removing found caller.next))
  else
    match caller with
    | .ioctl _ =>
      (({ x.ask (.free found.number) found.number with
          lock := none
          ioctls := x.ioctls - 1 }).reply c (statusOf false) none, none)
    | .close _ _ =>
      ({ x.ask (.free found.number) found.number with stopped := true }, none)

def endFree (c : ℕ) (found : Listed) :
    Caller → Shared × Option Call
  | .ioctl _ =>
    (({ x.removeEntry found.address with
        lock := none
        ioctls := x.ioctls - 1 }).reply c .success none, none)
  | .close answers requests =>
    (x.removeEntry found.address, some (.cleaning answers requests))

/-- One turn of the loop of `MpPortCleanup`, up to the first request. -/
def cleanupTurn (c : ℕ) (answers : ℕ → Bool) (requests : ℕ) :
    Shared × Option Call :=
  match x.portList with
  | [] => ({ x with lock := none, closed := true }, none)
  | found :: _ =>
    if found.state = .activated then
      ({ x.setState found.address .deactivating (some c) with lock := none },
        some (.deactivating found (.close answers requests)))
    else (x, some (.freeing found (.close answers requests)))

def advance (c : ℕ) (call : Call) : Option (Shared × Option Call) :=
  if x.stopped then none
  else
    match call with
    | .allocating answer => allocatePort x c answer
    | .inserting number =>
      if x.lock.isSome then none
      else
        some
          (({ x with
              portList := x.portList ++ [Listed.new c number]
              ioctls := x.ioctls - 1 }).reply c .success (some number), none)
    | .activating found accepted =>
      some
        (netPnPEvent x (.activate found.number) found.number true accepted,
          some (.activated found accepted))
    | .activated found accepted =>
      if x.lock.isSome then none
      else
        some
          (({ x.setState found.address
                (if accepted then .activated else .allocated) none with
              transitions := x.transitions - 1 }).reply c
                (statusOf accepted) none, none)
    | .deactivating found caller =>
      some
        (netPnPEvent x (.deactivate found.number) found.number false
            caller.accepted,
          some (.deactivated found caller.accepted caller.next))
    | .deactivated found accepted caller =>
      if x.lock.isSome then none
      else some (endDeactivation x c found accepted caller)
    | .freeing found caller => some (freePort x c found caller)
    | .removing found caller => some (endFree x c found caller)
    | .cleaning answers requests => some (cleanupTurn x c answers requests)

def program : Program Shared Call Input where
  init := .initial
  start := start
  advance := advance

def machine : Machine (Pool Shared Call) (Move Input) :=
  program.machine

end WinNetTest.Fnmp.PortIoctls
