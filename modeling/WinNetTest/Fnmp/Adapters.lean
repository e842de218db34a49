import WinNetTest.Status
import WinNetTest.Support.Interleaving

/-!
# Adapters and their references

The driver keeps the initialized adapters in a global list.  An adapter is
freed when its last reference is dropped: one is the miniport's, from
`MpCreateAdapter` to the end of a failed initialization or of the halt, and
every shared or exclusive handle has one, taken by `MpFindAdapter` while the
list is locked.  References are dropped without the lock.

The push lock of the list is modelled by the number of its readers; a section
that holds it exclusively is one action.  NDIS halts an adapter once, and only
one it has initialized.  Adapters and handles have the numbers of the calls that
create them.
-/

namespace WinNetTest.Fnmp.Adapters

open Support

/-! ## Adapters -/

/-- The part of `ADAPTER_CONTEXT` that opening and closing handles uses. -/
structure Adapter where
  ifIndex : UInt32
  miniportHandle : Bool
  referenceCount : ℤ
  userContext : Option ℕ
  deriving DecidableEq

/-- What has become of the miniport of an adapter that `MpCreateAdapter` has
returned. -/
inductive Phase where
  | initializing
  | initialized
  | halting (c : ℕ)
  | gone
  deriving DecidableEq

inductive Kind where
  | shared
  | exclusive
  deriving DecidableEq

structure Handle where
  kind : Kind
  adapter : ℕ
  deriving DecidableEq

/-- The halt handler removes an adapter from the list; a call of `MpFindAdapter`
returns an adapter. -/
inductive Event where
  | removed (a : ℕ)
  | found (c a : ℕ)
  deriving DecidableEq

/-- The adapters that are allocated, the list of those that can be found and the
number of readers of its lock, the miniports, the open handles, the number of
handle contexts in the pool, and, as a record, the adapters that have been
cleaned up and the events, the latest first. -/
structure Shared where
  adapters : Table ℕ Adapter
  adapterList : List ℕ
  readers : ℕ
  miniports : Table ℕ Phase
  handles : Table ℕ Handle
  contexts : ℕ
  cleanups : List ℕ
  events : List Event
  stopped : Bool

def int64 (n : ℤ) : ℤ := n.bmod (2 ^ 64)

variable (x : Shared)

/-- Write to an adapter.  Its memory must not have been freed. -/
def Shared.update (a : ℕ) (f : Adapter → Adapter) : Shared :=
  { x with
    adapters := match x.adapters.lookup a with
      | none => x.adapters
      | some adapter => x.adapters.insert a (f adapter)
    stopped := x.stopped || (x.adapters.lookup a).isNone }

def Shared.count (x : Shared) (a : ℕ) : Option ℤ :=
  (x.adapters.lookup a).map fun adapter => adapter.referenceCount

/-- `MpReferenceAdapter`: its assertion is that the new count exceeds one. -/
def mpReferenceAdapter (a : ℕ) : Shared :=
  let y := x.update a fun adapter =>
    { adapter with referenceCount := int64 (adapter.referenceCount + 1) }
  { y with
    stopped := y.stopped ||
      (y.count a).any fun newCount => !decide (1 < newCount) }

/-- `MpDereferenceAdapter` before the cleanup, and whether the adapter is to be
cleaned up. -/
def mpDereferenceAdapter (a : ℕ) : Shared × Bool :=
  let y := x.update a fun adapter =>
    { adapter with referenceCount := int64 (adapter.referenceCount - 1) }
  ({ y with
      stopped := y.stopped ||
        (y.count a).any fun newCount => !decide (0 ≤ newCount) },
    decide (y.count a = some 0))

def mpCleanupAdapter (a : ℕ) : Shared :=
  { x with
    adapters := x.adapters.erase a
    cleanups := a :: x.cleanups
    stopped := x.stopped || (x.adapters.lookup a).isNone }

/-- The search of `MpFindAdapter`. -/
def mpFindAdapter (ifIndex : UInt32) : Option ℕ :=
  x.adapterList.find? fun a =>
    (x.adapters.lookup a).any fun adapter => adapter.ifIndex == ifIndex

/-! ## Calls -/

/-- What the steps of `MiniportInitializeHandler` answer, in their order: the
registration attributes, the configuration, the general attributes, the offload
attributes and the RSS queues. -/
structure InitializeOutcome where
  registrationAttributes : Bool
  readConfiguration : Bool
  generalAttributes : Bool
  offloadAttributes : Bool
  createRssQueues : Bool
  deriving DecidableEq

def InitializeOutcome.succeeds (outcome : InitializeOutcome) : Bool :=
  outcome.registrationAttributes && outcome.readConfiguration &&
    outcome.generalAttributes && outcome.offloadAttributes &&
    outcome.createRssQueues

/-- A create request: the kind of the handle, the length and the interface index
of its input, and whether the pool has memory for the context and, for a shared
handle, for its receive and its send part. -/
structure OpenRequest where
  kind : Kind
  inputBufferLength : ℕ
  ifIndex : UInt32
  allocated : Bool
  rxCreated : Bool
  txCreated : Bool
  deriving DecidableEq

/-- `sizeof(FNMP_OPEN_SHARED)` and `sizeof(FNMP_OPEN_EXCLUSIVE)`. -/
def sizeofOpen : ℕ := 4

/-- A context takes sixteen bytes or more of an address space of 64 bits. -/
def maxContexts : ℕ := 2 ^ 60

inductive Call where
  | configuring (a : ℕ) (outcome : InitializeOutcome)
  | halting (a : ℕ)
  | searching (request : OpenRequest)
  | referencing (request : OpenRequest) (a : ℕ)
  | holding (request : OpenRequest) (a : ℕ)
  | closing (kind : Kind) (a h : ℕ)
  | dropping (a : ℕ)
  | cleaning (a : ℕ) (context : Bool)
  deriving DecidableEq

/-- What a call is made with.  The outcome of an initialization is `none` if
`MpCreateAdapter` returns no adapter. -/
inductive Input where
  | initializeMiniport (ifIndex : UInt32) (outcome : Option InitializeOutcome)
  | halt (a : ℕ)
  | create (request : OpenRequest)
  | close (h : ℕ)
  deriving DecidableEq

def mpCreateAdapter (a : ℕ) (ifIndex : UInt32) : Shared :=
  { x with
    adapters := x.adapters.insert a
      { ifIndex := ifIndex
        miniportHandle := true
        referenceCount := 1
        userContext := none }
    miniports := x.miniports.insert a .initializing }

/-- The section of `MiniportHaltHandler` under the lock. -/
def haltSection (c a : ℕ) : Shared :=
  let y := x.update a fun adapter => { adapter with miniportHandle := false }
  { y with
    adapterList := y.adapterList.erase a
    miniports := y.miniports.insert a (.halting c)
    events := .removed a :: y.events }

/-- The end of a call that has dropped a reference: it cleans the adapter up if
this was the last one, and frees the context it has. -/
def afterDereference (result : Shared × Bool) (a : ℕ) (context : Bool) :
    Shared × Option Call :=
  if result.2 then (result.1, some (.cleaning a context))
  else if context then
    ({ result.1 with contexts := result.1.contexts - 1 }, none)
  else (result.1, none)

def start (c : ℕ) : Input → Option (Shared × Option Call)
  | .initializeMiniport ifIndex outcome =>
    match outcome with
    | none => some (x, none)
    | some outcome =>
      some (mpCreateAdapter x c ifIndex, some (.configuring c outcome))
  | .halt a =>
    if x.miniports.lookup a = some .initialized ∧ x.readers = 0 then
      some (haltSection x c a, some (.halting a))
    else none
  | .create request =>
    if request.inputBufferLength < sizeofOpen then some (x, none)
    else if !request.allocated then some (x, none)
    else if x.contexts < maxContexts then
      some ({ x with contexts := x.contexts + 1 }, some (.searching request))
    else none
  | .close h =>
    (x.handles.lookup h).map fun handle =>
      ({ x with handles := x.handles.erase h },
        some (.closing handle.kind handle.adapter h))

/-- What `SharedIrpCreate` and `ExclusiveIrpCreate` do with an adapter they hold:
the handle is open, or its context is cleaned up. -/
def finishOpen (c : ℕ) (request : OpenRequest) (a : ℕ) : Shared × Option Call :=
  match request.kind with
  | .shared =>
    if request.rxCreated && request.txCreated then
      ({ x with handles := x.handles.insert c ⟨.shared, a⟩ }, none)
    else (x, some (.closing .shared a c))
  | .exclusive =>
    let owner := (x.adapters.lookup a).bind fun adapter => adapter.userContext
    if owner.isSome then (x, some (.closing .exclusive a c))
    else
      let y := x.update a fun adapter =>
        { adapter with userContext := some c }
      ({ y with handles := y.handles.insert c ⟨.exclusive, a⟩ }, none)

/-- `SharedCleanup` and `ExclusiveCleanup` up to the dereference. -/
def releaseAdapter (kind : Kind) (a h : ℕ) : Shared :=
  match kind with
  | .shared => x
  | .exclusive =>
    x.update a fun adapter =>
      { adapter with
        userContext :=
          if adapter.userContext = some h then none
          else adapter.userContext }

def advance (c : ℕ) : Call → Option (Shared × Option Call)
  | .configuring a outcome =>
    if outcome.succeeds then
      if x.readers = 0 then
        some
          ({ x with
              adapterList := x.adapterList ++ [a]
              miniports := x.miniports.insert a .initialized }, none)
      else none
    else
      some (afterDereference
        (mpDereferenceAdapter
          { x with miniports := x.miniports.insert a .gone } a) a false)
  | .halting a =>
    some (afterDereference
      (mpDereferenceAdapter
        { x with miniports := x.miniports.insert a .gone } a) a false)
  | .searching request =>
    match mpFindAdapter x request.ifIndex with
    | none => some ({ x with contexts := x.contexts - 1 }, none)
    | some a =>
      some ({ x with readers := x.readers + 1 }, some (.referencing request a))
  | .referencing request a =>
    let y := mpReferenceAdapter x a
    some
      ({ y with
          readers := y.readers - 1
          events := .found c a :: y.events }, some (.holding request a))
  | .holding request a => some (finishOpen x c request a)
  | .closing kind a h =>
    some (releaseAdapter x kind a h, some (.dropping a))
  | .dropping a => some (afterDereference (mpDereferenceAdapter x a) a true)
  | .cleaning a context =>
    let y := mpCleanupAdapter x a
    some
      (if context then { y with contexts := y.contexts - 1 } else y, none)

def program : Program Shared Call Input where
  init :=
    { adapters := ∅
      adapterList := []
      readers := 0
      miniports := ∅
      handles := ∅
      contexts := 0
      cleanups := []
      events := []
      stopped := false }
  start := start
  advance := advance

def machine : Machine (Pool Shared Call) (Move Input) := program.machine

end WinNetTest.Fnmp.Adapters
