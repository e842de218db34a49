import WinNetTest.Fnmp.AdapterActions
import WinNetTest.Timer

/-!
# The control device of FNMP

The device object through which FNMP is controlled exists while there are
adapters: `MpCreateAdapter` takes a reference to it before it allocates an
`ADAPTER_CONTEXT`, and `MpCleanupAdapter` gives the reference back before it
frees one.  The first reference registers the device, and the last one
deregisters it.

Initializations may fail at every step.  `FnTimerCreate` destroys a timer it
could not allocate, which reads a `NULL` pointer; nothing happens after that.
The last reference to an adapter that
has been initialized is dropped once, by whoever held it.  The driver is
unloaded when there are no adapters and no call is under way.  A call has a
stack, and the memory for stacks and adapters is limited by the size of the
address space.
-/

namespace WinNetTest.Fnmp.ControlDevice

open Support

/-! ## The device -/

/-- What has become of an `ADAPTER_CONTEXT` in memory: a call initializes it or
cleans it up, it has been initialized, or its cleanup has given its reference
to the device back and is about to free it. -/
inductive Phase where
  | held
  | initialized
  | dereferenced
  deriving DecidableEq

/-- The reference count of the device, whether it is registered, the adapters in
memory, the blocks of memory that they and the stacks of the calls take, and
whether `FnTimerDestroy` has read a `NULL` pointer. -/
structure Shared where
  ioctlDeviceReferenceCount : ℤ
  ioctlDeviceObject : Bool
  adapters : Table ℕ Phase
  blocks : ℕ
  assertionFailed : Bool
  fault : Bool

/-- A stack or an adapter takes sixteen bytes or more of an address space of 64
bits. -/
def maxBlocks : ℕ := 2 ^ 60

/-- `MpIoctlReference`, with what `NdisRegisterDeviceEx` answers; `none` when it
fails. -/
def mpIoctlReference (x : Shared) (registered : Bool) : Option Shared :=
  let referenced := fun device : Bool =>
    { x with
      ioctlDeviceObject := device
      assertionFailed := x.assertionFailed || !device
      ioctlDeviceReferenceCount :=
        Adapters.int64 (x.ioctlDeviceReferenceCount + 1) }
  if x.ioctlDeviceReferenceCount = 0 then
    if registered then some (referenced true) else none
  else some (referenced x.ioctlDeviceObject)

def mpIoctlDereference (x : Shared) : Shared :=
  let count := Adapters.int64 (x.ioctlDeviceReferenceCount - 1)
  if count = 0 then
    { x with
      ioctlDeviceReferenceCount := count
      ioctlDeviceObject := false
      assertionFailed := x.assertionFailed || !x.ioctlDeviceObject }
  else { x with ioctlDeviceReferenceCount := count }

def mpIoctlCleanup (x : Shared) : Shared :=
  { x with assertionFailed := x.assertionFailed || x.ioctlDeviceObject }

/-! ## Calls -/

/-- What the steps of `MpCreateAdapter` answer, in their order: the
registration of the device, the allocation of the adapter, the two allocations
of `SharedAdapterCreate`, and the allocation of the watchdog timer and the start
of its thread. -/
structure CreateOutcome where
  registerDevice : Bool
  adapterAllocated : Bool
  sharedAllocated : Bool
  nblPoolAllocated : Bool
  timerAllocated : Bool
  threadStarted : Bool
  deriving DecidableEq

inductive Call where
  | referencing (create : CreateOutcome) (outcome : Adapters.InitializeOutcome)
  | allocating (create : CreateOutcome) (outcome : Adapters.InitializeOutcome)
  | building (a : ℕ) (create : CreateOutcome)
      (outcome : Adapters.InitializeOutcome)
  | configuring (a : ℕ) (outcome : Adapters.InitializeOutcome)
  | cleaning (a : ℕ)
  | freeing (a : ℕ)
  deriving DecidableEq

/-- The initialization of a miniport, the drop of the last reference to an
adapter, and the unload of the driver. -/
inductive Input where
  | initializeMiniport (create : CreateOutcome)
      (outcome : Adapters.InitializeOutcome)
  | release (a : ℕ)
  | unload
  deriving DecidableEq

def Shared.return_ (x : Shared) : Shared :=
  { x with blocks := x.blocks - 1 }

def start (x : Shared) (_ : ℕ) : Input → Option (Shared × Option Call)
  | .initializeMiniport create outcome =>
    if x.blocks < maxBlocks then
      some ({ x with blocks := x.blocks + 1 },
        some (.referencing create outcome))
    else none
  | .release a =>
    if x.adapters.lookup a = some .initialized ∧ x.blocks < maxBlocks then
      some ({ x with
        adapters := x.adapters.insert a .held
        blocks := x.blocks + 1 }, some (.cleaning a))
    else none
  | .unload =>
    if x.adapters.keys = [] ∧ x.blocks = 0 then some (mpIoctlCleanup x, none)
    else none

def advance (x : Shared) (c : ℕ) : Call → Option (Shared × Option Call)
  | .referencing create outcome =>
    match mpIoctlReference x create.registerDevice with
    | none => some (x.return_, none)
    | some y => some (y, some (.allocating create outcome))
  | .allocating create outcome =>
    if create.adapterAllocated then
      if x.blocks < maxBlocks then
        some ({ x with
          adapters := x.adapters.insert c .held
          blocks := x.blocks + 1 }, some (.building c create outcome))
      else none
    else some (x.return_, none)
  | .building a create outcome =>
    if create.sharedAllocated && create.nblPoolAllocated then
      let timer := Timer.fnTimerCreate Timer.machine.init
        create.timerAllocated create.threadStarted
      if timer.fault then
        some ({ x with fault := true }, some (.building a create outcome))
      else if timer.owner = .creating then
        some (x, some (.configuring a outcome))
      else some (x, some (.cleaning a))
    else some (x, some (.cleaning a))
  | .configuring a outcome =>
    if outcome.succeeds then
      some (({ x with
        adapters := x.adapters.insert a .initialized }).return_, none)
    else some (x, some (.cleaning a))
  | .cleaning a =>
    some ({ mpIoctlDereference x with
      adapters := x.adapters.insert a .dereferenced }, some (.freeing a))
  | .freeing a =>
    some (({ x with
      adapters := x.adapters.erase a
      blocks := x.blocks - 1 }).return_, none)

def program : Program Shared Call Input where
  init :=
    { ioctlDeviceReferenceCount := 0
      ioctlDeviceObject := false
      adapters := ∅
      blocks := 0
      assertionFailed := false
      fault := false }
  start x c input := if x.fault then none else start x c input
  advance x c call := if x.fault then none else advance x c call

def machine : Machine (Pool Shared Call) (Move Input) := program.machine

/-! ## The actions -/

inductive Action (x : Shared) (c : ℕ) :
    Option Call → Shared → Option Call → Prop
  | begun (create : CreateOutcome) (outcome : Adapters.InitializeOutcome)
      (hblocks : x.blocks < maxBlocks) :
      Action x c none { x with blocks := x.blocks + 1 }
        (some (.referencing create outcome))
  | released (a : ℕ) (ha : x.adapters.lookup a = some .initialized)
      (hblocks : x.blocks < maxBlocks) :
      Action x c none
        { x with
          adapters := x.adapters.insert a .held
          blocks := x.blocks + 1 } (some (.cleaning a))
  | unloaded (hadapters : x.adapters.keys = []) (hblocks : x.blocks = 0) :
      Action x c none (mpIoctlCleanup x) none
  | notRegistered (create : CreateOutcome)
      (outcome : Adapters.InitializeOutcome) :
      Action x c (some (.referencing create outcome)) x.return_ none
  | referenced (create : CreateOutcome) (outcome : Adapters.InitializeOutcome)
      (y : Shared) (hy : mpIoctlReference x create.registerDevice = some y) :
      Action x c (some (.referencing create outcome)) y
        (some (.allocating create outcome))
  | allocated (create : CreateOutcome) (outcome : Adapters.InitializeOutcome)
      (hblocks : x.blocks < maxBlocks) :
      Action x c (some (.allocating create outcome))
        { x with
          adapters := x.adapters.insert c .held
          blocks := x.blocks + 1 } (some (.building c create outcome))
  | notAllocated (create : CreateOutcome)
      (outcome : Adapters.InitializeOutcome)
      (hcreate : create.adapterAllocated = false) :
      Action x c (some (.allocating create outcome)) x.return_ none
  | built (a : ℕ) (create : CreateOutcome)
      (outcome : Adapters.InitializeOutcome) :
      Action x c (some (.building a create outcome)) x
        (some (.configuring a outcome))
  | faulted (a : ℕ) (create : CreateOutcome)
      (outcome : Adapters.InitializeOutcome)
      (hcreate : (create.sharedAllocated && create.nblPoolAllocated) = true)
      (htimer : create.timerAllocated = false) :
      Action x c (some (.building a create outcome)) { x with fault := true }
        (some (.building a create outcome))
  | notBuilt (a : ℕ) (create : CreateOutcome)
      (outcome : Adapters.InitializeOutcome) :
      Action x c (some (.building a create outcome)) x (some (.cleaning a))
  | configured (a : ℕ) (outcome : Adapters.InitializeOutcome) :
      Action x c (some (.configuring a outcome))
        ({ x with adapters := x.adapters.insert a .initialized }).return_ none
  | notConfigured (a : ℕ) (outcome : Adapters.InitializeOutcome) :
      Action x c (some (.configuring a outcome)) x (some (.cleaning a))
  | cleaned (a : ℕ) : Action x c (some (.cleaning a))
        { mpIoctlDereference x with
          adapters := x.adapters.insert a .dereferenced }
        (some (.freeing a))
  | freed (a : ℕ) : Action x c (some (.freeing a))
        ({ x with
          adapters := x.adapters.erase a
          blocks := x.blocks - 1 }).return_ none

namespace Action

variable {x y : Shared} {c : ℕ} {after : Option Call}

theorem of_start {input : Input} (h : start x c input = some (y, after)) :
    Action x c none y after := by
  cases input with
  | initializeMiniport create outcome =>
    simp only [start] at h
    split at h
    · rename_i hblocks
      cases h
      exact .begun create outcome hblocks
    · cases h
  | release a =>
    simp only [start] at h
    split at h
    · rename_i hguard
      cases h
      exact .released a hguard.1 hguard.2
    · cases h
  | unload =>
    simp only [start] at h
    split at h
    · rename_i hguard
      cases h
      exact .unloaded hguard.1 hguard.2
    · cases h

theorem of_advance {call : Call} (h : advance x c call = some (y, after)) :
    Action x c (some call) y after := by
  cases call with
  | referencing create outcome =>
    simp only [advance] at h
    split at h
    · cases h
      exact .notRegistered create outcome
    · rename_i z hz
      cases h
      exact .referenced create outcome _ hz
  | allocating create outcome =>
    simp only [advance] at h
    split at h
    · split at h
      · rename_i hblocks
        cases h
        exact .allocated create outcome hblocks
      · cases h
    · rename_i hcreate
      cases h
      exact .notAllocated create outcome (by simpa using hcreate)
  | building a create outcome =>
    simp only [advance] at h
    split_ifs at h with hcreate hfault
    · cases h
      refine .faulted a create outcome hcreate ?_
      by_contra hallocated
      cases hstarted : create.threadStarted <;>
        simp_all [Timer.fnTimerCreate, Timer.fnTimerDestroy,
          Timer.State.access, Timer.machine]
    · cases h
      exact .built a create outcome
    · cases h
      exact .notBuilt a create outcome
    · cases h
      exact .notBuilt a create outcome
  | configuring a outcome =>
    simp only [advance] at h
    split at h
    · cases h
      exact .configured a outcome
    · cases h
      exact .notConfigured a outcome
  | cleaning a =>
    cases h
    exact .cleaned a
  | freeing a =>
    cases h
    exact .freed a

theorem of_turn {s : Pool Shared Call} {n : ℕ} {before : Option Call}
    (h : program.Turn s c before n y after) :
    Action s.shared c before y after := by
  cases h with
  | start hc hstart =>
    exact of_start (Option.ite_none_left_eq_some.mp hstart).2
  | advance hc hadvance =>
    exact of_advance (Option.ite_none_left_eq_some.mp hadvance).2

end Action

end WinNetTest.Fnmp.ControlDevice
