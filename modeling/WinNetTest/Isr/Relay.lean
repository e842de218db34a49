import WinNetTest.Status
import WinNetTest.Support.Interleaving
import WinNetTest.Support.Rundown

/-!
# The invoke-system relay

A client submits commands through one handle of the relay driver, a service
fetches them through another (GET), executes them and hands back the result
(POST).  Between them stand a queue of requests under a lock of its own, and
in the service module one slot for a GET that waits and one for the request
the service is working on, both under the service lock.

A section of the queue lock is one action.  A section of the service lock is
several where it pops the queue or exchanges the cancel routine of an IRP, and
the lock names the call that holds it.

The IO manager dispatches each IOCTL with an IRP of its own, named here by the
number of the call; it may cancel an IRP that is not completed, and it closes
a handle once the IRPs of the handle are completed.
-/

namespace WinNetTest.Isr

open Support

def isrMaxCommandLength : ℕ := 1024

/-- `sizeof(ISR_GET_OUTPUT)`: a 64-bit `Id` and the command. -/
def getOutputSize : ℕ := 8 + isrMaxCommandLength

/-- `sizeof(ISR_POST_INPUT)`: a 64-bit `Id` and an `INT`, padded. -/
def postInputSize : ℕ := 16

/-- What a handle was opened as: `ISR_FILE_TYPE_CLIENT` or
`ISR_FILE_TYPE_SERVICE`. -/
inductive FileType where
  | client
  | service
  deriving DecidableEq

/-- An `ISR_REQUEST`.  The client context is the IRP of the submit. -/
structure Request where
  id : UInt64
  clientContext : ℕ
  command : List UInt8
  deriving DecidableEq

inductive Output where
  | request (id : UInt64) (command : List UInt8)
  | result (result : Int32)
  deriving DecidableEq

/-- An IRP, with the handle it was issued on.  The only cancel routine is
`ServiceCancelGet`. -/
structure Irp where
  file : ℕ
  objectType : FileType
  cancel : Bool
  cancelRoutine : Bool
  output : Option (UInt64 × List UInt8)
  deriving DecidableEq

structure Completion where
  irp : ℕ
  status : NtStatus
  output : Option Output
  deriving DecidableEq

/-- One side of the relay: its slot for the open handle, and its registration
with the request queue. -/
structure Party where
  userContext : Option ℕ
  isRegistered : Bool
  rundown : Rundown
  deriving DecidableEq

namespace Party

def unregistered : Party := ⟨none, false, .initialized⟩

def acquire (p : Party) : Option Party :=
  if p.isRegistered then
    (p.rundown.acquire 1).map fun rundown => { p with rundown := rundown }
  else none

def release (p : Party) : Party :=
  { p with rundown := p.rundown.release 1 }

end Party

structure Shared where
  queue : List Request
  client : Party
  service : Party
  uniqueId : UInt64
  lock : Option ℕ
  pendingIrp : Option ℕ
  pendingRequest : Option Request
  irps : Table ℕ Irp
  files : Table ℕ FileType
  nextFile : ℕ
  assigned : List (ℕ × UInt64)
  inserted : List Request
  popped : List Request
  handed : List (Request × ℕ)
  posts : List (UInt64 × Int32)
  finished : List Request
  dropped : List Request
  completions : List Completion
  fault : Bool

/-- The driver as `DriverEntry` leaves it. -/
def Shared.initial : Shared where
  queue := []
  client := .unregistered
  service := .unregistered
  uniqueId := 0
  lock := none
  pendingIrp := none
  pendingRequest := none
  irps := ∅
  files := ∅
  nextFile := 0
  assigned := []
  inserted := []
  popped := []
  handed := []
  posts := []
  finished := []
  dropped := []
  completions := []
  fault := false

inductive Notify where
  /-- Before the service lock is acquired. -/
  | acquire
  /-- A GET is pending; about to pop a request for it. -/
  | pop
  /-- A request has been popped. -/
  | took (request : Request)
  /-- The request is stored; about to clear the cancel routine of the GET. -/
  | uncancel (irp : ℕ)
  /-- About to release the lock, with the IRP to be completed. -/
  | release (irp : Option ℕ)
  /-- About to complete the GET. -/
  | complete (irp : ℕ)
  deriving DecidableEq

inductive Get where
  | acquire
  | pop
  | took (request : Request)
  /-- The queue was empty; about to store the IRP and set its cancel
  routine. -/
  | pend
  /-- About to read `Irp->Cancel`. -/
  | check
  /-- Cancelled already; about to clear the cancel routine. -/
  | uncancel
  | release (status : NtStatus)
  deriving DecidableEq

inductive Post where
  | acquire (id : UInt64) (result : Int32)
  /-- `RqServiceCompleteRequest` is about to look for the client. -/
  | took (request : Request) (result : Int32)
  /-- About to call `ClientRequestComplete`. -/
  | callback (request : Request) (result : Int32)
  /-- About to release the client. -/
  | release
  deriving DecidableEq

/-- Where `IoCancelIrp` stands: about to take the cancel routine, in
`ServiceCancelGet` before its lock section, or about to complete the IRP. -/
inductive Cancel where
  | exchange
  | routine
  | complete
  deriving DecidableEq

/-- Where a close stands: about to run down the registration, waiting for the
last reference, about to deregister, or about to give up the slot. -/
inductive Close where
  | wait
  | drain
  | deregister
  | release
  deriving DecidableEq

inductive Call where
  /-- `RqClientPushRequest` before its lock section. -/
  | submitting (id : UInt64) (command : List UInt8)
  /-- `RqClientPushRequest` has found the queue empty and filled it. -/
  | notifying (position : Notify)
  /-- `RqClientPushRequest` is about to release the service. -/
  | pushed
  | getting (position : Get)
  | posting (position : Post)
  | cancelling (irp : ℕ) (position : Cancel)
  /-- The dispatch routine is about to look at the status. -/
  | returning (status : NtStatus)
  /-- A create holds the slot, before the rundown is initialised. -/
  | registering (objectType : FileType) (file : ℕ)
  /-- A create is about to set `IsRegistered`. -/
  | registered (objectType : FileType) (file : ℕ)
  | closing (objectType : FileType) (file : ℕ) (position : Close)
  deriving DecidableEq

namespace Shared

def party (x : Shared) : FileType → Party
  | .client => x.client
  | .service => x.service

def setParty (x : Shared) (type : FileType) (p : Party) : Shared :=
  { x with
    client := if type = .client then p else x.client
    service := if type = .service then p else x.service }

def newIrp (x : Shared) (c file : ℕ) (type : FileType) : Shared :=
  { x with irps := x.irps.insert c ⟨file, type, false, false, none⟩ }

def completedIrps (x : Shared) : List ℕ :=
  x.completions.map (·.irp)

/-- `IoCompleteRequest` with what the IRP holds. -/
def ioCompleteRequest (x : Shared) (irp : ℕ) (status : NtStatus) : Shared :=
  { x with
    completions := x.completions ++
      [⟨irp, status, ((x.irps.lookup irp).bind (·.output)).map
        fun output => .request output.1 output.2⟩] }

/-- `IoSetCancelRoutine(Irp, NULL)`: whether a routine was set, and the state
without it. -/
def clearCancelRoutine (x : Shared) (irp : ℕ) : Bool × Shared :=
  match x.irps.lookup irp with
  | none => (false, x)
  | some i =>
    if i.cancelRoutine then
      (true, { x with
        irps := x.irps.insert irp { i with cancelRoutine := false } })
    else (false, x)

def faulted (x : Shared) : Shared :=
  { x with fault := true }

end Shared

/-! ## The client -/

/-- The buffers of a submit: their lengths, the system buffer, and the byte in
front of it, which is read when the input is empty. -/
structure SubmitInput where
  inputBufferLength : ℕ
  outputBufferLength : ℕ
  systemBuffer : List UInt8
  preceding : UInt8
  deriving DecidableEq

namespace SubmitInput

def lastByte (input : SubmitInput) : UInt8 :=
  if input.inputBufferLength = 0 then input.preceding
  else input.systemBuffer.getD (input.inputBufferLength - 1) 0

/-- The string in the system buffer as `strcpy_s` copies it; one that does not
fit leaves the empty string. -/
def command (input : SubmitInput) : List UInt8 :=
  let string := input.systemBuffer.takeWhile (· ≠ 0)
  if string.length < isrMaxCommandLength then string else []

end SubmitInput

variable (x : Shared) (c : ℕ)

/-- `ClientIrpSubmit` up to the lock section of `RqClientPushRequest`, with
the outcome of the allocation. -/
def clientIrpSubmit (input : SubmitInput) (allocated : Bool) :
    Shared × Option Call :=
  if isrMaxCommandLength < input.inputBufferLength ∨
      input.outputBufferLength < 4 then
    (x, some (.returning .invalidParameter))
  else if input.lastByte ≠ 0 then (x, some (.returning .invalidParameter))
  else
    let id := x.uniqueId + 1
    ({ x with uniqueId := id, assigned := x.assigned ++ [(c, id)] },
      if allocated then some (.submitting id input.command)
      else some (.returning .noMemory))

/-- The lock section of `RqClientPushRequest`. -/
def rqClientPushRequest (id : UInt64) (command : List UInt8) :
    Shared × Option Call :=
  match x.service.acquire with
  | none => (x, some (.returning .deviceNotReady))
  | some service =>
    ({ x with
      service := service
      queue := x.queue ++ [⟨id, c, command⟩]
      inserted := x.inserted ++ [⟨id, c, command⟩] },
      if x.queue = [] then some (.notifying .acquire) else some .pushed)

def clientRequestComplete (request : Request) (result : Int32) : Shared :=
  { x with
    finished := x.finished ++ [request]
    completions := x.completions ++
      [⟨request.clientContext, .success, some (.result result)⟩] }

/-! ## The service -/

def rqServicePopRequest : Option (Request × Shared) :=
  match x.queue with
  | [] => none
  | request :: rest =>
    some (request, { x with
      queue := rest
      popped := x.popped ++ [request] })

/-- `ServiceInitializeGetIrpOutput`, and the request becomes the pending one;
`none` for an IRP that does not exist. -/
def storeRequest (irp : ℕ) (request : Request) : Option Shared :=
  (x.irps.lookup irp).map fun i =>
    { x with
      irps := x.irps.insert irp
        { i with output := some (request.id, request.command) }
      pendingRequest := some request
      handed := x.handed ++ [(request, irp)] }

def serviceRequestAvailable :
    Notify → Option (Shared × Option Call)
  | .acquire =>
    if x.lock = none then
      if x.pendingIrp = none then some (x, some .pushed)
      else some ({ x with lock := some c }, some (.notifying .pop))
    else none
  | .pop =>
    match rqServicePopRequest x with
    | none => some (x, some (.notifying (.release none)))
    | some (request, x) => some (x, some (.notifying (.took request)))
  | .took request =>
    match x.pendingIrp with
    | none => some (x.faulted, some (.notifying (.took request)))
    | some irp =>
      (storeRequest { x with pendingIrp := none } irp request).map
        fun x => (x, some (.notifying (.uncancel irp)))
  | .uncancel irp =>
    match x.clearCancelRoutine irp with
    | (true, x) => some (x, some (.notifying (.release (some irp))))
    | (false, x) => some (x, some (.notifying (.release none)))
  | .release irp =>
    some ({ x with lock := none }, match irp with
      | none => some .pushed
      | some irp => some (.notifying (.complete irp)))
  | .complete irp => some (x.ioCompleteRequest irp .success, some .pushed)

/-- `ServiceIrpGet` on an output buffer that is large enough. -/
def serviceIrpGet : Get → Option (Shared × Option Call)
  | .acquire =>
    if x.lock = none then
      if x.pendingIrp ≠ none ∨ x.pendingRequest ≠ none then
        some (x, some (.returning .notSupported))
      else some ({ x with lock := some c }, some (.getting .pop))
    else none
  | .pop =>
    match rqServicePopRequest x with
    | none => some (x, some (.getting .pend))
    | some (request, x) => some (x, some (.getting (.took request)))
  | .took request =>
    (storeRequest x c request).map fun x =>
      (x, some (.getting (.release .success)))
  | .pend =>
    (x.irps.lookup c).map fun i =>
      ({ x with
        pendingIrp := some c
        irps := x.irps.insert c { i with cancelRoutine := true } },
        some (.getting .check))
  | .check =>
    if (x.irps.lookup c).any (·.cancel) then some (x, some (.getting .uncancel))
    else some (x, some (.getting (.release .pending)))
  | .uncancel =>
    match x.clearCancelRoutine c with
    | (true, x) =>
      some ({ x with pendingIrp := none },
        some (.getting (.release .cancelled)))
    | (false, x) => some (x, some (.getting (.release .pending)))
  | .release status =>
    some ({ x with lock := none }, some (.returning status))

/-- `ServiceIrpPost` on an input buffer that is large enough, and
`RqServiceCompleteRequest`. -/
def serviceIrpPost : Post → Option (Shared × Option Call)
  | .acquire id result =>
    if x.lock = none then
      match x.pendingRequest with
      | none => some (x.faulted, some (.posting (.acquire id result)))
      | some request =>
        if id = request.id then
          some ({ x with pendingRequest := none },
            some (.posting (.took request result)))
        else some (x, some (.returning .notFound))
    else none
  | .took request result =>
    match x.client.acquire with
    | none =>
      some ({ x with dropped := x.dropped ++ [request] },
        some (.returning .success))
    | some client =>
      some ({ x with client := client },
        some (.posting (.callback request result)))
  | .callback request result =>
    some (clientRequestComplete x request result, some (.posting .release))
  | .release =>
    some ({ x with client := x.client.release }, some (.returning .success))

/-- `IoCancelIrp` after it has set `Irp->Cancel`, and `ServiceCancelGet`. -/
def serviceCancelGet (irp : ℕ) :
    Cancel → Option (Shared × Option Call)
  | .exchange =>
    match x.clearCancelRoutine irp with
    | (true, x) => some (x, some (.cancelling irp .routine))
    | (false, x) => some (x, none)
  | .routine =>
    if x.lock = none then
      some ({ x with
        pendingIrp := if x.pendingIrp = some irp then none
          else x.pendingIrp }, some (.cancelling irp .complete))
    else none
  | .complete => some (x.ioCompleteRequest irp .cancelled, none)

/-! ## Handles and IOCTLs -/

def irpClose (type : FileType) (file : ℕ) :
    Close → Option (Shared × Option Call)
  | .wait =>
    let p := x.party type
    some (x.setParty type { p with rundown := p.rundown.beginWait },
      some (.closing type file .drain))
  | .drain =>
    if (x.party type).rundown.released then
      some (x, some (.closing type file .deregister))
    else none
  | .deregister =>
    some (x.setParty type { x.party type with isRegistered := false },
      some (.closing type file .release))
  | .release =>
    let p := x.party type
    some (x.setParty type { p with
      userContext := if p.userContext = some file then none
        else p.userContext }, none)

/-- The IOCTLs, with the lengths of the buffers and the contents of the input;
`other` stands for every unknown code. -/
inductive Ioctl where
  | submit (input : SubmitInput) (allocated : Bool)
  | get (outputBufferLength : ℕ)
  | post (inputBufferLength : ℕ) (id : UInt64) (result : Int32)
  | other
  deriving DecidableEq

/-- `IsrIrpIoctl` with the dispatch tables of the two handle types. -/
def isrIrpIoctl : FileType → Ioctl → Shared × Option Call
  | .client, .submit input allocated => clientIrpSubmit x c input allocated
  | .service, .get length =>
    if length < getOutputSize then (x, some (.returning .invalidParameter))
    else (x, some (.getting .acquire))
  | .service, .post length id result =>
    if length < postInputSize then (x, some (.returning .invalidParameter))
    else
      ({ x with posts := x.posts ++ [(id, result)] },
        some (.posting (.acquire id result)))
  | _, _ => (x, some (.returning .notSupported))

inductive Input where
  | ioctl (file : ℕ) (ioctl : Ioctl)
  | cancel (irp : ℕ)
  | create (objectType : FileType) (allocated : Bool)
  | close (file : ℕ)
  deriving DecidableEq

/-- The first action of a call.  A create that is refused leaves nothing
behind. -/
def start : Input → Option (Shared × Option Call)
  | .ioctl file ioctl =>
    (x.files.lookup file).map fun type =>
      isrIrpIoctl (x.newIrp c file type) c type ioctl
  | .cancel irp =>
    if irp ∈ x.completedIrps then none
    else
      (x.irps.lookup irp).map fun i =>
        ({ x with irps := x.irps.insert irp { i with cancel := true } },
          some (.cancelling irp .exchange))
  | .create type allocated =>
    let p := x.party type
    if !allocated ∨ p.userContext ≠ none then some (x, none)
    else
      some ({ x with nextFile := x.nextFile + 1 }.setParty type
        { p with userContext := some x.nextFile },
        some (.registering type x.nextFile))
  | .close file =>
    if ∀ e ∈ x.irps.entries, e.2.file = file → e.1 ∈ x.completedIrps then
      (x.files.lookup file).map fun type =>
        ({ x with files := x.files.erase file },
          some (.closing type file .wait))
    else none

def advance : Call → Option (Shared × Option Call)
  | .submitting id command => some (rqClientPushRequest x c id command)
  | .notifying position => serviceRequestAvailable x c position
  | .pushed => some ({ x with service := x.service.release }, none)
  | .getting position => serviceIrpGet x c position
  | .posting position => serviceIrpPost x position
  | .cancelling irp position => serviceCancelGet x irp position
  | .returning status =>
    if status = .pending then some (x, none)
    else some (x.ioCompleteRequest c status, none)
  | .registering type file =>
    some (x.setParty type { x.party type with rundown := .initialized },
      some (.registered type file))
  | .registered type file =>
    some ({ x with files := x.files.insert file type }.setParty type
      { x.party type with isRegistered := true }, none)
  | .closing type file position => irpClose x type file position

/-- The relay driver.  Nothing happens after a fault. -/
def relay : Program Shared Call Input where
  init := .initial
  start x c input := if x.fault then none else start x c input
  advance x c call := if x.fault then none else advance x c call

end WinNetTest.Isr
