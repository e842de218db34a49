import WinNetTest.WskClient.Operation

/-!
# Synchronous operations of the WSK client

`Wsk…Sync` does the work of `Wsk…Async` and `Wsk…Await` in one call: the event
is on its stack, and there is no completion block.  The synchronous form and the
asynchronous form of an operation are executed here on the same inputs, which
are the actions of the provider, the end of the timeout and the next action of
the caller; `Wsk…Await` is called as soon as `Wsk…Async` has succeeded.

The optional count of bytes is asked for.  It does not exceed the length of the
buffer, a `ULONG`.
-/

namespace WinNetTest.WskClient

open Support

inductive SyncOperation where
  | connectEx
  | accept
  | disconnect
  | send
  | sendEx
  | sendTo
  | receive
  | receiveEx
  deriving DecidableEq

/-! ## Before the call of the provider -/

/-- The form of `Wsk…Sync` that sets up its buffer, if there is one, last. -/
def prepareBufferLast (sockTypes : List SockType) (buffer : Bool)
    (request : Request) : Prepare Unit := do
  selectDispatch sockTypes request
  allocateIrp request
  if buffer then initializeBuffer request

/-- The form of `Wsk…Sync` that sets up its buffer first. -/
def prepareBufferFirst (sockTypes : List SockType) (request : Request) :
    Prepare Unit := do
  initializeBuffer request
  selectDispatch sockTypes request
  allocateIrp request

/-- `WskSendToSync` does not look at the type of the socket. -/
def wskSendToSync (request : Request) : Prepare Unit := do
  initializeBuffer request
  allocateIrp request

/-- `Wsk…Sync` until it calls the provider. -/
def prepareSync : SyncOperation → Request → Prepare Unit
  | .connectEx, request | .disconnect, request =>
    prepareBufferLast [.connection, .stream] request.bufGiven request
  | .accept, request => prepareBufferLast [.listen, .stream] false request
  | .send, request | .sendEx, request | .receiveEx, request =>
    prepareBufferFirst [.connection, .stream] request
  | .receive, request =>
    prepareBufferFirst [.connection, .stream, .datagram] request
  | .sendTo, request => wskSendToSync request

def cleanup (r : Resources) : Resources :=
  uninitializeWskBuf (if r.irp.allocated then ioFreeIrp r else r)

/-! ## The two forms of an operation -/

/-- `TimeoutMs` is a parameter of the operation. -/
def SyncOperation.timed : SyncOperation → Bool
  | .accept | .receive | .receiveEx => true
  | _ => false

/-- The form sets its output to zero at its start. -/
def SyncOperation.zeroes : SyncOperation → Bool
  | .receive | .receiveEx => true
  | _ => false

/-- The status `Wsk…Sync` returns, from the status of the call of the provider
or of the wait, and from that of the IRP. -/
def SyncOperation.returned (operation : SyncOperation)
    (status ioStatus : NtStatus) : NtStatus :=
  match operation with
  | .accept => status
  | .receive | .receiveEx => if status = .cancelled then .timeout else status
  | _ => ioStatus

def SyncOperation.reports : SyncOperation → Bool
  | .connectEx | .disconnect => false
  | _ => true

/-- What `Wsk…Sync` leaves at `AcceptSock`, `BytesSent` or `BytesReceived`. -/
def SyncOperation.reported (operation : SyncOperation) (out : ℕ)
    (status : NtStatus) (information : ℕ) : ℕ :=
  match operation with
  | .accept | .receive | .receiveEx =>
    if status.ntSuccess then information else out
  | .send | .sendEx | .sendTo => information
  | .connectEx | .disconnect => out

def SyncOperation.async : SyncOperation → Option Operation
  | .connectEx => some .connect
  | .accept => some .accept
  | .disconnect => some .disconnect
  | .send => some .send
  | .sendTo => some .sendTo
  | .receive => some .receive
  | .sendEx | .receiveEx => none

/-- One form of an operation: its timeout, its IRP and its caller, the contents
of the output parameter and of the buffer. -/
structure Form where
  operation : SyncOperation
  timeoutMs : UInt32
  base : State
  out : ℕ
  buffer : List UInt8

/-- The provider completes the IRP with or without data for the buffer, which
it needs the MDL to write. -/
inductive SyncInput where
  | call (operation : SyncOperation) (request : Request) (timeoutMs : UInt32)
  | answer (answer : Answer) (data : List UInt8)
  | complete (ioStatus : NtStatus) (information : ℕ) (data : List UInt8)
  | timeout
  | advance

variable (x : Form)

def Form.write (data : List UInt8) : Form :=
  if x.base.irp = .completed ∧ x.base.resources.wskBufMdl = true then
    { x with buffer := data ++ x.buffer.drop data.length }
  else x

def Form.step
    (call : Form → SyncOperation → Request → UInt32 → Option Form)
    (advance : Form → Option Form) (x : Form) : SyncInput → Option Form
  | .call operation request timeoutMs =>
    if x.base.caller = .ready then call x operation request timeoutMs else none
  | .answer answer data =>
    (WskClient.step x.base (.answer answer)).map fun base =>
      ({ x with base := base }).write data
  | .complete ioStatus information data =>
    (WskClient.step x.base (.complete ioStatus information)).map fun base =>
      ({ x with base := base }).write data
  | .timeout =>
    (WskClient.step x.base .timeout).map fun base => { x with base := base }
  | .advance => advance x

/-- `Wsk…Sync` until it calls the provider or fails. -/
def Form.syncCall (operation : SyncOperation) (request : Request)
    (timeoutMs : UInt32) : Option Form :=
  let x := { x with
    operation := operation
    timeoutMs := timeoutMs
    out := if operation.zeroes then 0 else x.out }
  match (prepareSync operation request).run .empty with
  | (.ok (), r) =>
    some { x with base := { x.base with
      resources := r
      irp := .sent
      caller := .calling } }
  | (.error status, r) =>
    some { x with base := { x.base with
      resources := cleanup r
      caller := .failed status } }

/-- The end of `Wsk…Sync`, with the provider's bound on the information that
`State.finishAwait` names. -/
def Form.finishSync (status : NtStatus) : Form :=
  let out := x.operation.reported x.out status x.base.information
  { x with
    base := { x.base.release (cleanup x.base.resources) with
      caller := .awaited (x.operation.returned status x.base.ioStatus)
        (if x.operation.reports then some out else none) }
    out := out }

def Form.syncAdvance : Option Form :=
  match x.base.caller with
  | .returning status =>
    if status = .pending then
      some { x with base := { x.base with
        caller := .waiting
          (if x.operation.timed then x.timeoutMs else wskclientInfinite) } }
    else some (x.finishSync status)
  | .waiting _ | .draining =>
    if x.base.event then some (x.finishSync x.base.ioStatus) else none
  | _ => none

def Form.asyncCall (operation : SyncOperation) (request : Request)
    (timeoutMs : UInt32) : Option Form :=
  operation.async.map fun async =>
    { x with
      operation := operation
      timeoutMs := timeoutMs
      base := x.base.async async request }

/-- `Wsk…Await` is called after a successful `Wsk…Async`. -/
def Form.asyncAdvance : Option Form := do
  let base ← x.base.advance
  let base ← if base.caller = .started then
      WskClient.step base (.await x.timeoutMs)
    else some base
  return { x with
    base := base
    out :=
      match base.caller with
      | .awaited _ (some information) => information
      | _ => x.out }

def Form.init (out : ℕ) (buffer : List UInt8) : Form where
  operation := .connectEx
  timeoutMs := 0
  base := machine.init
  out := out
  buffer := buffer

/-- The synchronous form, with the previous contents of the output parameter
and the buffer. -/
def syncMachine (out : ℕ) (buffer : List UInt8) : Machine Form SyncInput where
  init := .init out buffer
  step := Form.step Form.syncCall Form.syncAdvance

def asyncMachine (out : ℕ) (buffer : List UInt8) : Machine Form SyncInput where
  init := .init out buffer
  step := Form.step Form.asyncCall Form.asyncAdvance

def allocated (sockType : SockType) : Request where
  sockType := sockType
  bufGiven := true
  bufIsNonPagedPool := true
  controlLen := 0
  completionAllocated := true
  irpAllocated := true
  mdlAllocated := true
  pagesProbed := true

def Form.result : Option (NtStatus × ℕ × List UInt8) :=
  match x.base.caller with
  | .failed status | .awaited status _ => some (status, x.out, x.buffer)
  | _ => none

end WinNetTest.WskClient
