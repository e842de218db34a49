import WinNetTest.Status
import WinNetTest.Support.Machine

/-!
# Asynchronous operations of the WSK client

`wskclient.c` makes each asynchronous operation of WSK available as a pair of
calls: `Wsk…Async` allocates a completion block, an IRP and an MDL and hands
the IRP to the provider; `Wsk…Await`, or `Wsk…Cancel` for connect and accept,
waits for the completion of the IRP and frees what was allocated.

The provider completes the IRP before it returns, or it marks the IRP pending
and completes it once at any later time, whether or not it has been cancelled.
The caller is not told which of the two the provider has done.
-/

namespace WinNetTest.WskClient

open Support

/-! ## What an operation allocates -/

/-- Memory that is allocated at most once: whether it has been allocated, and
how often it has been freed. -/
structure Block where
  allocated : Bool
  frees : ℕ
  deriving DecidableEq

def Block.none : Block where
  allocated := false
  frees := 0

def Block.fresh : Block where
  allocated := true
  frees := 0

def Block.free (block : Block) : Block :=
  { block with frees := block.frees + 1 }

/-- The completion block, the IRP and the MDL of an operation, whether pages
are locked for the MDL, and what the completion block says about its MDL: that
there is one, and that it has locked pages. -/
structure Resources where
  completion : Block
  irp : Block
  mdl : Block
  pagesLocked : Bool
  wskBufMdl : Bool
  bufLocked : Bool
  deriving DecidableEq

inductive SockType where
  | basic
  | listen
  | connection
  | datagram
  | stream
  deriving DecidableEq

inductive Operation where
  | connect
  | accept
  | disconnect
  | send
  | sendTo
  | receive
  deriving DecidableEq

/-- What `Wsk…Async` is called with, as far as it matters here, and what the
allocations and `MmProbeAndLockPages` answer. -/
structure Request where
  sockType : SockType
  bufGiven : Bool
  bufIsNonPagedPool : Bool
  controlLen : ℕ
  completionAllocated : Bool
  irpAllocated : Bool
  mdlAllocated : Bool
  pagesProbed : Bool
  deriving DecidableEq

/-- The part of `Wsk…Async` before the call of the provider; it fails with a
status. -/
abbrev Prepare := ExceptT NtStatus (StateM Resources)

variable (request : Request)

def allocateCompletion : Prepare Unit :=
  if request.completionAllocated then
    modify fun r => { r with completion := .fresh }
  else throw .insufficientResources

/-- Look the function of the provider up in the dispatch table of the socket,
which depends on its type. -/
def selectDispatch (sockTypes : List SockType) (request : Request) :
    Prepare Unit :=
  if request.sockType ∈ sockTypes then pure () else throw .unsuccessful

def allocateIrp : Prepare Unit :=
  if request.irpAllocated then modify fun r => { r with irp := .fresh }
  else throw .insufficientResources

/-- `InitializeWskBuf`.  It returns `STATUS_SUCCESS` even when it has set up no
MDL. -/
def initializeWskBuf : Prepare NtStatus := do
  modify fun r => { r with wskBufMdl := false, bufLocked := false }
  if request.mdlAllocated then
    if request.bufIsNonPagedPool then
      modify fun r => { r with mdl := .fresh, wskBufMdl := true }
    else if request.pagesProbed then
      modify fun r =>
        { r with
          mdl := .fresh
          pagesLocked := true
          wskBufMdl := true
          bufLocked := true }
    else modify fun r => { r with mdl := Block.fresh.free }
  return .success

/-- `InitializeWskBuf`, with the check of its status. -/
def initializeBuffer : Prepare Unit := do
  let status ← initializeWskBuf request
  if !status.ntSuccess then throw status

/-- The common form of `Wsk…Async` until it calls the provider: the types of
the sockets it supports, and whether there is a buffer. -/
def prepareWith (sockTypes : List SockType) (buffer : Bool)
    (request : Request) : Prepare Unit := do
  allocateCompletion request
  selectDispatch sockTypes request
  allocateIrp request
  if buffer then initializeBuffer request

def wskConnectExAsync : Prepare Unit :=
  prepareWith [.connection, .stream] request.bufGiven request

def wskAcceptAsync : Prepare Unit :=
  prepareWith [.listen, .stream] false request

def wskDisconnectAsync : Prepare Unit :=
  prepareWith [.connection, .stream] request.bufGiven request

def wskSendAsync : Prepare Unit :=
  prepareWith [.connection, .stream] true request

def wskReceiveAsync : Prepare Unit :=
  prepareWith [.connection, .stream] true request

def sizeofControlData : ℕ := 128

/-- `WskSendToAsync` allocates the IRP last and does not look at the type of
the socket. -/
def wskSendToAsync : Prepare Unit := do
  allocateCompletion request
  initializeBuffer request
  if sizeofControlData < request.controlLen then throw .notSupported
  allocateIrp request

/-- `Wsk…Async` until it calls the provider. -/
def prepare : Operation → Request → Prepare Unit
  | .connect => wskConnectExAsync
  | .accept => wskAcceptAsync
  | .disconnect => wskDisconnectAsync
  | .send => wskSendAsync
  | .sendTo => wskSendToAsync
  | .receive => wskReceiveAsync

def uninitializeWskBuf (r : Resources) : Resources :=
  if r.wskBufMdl then
    { r with
      pagesLocked := r.pagesLocked && !r.bufLocked
      mdl := r.mdl.free }
  else r

def freeCompletion (operation : Operation) (r : Resources) : Resources :=
  let r := if operation = .accept then r else uninitializeWskBuf r
  { r with completion := r.completion.free }

def ioFreeIrp (r : Resources) : Resources :=
  { r with irp := r.irp.free }

/-- The exit of `Wsk…Async` at the label `Failure`. -/
def failure (operation : Operation) (r : Resources) : Resources :=
  let r := if r.irp.allocated then ioFreeIrp r else r
  if r.completion.allocated then freeCompletion operation r else r

/-! ## The run of an operation -/

/-- Where the IRP is: not handed to the provider, with the provider in its
call, with the provider after it was marked pending, or completed. -/
inductive IrpState where
  | unsent
  | sent
  | pended
  | completed
  deriving DecidableEq

/-- Where the caller is: before `Wsk…Async`, in the call of the provider, back
from it with its status, after `Wsk…Async` has succeeded or failed; in the
first wait of `WskWaitForIrpCompletion`, in the second, in the wait of
`Wsk…Cancel`; back from `Wsk…Await` with a status and, for the operations that
report it, the information of the IRP; and back from `Wsk…Cancel`. -/
inductive Caller where
  | ready
  | calling
  | returning (status : NtStatus)
  | started
  | failed (status : NtStatus)
  | waiting (timeoutMs : UInt32)
  | draining
  | cancelling
  | awaited (status : NtStatus) (information : Option ℕ)
  | cancelled
  deriving DecidableEq

/-- The operation, its memory, the event and the status of its completion block,
the IRP with its `IoStatus`, and the caller. -/
structure State where
  operation : Operation
  resources : Resources
  event : Bool
  status : NtStatus
  irp : IrpState
  ioStatus : NtStatus
  information : ℕ
  caller : Caller
  fault : Bool
  deriving DecidableEq

def wskclientInfinite : UInt32 := 0xffffffff

def IrpState.outstanding : IrpState → Bool
  | .sent | .pended => true
  | _ => false

variable (s : State)

def State.release (r : Resources) : State :=
  { s with
    resources := r
    fault := s.fault || s.irp.outstanding }

/-- Complete the IRP.  `GenericCompletionRoutine` sets the event if the IRP was
marked pending. -/
def State.complete (pendingReturned : Bool) (ioStatus : NtStatus)
    (information : ℕ) : State :=
  { s with
    irp := .completed
    ioStatus := ioStatus
    information := information
    event := s.event || pendingReturned
    fault := s.fault ||
      (pendingReturned && s.resources.completion.frees != 0) }

/-- `IoCancelIrp`, after which the caller waits for the event without a
timeout. -/
def State.cancelIrp (caller : Caller) : State :=
  { s with
    caller := caller
    fault := s.fault || s.resources.irp.frees != 0 }

/-- `Wsk…Await` reports the information of the IRP. -/
def Operation.reports : Operation → Bool
  | .connect | .disconnect => false
  | .accept | .send | .sendTo | .receive => true

/-- There is a `Wsk…Cancel` for the operation. -/
def Operation.cancellable : Operation → Bool
  | .connect | .accept => true
  | _ => false

/-- The end of `Wsk…Await`.  The provider transfers no more than the `WSK_BUF`
has, whose length was a `ULONG`, so the cast of the information to `ULONG` is
the identity and is left out. -/
def State.finishAwait (status : NtStatus) : State :=
  { s.release (freeCompletion s.operation (ioFreeIrp s.resources)) with
    caller := .awaited (if status = .cancelled then .timeout else status)
      (if s.operation.reports then
        some (if status.ntSuccess then s.information else 0)
      else none) }

def State.finishCancel : State :=
  { s.release (freeCompletion s.operation (ioFreeIrp s.resources)) with
    caller := .cancelled }

inductive Answer where
  | complete (status : NtStatus) (information : ℕ)
  | pend
  deriving DecidableEq

/-- What happens: `Wsk…Async`, the answer of the provider, the completion of an
IRP it has marked pending, `Wsk…Await`, `Wsk…Cancel`, the end of a timeout, and
the next action of the caller. -/
inductive Input where
  | async (operation : Operation) (request : Request)
  | answer (answer : Answer)
  | complete (ioStatus : NtStatus) (information : ℕ)
  | await (timeoutMs : UInt32)
  | cancel
  | timeout
  | advance
  deriving DecidableEq

def Resources.empty : Resources where
  completion := .none
  irp := .none
  mdl := .none
  pagesLocked := false
  wskBufMdl := false
  bufLocked := false

/-- `Wsk…Async` until it calls the provider or fails. -/
def State.async (operation : Operation) (request : Request) : State :=
  match (prepare operation request).run .empty with
  | (.ok (), r) =>
    { s with
      operation := operation
      resources := r
      irp := .sent
      caller := .calling }
  | (.error status, r) =>
    { s with
      operation := operation
      resources := failure operation r
      caller := .failed status }

def State.answer : Answer → Option State
  | .complete status information =>
    if status = .pending then none
    else
      some { s.complete false status information with
        caller := .returning status }
  | .pend =>
    some { s with
      irp := .pended
      caller := .returning .pending }

def State.advance : Option State :=
  match s.caller with
  | .returning status =>
    if status.ntSuccess then
      some { s with
        status := status
        caller := .started }
    else
      some { s.release (failure s.operation s.resources) with
        caller := .failed status }
  | .waiting _ => if s.event then some (s.finishAwait s.ioStatus) else none
  | .draining => if s.event then some (s.finishAwait s.ioStatus) else none
  | .cancelling => if s.event then some s.finishCancel else none
  | _ => none

def step : Input → Option State
  | .async operation request =>
    if s.caller = .ready then some (s.async operation request) else none
  | .answer answer => if s.caller = .calling then s.answer answer else none
  | .complete ioStatus information =>
    if s.irp = .pended ∧ ioStatus ≠ .pending then
      some (s.complete true ioStatus information)
    else none
  | .await timeoutMs =>
    if s.caller = .started then
      if s.status = .pending then
        some { s with caller := .waiting timeoutMs }
      else some (s.finishAwait s.status)
    else none
  | .cancel =>
    if s.caller = .started ∧ s.operation.cancellable = true then
      some (s.cancelIrp .cancelling)
    else none
  | .timeout =>
    match s.caller with
    | .waiting timeoutMs =>
      if timeoutMs = wskclientInfinite ∨ s.event = true then none
      else some (s.cancelIrp .draining)
    | _ => none
  | .advance => s.advance

def machine : Machine State Input where
  init :=
    { operation := .connect
      resources := .empty
      event := false
      status := .success
      irp := .unsent
      ioStatus := .success
      information := 0
      caller := .ready
      fault := false }
  step := step

end WinNetTest.WskClient
