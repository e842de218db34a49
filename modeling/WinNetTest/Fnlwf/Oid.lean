import WinNetTest.Fnmp.Oid
import WinNetTest.Support.Interleaving
import WinNetTest.Support.Rundown

/-!
# OID requests of FNLWF

The filter forwards the OID requests of the components above on the interface
they arrive on: it sends a clone down and completes the original when the clone
comes back (`oid.c`).  `OidIrpSubmitRequest` sends requests of its own on either
interface.  Both kinds come back through `FilterOidRequestCompleteCommon`, which
tells them apart by the pointer in the `SourceReserved` part of the request.

The calls are executed one action at a time.  The lower layer is an environment:
it may answer a request before the call that sends it returns, or pend it and
complete it once, on the interface on which it was sent, possibly before that
call has returned.  It writes the result fields of a request and nothing else.
A request from above and the structures of an internal request have the number
of the call that brings them as their address.
-/

namespace WinNetTest.Fnlwf.Oid

open Support Fnmp

/-! ## Requests -/

/-- An `NDIS_OID_REQUEST` from above, with its `RequestId`. -/
structure UpperRequest where
  request : NdisOidRequest
  requestId : ℕ
  deriving DecidableEq

/-- An `NDIS_OID_REQUEST` the filter sends down: a clone, or the `Oid` field of
an `FNLWF_OID_REQUEST`, whose `RequestId` is `OidInternalRequest` itself.
`OriginalRequest` is the pointer kept in `SourceReserved`, with `none` for
`NULL`. -/
structure OidObject where
  address : ℕ
  request : NdisOidRequest
  requestId : Option ℕ
  originalRequest : Option ℕ
  deriving DecidableEq

structure FilterRequest where
  oid : NdisOidRequest
  status : NdisStatus
  completionEvent : Bool
  deriving DecidableEq

/-- The clone of a request, with its context and its `RequestId` set. -/
def cloneOf (original : ℕ) (upper : UpperRequest) : OidObject where
  address := original
  request := upper.request
  requestId := some upper.requestId
  originalRequest := some original

structure Results where
  outputBufferLength : UInt32
  bytesRead : UInt32
  bytesWritten : UInt32
  bytesNeeded : UInt32
  deriving DecidableEq

def withResults (request : NdisOidRequest) (results : Results) :
    NdisOidRequest :=
  { request with
    outputBufferLength := results.outputBufferLength
    bytesRead := results.bytesRead
    bytesWritten := results.bytesWritten
    bytesNeeded := results.bytesNeeded }

def resultFields (request : NdisOidRequest) : List UInt32 :=
  match request.requestType with
  | .method =>
    [request.outputBufferLength, request.bytesRead, request.bytesNeeded,
      request.bytesWritten]
  | .setInformation => [request.bytesRead, request.bytesNeeded]
  | _ => [request.bytesWritten, request.bytesNeeded]

/-- The part of `FilterOidRequestCompleteCommon` that copies the information
from the returned request to the original request. -/
def copyResults (original returned : NdisOidRequest) : NdisOidRequest :=
  match returned.requestType with
  | .method =>
    { original with
      outputBufferLength := returned.outputBufferLength
      bytesRead := returned.bytesRead
      bytesNeeded := returned.bytesNeeded
      bytesWritten := returned.bytesWritten }
  | .setInformation =>
    { original with
      bytesRead := returned.bytesRead
      bytesNeeded := returned.bytesNeeded }
  | _ =>
    { original with
      bytesWritten := returned.bytesWritten
      bytesNeeded := returned.bytesNeeded }

/-- The original after `FilterOidRequestCompleteCommon` has copied the
information of the returned request to it. -/
def UpperRequest.copied (upper : UpperRequest) (returned : NdisOidRequest) :
    UpperRequest :=
  { upper with request := copyResults upper.request returned }

/-! ## Internal requests -/

/-- The input of `OidIrpSubmitRequest`, with what the two calls of
`BounceBuffer` answer. -/
structure SubmitInput where
  apiVersion : UInt32
  inputBufferLength : ℕ
  keyStatus : NtStatus
  key : OidKey
  informationStatus : NtStatus
  information : Information
  informationBufferLength : UInt32
  outputBufferLength : UInt32

def lwfApiver2 : UInt32 := 2

/-- `sizeof(OID_SUBMIT_REQUEST_IN)`, or `sizeof(OID_SUBMIT_REQUEST_IN_V0)` below
version 2. -/
def sizeofOidSubmitRequestIn (apiVersion : UInt32) : ℕ :=
  if apiVersion ≥ lwfApiver2 then 24 else 32

/-- The checks of `OidIrpSubmitRequest`, with the interface of the request. -/
def SubmitInput.interface (input : SubmitInput) :
    Except NtStatus OidRequestInterface :=
  if input.inputBufferLength < sizeofOidSubmitRequestIn input.apiVersion then
    .error .bufferTooSmall
  else if input.apiVersion ≥ lwfApiver2 ∧ !input.keyStatus.ntSuccess then
    .error input.keyStatus
  else
    match OidRequestInterface.ofValue input.key.requestInterface with
    | none => .error .invalidParameter
    | some i =>
      if !input.informationStatus.ntSuccess then
        .error input.informationStatus
      else .ok i

/-- Memory that has been zeroed, read as an `NDIS_OID_REQUEST`. -/
def zeroedRequest (address : ℕ) : NdisOidRequest where
  id := address
  oid := .other 0
  requestType := .queryInformation
  portNumber := 0
  information := ⟨[], .other 0, 0, 0, ⟨false, false, 0⟩, ⟨false, false, 0⟩⟩
  informationBufferLength := 0
  inputBufferLength := 0
  outputBufferLength := 0
  bytesRead := 0
  bytesWritten := 0
  bytesNeeded := 0

/-- The request `OidInternalRequest` builds.  For a type that is none of the
three it handles, only the type and the port are set. -/
def SubmitInput.request (input : SubmitInput) (address : ℕ) : NdisOidRequest :=
  let zeroed :=
    { zeroedRequest address with
      requestType := input.key.requestType
      portNumber :=
        if input.apiVersion ≥ lwfApiver2 then input.key.portNumber else 0 }
  match input.key.requestType with
  | .queryInformation =>
    { zeroed with
      oid := input.key.oid
      information := input.information
      informationBufferLength := input.informationBufferLength }
  | .setInformation =>
    { zeroed with
      oid := input.key.oid
      information := input.information
      informationBufferLength := input.informationBufferLength }
  | .method =>
    { zeroed with
      oid := input.key.oid
      information := input.information
      inputBufferLength := input.informationBufferLength
      outputBufferLength := input.outputBufferLength }
  | _ => zeroed

/-- The object of an internal request: `SourceReserved` is zero. -/
def internalObject (address : ℕ) (request : NdisOidRequest) : OidObject where
  address
  request
  requestId := none
  originalRequest := none

/-- The status that `OidInternalRequest` ends with. -/
def finalStatus (status : NdisStatus) : NdisStatus :=
  if status = .invalidLength then .bufferTooShort else status

/-- `BytesProcessed` at the end of `OidInternalRequest`. -/
def bytesProcessed (request : NdisOidRequest) (status : NdisStatus) : UInt32 :=
  match finalStatus status, request.requestType with
  | .success, .setInformation => request.bytesRead
  | .success, .queryInformation => request.bytesWritten
  | .success, .method => request.bytesWritten
  | .bufferTooShort, .setInformation => request.bytesNeeded
  | .bufferTooShort, .queryInformation => request.bytesNeeded
  | .bufferTooShort, .method => request.bytesNeeded
  | _, _ => 0

/-! ## The state -/

/-- What the lower layer has made of a request: it has not decided, it is about
to return a status, or it has pended the request. -/
inductive LowerPhase where
  | deciding
  | answered (status : NdisStatus)
  | pended
  deriving DecidableEq

structure LowerRequest where
  interface : OidRequestInterface
  object : OidObject
  phase : LowerPhase
  deriving DecidableEq

/-- What can be observed of a run.  A request arrives from above and is cloned,
or its clone cannot be allocated and the status is returned; an internal request
is submitted; the lower layer is done with a request; a clone is freed; a request
is completed upward, with the contents it has then; the status and the event of
an internal request are set; the lower layer's answer to an internal request is
taken, or the run-down refuses to send it.  The last three are the returns of
`FilterOidRequest` and of the IOCTL. -/
inductive Event where
  | received (a : ℕ) (i : OidRequestInterface) (upper : UpperRequest)
  | refused (a : ℕ) (i : OidRequestInterface) (status : NdisStatus)
  | submitted (a : ℕ) (i : OidRequestInterface)
  | lowerDone (a : ℕ) (i : OidRequestInterface) (status : NdisStatus)
      (request : NdisOidRequest)
  | freed (a : ℕ)
  | completedUp (a : ℕ) (i : OidRequestInterface) (status : NdisStatus)
      (upper : UpperRequest)
  | signaled (a : ℕ) (status : NdisStatus)
  | answered (a : ℕ) (status : NdisStatus)
  | removed (a : ℕ)
  | returned (c : ℕ) (status : NdisStatus)
  | rejected (c : ℕ) (status : NtStatus)
  | replied (c : ℕ) (status : Option NdisStatus) (bytes : UInt32)
  deriving DecidableEq

def Event.subject : Event → Option ℕ
  | .received a _ _ => some a
  | .refused a _ _ => some a
  | .submitted a _ => some a
  | .lowerDone a _ _ _ => some a
  | .freed a => some a
  | .completedUp a _ _ _ => some a
  | .signaled a _ => some a
  | .answered a _ => some a
  | .removed a => some a
  | .returned _ _ => none
  | .rejected _ _ => none
  | .replied _ _ _ => none

/-- The requests from above that are outstanding, the stack of the internal
requests, what the lower layer has, `OidRundown`, and the events so far, the
latest first. -/
structure Shared where
  originals : Table ℕ UpperRequest
  internals : Table ℕ FilterRequest
  lower : Table ℕ LowerRequest
  rundown : Rundown
  events : List Event

variable (x : Shared)

def Shared.record (event : Event) : Shared :=
  { x with events := event :: x.events }

/-- Where a call stands.  `FilterOidRequestCommon`: with a clone to send, inside
`InvokeNdisFOidRequest`, about to return `NDIS_STATUS_PENDING`.
`FilterOidRequestCompleteCommon`: at its head, with a clone to free, about to
complete the original; the flag says whether `FilterOidRequestCommon` has called
it.  `OidInternalRequest`: before the run-down is acquired, inside
`InvokeNdisFOidRequest`, about to release the run-down, in its wait, and with its
final status, which is `none` for `NDIS_STATUS_ADAPTER_REMOVED`. -/
inductive Call where
  | cloned (i : OidRequestInterface) (clone : OidObject)
  | forwarding (i : OidRequestInterface)
  | returning
  | completing (i : OidRequestInterface) (object : OidObject)
      (status : NdisStatus) (sync : Bool)
  | freeing (i : OidRequestInterface) (clone : OidObject) (original : ℕ)
      (status : NdisStatus) (sync : Bool)
  | completingUp (i : OidRequestInterface) (original : ℕ)
      (status : NdisStatus) (sync : Bool)
  | requesting (i : OidRequestInterface) (request : NdisOidRequest)
  | invoking
  | releasing (status : NdisStatus)
  | waiting
  | finishing (status : Option NdisStatus)
  deriving DecidableEq

/-- What a call is made with: a request from above, with the status with which
the allocation of its clone fails, if it does; an IOCTL; a decision of the lower
layer; a completion by it; the detachment of the filter. -/
inductive Input where
  | request (i : OidRequestInterface) (upper : UpperRequest)
      (failure : Option NdisStatus)
  | submit (input : SubmitInput)
  | answer (a : ℕ) (status : NdisStatus) (results : Results)
  | pend (a : ℕ)
  | complete (a : ℕ) (status : NdisStatus) (results : Results)
  | detach

def OidObject.done (object : OidObject) (results : Results) : OidObject :=
  { object with request := withResults object.request results }

def answer (a : ℕ) (status : NdisStatus) (results : Results) : Option Shared :=
  match x.lower.lookup a with
  | none => none
  | some l =>
    if l.phase = .deciding ∧ status ≠ .pending then
      let object := l.object.done results
      let next : LowerRequest := ⟨l.interface, object, .answered status⟩
      some (({ x with lower := x.lower.insert a next }).record
        (.lowerDone a l.interface status object.request))
    else none

def pend (a : ℕ) : Option Shared :=
  match x.lower.lookup a with
  | none => none
  | some l =>
    if l.phase = .deciding then
      some { x with lower := x.lower.insert a { l with phase := .pended } }
    else none

/-- The lower layer completes a request it has pended: NDIS calls
`FilterOidRequestComplete` or `FilterDirectOidRequestComplete`. -/
def complete (a : ℕ) (status : NdisStatus) (results : Results) :
    Option (Shared × Option Call) :=
  match x.lower.lookup a with
  | none => none
  | some l =>
    if l.phase = .pended ∧ status ≠ .pending then
      let object := l.object.done results
      some
        (({ x with lower := x.lower.erase a }).record
            (.lowerDone a l.interface status object.request),
          some (.completing l.interface object status false))
    else none

def start (c : ℕ) : Input → Option (Shared × Option Call)
  | .request i _ (some status) =>
    if status ≠ .success ∧ status ≠ .pending then
      some (x.record (.refused c i status), none)
    else none
  | .request i upper none =>
    some
      (({ x with originals := x.originals.insert c upper }).record
          (.received c i upper), some (.cloned i (cloneOf c upper)))
  | .submit input =>
    match input.interface with
    | .error status => some (x.record (.rejected c status), none)
    | .ok i =>
      let request := input.request c
      let internal : FilterRequest := ⟨request, .success, false⟩
      some
        (({ x with internals := x.internals.insert c internal }).record
            (.submitted c i), some (.requesting i request))
  | .answer a status results =>
    (answer x a status results).map fun y => (y, none)
  | .pend a => (pend x a).map fun y => (y, none)
  | .complete a status results => complete x a status results
  | .detach => some ({ x with rundown := x.rundown.beginWait }, none)

/-- `InvokeNdisFOidRequest` with a request of the filter. -/
def invokeNdisFOidRequest (i : OidRequestInterface) (object : OidObject) :
    Shared :=
  { x with lower := x.lower.insert object.address ⟨i, object, .deciding⟩ }

/-- What `InvokeNdisFOidRequest` returns for the request with an address: a
status and the request, or `NDIS_STATUS_PENDING`; `none` as long as the lower
layer has not decided.  A request that is no longer at the lower layer was
pended and has been completed. -/
def invocationResult (a : ℕ) : Option (Option (OidObject × NdisStatus)) :=
  match x.lower.lookup a with
  | none => some none
  | some l =>
    match l.phase with
    | .deciding => none
    | .pended => some none
    | .answered status => some (some (l.object, status))

/-- What `FilterOidRequestCompleteCommon` does on return to
`FilterOidRequestCommon`, or to NDIS. -/
def afterCompletion (sync : Bool) : Option Call :=
  if sync then some .returning else none

/-- `FilterOidRequestCompleteCommon` up to the freeing of a clone.  An internal
request is completed by `OidInternalRequestComplete`. -/
def filterOidRequestCompleteCommon (i : OidRequestInterface)
    (object : OidObject) (status : NdisStatus) (sync : Bool) :
    Option (Shared × Option Call) :=
  match object.originalRequest with
  | none =>
    (x.internals.lookup object.address).map fun _ =>
      let internal : FilterRequest := ⟨object.request, status, true⟩
      (({ x with
            internals := x.internals.insert object.address internal }).record
          (.signaled object.address status), afterCompletion sync)
  | some original =>
    (x.originals.lookup original).map fun upper =>
      ({ x with
          originals :=
            x.originals.insert original (upper.copied object.request) },
        some (.freeing i object original status sync))

def advance (c : ℕ) : Call → Option (Shared × Option Call)
  | .cloned i clone =>
    some (invokeNdisFOidRequest x i clone, some (.forwarding i))
  | .forwarding i =>
    (invocationResult x c).map fun
      | none => (x, some .returning)
      | some (object, status) =>
        ({ x with lower := x.lower.erase c },
          some (.completing i object status true))
  | .returning => some (x.record (.returned c .pending), none)
  | .completing i object status sync =>
    filterOidRequestCompleteCommon x i object status sync
  | .freeing i clone original status sync =>
    some (x.record (.freed clone.address),
      some (.completingUp i original status sync))
  | .completingUp i original status sync =>
    (x.originals.lookup original).map fun upper =>
      (({ x with originals := x.originals.erase original }).record
          (.completedUp original i status upper), afterCompletion sync)
  | .requesting i request =>
    match x.rundown.acquire 1 with
    | none => some (x.record (.removed c), some (.finishing none))
    | some rundown =>
      some
        (invokeNdisFOidRequest { x with rundown } i
            (internalObject c request), some .invoking)
  | .invoking =>
    (invocationResult x c).bind fun
      | none => some (x, some (.releasing .pending))
      | some (object, status) =>
        (x.internals.lookup c).map fun request =>
          (({ x with
                lower := x.lower.erase c
                internals := x.internals.insert c
                  { request with oid := object.request } }).record
              (.answered c status), some (.releasing status))
  | .releasing status =>
    some ({ x with rundown := x.rundown.release 1 },
      if status = .pending then some .waiting
      else some (.finishing (some status)))
  | .waiting =>
    (x.internals.lookup c).bind fun request =>
      if request.completionEvent then
        some (x, some (.finishing (some request.status)))
      else none
  | .finishing status =>
    (x.internals.lookup c).map fun request =>
      (({ x with internals := x.internals.erase c }).record
          (.replied c (status.map finalStatus)
            (status.elim 0 (bytesProcessed request.oid))), none)

def program : Program Shared Call Input where
  init := ⟨∅, ∅, ∅, .initialized, []⟩
  start := start
  advance := advance

def machine : Machine (Pool Shared Call) (Move Input) := program.machine

end WinNetTest.Fnlwf.Oid
