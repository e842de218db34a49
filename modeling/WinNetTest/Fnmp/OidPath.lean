import WinNetTest.Fnmp.OidProcess
import WinNetTest.Support.Machine
import WinNetTest.Support.Table

/-!
# The OID path

OID requests arrive through the two request handlers of the miniport.  The
exclusive handle installs a filter and completes what the filter pended, the
watchdog flushes requests that are pended for too long, and closing the handle
flushes what is left.  The machine executes any number of such calls at the
granularity of `Adapter->Lock` sections: what a call has taken off the lists
stays in its hands until it is completed, one request at a time, and any other
call may run in between.
-/

namespace WinNetTest.Fnmp

open Support

namespace OidPath

structure UserContext where
  apiVersion : UInt32
  setOidFilter : Bool
  closing : Bool
  deriving DecidableEq

inductive Call where
  /-- A request handler processes a request the filter let through. -/
  | processing (i : OidRequestInterface) (request : NdisOidRequest)
  /-- A request handler is about to return. -/
  | returning (id : ℕ) (i : OidRequestInterface) (status : NdisStatus)
  /-- `MpIrpOidCompleteRequest` on a handle has taken a request. -/
  | completing (h : ℕ) (taken : TakenRequest)
  /-- The watchdog has seen an expired request. -/
  | expired
  /-- `MpOidClearFilterAndFlush` holds the lists, for the watchdog or for the
  close of a handle. -/
  | flushing (closed : Option ℕ)
      (requestLists : PerInterface (List OidRequestEntry))
  /-- `ExclusiveCleanup` has yet to look at the OID filter. -/
  | closing (h : ℕ)
  /-- `ExclusiveCleanup` has yet to give up the adapter. -/
  | releasing (h : ℕ)
  deriving DecidableEq

/-- A call of `NdisMOidRequestComplete` or `NdisMDirectOidRequestComplete`,
with the call of the driver that made it. -/
structure Completion where
  call : ℕ
  interface : OidRequestInterface
  id : ℕ
  status : NdisStatus
  deriving DecidableEq

structure State where
  config : AdapterConfig
  oids : OidFilter
  owner : Option ℕ
  contexts : Table ℕ UserContext
  calls : Table ℕ Call
  nextCall : ℕ
  nextHandle : ℕ
  nextRequest : ℕ
  pended : PerInterface (List ℕ)
  returned : List (ℕ × OidRequestInterface × NdisStatus)
  completions : List Completion
  fault : Bool

def init (config : AdapterConfig) : State where
  config := config
  oids := .empty
  owner := none
  contexts := ∅
  calls := ∅
  nextCall := 0
  nextHandle := 0
  nextRequest := 0
  pended := ⟨[], []⟩
  returned := []
  completions := []
  fault := false

inductive Label where
  | arrive (i : OidRequestInterface) (request : NdisOidRequest) (now : UInt64)
      (allocated : Bool)
  | process (c : ℕ)
  | return_ (c : ℕ)
  | create (apiVersion : UInt32)
  | setFilter (h : ℕ) (input : SetFilterInput)
  | getRequest (h : ℕ) (input : GetRequestInput)
  | completeRequest (h : ℕ) (input : CompleteRequestInput)
  | complete (c : ℕ)
  | watchdog (now : UInt64)
  | flush (c : ℕ)
  | finish (c : ℕ)
  | close (h : ℕ)
  | release (c : ℕ)

namespace State

def setCall (s : State) (c : ℕ) (next : Option Call) : State :=
  { s with calls := s.calls.put c next }

def newCall (s : State) (call : Call) : State :=
  { s with nextCall := s.nextCall + 1 }.setCall s.nextCall (some call)

def openContext (s : State) (h : ℕ) : Option UserContext :=
  match s.contexts.lookup h with
  | some context => if context.closing then none else some context
  | none => none

/-- Complete a request: a chosen status is final, and `NDIS_STATUS_PENDING`
lets the driver process the request first. -/
def mpOidCompleteRequest (sizes : NdisSizes) (s : State) (c : ℕ)
    (taken : TakenRequest) : State :=
  let processed :=
    if taken.status ≠ .pending then
      Processed.mk taken.status taken.request s.config
    else processOid sizes s.config taken.interface taken.request
  { s with
    config := processed.config
    completions := s.completions ++
      [⟨c, taken.interface, taken.request.id, processed.status⟩] }

end State

/-- The request as a handler passes it to the filter: queries have
`BytesWritten` cleared first. -/
def entering (id : ℕ) (request : NdisOidRequest) : NdisOidRequest :=
  match request.requestType with
  | .queryInformation | .queryStatistics =>
    { request with id := id, bytesWritten := 0 }
  | _ => { request with id := id }

variable (s : State)

/-- `MiniportRequestHandler` and `MiniportDirectRequestHandler` up to the end
of the lock section of `MpFilterOid`. -/
def arrive (i : OidRequestInterface) (request : NdisOidRequest) (now : UInt64)
    (allocated : Bool) : State :=
  let id := s.nextRequest
  let request := entering id request
  let s := { s with nextRequest := s.nextRequest + 1 }
  match request.requestType with
  | .other _ => s.newCall (.returning id i .notSupported)
  | _ =>
    match mpFilterOid now allocated i request s.oids with
    | (.pending, oids) =>
      { s with
        oids := oids
        pended := s.pended.set i (s.pended.get i ++ [id])
        }.newCall (.returning id i .pending)
    | (.success, _) => s.newCall (.processing i request)
    | (status, _) => s.newCall (.returning id i status)

/-- `ExclusiveIrpCreate` on this adapter: the new handle becomes the owner, or
is refused. -/
def create (apiVersion : UInt32) : State :=
  if s.owner ≠ none then s
  else
    { s with
      owner := some s.nextHandle
      contexts := s.contexts.insert s.nextHandle ⟨apiVersion, false, false⟩
      nextHandle := s.nextHandle + 1 }

def markSetOidFilter : State :=
  match s.owner with
  | none => { s with fault := true }
  | some owner =>
    match s.contexts.lookup owner with
    | none => { s with fault := true }
    | some context =>
      { s with
        contexts :=
          s.contexts.insert owner { context with setOidFilter := true } }

def setFilter (context : UserContext) (input : SetFilterInput) : State :=
  match mpIrpOidSetFilter context.apiVersion input s.oids with
  | (.success, oids) => markSetOidFilter { s with oids := oids }
  | _ => s

/-- `MpIrpOidCompleteRequest` up to the end of its lock section. -/
def completeRequest (h : ℕ) (context : UserContext)
    (input : CompleteRequestInput) : State :=
  match mpIrpOidCompleteRequest context.apiVersion input s.oids with
  | (_, oids, some taken) =>
    { s with oids := oids }.newCall (.completing h taken)
  | _ => s

def complete (sizes : NdisSizes) (s : State) (c : ℕ) : Call → Option State
  | .completing _ taken =>
    some ((s.mpOidCompleteRequest sizes c taken).setCall c none)
  | .flushing closed ⟨entry :: rest, direct⟩ =>
    some ((s.mpOidCompleteRequest sizes c
      ⟨.regular, entry.request, .pending⟩).setCall c
        (some (.flushing closed ⟨rest, direct⟩)))
  | .flushing closed ⟨[], entry :: rest⟩ =>
    some ((s.mpOidCompleteRequest sizes c
      ⟨.direct, entry.request, .pending⟩).setCall c
        (some (.flushing closed ⟨[], rest⟩)))
  | _ => none

/-- The lock section of `MpOidClearFilterAndFlush`. -/
def clearAndFlush (c : ℕ) (closed : Option ℕ) : State :=
  { s with oids := (clearFilterSection s.oids).2 }.setCall c
    (some (.flushing closed (clearFilterSection s.oids).1))

/-- The watchdog goes on to flush; a close does so if its handle set the
filter. -/
def flush (c : ℕ) : Call → Option State
  | .expired => some (clearAndFlush s c none)
  | .closing h =>
    match s.contexts.lookup h with
    | none => none
    | some context =>
      if context.setOidFilter then some (clearAndFlush s c (some h))
      else some (s.setCall c (some (.releasing h)))
  | _ => none

def finish (c : ℕ) : Call → Option State
  | .flushing none ⟨[], []⟩ => some (s.setCall c none)
  | .flushing (some h) ⟨[], []⟩ => some (s.setCall c (some (.releasing h)))
  | _ => none

/-- `ExclusiveIrpClose` begins, once no IOCTL of the handle is running. -/
def close (h : ℕ) (context : UserContext) : Option State :=
  if s.calls.entries.any fun entry =>
      match entry.2 with
      | .completing h' _ => h' == h
      | _ => false
  then none
  else
    some ({ s with
      contexts := s.contexts.insert h { context with closing := true }
      }.newCall (.closing h))

/-- The end of `ExclusiveCleanup`: the adapter loses its owner if that is this
handle, and the context is freed. -/
def release (c : ℕ) : Call → Option State
  | .releasing h =>
    some ({ s with
      owner := if s.owner = some h then none else s.owner
      contexts := s.contexts.erase h }.setCall c none)
  | _ => none

/-- The step function.  Nothing happens after a fault. -/
def step (sizes : NdisSizes) (s : State) (label : Label) : Option State :=
  if s.fault then none
  else
    match label with
    | .arrive i request now allocated =>
      some (arrive s i request now allocated)
    | .process c =>
      match s.calls.lookup c with
      | some (.processing i request) =>
        let processed := processOid sizes s.config i request
        some ({ s with config := processed.config }.setCall c
          (some (.returning request.id i processed.status)))
      | _ => none
    | .return_ c =>
      match s.calls.lookup c with
      | some (.returning id i status) =>
        some ({ s with returned := s.returned ++ [(id, i, status)]
          }.setCall c none)
      | _ => none
    | .create apiVersion => some (create s apiVersion)
    | .setFilter h input =>
      (s.openContext h).map fun context => setFilter s context input
    | .getRequest h _ => (s.openContext h).map fun _ => s
    | .completeRequest h input =>
      (s.openContext h).map fun context => completeRequest s h context input
    | .complete c => (s.calls.lookup c).bind (complete sizes s c)
    | .watchdog now =>
      some (if mpOidWatchdogIsExpired now s.oids then s.newCall .expired
        else s)
    | .flush c => (s.calls.lookup c).bind (flush s c)
    | .finish c => (s.calls.lookup c).bind (finish s c)
    | .close h => (s.openContext h).bind (close s h)
    | .release c => (s.calls.lookup c).bind (release s c)

def machine (sizes : NdisSizes) (config : AdapterConfig) :
    Machine State Label :=
  ⟨init config, step sizes⟩

end OidPath

end WinNetTest.Fnmp
