import WinNetTest.Status
import WinNetTest.Support.Interleaving

/-!
# Status indications of the lightweight filter

The filter module of `status.c` sees every status indication on its way up.
The handles that have set a status filter are linked in a list of the module;
the first of them whose filter has the code of the indication decides whether
a copy is queued and whether the indication is forwarded.

The spin lock of the module makes every IOCTL one action.  An indication is
two: its section under the lock, and the forwarding after the lock has been
released.  What happens is recorded as a list of events, the latest first.
-/

namespace WinNetTest.Fnlwf.Status

open Support

/-! ## Handles and indications -/

structure StatusFilterIn where
  statusCode : UInt32
  blockIndications : UInt8
  queueIndications : UInt8
  deriving DecidableEq

/-- `sizeof(STATUS_FILTER_IN)`, with its padding. -/
def sizeofStatusFilterIn : ℕ := 8

/-- `DEFAULT_STATUS`.  An entry of the indication list is the copy of a status
buffer. -/
structure StatusFile where
  statusCodeFilter : UInt32
  blockIndications : Bool
  queueIndications : Bool
  statusIndicationList : List (List UInt8)
  deriving DecidableEq

/-- `StatusCreate`: the pool memory is zeroed. -/
def statusCreate : StatusFile where
  statusCodeFilter := 0
  blockIndications := false
  queueIndications := false
  statusIndicationList := []

/-- `NDIS_STATUS_INDICATION`, with what the two pool allocations for a copy
answer. -/
structure StatusIndication where
  statusCode : UInt32
  statusBuffer : List UInt8
  copyAllocated : Bool
  bufferAllocated : Bool
  deriving DecidableEq

/-- The copy of an indication that is queued.  No buffer is allocated for an
indication without data. -/
def StatusIndication.copy (indication : StatusIndication) :
    Option (List UInt8) :=
  if !indication.copyAllocated then none
  else if 0 < indication.statusBuffer.length then
    if !indication.bufferAllocated then none
    else some indication.statusBuffer
  else some []

/-- The answer to `StatusIrpGetIndication`: its status, `BytesReturned`, and
what is copied to the system buffer. -/
structure Reply where
  status : NtStatus
  bytesReturned : ℕ
  systemBuffer : List UInt8
  deriving DecidableEq

/-- `StatusIrpGetIndication`, with the handle after it. -/
def statusIrpGetIndication (file : StatusFile) (outputBufferLength : ℕ)
    (inputOperation : Bool) : Reply × StatusFile :=
  match file.statusIndicationList with
  | [] => (⟨.notFound, 0, []⟩, file)
  | indication :: rest =>
    if outputBufferLength = 0 ∧ inputOperation = false ∧
        0 < indication.length then
      (⟨.bufferOverflow, indication.length, []⟩, file)
    else if outputBufferLength < indication.length then
      (⟨.bufferTooSmall, 0, []⟩, file)
    else
      (⟨.success, indication.length, indication⟩,
        { file with statusIndicationList := rest })

/-! ## The filter module -/

structure Setting where
  statusCode : UInt32
  block : Bool
  queue : Bool
  deriving DecidableEq

/-- What can be observed of a run: a handle is opened or closed, a filter is
set, an indication arrives, a copy of it is queued to a handle, it is forwarded,
and a request for an indication is answered. -/
inductive Event where
  | opened (h : ℕ)
  | closed (h : ℕ)
  | filtered (h : ℕ) (setting : Setting)
  | indicated (c : ℕ) (indication : StatusIndication)
  | queued (c h : ℕ) (payload : List UInt8)
  | forwarded (c : ℕ)
  | replied (h : ℕ) (reply : Reply)
  deriving DecidableEq

/-- The handles of a filter module, its `StatusFilterList`, and the events so
far. -/
structure Shared where
  files : Table ℕ StatusFile
  statusFilterList : List ℕ
  events : List Event

variable (x : Shared)

def Shared.record (event : Event) : Shared :=
  { x with events := event :: x.events }

def StatusFilterIn.setting (input : StatusFilterIn) : Setting where
  statusCode := input.statusCode
  block := input.blockIndications != 0
  queue := input.queueIndications != 0

/-- A handle that is linked keeps its place in the list. -/
def Shared.setFilter (h : ℕ) (setting : Setting) : Shared where
  files := x.files.insert h
    { statusCodeFilter := setting.statusCode
      blockIndications := setting.block
      queueIndications := setting.queue
      statusIndicationList := [] }
  statusFilterList :=
    if h ∈ x.statusFilterList then x.statusFilterList
    else x.statusFilterList ++ [h]
  events := .filtered h setting :: x.events

def statusIrpFilter (h inputBufferLength : ℕ) (input : StatusFilterIn) :
    NtStatus × Shared :=
  if inputBufferLength < sizeofStatusFilterIn then (.bufferTooSmall, x)
  else
    (.success, x.setFilter h input.setting)

def statusCleanup (h : ℕ) : Shared where
  files := x.files.erase h
  statusFilterList := x.statusFilterList.erase h
  events := .closed h :: x.events

def Shared.queueIndication (x : Shared) (c h : ℕ) (file : StatusFile)
    (payload : List UInt8) : Shared where
  files := x.files.insert h
    { file with
      statusIndicationList := file.statusIndicationList ++ [payload] }
  statusFilterList := x.statusFilterList
  events := .queued c h payload :: x.events

/-- The loop of `FilterStatus` over the linked handles, with the value of
`Block` at its end. -/
def filterStatusLoop (x : Shared) (c : ℕ) (indication : StatusIndication) :
    List ℕ → Shared × Bool
  | [] => (x, false)
  | h :: rest =>
    match x.files.lookup h with
    | none => filterStatusLoop x c indication rest
    | some file =>
      if file.statusCodeFilter = indication.statusCode then
        if file.queueIndications then
          match indication.copy with
          | none => (x, file.blockIndications)
          | some payload =>
            (x.queueIndication c h file payload, file.blockIndications)
        else (x, file.blockIndications)
      else filterStatusLoop x c indication rest

/-! ## Runs -/

/-- `FilterStatus` after it has released the lock, about to forward. -/
inductive Call where
  | forwarding (indication : StatusIndication)
  deriving DecidableEq

inductive Input where
  | create
  | close (h : ℕ)
  | filter (h inputBufferLength : ℕ) (input : StatusFilterIn)
  | getIndication (h outputBufferLength : ℕ) (inputOperation : Bool)
  | indicate (indication : StatusIndication)
  deriving DecidableEq

def start (c : ℕ) : Input → Option (Shared × Option Call)
  | .create =>
    some (({ x with files := x.files.insert c statusCreate }).record
      (.opened c), none)
  | .close h =>
    (x.files.lookup h).map fun _ => (statusCleanup x h, none)
  | .filter h inputBufferLength input =>
    (x.files.lookup h).map fun _ =>
      ((statusIrpFilter x h inputBufferLength input).2, none)
  | .getIndication h outputBufferLength inputOperation =>
    (x.files.lookup h).map fun file =>
      let result :=
        statusIrpGetIndication file outputBufferLength inputOperation
      (({ x with files := x.files.insert h result.2 }).record
        (.replied h result.1), none)
  | .indicate indication =>
    let result := filterStatusLoop (x.record (.indicated c indication)) c
      indication x.statusFilterList
    some (result.1, if result.2 then none else some (.forwarding indication))

/-- The next action of a call: `NdisFIndicateStatus`. -/
def advance (c : ℕ) : Call → Option (Shared × Option Call)
  | .forwarding _ => some (x.record (.forwarded c), none)

def program : Program Shared Call Input where
  init := ⟨∅, [], []⟩
  start := start
  advance := advance

def machine : Machine (Pool Shared Call) (Move Input) := program.machine

end WinNetTest.Fnlwf.Status
