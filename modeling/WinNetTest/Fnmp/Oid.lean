import WinNetTest.Fnio.Filter
import WinNetTest.Support.Ring

/-!
# OID requests and the OID filter

FNMP can be told to pend OID requests.  An exclusive handle installs a list of
keys; a request that matches one of them is not processed but put on the list
of the interface it arrived on, where the handle can inspect it and decide how
it is completed.  This module holds the requests, the keys, the two lists and
what each entry point does to them while it holds `Adapter->Lock`.
-/

namespace WinNetTest.Fnmp

open Fnio

/-! ## Requests and keys -/

inductive Oid where
  | genSupportedList
  | genHardwareStatus
  | genMediaSupported
  | genMediaInUse
  | genMaximumLookahead
  | genMaximumFrameSize
  | genLinkSpeed
  | genTransmitBufferSpace
  | genReceiveBufferSpace
  | genTransmitBlockSize
  | genReceiveBlockSize
  | genVendorId
  | genVendorDescription
  | genCurrentPacketFilter
  | genCurrentLookahead
  | genMaximumTotalSize
  | genMacOptions
  | genMediaConnectStatus
  | genLinkSpeedEx
  | genMaxLinkSpeed
  | genMediaConnectStatusEx
  | genMediaDuplexState
  | genLinkState
  | genStatistics
  | ieee8023PermanentAddress
  | ieee8023CurrentAddress
  | ieee8023MulticastList
  | ieee8023MaximumListSize
  | pnpSetPower
  | pnpQueryPower
  | offloadEncapsulation
  | genReceiveScaleCapabilities
  | genReceiveScaleParameters
  | genDriverVersion
  | tcpOffloadParameters
  | tcpOffloadHwParameters
  | quicConnectionEncryption
  | quicConnectionEncryptionPrototype
  | fnmpSetNop
  | fnmpMethodDirectNop
  | other (value : UInt32)
  deriving DecidableEq, Repr

inductive NdisRequestType where
  | queryInformation
  | queryStatistics
  | setInformation
  | method
  | other (value : UInt32)
  deriving DecidableEq, Repr

inductive OidRequestInterface where
  | regular
  | direct
  deriving DecidableEq, Repr

namespace OidRequestInterface

def value : OidRequestInterface → UInt32
  | regular => 0
  | direct => 1

/-- The interface a 32-bit value stands for; `none` from
`OID_REQUEST_INTERFACE_MAX` on. -/
def ofValue (value : UInt32) : Option OidRequestInterface :=
  if value = 0 then some regular
  else if value = 1 then some direct
  else none

end OidRequestInterface

/-- `OID_KEY`.  The interface is the value the user supplied. -/
structure OidKey where
  oid : Oid
  requestType : NdisRequestType
  requestInterface : UInt32
  portNumber : UInt32
  deriving DecidableEq, Repr

/-- One half of an `NDIS_OFFLOAD_ENCAPSULATION`. -/
structure Encapsulation where
  enabled : Bool
  isIeee8023 : Bool
  headerSize : UInt32
  deriving DecidableEq, Repr

/-- `Header.Type`, as far as it is compared. -/
inductive NdisObjectType where
  | default
  | offloadEncapsulation
  | other (value : UInt8)
  deriving DecidableEq, Repr

/-- What `InformationBuffer` points to: its bytes, and the same memory read as
the structures the set requests cast it to. -/
structure Information where
  bytes : List UInt8
  headerType : NdisObjectType
  headerRevision : UInt8
  headerSize : UInt16
  ipv4 : Encapsulation
  ipv6 : Encapsulation
  deriving DecidableEq, Repr

/-- `NDIS_OID_REQUEST`, with the fields of its union side by side: queries and
sets use `informationBufferLength`, methods the two buffer lengths. -/
structure NdisOidRequest where
  id : ℕ
  oid : Oid
  requestType : NdisRequestType
  portNumber : UInt32
  information : Information
  informationBufferLength : UInt32
  inputBufferLength : UInt32
  outputBufferLength : UInt32
  bytesRead : UInt32
  bytesWritten : UInt32
  bytesNeeded : UInt32
  deriving DecidableEq, Repr

def NdisOidRequest.noData (oid : Oid) (requestType : NdisRequestType) :
    NdisOidRequest where
  id := 0
  oid := oid
  requestType := requestType
  portNumber := 0
  information := ⟨[], .default, 0, 0, ⟨false, false, 0⟩, ⟨false, false, 0⟩⟩
  informationBufferLength := 0
  inputBufferLength := 0
  outputBufferLength := 0
  bytesRead := 0
  bytesWritten := 0
  bytesNeeded := 0

structure OidRequestEntry where
  request : NdisOidRequest
  timestamp : UInt64
  deriving DecidableEq, Repr

structure PerInterface (α : Type*) where
  regular : α
  direct : α
  deriving DecidableEq, Repr

namespace PerInterface

variable {α : Type*}

def get (p : PerInterface α) : OidRequestInterface → α
  | .regular => p.regular
  | .direct => p.direct

def set (p : PerInterface α) (i : OidRequestInterface) (a : α) :
    PerInterface α :=
  match i with
  | .regular => { p with regular := a }
  | .direct => { p with direct := a }

theorem get_set (p : PerInterface α) (i j : OidRequestInterface) (a : α) :
    (p.set i a).get j = if j = i then a else p.get j := by
  cases i <;> cases j <;> rfl

end PerInterface

/-- `OidFilterKeys`, with `none` for `NULL`, and `FilteredOidRequestLists`. -/
structure OidFilter where
  oidFilterKeys : Option (List OidKey)
  filteredOidRequestLists : PerInterface (List OidRequestEntry)
  deriving DecidableEq, Repr

namespace OidFilter

def empty : OidFilter := ⟨none, ⟨[], []⟩⟩

variable (oids : OidFilter) (i : OidRequestInterface)

def list : List OidRequestEntry :=
  oids.filteredOidRequestLists.get i

def setList (entries : List OidRequestEntry) : OidFilter :=
  { oids with
    filteredOidRequestLists := oids.filteredOidRequestLists.set i entries }

@[simp] theorem list_empty : empty.list i = [] := by
  cases i <;> rfl

@[simp] theorem list_setList (i j : OidRequestInterface)
    (entries : List OidRequestEntry) :
    (oids.setList i entries).list j = if j = i then entries else oids.list j :=
  oids.filteredOidRequestLists.get_set i j entries

end OidFilter

/-! ## Pending a request -/

/-- The comparison `MpFilterOid` makes with one key. -/
def OidKey.Matches (key : OidKey) (i : OidRequestInterface)
    (request : NdisOidRequest) : Prop :=
  request.oid = key.oid ∧ request.requestType = key.requestType ∧
    i.value = key.requestInterface ∧ request.portNumber = key.portNumber

instance (key : OidKey) (i : OidRequestInterface) (request : NdisOidRequest) :
    Decidable (key.Matches i request) :=
  inferInstanceAs (Decidable (_ ∧ _))

/-- `MpFilterOid` at time `now`: the first key that matches decides, and
`allocated` is what the pool answers there. -/
def mpFilterOid (now : UInt64) (allocated : Bool) (i : OidRequestInterface)
    (request : NdisOidRequest) (oids : OidFilter) : NdisStatus × OidFilter :=
  if (oids.oidFilterKeys.getD []).any fun key => key.Matches i request then
    if allocated then
      (.pending, oids.setList i (oids.list i ++ [⟨request, now⟩]))
    else (.resources, oids)
  else (.success, oids)

/-! ## Clearing the filter -/

def mpOidClearFilter (oids : OidFilter) : OidFilter :=
  { oids with oidFilterKeys := none }

/-- The lock section of `MpOidClearFilterAndFlush`: the keys are dropped and
both lists are moved to the caller. -/
def clearFilterSection (oids : OidFilter) :
    PerInterface (List OidRequestEntry) × OidFilter :=
  let cleared := mpOidClearFilter oids
  (cleared.filteredOidRequestLists,
    { cleared with filteredOidRequestLists := ⟨[], []⟩ })

/-- What the loop of that section does to the links of one list: its entries go
to the caller's head in their order, and no other links are changed. -/
theorem clearFilterSection_links {α : Type*} [DecidableEq α]
    {l : Support.Links α} {head other : α} {nodes : List α} (entry : α → OidRequestEntry)
    {oids : OidFilter} {i : OidRequestInterface}
    (h : l.IsRing other nodes ∧ nodes.map entry = oids.list i)
    (hhead : head ∉ other :: nodes) :
    ((l.moveAll head other).IsRing head nodes ∧
      nodes.map entry = (clearFilterSection oids).1.get i) ∧
    ((l.moveAll head other).IsRing other [] ∧
      [].map entry = (clearFilterSection oids).2.list i) ∧
    ∀ y ∉ head :: other :: nodes,
      (l.moveAll head other).flink y = l.flink y ∧
        (l.moveAll head other).blink y = l.blink y := by
  obtain ⟨hmoved, hempty, hkept⟩ := h.1.moveAll hhead
  exact ⟨⟨hmoved, h.2⟩, ⟨hempty, by cases i <;> rfl⟩, hkept⟩

/-- `MpOidWatchdogIsExpired` at time `currentTime`. -/
def mpOidWatchdogIsExpired (currentTime : UInt64) (oids : OidFilter) : Bool :=
  let expired := fun entry : OidRequestEntry =>
    decide (currentTime > entry.timestamp + watchdogGracePeriod)
  (oids.list .regular).any expired || (oids.list .direct).any expired

/-! ## The IOCTLs of the exclusive handle -/

def mpApiver2 : UInt32 := 2

variable (apiVersion : UInt32)

/-- `sizeof(OID_KEY)`, or `sizeof(OID_KEY_V0)` below version 2. -/
def inKeySize : ℕ :=
  if apiVersion ≥ mpApiver2 then 16 else 12

/-- The key read from the user's structure; a structure of the first version
has no port number, and the driver's own key was zeroed. -/
def readKey (key : OidKey) : OidKey :=
  if apiVersion ≥ mpApiver2 then key else { key with portNumber := 0 }

/-- The checks `MpIrpOidSetFilter` makes of one key. -/
def OidKey.Valid (key : OidKey) : Prop :=
  (key.requestType = .queryInformation ∨ key.requestType = .setInformation ∨
    key.requestType = .method) ∧
  (OidRequestInterface.ofValue key.requestInterface).isSome

instance (key : OidKey) : Decidable key.Valid :=
  inferInstanceAs (Decidable (_ ∧ _))

/-- The input of `MpIrpOidSetFilter`: the length of the system buffer, the
keys in it and whether the copy can be allocated. -/
structure SetFilterInput where
  inputBufferLength : ℕ
  key : ℕ → OidKey
  allocated : Bool

/-- `MpIrpOidSetFilter`.  On success the caller's handle is the one marked
`SetOidFilter`. -/
def mpIrpOidSetFilter (input : SetFilterInput) (oids : OidFilter) :
    NtStatus × OidFilter :=
  let size := inKeySize apiVersion
  let keys := (List.range (input.inputBufferLength / size)).map fun index =>
    readKey apiVersion (input.key index)
  if input.inputBufferLength < size then (.invalidParameter, oids)
  else if input.inputBufferLength % size ≠ 0 then (.invalidParameter, oids)
  else if !input.allocated then (.noMemory, oids)
  else if ¬ ∀ key ∈ keys, key.Valid then (.invalidParameter, oids)
  else if oids.oidFilterKeys.isSome then (.invalidDeviceRequest, oids)
  else (.success, { oids with oidFilterKeys := some keys })

/-- `MpOidFindFilteredOidByKey`: the oldest request of the key's interface, if
it is the one the key names. -/
def mpOidFindFilteredOidByKey (oids : OidFilter) (i : OidRequestInterface)
    (key : OidKey) : Option OidRequestEntry :=
  match oids.list i with
  | [] => none
  | entry :: _ =>
    if entry.request.oid ≠ key.oid ∨
        entry.request.requestType ≠ key.requestType ∨
        entry.request.portNumber ≠ key.portNumber then none
    else some entry

structure GetRequestInput where
  inputBufferLength : ℕ
  key : OidKey
  outputBufferLength : UInt32
  inputOperation : Bool

variable (request : NdisOidRequest)

/-- The length of the data a request carries into the driver; `none` for a
request type that is never pended. -/
def NdisOidRequest.inLength : Option UInt32 :=
  match request.requestType with
  | .queryInformation => some request.informationBufferLength
  | .setInformation => some request.informationBufferLength
  | .method => some request.inputBufferLength
  | _ => none

/-- `MpIrpOidGetRequest`: the status, `BytesReturned` and the bytes copied to
the system buffer. -/
def mpIrpOidGetRequest (input : GetRequestInput) (oids : OidFilter) :
    NtStatus × UInt32 × List UInt8 :=
  let key := readKey apiVersion input.key
  if input.inputBufferLength < inKeySize apiVersion then
    (.invalidParameter, 0, [])
  else
    match OidRequestInterface.ofValue key.requestInterface with
    | none => (.invalidParameter, 0, [])
    | some i =>
      match mpOidFindFilteredOidByKey oids i key with
      | none => (.notFound, 0, [])
      | some entry =>
        match entry.request.inLength with
        | none => (.notSupported, 0, [])
        | some length =>
          if input.outputBufferLength = 0 ∧ !input.inputOperation then
            (.bufferOverflow, length, [])
          else if input.outputBufferLength < length then
            (.bufferTooSmall, 0, [])
          else
            (.success, length,
              entry.request.information.bytes.take length.toNat)

/-- The input of `MpIrpOidCompleteRequest`: the system buffer's length and
fields, the key (in the system buffer before version 2, behind a pointer to
user memory since) and the user's information buffer. -/
structure CompleteRequestInput where
  inputBufferLength : ℕ
  systemKey : OidKey
  userKey : Option OidKey
  keyAllocated : Bool
  status : NdisStatus
  informationBufferLength : UInt32
  informationBuffer : UserRead

/-- `sizeof(OID_COMPLETE_REQUEST_IN)`, or its size below version 2. -/
def completeRequestInSize : ℕ :=
  if apiVersion ≥ mpApiver2 then 24 else 32

variable (input : CompleteRequestInput)

/-- Fetch the key of a completion: bounced from user memory from version 2 on,
part of the system buffer before. -/
def completionKey : Except NtStatus OidKey :=
  if apiVersion ≥ mpApiver2 then
    if !input.keyAllocated then .error .noMemory
    else
      match input.userKey with
      | none => .error .accessViolation
      | some key => .ok key
  else .ok (readKey apiVersion input.systemKey)

/-- The room a request has for the data of its completion; `none` for a
request type that is never pended. -/
def NdisOidRequest.outLength : Option UInt32 :=
  match request.requestType with
  | .queryInformation => some request.informationBufferLength
  | .setInformation => some request.informationBufferLength
  | .method => some request.outputBufferLength
  | _ => none

/-- Hand the user's data to the request: a query or a method receives the
bytes, a set only the count. -/
def NdisOidRequest.receive (length : UInt32) (bytes : List UInt8) :
    NdisOidRequest :=
  if length = 0 then request
  else if request.requestType = .setInformation then
    { request with bytesRead := length }
  else
    { request with
      information :=
        { request.information with
          bytes := bytes ++ request.information.bytes.drop bytes.length }
      bytesWritten := length }

structure TakenRequest where
  interface : OidRequestInterface
  request : NdisOidRequest
  status : NdisStatus
  deriving DecidableEq, Repr

/-- What `MpIrpOidCompleteRequest` does before it takes the lock: the
interface, the key and a copy of the user's data. -/
def bounceCompletion :
    Except NtStatus (OidRequestInterface × OidKey × List UInt8) :=
  if input.inputBufferLength < completeRequestInSize apiVersion then
    .error .invalidParameter
  else
    match completionKey apiVersion input with
    | .error status => .error status
    | .ok key =>
      match OidRequestInterface.ofValue key.requestInterface with
      | none => .error .invalidParameter
      | some i =>
        if input.status = .pending ∧ input.informationBufferLength > 0 then
          .error .invalidParameter
        else if key.requestType = .setInformation then .ok (i, key, [])
        else
          match bounceBuffer input.informationBuffer
              input.informationBufferLength.toNat with
          | .error status => .error status
          | .ok bytes => .ok (i, key, bytes)

/-- `MpIrpOidCompleteRequest` up to the call of `MpOidCompleteRequest`: the
status to be returned, the filter after the lock section and the request that
was removed. -/
def mpIrpOidCompleteRequest (oids : OidFilter) :
    NtStatus × OidFilter × Option TakenRequest :=
  match bounceCompletion apiVersion input with
  | .error status => (status, oids, none)
  | .ok (i, key, bytes) =>
    match mpOidFindFilteredOidByKey oids i key with
    | none => (.notFound, oids, none)
    | some entry =>
      match entry.request.outLength with
      | none => (.notSupported, oids, none)
      | some room =>
        if room < input.informationBufferLength then
          (.bufferTooSmall, oids, none)
        else
          (.success, oids.setList i (oids.list i).tail,
            some ⟨i, entry.request.receive
              input.informationBufferLength bytes, input.status⟩)

@[simp] theorem NdisOidRequest.receive_id
    (request : NdisOidRequest) (length : UInt32) (bytes : List UInt8) :
    (request.receive length bytes).id = request.id := by
  unfold receive
  split
  · rfl
  · split <;> rfl

theorem list_of_mpOidFindFilteredOidByKey
    {oids : OidFilter} {i : OidRequestInterface} {key : OidKey}
    {entry : OidRequestEntry}
    (h : mpOidFindFilteredOidByKey oids i key = some entry) :
    oids.list i = entry :: (oids.list i).tail := by
  unfold mpOidFindFilteredOidByKey at h
  split at h
  · cases h
  · rename_i head rest hlist
    split at h
    · cases h
    · cases h
      rw [hlist, List.tail_cons]

theorem mpIrpOidCompleteRequest_cases (oids : OidFilter) :
    (∃ status, mpIrpOidCompleteRequest apiVersion input oids =
      (status, oids, none)) ∨
    ∃ i entry rest request,
      oids.list i = entry :: rest ∧ request.id = entry.request.id ∧
      mpIrpOidCompleteRequest apiVersion input oids =
        (.success, oids.setList i rest, some ⟨i, request, input.status⟩) := by
  unfold mpIrpOidCompleteRequest
  split
  · exact Or.inl ⟨_, rfl⟩
  · rename_i i key bytes _
    split
    · exact Or.inl ⟨_, rfl⟩
    · rename_i entry hfind
      split
      · exact Or.inl ⟨_, rfl⟩
      · split
        · exact Or.inl ⟨_, rfl⟩
        · exact Or.inr ⟨i, entry, _, _,
            list_of_mpOidFindFilteredOidByKey hfind, by simp, rfl⟩

end WinNetTest.Fnmp
