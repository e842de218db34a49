import WinNetTest.Fnmp.Oid
import WinNetTest.Fnmp.Port

/-!
# The exclusive handle

An adapter can be configured through one exclusive handle at a time.  Opening
it looks the adapter up by interface index, which takes a reference, and then
claims the adapter's `UserContext` slot.  An open that fails after the lookup
runs `ExclusiveCleanup`, the same routine that closes a handle.
-/

namespace WinNetTest.Fnmp

/-! ## Adapters -/

/-- The part of `ADAPTER_CONTEXT` an exclusive handle works on. -/
structure AdapterContext where
  ifIndex : UInt32
  userContext : Option ℕ
  ports : Ports
  oids : OidFilter
  completed : List (OidRequestInterface × NdisOidRequest)
  referenceCount : ℕ
  referenced : 0 < referenceCount

namespace AdapterContext

/-- `MpReferenceAdapter`; `none` where its `FRE_ASSERT` stops the system. -/
def mpReferenceAdapter (adapter : AdapterContext) : Option AdapterContext :=
  if 1 < adapter.referenceCount + 1 then
    some { adapter with
      referenceCount := adapter.referenceCount + 1
      referenced := Nat.succ_pos _ }
  else none

/-- `MpDereferenceAdapter`; `none` where the last reference is dropped and the
adapter is freed. -/
def mpDereferenceAdapter (adapter : AdapterContext) : Option AdapterContext :=
  if h : 0 < adapter.referenceCount - 1 then
    some { adapter with
      referenceCount := adapter.referenceCount - 1
      referenced := h }
  else none

/-- `MpOidClearFilterAndFlush`, from its lock section to the completion of the
last request. -/
def mpOidClearFilterAndFlush (adapter : AdapterContext) : AdapterContext :=
  let cleared := clearFilterSection adapter.oids
  let flushed := fun i : OidRequestInterface =>
    (cleared.1.get i).map fun entry => (i, entry.request)
  { adapter with
    oids := cleared.2
    completed := adapter.completed ++ flushed .regular ++ flushed .direct }

end AdapterContext

/-! ## Opening and cleaning up -/

/-- `EXCLUSIVE_USER_CONTEXT`, with its address. -/
structure ExclusiveUserContext where
  address : ℕ
  setOidFilter : Bool

/-- `ExclusiveCleanup` for a context that has an adapter: the ports are taken
down whoever owns the adapter, the OID filter only if this context set it, and
the `UserContext` slot only if it is this context's. -/
def exclusiveCleanup (ndis : NdisPorts) (userContext : ExclusiveUserContext)
    (adapter : AdapterContext) : Option (Option AdapterContext) :=
  match adapter.ports.mpPortCleanup ndis with
  | none => none
  | some ports =>
    let adapter := { adapter with ports := ports }
    let adapter :=
      if userContext.setOidFilter then adapter.mpOidClearFilterAndFlush
      else adapter
    let adapter :=
      if adapter.userContext = some userContext.address then
        { adapter with userContext := none }
      else adapter
    some adapter.mpDereferenceAdapter

/-- What a create request brings: the length of the `FNMP_OPEN_EXCLUSIVE`
structure, its interface index, and the address the pool gives the new
context. -/
structure OpenRequest where
  inputBufferLength : ℕ
  ifIndex : UInt32
  allocation : Option ℕ

def sizeofOpenExclusive : ℕ := 4

/-- `ExclusiveIrpCreate` from the moment `MpFindAdapter` has found the adapter:
the status and what has become of the adapter. -/
def openAdapter (ndis : NdisPorts) (address : ℕ) (adapter : AdapterContext) :
    Option (NtStatus × Option AdapterContext) :=
  match adapter.mpReferenceAdapter with
  | none => none
  | some adapter =>
    if adapter.userContext ≠ none then
      match exclusiveCleanup ndis ⟨address, false⟩ adapter with
      | none => none
      | some after => some (.duplicateObjectId, after)
    else
      some (.success, some { adapter with userContext := some address })

/-- Walk `AdapterList` for the interface index, as `MpFindAdapter` does, and
open the adapter that is found. -/
def openFirst (ndis : NdisPorts) (ifIndex : UInt32) (address : ℕ) :
    List AdapterContext → Option (NtStatus × List AdapterContext)
  | [] => some (.notFound, [])
  | adapter :: rest =>
    if adapter.ifIndex = ifIndex then
      (openAdapter ndis address adapter).map fun result =>
        (result.1, result.2.toList ++ rest)
    else
      (openFirst ndis ifIndex address rest).map fun result =>
        (result.1, adapter :: result.2)

/-- `ExclusiveIrpCreate` on the list of all adapters: the status and the list
after the call, `none` where the system is stopped. -/
def exclusiveIrpCreate (ndis : NdisPorts) (request : OpenRequest)
    (adapters : List AdapterContext) :
    Option (NtStatus × List AdapterContext) :=
  if request.inputBufferLength < sizeofOpenExclusive then
    some (.bufferTooSmall, adapters)
  else
    match request.allocation with
    | none => some (.insufficientResources, adapters)
    | some address => openFirst ndis request.ifIndex address adapters

/-! ## The effect of a failed open -/

/-- The call came back, and if it failed every adapter is what it was: its
owner, its ports and the port calls NDIS has seen, its OID filter, its pended
and completed requests and its reference count. -/
def NoEffectIfFailed (adapters : List AdapterContext) :
    Option (NtStatus × List AdapterContext) → Prop
  | none => False
  | some (status, after) => status.ntSuccess = false → after = adapters

def AdapterContext.HasOwnedPorts (adapter : AdapterContext) : Prop :=
  adapter.userContext ≠ none ∧ adapter.ports.portList ≠ []

/-- The adapter `MpFindAdapter` finds. -/
def mpFindAdapter (ifIndex : UInt32) (adapters : List AdapterContext) :
    Option AdapterContext :=
  adapters.find? fun adapter => adapter.ifIndex = ifIndex

/-- The request gets as far as the ownership check, and the adapter it names
has an owner and ports. -/
def MeetsOwnedPorts (request : OpenRequest) (adapters : List AdapterContext) :
    Prop :=
  sizeofOpenExclusive ≤ request.inputBufferLength ∧ request.allocation ≠ none ∧
    ∃ adapter ∈ mpFindAdapter request.ifIndex adapters, adapter.HasOwnedPorts

/-- The pool hands out memory that is not in use: the new context is none of
the owners. -/
def FreshAllocation (request : OpenRequest) (adapters : List AdapterContext) :
    Prop :=
  ∀ address ∈ request.allocation, ∀ adapter ∈ adapters,
    adapter.userContext ≠ some address

namespace AdapterContext

variable (ndis : NdisPorts) (address : ℕ) (adapter : AdapterContext)

def withReference : AdapterContext :=
  { adapter with
    referenceCount := adapter.referenceCount + 1
    referenced := Nat.succ_pos _ }

@[simp] theorem mpReferenceAdapter_eq :
    adapter.mpReferenceAdapter = some adapter.withReference := by
  have hpos := adapter.referenced
  rw [mpReferenceAdapter, if_pos (by omega)]
  rfl

@[simp] theorem mpDereferenceAdapter_withReference :
    adapter.withReference.mpDereferenceAdapter = some adapter := by
  have hpos := adapter.referenced
  rw [mpDereferenceAdapter, dif_pos (by simpa [withReference] using hpos)]
  rfl

variable {adapter}

theorem openAdapter_of_unowned (h : adapter.userContext = none) :
    openAdapter ndis address adapter = some (.success,
        some { adapter.withReference with userContext := some address }) := by
  simp [openAdapter, withReference, h]

theorem exclusiveCleanup_withReference
    (hfresh : adapter.userContext ≠ some address) :
    exclusiveCleanup ndis ⟨address, false⟩ adapter.withReference =
      (adapter.ports.mpPortCleanup ndis).map fun ports =>
        some { adapter with ports := ports } := by
  have hports : adapter.withReference.ports = adapter.ports := rfl
  have howner : adapter.withReference.userContext = adapter.userContext := rfl
  rw [exclusiveCleanup, hports]
  cases adapter.ports.mpPortCleanup ndis with
  | none => rfl
  | some ports =>
    simp only [Bool.false_eq_true, if_false, howner, hfresh, Option.map_some]
    exact congrArg some
      (mpDereferenceAdapter_withReference { adapter with ports := ports })

theorem openAdapter_of_owned
    (howner : adapter.userContext ≠ none)
    (hfresh : adapter.userContext ≠ some address) :
    openAdapter ndis address adapter =
      (adapter.ports.mpPortCleanup ndis).map fun ports =>
        (.duplicateObjectId, some { adapter with ports := ports }) := by
  have howned : adapter.withReference.userContext ≠ none := howner
  simp only [openAdapter, mpReferenceAdapter_eq, howned, ne_eq,
    not_false_eq_true, if_true,
    exclusiveCleanup_withReference ndis address hfresh]
  cases adapter.ports.mpPortCleanup ndis <;> rfl

theorem noEffectIfFailed_openAdapter_iff
    (rest : List AdapterContext)
    (hfresh : adapter.userContext ≠ some address) :
    NoEffectIfFailed (adapter :: rest)
      ((openAdapter ndis address adapter).map fun result =>
        (result.1, result.2.toList ++ rest)) ↔
      ¬ adapter.HasOwnedPorts := by
  by_cases howner : adapter.userContext = none
  · rw [openAdapter_of_unowned ndis address howner]
    simp [NoEffectIfFailed, NtStatus.ntSuccess, HasOwnedPorts, howner]
  · rw [openAdapter_of_owned ndis address howner hfresh]
    by_cases hports : adapter.ports.portList = []
    · rw [Ports.mpPortCleanup_of_nil ndis hports]
      simp [NoEffectIfFailed, HasOwnedPorts, hports]
    · have howned : adapter.HasOwnedPorts := ⟨howner, hports⟩
      cases hcleanup : adapter.ports.mpPortCleanup ndis with
      | none => simp [NoEffectIfFailed, howned]
      | some ports =>
        have hcalls := Ports.calls_ne_of_mpPortCleanup hports hcleanup
        have hne : ({ adapter with ports := ports } : AdapterContext) ≠
            adapter :=
          fun h => hcalls (congrArg (·.ports.calls) h)
        simp [NoEffectIfFailed, NtStatus.ntSuccess, howned, hne]

end AdapterContext

theorem noEffectIfFailed_cons_iff
    (adapter : AdapterContext) (adapters : List AdapterContext)
    (result : Option (NtStatus × List AdapterContext)) :
    NoEffectIfFailed (adapter :: adapters)
      (result.map fun r => (r.1, adapter :: r.2)) ↔
      NoEffectIfFailed adapters result := by
  cases result with
  | none => rfl
  | some r => simp [NoEffectIfFailed]

theorem noEffectIfFailed_openFirst_iff
    (ndis : NdisPorts) (ifIndex : UInt32) {address : ℕ}
    {adapters : List AdapterContext}
    (hfresh : ∀ adapter ∈ adapters, adapter.userContext ≠ some address) :
    NoEffectIfFailed adapters (openFirst ndis ifIndex address adapters) ↔
      ∀ adapter ∈ mpFindAdapter ifIndex adapters, ¬ adapter.HasOwnedPorts := by
  induction adapters with
  | nil => simp [openFirst, mpFindAdapter, NoEffectIfFailed]
  | cons adapter rest ih =>
    have hhead := hfresh adapter List.mem_cons_self
    have htail := fun a ha => hfresh a (List.mem_cons_of_mem _ ha)
    by_cases hindex : adapter.ifIndex = ifIndex
    · have hfind : mpFindAdapter ifIndex (adapter :: rest) = some adapter := by
        simp [mpFindAdapter, hindex]
      rw [openFirst, if_pos hindex, hfind]
      simpa using adapter.noEffectIfFailed_openAdapter_iff ndis address rest hhead
    · have hfind : mpFindAdapter ifIndex (adapter :: rest) =
          mpFindAdapter ifIndex rest := by
        simp [mpFindAdapter, hindex]
      rw [openFirst, if_neg hindex, hfind, ← ih htail]
      exact noEffectIfFailed_cons_iff adapter rest _

/-- A failed exclusive open leaves every adapter as it was, except when the
adapter it names is owned by another handle and has ports: then the cleanup of
the refused open takes the owner's ports down. -/
theorem failedOpen_noEffect_iff
    (ndis : NdisPorts) (request : OpenRequest) (adapters : List AdapterContext)
    (hfresh : FreshAllocation request adapters) :
    NoEffectIfFailed adapters (exclusiveIrpCreate ndis request adapters) ↔
      ¬ MeetsOwnedPorts request adapters := by
  unfold exclusiveIrpCreate MeetsOwnedPorts
  by_cases hlength : request.inputBufferLength < sizeofOpenExclusive
  · simp [NoEffectIfFailed, hlength, Nat.not_le.mpr hlength]
  · rw [if_neg hlength]
    cases halloc : request.allocation with
    | none => simp [NoEffectIfFailed]
    | some address =>
      have hfirst := noEffectIfFailed_openFirst_iff ndis request.ifIndex
        (hfresh address halloc)
      rw [hfirst]
      simp [Nat.not_lt.mp hlength]

def ownedAdapter : AdapterContext where
  ifIndex := 7
  userContext := some 1
  ports := ⟨[⟨3, .activated⟩], []⟩
  oids := .empty
  completed := []
  referenceCount := 2
  referenced := by decide

def secondOpen : OpenRequest := ⟨4, 7, some 2⟩

def portlessAdapter : AdapterContext :=
  { ownedAdapter with ports := ⟨[], []⟩ }

theorem failedOpen_noEffect_portless :
    FreshAllocation secondOpen [portlessAdapter] ∧
    NoEffectIfFailed [portlessAdapter]
      (exclusiveIrpCreate (fun _ => true) secondOpen [portlessAdapter]) := by
  have hfresh : FreshAllocation secondOpen [portlessAdapter] := by
    simp [FreshAllocation, secondOpen, portlessAdapter, ownedAdapter]
  have hmeets : ¬ MeetsOwnedPorts secondOpen [portlessAdapter] := by
    simp [MeetsOwnedPorts, mpFindAdapter, AdapterContext.HasOwnedPorts,
      portlessAdapter]
  exact ⟨hfresh, (failedOpen_noEffect_iff _ _ _ hfresh).mpr hmeets⟩

/-- The second open is refused, and the owner's port has been deactivated and
freed. -/
theorem secondOpen_frees_ports : FreshAllocation secondOpen [ownedAdapter] ∧
    exclusiveIrpCreate (fun _ => true) secondOpen [ownedAdapter] =
      some (.duplicateObjectId,
        [{ ownedAdapter with ports := ⟨[], [.deactivate 3, .free 3]⟩ }]) ∧
    ¬ NoEffectIfFailed [ownedAdapter]
      (exclusiveIrpCreate (fun _ => true) secondOpen [ownedAdapter]) := by
  refine ⟨?_, rfl, ?_⟩
  · simp [FreshAllocation, secondOpen, ownedAdapter]
  · intro h
    have hlist := h rfl
    exact absurd (congrArg (·.map (·.ports)) hlist) (by decide)

end WinNetTest.Fnmp
