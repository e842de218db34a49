import WinNetTest.Status
import Mathlib.Data.Nat.Notation

/-!
# Miniport ports

The exclusive handle of an adapter can allocate, activate, deactivate and free
NDIS ports.  This module holds the adapter's port list and the way ports are
taken down: a deactivation first, for a port that is active, and then the
release of the port number.  `MpPortCleanup` does both for every port and
stops the system when NDIS refuses one of the calls.
-/

namespace WinNetTest.Fnmp

inductive PortState where
  | allocated
  | activating
  | activated
  | deactivating
  deriving DecidableEq, Repr

structure PortEntry where
  number : UInt32
  state : PortState
  deriving DecidableEq, Repr

/-- The calls that take a port away from NDIS: the `NetEventPortDeactivation`
event and `NdisMFreePort`. -/
inductive PortCall where
  | deactivate (number : UInt32)
  | free (number : UInt32)
  deriving DecidableEq, Repr

/-- Whether NDIS accepts the last of a list of port calls, given those that
went before. -/
abbrev NdisPorts := List PortCall → Bool

structure Ports where
  portList : List PortEntry
  calls : List PortCall
  deriving DecidableEq, Repr

namespace Ports

/-- `MpDeactivatePort` for the first entry of the list: the entry goes through
`FnPortStateDeactivating` and ends as allocated, or as activated again when
NDIS refuses. -/
def mpDeactivatePort (ndis : NdisPorts) (port : PortEntry) (ports : Ports) :
    Bool × Ports :=
  let calls := ports.calls ++ [.deactivate port.number]
  let state := if ndis calls then PortState.allocated else PortState.activated
  (ndis calls, ⟨{ port with state := state } :: ports.portList.tail, calls⟩)

/-- `MpFreePort` for the first entry of the list, which is removed unless NDIS
refuses. -/
def mpFreePort (ndis : NdisPorts) (port : PortEntry) (ports : Ports) :
    Bool × Ports :=
  let calls := ports.calls ++ [.free port.number]
  (ndis calls,
    ⟨if ndis calls then ports.portList.tail else ports.portList, calls⟩)

/-- One turn of the loop of `MpPortCleanup`, at the first entry of the list;
`none` where a `FRE_ASSERT` stops the system. -/
def cleanupPort (ndis : NdisPorts) (port : PortEntry) (ports : Ports) :
    Option Ports :=
  let deactivated :=
    if port.state = .activated then mpDeactivatePort ndis port ports
    else (true, ports)
  if deactivated.1 then
    let freed := mpFreePort ndis port deactivated.2
    if freed.1 then some freed.2 else none
  else none

variable {ports after : Ports} {ndis : NdisPorts}

theorem cleanupPort_spec {port : PortEntry}
    (h : cleanupPort ndis port ports = some after) :
    after.portList = ports.portList.tail ∧
      ports.calls.length < after.calls.length := by
  unfold cleanupPort mpDeactivatePort mpFreePort at h
  by_cases hactive : port.state = .activated
  · simp only [hactive, if_true] at h
    split at h
    · split at h
      · cases h
        simp
      · cases h
    · cases h
  · simp only [hactive, if_false, if_true] at h
    split at h
    · cases h
      simp
    · cases h

def cleanupLoop (ndis : NdisPorts) :
    List PortEntry → List PortCall → Option Ports
  | [], calls => some ⟨[], calls⟩
  | port :: rest, calls =>
    match cleanupPort ndis port ⟨port :: rest, calls⟩ with
    | none => none
    | some after => cleanupLoop ndis rest after.calls

/-- `MpPortCleanup`: take down the ports from the first to the last. -/
def mpPortCleanup (ndis : NdisPorts) (ports : Ports) : Option Ports :=
  cleanupLoop ndis ports.portList ports.calls

theorem mpPortCleanup_of_nil (ndis : NdisPorts) (h : ports.portList = []) :
    mpPortCleanup ndis ports = some ports := by
  obtain ⟨_, _⟩ := ports
  subst h
  rfl

theorem calls_length_of_cleanupLoop {portList : List PortEntry}
    {calls : List PortCall} (h : cleanupLoop ndis portList calls = some after) :
    calls.length + portList.length ≤ after.calls.length := by
  induction portList generalizing calls with
  | nil =>
    cases h
    simp
  | cons port rest ih =>
    rw [cleanupLoop] at h
    split at h
    · cases h
    · rename_i next hturn
      have hcalls := (cleanupPort_spec hturn).2
      have hrest := ih h
      simp only [List.length_cons] at hcalls ⊢
      omega

theorem calls_ne_of_mpPortCleanup (hports : ports.portList ≠ [])
    (h : mpPortCleanup ndis ports = some after) :
    after.calls ≠ ports.calls := by
  intro hcalls
  have hlength := calls_length_of_cleanupLoop h
  have hpos := List.length_pos_iff.mpr hports
  rw [hcalls] at hlength
  omega

end Ports

end WinNetTest.Fnmp
