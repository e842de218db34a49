import WinNetTest.Isr.RelayCommands
import WinNetTest.Isr.RelayRestart

/-!
# Pending IRPs

A dispatch routine that returns `STATUS_PENDING` must have marked the IRP, must
have marked it while nobody else could complete it, and must leave it alone once
somebody can.  `ServiceIrpGet` marks its IRP inside the section of the service
lock and keeps to the rules, unless it finds itself cancelled there: it then
returns `STATUS_CANCELLED` for a marked IRP.  `ClientIrpSubmit` marks its IRP
when the request is on the queue, and the service can complete it by then as
long as it has a handle open.
-/

namespace WinNetTest.Isr

open Support

/-- The next action calls `IoMarkIrpPending` on the IRP of the call. -/
def Call.marks : Call → Bool
  | .pushed | .getting .pend => true
  | _ => false

def Call.returns : Call → Option NtStatus
  | .pushed => some .pending
  | .returning status => some status
  | _ => none

def Call.pended : Call → Bool
  | .getting .check | .getting .uncancel => true
  | .getting (.release status) | .returning status =>
    status = .pending ∨ status = .cancelled
  | _ => false

theorem Action.pended {x y : Shared} {c : ℕ} {call : Call}
    {after : Option Call} (h : Action x c (some call) y after) :
    ∀ next ∈ after, next.pended = (call.pended || call.marks) := by
  cases h with
  | session h => cases h <;> simp [Call.pended, Call.marks]
  | push => split <;> simp [Call.pended, Call.marks]
  | _ => simp [Call.pended, Call.marks]

variable {s : Pool Shared Call} {c : ℕ} {call : Call}

end WinNetTest.Isr
