import WinNetTest.Sock.Datagram
import WinNetTest.Sock.EventQueue

/-!
# How timeouts of receive and accept calls are reported

A wait that times out ends with `STATUS_TIMEOUT`, which passes `NT_SUCCESS`.
The call goes on to its second look at the list and fails there with
`STATUS_UNSUCCESSFUL`, so that `FnSockGetLastError` never says `WSAETIMEDOUT`.
-/

namespace WinNetTest.Sock.EventQueue

open Support

variable {α β ρ ω : Type*}

/-! ## Calls that time out -/

def State.fnSockGetLastError (s : State α ρ ω) : SocketError :=
  ntStatusToSocketError s.lastError

def Input.isSocketCall : Input β ρ → Bool
  | .arrive _ | .tick => false
  | .setSockOpt _ _ | .call _ | .advance => true

/-- The return of a call in a run, by the step from `before` to `after`, and a
state until which no other socket call is made. -/
structure ReturnedCall (side : Side α β ρ ω) where
  before : State α ρ ω
  after : State α ρ ω
  later : State α ρ ω
  result : Return ω
  quiet : List (Input β ρ)
  reachable : (machine side).Reachable before
  step_eq : step side before .advance = some after
  returns_eq : after.returns = before.returns ++ [result]
  noSocketCall : ∀ input ∈ quiet, input.isSocketCall = false
  run_eq : (machine side).run after quiet = some later

/-- The timeout was finite and has elapsed while nothing was added. -/
def Return.timedOut : Return ω → Prop
  | .item _ => False
  | .empty _ timeout elapsed arrived =>
    timeout ≠ wskclientInfinite ∧ timeout.toNat * 10000 ≤ elapsed ∧ arrived = 0

/-- The call has waited for an event that was not signaled, until its timeout
had elapsed with nothing arriving. -/
def ReturnedCall.TimesOut {side : Side α β ρ ω} (c : ReturnedCall side) :
    Prop :=
  c.before.queue.event = false ∧ c.result.timedOut

def ReturnedCall.Reports {side : Side α β ρ ω} (failure : ω → Prop)
    (c : ReturnedCall side) : Prop :=
  c.TimesOut →
    failure c.result.value ∧ c.later.fnSockGetLastError = .wsaetimedout

variable {side : Side α β ρ ω}

theorem lastError_of_run_quiet {s t : State α ρ ω} {quiet : List (Input β ρ)}
    (hquiet : ∀ input ∈ quiet, input.isSocketCall = false)
    (hrun : (machine side).run s quiet = some t) :
    t.lastError = s.lastError := by
  induction quiet generalizing s with
  | nil =>
    cases hrun
    rfl
  | cons input rest ih =>
    obtain ⟨hinput, hrest⟩ := List.forall_mem_cons.mp hquiet
    simp only [Machine.run] at hrun
    split at hrun
    · rename_i u hstep
      rw [ih hrest hrun]
      cases Action.of_step hstep with
      | dropped | added | ticked => rfl
      | _ => cases hinput
    · cases hrun

theorem ReturnedCall.of_timesOut (c : ReturnedCall side)
    (hstatus : side.status (side.failed .unsuccessful) = .unsuccessful) :
    c.TimesOut → c.result.value = side.failed .unsuccessful ∧
      c.later.fnSockGetLastError = .wsaeinval := by
  obtain ⟨_, _, _, _, _, -, hstep, hreturns, hquiet,
    hrun⟩ := c
  rintro ⟨-, helapsed⟩
  have hlater := lastError_of_run_quiet hquiet hrun
  simp only [State.fnSockGetLastError, hlater]
  cases Action.of_step hstep with
  | found =>
    cases List.append_cancel_left hreturns
    exact helapsed.elim
  | waits | woken => simp at hreturns
  | returned =>
    cases List.append_cancel_left hreturns
    simp [State.reply, Return.value, hstatus, NtStatus.ntSuccess,
      ntStatusToSocketError]

theorem ReturnedCall.reports_iff (c : ReturnedCall side)
    (hstatus : side.status (side.failed .unsuccessful) = .unsuccessful)
    (failure : ω → Prop) : c.Reports failure ↔ ¬c.TimesOut := by
  refine ⟨fun hreports htimes => ?_, fun hnot htimes => absurd htimes hnot⟩
  have herror := (hreports htimes).2
  rw [(c.of_timesOut hstatus htimes).2] at herror
  cases herror

/-- A timeout is reported as a timeout only if the call does not time out: a
receive call that times out returns `-1` and an accept call returns no handle,
and the error is `WSAEINVAL`. -/
theorem timeouts_reported_iff (recv : ReturnedCall recvSide)
    (accept : ReturnedCall acceptSide) :
    ((recv.Reports (·.bytesReceived = -1) ↔ ¬recv.TimesOut) ∧
      (recv.TimesOut → recv.result.value.bytesReceived = -1 ∧
        recv.later.fnSockGetLastError = .wsaeinval)) ∧
    (accept.Reports (·.handle = none) ↔ ¬accept.TimesOut) ∧
      (accept.TimesOut → accept.result.value.handle = none ∧
        accept.later.fnSockGetLastError = .wsaeinval) := by
  refine ⟨⟨recv.reports_iff rfl _, fun htimes => ?_⟩,
    accept.reports_iff rfl _, fun htimes => ?_⟩
  · obtain ⟨hvalue, herror⟩ := recv.of_timesOut rfl htimes
    exact ⟨by rw [hvalue]; rfl, herror⟩
  · obtain ⟨hvalue, herror⟩ := accept.of_timesOut rfl htimes
    exact ⟨by rw [hvalue]; rfl, herror⟩

/-! ## A call with a timeout of one millisecond -/

theorem run_tick (side : Side α β ρ ω) (s : State α ρ ω) (n : ℕ) :
    (machine side).run s (List.replicate n .tick) =
      some { s with now := s.now + n } := by
  induction n generalizing s with
  | zero => rfl
  | succ n ih =>
    rw [List.replicate_succ]
    refine (ih { s with now := s.now + 1 }).trans ?_
    simp only [Nat.add_assoc, Nat.add_comm 1 n]

def oneMillisecond (call : Call ρ) (now : ℕ) : State α ρ ω where
  queue := { items := [], event := false }
  receiveTimeout := 1
  lastError := .success
  now := now
  arrived := 0
  call := some call
  returns := []

theorem reachable_oneMillisecond (side : Side α β ρ ω) (request : ρ) :
    (machine side).Reachable
      (oneMillisecond (.rechecking request ⟨1, 0, 0⟩) 10000) := by
  have hwaiting : (machine side).run (machine side).init
      [.setSockOpt 4 (some 1), .call request, .advance] =
        some (oneMillisecond (.waiting request ⟨1, 0, 0⟩) 0) := rfl
  have helapsed := (Machine.reachable_of_run hwaiting).of_run
    (fun _ _ => trivial) (run_tick side _ 10000)
  refine helapsed.step trivial (a := .advance) ?_
  simp [machine, step, oneMillisecond, advance, waitForEvent,
    wskclientInfinite, NtStatus.ntSuccess]

def timedOutCall (side : Side α β ρ ω) (request : ρ) : ReturnedCall side where
  before := oneMillisecond (.rechecking request ⟨1, 0, 0⟩) 10000
  after := (oneMillisecond (.rechecking request ⟨1, 0, 0⟩) 10000).reply side
    (.empty (side.failed .unsuccessful) 1 10000 0)
  later := (oneMillisecond (.rechecking request ⟨1, 0, 0⟩) 10000).reply side
    (.empty (side.failed .unsuccessful) 1 10000 0)
  result := .empty (side.failed .unsuccessful) 1 10000 0
  quiet := []
  reachable := reachable_oneMillisecond side request
  step_eq := rfl
  returns_eq := rfl
  noSocketCall := by simp
  run_eq := rfl

theorem timeout_reported_as_invalid :
    (∃ recv : ReturnedCall recvSide, recv.TimesOut ∧
      recv.result.value.bytesReceived = -1 ∧
      recv.later.fnSockGetLastError = .wsaeinval ∧
      ¬recv.Reports (·.bytesReceived = -1)) ∧
    ∃ accept : ReturnedCall acceptSide, accept.TimesOut ∧
      accept.result.value.handle = none ∧
      accept.later.fnSockGetLastError = .wsaeinval ∧
      ¬accept.Reports (·.handle = none) := by
  have hrecv : (timedOutCall recvSide (fnSockRecv 3)).TimesOut :=
    ⟨rfl, by decide, by decide, rfl⟩
  have haccept : (timedOutCall acceptSide .success).TimesOut :=
    ⟨rfl, by decide, by decide, rfl⟩
  refine ⟨⟨_, hrecv, rfl, rfl, fun h => ?_⟩, _, haccept, rfl, rfl, fun h => ?_⟩
  · cases (h hrecv).2
  · cases (h haccept).2

end WinNetTest.Sock.EventQueue
