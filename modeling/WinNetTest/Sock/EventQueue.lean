import WinNetTest.Sock.Recv

/-!
# Waiting for data and for connections

`FnSockRecvMsg` and `FnSockAccept` take the first item off a list that the
callbacks of WSK fill.  Each list has a lock and a notification event that is
set whenever an item is added.  A call that finds the list empty waits for the
event, for at most the receive timeout of the socket, and looks at the list
once more.

The model follows one list and its one consumer, who makes one call at a time
and changes the timeout between calls.  Time is counted in units of 100
nanoseconds.  It is the same model for both lists.
-/

namespace WinNetTest.Sock.EventQueue

open Support

variable {α β ρ ω : Type*}

/-! ## The list and its event -/

/-- A list of a socket and the event of that list. -/
structure Queue (α : Type*) where
  items : List α
  event : Bool

/-- `InsertTailList` and `KeSetEvent`, under the lock of the list. -/
def Queue.insert (queue : Queue α) (item : α) : Queue α where
  items := queue.items ++ [item]
  event := true

/-- A list of a socket: the item that a callback adds for an arrival, if it does
not drop it; what a call returns for the item it has taken, and without one;
and the status in what it returns. -/
structure Side (α β ρ ω : Type*) where
  item : β → Option α
  result : ρ → α → ω
  failed : NtStatus → ω
  status : ω → NtStatus

/-- A wait: the receive timeout it was begun with, and the time and the number
of items added until then. -/
structure Wait where
  timeout : UInt32
  since : ℕ
  arrived : ℕ
  deriving DecidableEq

/-- `KeWaitForSingleObject` on the event; `none` while the call waits. -/
def waitForEvent (event : Bool) (now : ℕ) (wait : Wait) : Option NtStatus :=
  if event then some .success
  else if wait.timeout = wskclientInfinite then none
  else if wait.since + wait.timeout.toNat * 10000 ≤ now then some .timeout
  else none

/-- The call of the consumer: before its first look at the list, waiting, and
before its second look. -/
inductive Call (ρ : Type*) where
  | looking (request : ρ)
  | waiting (request : ρ) (wait : Wait)
  | rechecking (request : ρ) (wait : Wait)
  deriving DecidableEq

/-- How a call has returned: with an item, or without one after it has waited
with the given timeout for the given time, in which the given number of items
have been added. -/
inductive Return (ω : Type*) where
  | item (value : ω)
  | empty (value : ω) (timeout : UInt32) (elapsed arrived : ℕ)
  deriving DecidableEq

def Return.value : Return ω → ω
  | item value => value
  | empty value _ _ _ => value

/-- The list, the receive timeout, `FnSockSocketLastError`, the time, the call
of the consumer and, as a record, the number of items that have been added and
how the calls have returned. -/
structure State (α ρ ω : Type*) where
  queue : Queue α
  receiveTimeout : UInt32
  lastError : NtStatus
  now : ℕ
  arrived : ℕ
  call : Option (Call ρ)
  returns : List (Return ω)

/-- What happens: an arrival, the passing of time, `FnSockSetSockOpt` for
`SO_RCVTIMEO` with the length and the value of the option, a call, and the next
action of the call under way. -/
inductive Input (β ρ : Type*) where
  | arrive (arrival : β)
  | tick
  | setSockOpt (optionLength : ℕ) (optionValue : Option UInt32)
  | call (request : ρ)
  | advance

/-- `FnSockSetSockOpt` for `SO_RCVTIMEO`. -/
def fnSockSetSockOpt (s : State α ρ ω) (optionLength : ℕ)
    (optionValue : Option UInt32) : State α ρ ω :=
  let refused := { s with lastError := .invalidParameter }
  if optionLength < 4 then refused
  else
    match optionValue with
    | none => refused
    | some value =>
      if value = 0xffffffff then refused
      else { s with receiveTimeout := value }

def State.reply (side : Side α β ρ ω) (s : State α ρ ω) (result : Return ω) :
    State α ρ ω :=
  { s with
    call := none
    lastError :=
      if (side.status result.value).ntSuccess then s.lastError
      else side.status result.value
    returns := s.returns ++ [result] }

def State.take (side : Side α β ρ ω) (s : State α ρ ω) (request : ρ) (item : α)
    (rest : List α) : State α ρ ω :=
  ({ s with queue := { s.queue with items := rest } }).reply side
    (.item (side.result request item))

def advance (side : Side α β ρ ω) (s : State α ρ ω) :
    Call ρ → Option (State α ρ ω)
  | .looking request =>
    match s.queue.items with
    | [] =>
      some { s with
        call := some (.waiting request
          { timeout := s.receiveTimeout
            since := s.now
            arrived := s.arrived }) }
    | item :: rest => some (s.take side request item rest)
  | .waiting request wait =>
    (waitForEvent s.queue.event s.now wait).map fun status =>
      if status.ntSuccess then
        { s with call := some (.rechecking request wait) }
      else
        s.reply side (.empty (side.failed status) wait.timeout
          (s.now - wait.since) (s.arrived - wait.arrived))
  | .rechecking request wait =>
    match s.queue.items with
    | [] =>
      some (s.reply side (.empty (side.failed .unsuccessful) wait.timeout
        (s.now - wait.since) (s.arrived - wait.arrived)))
    | item :: rest => some (s.take side request item rest)

def step (side : Side α β ρ ω) (s : State α ρ ω) :
    Input β ρ → Option (State α ρ ω)
  | .arrive arrival =>
    match side.item arrival with
    | none => some s
    | some item =>
      some { s with
        queue := s.queue.insert item
        arrived := s.arrived + 1 }
  | .tick => some { s with now := s.now + 1 }
  | .setSockOpt optionLength optionValue =>
    match s.call with
    | none => some (fnSockSetSockOpt s optionLength optionValue)
    | some _ => none
  | .call request =>
    match s.call with
    | none => some { s with call := some (.looking request) }
    | some _ => none
  | .advance => s.call.bind (advance side s)

/-- The runs of one list and its consumer, from `InitializeBinding` on. -/
def machine (side : Side α β ρ ω) : Machine (State α ρ ω) (Input β ρ) where
  init :=
    { queue := { items := [], event := false }
      receiveTimeout := initializeBinding.receiveTimeout
      lastError := .success
      now := 0
      arrived := 0
      call := none
      returns := [] }
  step := step side

/-! ## Received data -/

/-- The record that `QueueRecvData` adds to an empty list. -/
def recvItem (arrival : Arrival × List UInt8) : Option RecvData :=
  (queueRecvData initializeBinding arrival.1 arrival.2).recvDataList.head?

/-- `RecvDataList`, with `QueueRecvData` and `FnSockRecvMsg`. -/
def recvSide : Side RecvData (Arrival × List UInt8) RecvRequest RecvReturn where
  item := recvItem
  result := returnRecvData
  failed := RecvReturn.failed
  status := RecvReturn.status

/-! ## Incoming connections -/

/-- A connection that WSK indicates: the socket it has created, and what the
two allocations of the callback answer. -/
structure Connection where
  acceptSocket : ℕ
  bindingAllocated : Bool
  contextAllocated : Bool
  deriving DecidableEq

/-- `FNSOCK_SOCKET_ACCEPT_CONTEXT`: the socket and its new binding. -/
structure AcceptContext where
  socket : ℕ
  binding : Binding
  deriving DecidableEq

/-- `FnSockStreamSocketAccept`: its status, and the context it adds to the
list. -/
def fnSockStreamSocketAccept (connection : Connection) :
    NtStatus × Option AcceptContext :=
  if !connection.bindingAllocated then (.unsuccessful, none)
  else if !connection.contextAllocated then (.unsuccessful, none)
  else
    (.success, some
      { socket := connection.acceptSocket
        binding := initializeBinding })

/-- What `FnSockAccept` ends with: its status, the handle it returns, and the
binding it closes. -/
structure AcceptReturn where
  status : NtStatus
  handle : Option AcceptContext
  closed : Option AcceptContext
  deriving DecidableEq

/-- The end of `FnSockAccept`, with what `WskEnableCallbacks` answers and the
context taken off the list. -/
def returnAccepted (enableCallbacks : NtStatus) (context : AcceptContext) :
    AcceptReturn :=
  if enableCallbacks.ntSuccess then
    { status := .success
      handle := some context
      closed := none }
  else
    { status := enableCallbacks
      handle := none
      closed := some context }

def AcceptReturn.failed (status : NtStatus) : AcceptReturn where
  status := status
  handle := none
  closed := none

/-- `AcceptList`, with `FnSockStreamSocketAccept` and `FnSockAccept`. -/
def acceptSide : Side AcceptContext Connection NtStatus AcceptReturn where
  item := fun connection => (fnSockStreamSocketAccept connection).2
  result := returnAccepted
  failed := AcceptReturn.failed
  status := AcceptReturn.status

/-! ## What a step does -/

inductive Action (side : Side α β ρ ω) (s : State α ρ ω) :
    Input β ρ → State α ρ ω → Prop
  | dropped {arrival : β} : Action side s (.arrive arrival) s
  | added {arrival : β} {item : α} : Action side s (.arrive arrival)
        { s with
          queue := s.queue.insert item
          arrived := s.arrived + 1 }
  | ticked : Action side s .tick { s with now := s.now + 1 }
  | configured {optionLength : ℕ} {optionValue : Option UInt32}
      (timeout : UInt32) (error : NtStatus) (hcall : s.call = none) :
      Action side s (.setSockOpt optionLength optionValue)
        { s with
          receiveTimeout := timeout
          lastError := error }
  | called {request : ρ} (hcall : s.call = none) :
      Action side s (.call request) { s with call := some (.looking request) }
  | found {request : ρ} {item : α} {rest : List α} {call : Call ρ}
      (hcall : s.call = some call)
      (hrequest : call = .looking request ∨
      ∃ wait, call = .rechecking request wait)
      (hitems : s.queue.items = item :: rest) :
      Action side s .advance (s.take side request item rest)
  | waits {request : ρ} (hcall : s.call = some (.looking request))
      (hitems : s.queue.items = []) :
      Action side s .advance
        { s with
          call := some (.waiting request
            { timeout := s.receiveTimeout
              since := s.now
              arrived := s.arrived }) }
  | woken {request : ρ} {wait : Wait} {status : NtStatus}
      (hcall : s.call = some (.waiting request wait))
      (hstatus : waitForEvent s.queue.event s.now wait = some status) :
      Action side s .advance { s with call := some (.rechecking request wait) }
  | returned {request : ρ} {wait : Wait}
      (hcall : s.call = some (.rechecking request wait))
      (hitems : s.queue.items = []) :
      Action side s .advance
        (s.reply side (.empty (side.failed .unsuccessful) wait.timeout
          (s.now - wait.since) (s.arrived - wait.arrived)))

theorem ntSuccess_of_waitForEvent {event : Bool} {now : ℕ} {wait : Wait}
    {status : NtStatus} (h : waitForEvent event now wait = some status) :
    status.ntSuccess = true := by
  unfold waitForEvent at h
  split_ifs at h
  · cases h
    rfl
  · cases h
    rfl

theorem exists_fnSockSetSockOpt (s : State α ρ ω) (optionLength : ℕ)
    (optionValue : Option UInt32) :
    ∃ timeout error, fnSockSetSockOpt s optionLength optionValue = { s with
        receiveTimeout := timeout
        lastError := error } := by
  unfold fnSockSetSockOpt
  dsimp only
  split_ifs
  · exact ⟨_, _, rfl⟩
  · cases optionValue with
    | none => exact ⟨_, _, rfl⟩
    | some value =>
      dsimp only
      split_ifs
      · exact ⟨_, _, rfl⟩
      · exact ⟨_, _, rfl⟩

variable {side : Side α β ρ ω} {s t : State α ρ ω}

theorem Action.of_advance {call : Call ρ} (hcall : s.call = some call)
    (h : advance side s call = some t) : Action side s .advance t := by
  cases call with
  | looking request =>
    simp only [advance] at h
    split at h
    · rename_i hitems
      cases h
      exact .waits hcall hitems
    · rename_i item rest hitems
      cases h
      exact .found hcall (Or.inl rfl) hitems
  | waiting request wait =>
    obtain ⟨_, hstatus, h⟩ := Option.map_eq_some_iff.mp h
    rw [if_pos (ntSuccess_of_waitForEvent hstatus)] at h
    cases h
    exact .woken hcall hstatus
  | rechecking request wait =>
    simp only [advance] at h
    split at h
    · rename_i hitems
      cases h
      exact .returned hcall hitems
    · rename_i item rest hitems
      cases h
      exact .found hcall (Or.inr ⟨wait, rfl⟩) hitems

theorem Action.of_step {input : Input β ρ} (h : step side s input = some t) :
    Action side s input t := by
  cases input with
  | arrive arrival =>
    simp only [step] at h
    split at h
    · cases h
      exact .dropped
    · cases h
      exact .added
  | tick =>
    cases h
    exact .ticked
  | setSockOpt optionLength optionValue =>
    simp only [step] at h
    split at h
    · rename_i hcall
      obtain ⟨timeout, error, hset⟩ :=
        exists_fnSockSetSockOpt s optionLength optionValue
      rw [hset] at h
      cases h
      exact .configured timeout error hcall
    · cases h
  | call request =>
    simp only [step] at h
    split at h
    · rename_i hcall
      cases h
      exact .called hcall
    · cases h
  | advance =>
    obtain ⟨call, hcall, h⟩ := Option.bind_eq_some_iff.mp h
    exact .of_advance hcall h

end WinNetTest.Sock.EventQueue
