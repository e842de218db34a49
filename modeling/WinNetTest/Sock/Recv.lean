import WinNetTest.Status
import WinNetTest.Support.Interleaving

/-!
# Receives on a kernel stream socket

The kernel sockets of `sock.c` buffer what WSK indicates in a list and give it
to the receive calls from there.  The model executes one connected stream
socket, one section under the lock of the list at a time: an indication queues
its buffers one after the other and acknowledges them when it returns; a
receive call looks at the list, waits for the event if the list is empty, and
looks again.

Whether an MDL can be mapped and the pool has memory is part of an indication.
WSK makes one indication at a time on a socket, and the number of bytes it
indicates is the length of all its buffers.
-/

namespace WinNetTest.Sock

open Support

/-! ## Buffers -/

/-- A `WSK_BUF`: a chain of MDLs, the offset of the data in the first of them,
and the length of the data. -/
structure WskBuf where
  mdls : List (List UInt8)
  offset : ℕ
  length : ℕ
  byteCount_lt : ∀ mdl ∈ mdls, mdl.length < 2 ^ 32
  offset_le : offset ≤ (mdls.headD []).length
  fits : offset + length ≤ mdls.flatten.length

def WskBuf.bytes (buffer : WskBuf) : List UInt8 :=
  (buffer.mdls.flatten.drop buffer.offset).take buffer.length

/-- A buffer of an indication, with what the mapping of its MDL and the
allocation of a copy answer. -/
structure Arrival where
  buffer : WskBuf
  mapped : Bool
  allocated : Bool

/-- The list of a `WskReceiveEvent`, and `BytesIndicated`. -/
structure Indication where
  arrivals : List Arrival
  bytesIndicated : ℕ
  total : bytesIndicated =
    (arrivals.map fun arrival => arrival.buffer.length).sum

def arrivedBytes (arrivals : List Arrival) : List UInt8 :=
  arrivals.flatMap fun arrival => arrival.buffer.bytes

/-! ## The socket -/

/-- `FNSOCK_SOCKET_RECV_DATA`: whether `MSG_CTRUNC` is in the flags, the control
data, and the data with the length recorded for it. -/
structure RecvData where
  ctrunc : Bool
  controlData : List UInt8
  dataLength : ℕ
  data : List UInt8
  deriving DecidableEq

/-- The receive side of a socket: the timeout in milliseconds, the buffered
data, and the event, which is never reset. -/
structure Binding where
  receiveTimeout : UInt32
  recvDataList : List RecvData
  recvEvent : Bool
  deriving DecidableEq

def wskclientInfinite : UInt32 := 0xffffffff

def initializeBinding : Binding where
  receiveTimeout := wskclientInfinite
  recvDataList := []
  recvEvent := false

def sizeofControlData : ℕ := 128

/-- The copying loop of `QueueRecvData`.  The mapped address is that of the
first MDL throughout. -/
def copyMdls (va : List UInt8) (dataLength : ℕ) :
    List (List UInt8) → ℕ → List UInt8 → List UInt8
  | [], _, copied => copied
  | mdl :: rest, mdlOffset, copied =>
    if copied.length < dataLength then
      copyMdls va dataLength rest 0
        (copied ++ (va.drop mdlOffset).take
          (min (mdl.length - mdlOffset) (dataLength - copied.length)))
    else copied

/-- The record `QueueRecvData` fills: the pool memory is zeroed first. -/
def recvDataOf (va : List UInt8) (buffer : WskBuf)
    (controlBuffer : List UInt8) : RecvData :=
  let copied := copyMdls va buffer.length buffer.mdls buffer.offset []
  { ctrunc := sizeofControlData < controlBuffer.length
    controlData := controlBuffer.take sizeofControlData
    dataLength := buffer.length % 2 ^ 32
    data := copied ++ List.replicate (buffer.length - copied.length) 0 }

def queueRecvData (binding : Binding) (arrival : Arrival)
    (controlBuffer : List UInt8) : Binding :=
  match arrival.buffer.mdls with
  | [] => binding
  | mdl :: _ =>
    if arrival.buffer.length = 0 then binding
    else if mdl.length - arrival.buffer.offset < arrival.buffer.length then
      binding
    else if !arrival.mapped then binding
    else if !arrival.allocated then binding
    else
      { binding with
        recvDataList := binding.recvDataList ++
          [recvDataOf mdl arrival.buffer controlBuffer]
        recvEvent := true }

/-- `KeWaitForSingleObject` on the event of the list: `none` while the call
waits. -/
def waitForRecvEvent (binding : Binding) : Option NtStatus :=
  if binding.recvEvent then some .success
  else if binding.receiveTimeout = wskclientInfinite then none
  else some .timeout

structure RecvRequest where
  bufferLength : ℕ
  controlBufferLength : ℕ
  deriving DecidableEq

/-- `FnSockRecv` is `FnSockRecvMsg` without a control buffer. -/
def fnSockRecv (bufferLength : ℕ) : RecvRequest where
  bufferLength := bufferLength
  controlBufferLength := 0

/-- How a receive call returns: its status, the value returned, the bytes
copied to the two buffers, and whether `MSG_CTRUNC` is in the flags. -/
structure RecvReturn where
  status : NtStatus
  bytesReceived : ℤ
  buffer : List UInt8
  control : List UInt8
  ctrunc : Bool
  deriving DecidableEq

def RecvReturn.failed (status : NtStatus) : RecvReturn where
  status := status
  bytesReceived := -1
  buffer := []
  control := []
  ctrunc := false

/-- The end of `FnSockRecvMsg`, with the record it has taken off the list. -/
def returnRecvData (request : RecvRequest) (recvData : RecvData) : RecvReturn :=
  let fits := decide (recvData.dataLength ≤ request.bufferLength)
  let complete :=
    decide (recvData.controlData.length ≤ request.controlBufferLength)
  { status := if fits then .success else .bufferOverflow
    bytesReceived := if fits then recvData.dataLength else -1
    buffer := recvData.data.take
      (min recvData.dataLength request.bufferLength)
    control := recvData.controlData.take request.controlBufferLength
    ctrunc := recvData.ctrunc || !complete }

/-! ## Runs -/

/-- The socket, `FnSockSocketLastError`, whether an indication is under way and,
as a record, how the receive calls have returned and which bytes have been
acknowledged to WSK. -/
structure Shared where
  binding : Binding
  lastError : NtStatus
  indicating : Option ℕ
  returns : List RecvReturn
  acknowledged : List UInt8
  deriving DecidableEq

/-- A call under way: an indication, with the buffers it has dealt with and the
others; a receive call before its first look at the list, waiting, and before
its second look. -/
inductive Call where
  | indicating (indication : Indication) (done rest : List Arrival)
  | receiving (request : RecvRequest)
  | waiting (request : RecvRequest)
  | rechecking (request : RecvRequest)

inductive Input where
  | receiveEvent (indication : Indication)
  | recvMsg (request : RecvRequest)

def Shared.reply (x : Shared) (result : RecvReturn) : Shared :=
  { x with
    lastError := if result.status.ntSuccess then x.lastError else result.status
    returns := x.returns ++ [result] }

def Shared.deliver (x : Shared) (request : RecvRequest) (recvData : RecvData)
    (rest : List RecvData) : Shared :=
  ({ x with binding := { x.binding with recvDataList := rest } }).reply
    (returnRecvData request recvData)

def start (x : Shared) (c : ℕ) : Input → Option (Shared × Option Call)
  | .receiveEvent indication =>
    if x.indicating.isSome then none
    else if indication.arrivals = [] then some (x, none)
    else
      some ({ x with indicating := some c },
        some (.indicating indication [] indication.arrivals))
  | .recvMsg request => some (x, some (.receiving request))

def advance (x : Shared) (_c : ℕ) : Call → Option (Shared × Option Call)
  | .indicating indication done (arrival :: rest) =>
    some ({ x with binding := queueRecvData x.binding arrival [] },
      some (.indicating indication (done ++ [arrival]) rest))
  | .indicating indication _ [] =>
    some
      ({ x with
          indicating := none
          acknowledged := x.acknowledged ++
            (arrivedBytes indication.arrivals).take
              indication.bytesIndicated }, none)
  | .receiving request =>
    match x.binding.recvDataList with
    | [] => some (x, some (.waiting request))
    | recvData :: rest => some (x.deliver request recvData rest, none)
  | .waiting request =>
    (waitForRecvEvent x.binding).map fun status =>
      if status.ntSuccess then (x, some (.rechecking request))
      else (x.reply (.failed status), none)
  | .rechecking request =>
    match x.binding.recvDataList with
    | [] => some (x.reply (.failed .unsuccessful), none)
    | recvData :: rest => some (x.deliver request recvData rest, none)

def program (receiveTimeout : UInt32) : Program Shared Call Input where
  init :=
    { binding := { initializeBinding with receiveTimeout := receiveTimeout }
      lastError := .success
      indicating := none
      returns := []
      acknowledged := [] }
  start := start
  advance := advance

def machine (receiveTimeout : UInt32) :
    Machine (Pool Shared Call) (Move Input) :=
  (program receiveTimeout).machine

/-! ## What an action does -/

def Call.isReceive : Call → Bool
  | .indicating _ _ _ => false
  | _ => true

inductive Action (x : Shared) (c : ℕ) :
    Option Call → Shared → Option Call → Prop
  | looked {before after : Option Call}
      (hbefore : ∀ call, before = some call → call.isReceive = true)
      (hafter : ∀ call, after = some call → call.isReceive = true) :
      Action x c before x after
  | begins {indication : Indication} (hidle : x.indicating = none) :
      Action x c none { x with indicating := some c }
        (some (.indicating indication [] indication.arrivals))
  | queued {indication : Indication} {done rest : List Arrival}
      {arrival : Arrival} :
      Action x c (some (.indicating indication done (arrival :: rest)))
        { x with binding := queueRecvData x.binding arrival [] }
        (some (.indicating indication (done ++ [arrival]) rest))
  | acknowledged {indication : Indication} {done : List Arrival} :
      Action x c (some (.indicating indication done []))
        { x with
          indicating := none
          acknowledged := x.acknowledged ++
            (arrivedBytes indication.arrivals).take
              indication.bytesIndicated }
        none
  | delivered {call : Call} {request : RecvRequest} {recvData : RecvData}
      {rest : List RecvData}
      (hcall : call = .receiving request ∨ call = .rechecking request)
      (hlist : x.binding.recvDataList = recvData :: rest) :
      Action x c (some call) (x.deliver request recvData rest) none
  | failed {call : Call} {status : NtStatus} (hcall : call.isReceive = true)
      (hstatus : status.ntSuccess = false) :
      Action x c (some call) (x.reply (.failed status)) none

variable {x y : Shared} {after : Option Call}

theorem Action.of_start {c : ℕ} {input : Input}
    (h : start x c input = some (y, after)) : Action x c none y after := by
  cases input with
  | receiveEvent indication =>
    obtain ⟨hidle, h⟩ := Option.ite_none_left_eq_some.mp h
    split at h
    · cases h
      exact .looked (by simp) (by simp)
    · cases h
      exact .begins (by simpa using hidle)
  | recvMsg request =>
    cases h
    exact .looked (by simp) (by simp [Call.isReceive])

theorem Action.of_advance {c : ℕ} {call : Call}
    (h : advance x c call = some (y, after)) :
    Action x c (some call) y after := by
  cases call with
  | indicating indication done rest =>
    cases rest with
    | nil =>
      cases h
      exact .acknowledged
    | cons arrival rest =>
      cases h
      exact .queued
  | receiving request =>
    simp only [advance] at h
    split at h
    · cases h
      exact .looked (by simp [Call.isReceive]) (by simp [Call.isReceive])
    · rename_i hlist
      cases h
      exact .delivered (Or.inl rfl) hlist
  | waiting request =>
    obtain ⟨_, -, h⟩ := Option.map_eq_some_iff.mp h
    split at h
    · cases h
      exact .looked (by simp [Call.isReceive]) (by simp [Call.isReceive])
    · rename_i hstatus
      cases h
      exact .failed rfl (by simpa using hstatus)
  | rechecking request =>
    simp only [advance] at h
    split at h
    · cases h
      exact .failed rfl rfl
    · rename_i hlist
      cases h
      exact .delivered (Or.inr rfl) hlist

theorem Action.of_turn {receiveTimeout : UInt32} {s : Pool Shared Call}
    {c n : ℕ} {before : Option Call}
    (h : (program receiveTimeout).Turn s c before n y after) :
    Action s.shared c before y after := by
  cases h with
  | start hc hstart => exact .of_start hstart
  | advance hc hadvance => exact .of_advance hadvance

end WinNetTest.Sock
