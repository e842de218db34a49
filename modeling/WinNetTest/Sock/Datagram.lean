import WinNetTest.Sock.Stream

/-!
# The messages of a kernel datagram socket

`FnSockDatagramSocketReceive` queues each datagram of an indication as one
record, and `FnSockRecvMsg` returns one record.  Data may be cut off once, by
the buffer of the call, and control data twice: by the array of the record and
by the buffer of the call.  The receive calls are those of the stream socket;
any number of calls and indications run at a time.
-/

namespace WinNetTest.Sock

open Support

/-! ## The last error -/

/-- The codes `NtStatusToSocketError` gives for the modelled statuses. -/
inductive SocketError where
  | noError
  | errorIoPending
  | wsaeintr
  | wsaefault
  | wsaeinval
  | wsaewouldblock
  | wsaemsgsize
  | wsaeopnotsupp
  | wsaenobufs
  | wsaetimedout
  deriving DecidableEq

def ntStatusToSocketError : NtStatus → SocketError
  | .pending => .errorIoPending
  | .insufficientResources | .noMemory => .wsaenobufs
  | .timeout => .wsaetimedout
  | .cancelled => .wsaeintr
  | .bufferOverflow => .wsaemsgsize
  | .bufferTooSmall | .accessViolation => .wsaefault
  | .deviceNotReady => .wsaewouldblock
  | .notSupported => .wsaeopnotsupp
  | .success => .noError
  | _ => .wsaeinval

def Shared.fnSockGetLastError (x : Shared) : SocketError :=
  ntStatusToSocketError x.lastError

def lastFailed (returns : List RecvReturn) : Option RecvReturn :=
  (returns.filter fun result => !result.status.ntSuccess).getLast?

/-- `FnSockSocketLastError` is the status of the last call that has failed. -/
def Shared.LastErrorRight (x : Shared) : Prop :=
  x.lastError = (lastFailed x.returns).elim .success RecvReturn.status

theorem Shared.LastErrorRight.reply {x : Shared} (h : x.LastErrorRight)
    (result : RecvReturn) : (x.reply result).LastErrorRight := by
  unfold LastErrorRight lastFailed at *
  by_cases hsuccess : result.status.ntSuccess = true
  · simp [Shared.reply, hsuccess, h]
  · simp [Shared.reply, hsuccess]

namespace Datagram

/-! ## The socket -/

/-- A `WSK_DATAGRAM_INDICATION`: a buffer and its control data. -/
structure Indication where
  arrival : Arrival
  controlInfo : List UInt8

/-- The socket and, as a record, the datagrams that have been queued and the
requests of the receive calls that have returned. -/
structure Shared where
  socket : Sock.Shared
  indicated : List Indication
  requests : List RecvRequest

inductive Call where
  | datagramReceive (rest : List Indication)
  | recvMsg (request : RecvRequest) (call : Sock.Call)

inductive Input where
  | datagramReceive (indications : List Indication)
  | recvMsg (request : RecvRequest)

/-- One round of the loop of `FnSockDatagramSocketReceive`. -/
def Shared.queue (x : Shared) (datagram : Indication) : Shared :=
  { x with
    socket := { x.socket with
      binding := queueRecvData x.socket.binding datagram.arrival
        datagram.controlInfo }
    indicated := x.indicated ++ [datagram] }

def Shared.recvMsg (x : Shared) (request : RecvRequest) :
    Sock.Shared × Option Sock.Call → Shared × Option Call
  | (socket, none) =>
    ({ x with
        socket := socket
        requests := x.requests ++ [request] }, none)
  | (socket, some call) =>
    ({ x with socket := socket }, some (.recvMsg request call))

def start (x : Shared) (c : ℕ) : Input → Option (Shared × Option Call)
  | .datagramReceive indications =>
    some (x, some (.datagramReceive indications))
  | .recvMsg request =>
    (Sock.start x.socket c (.recvMsg request)).map (x.recvMsg request)

def advance (x : Shared) (c : ℕ) : Call → Option (Shared × Option Call)
  | .datagramReceive [] => some (x, none)
  | .datagramReceive (datagram :: rest) =>
    some (x.queue datagram, some (.datagramReceive rest))
  | .recvMsg request call =>
    (Sock.advance x.socket c call).map (x.recvMsg request)

def program (receiveTimeout : UInt32) : Program Shared Call Input where
  init :=
    { socket := (Sock.program receiveTimeout).init
      indicated := []
      requests := [] }
  start := start
  advance := advance

def machine (receiveTimeout : UInt32) :
    Machine (Pool Shared Call) (Move Input) :=
  (program receiveTimeout).machine

/-- The receive calls that have succeeded or have returned a truncated datagram,
in the order in which they have taken the datagrams. -/
def Shared.deliveries (x : Shared) : List (RecvRequest × RecvReturn) :=
  (x.requests.zip x.socket.returns).filter fun delivery =>
    delivery.2.status = .success ∨ delivery.2.status = .bufferOverflow

/-! ## A datagram and its record -/

/-- The data of a datagram is not empty and in the first MDL, which can be
mapped, and the pool has memory for a copy. -/
def Indication.Whole (datagram : Indication) : Prop :=
  datagram.arrival.buffer.length ≠ 0 ∧
    datagram.arrival.buffer.offset + datagram.arrival.buffer.length ≤
      (datagram.arrival.buffer.mdls.headD []).length ∧
    datagram.arrival.mapped = true ∧ datagram.arrival.allocated = true

instance (datagram : Indication) : Decidable datagram.Whole :=
  inferInstanceAs (Decidable (_ ∧ _))

def QueuesWhole (_x : Shared) (_c : ℕ) : Call → Prop
  | .datagramReceive rest => ∀ datagram ∈ rest.head?, datagram.Whole
  | .recvMsg _ _ => True

instance (x : Shared) (c : ℕ) (call : Call) :
    Decidable (QueuesWhole x c call) := by
  cases call <;> unfold QueuesWhole <;> infer_instance

def Indication.record (datagram : Indication) : RecvData :=
  recvDataOf (datagram.arrival.buffer.mdls.headD []) datagram.arrival.buffer
    datagram.controlInfo

/-- The value `FnSockRecvMsg` leaves in `*ControlBufferLength`, the number of
bytes that it copies from `RecvData->ControlData`. -/
def controlBytesRead (request : RecvRequest) (recvData : RecvData) : ℕ :=
  if recvData.controlData.length ≤ request.controlBufferLength then
    recvData.controlData.length
  else request.controlBufferLength

/-- The array `RecvData->ControlData`, which is zeroed before it is filled. -/
def controlArray (recvData : RecvData) : List UInt8 :=
  recvData.controlData ++
    List.replicate (sizeofControlData - recvData.controlData.length) 0

/-- A receive call returns a datagram: its length and bytes if they fit, and
otherwise the bytes that do and the status for which `FnSockGetLastError` gives
`WSAEMSGSIZE`; and the control data that fits into the array of the record and
into the buffer of the call. -/
structure Delivered (datagram : Indication) (request : RecvRequest)
    (result : RecvReturn) : Prop where
  fits : datagram.arrival.buffer.length ≤ request.bufferLength →
    result.status = .success ∧
      result.bytesReceived = datagram.arrival.buffer.length ∧
      result.buffer = datagram.arrival.buffer.bytes
  truncated : request.bufferLength < datagram.arrival.buffer.length →
    result.status = .bufferOverflow ∧ result.bytesReceived = -1 ∧
      result.buffer = datagram.arrival.buffer.bytes.take request.bufferLength
  control : result.control = datagram.controlInfo.take
    (min datagram.controlInfo.length (min 128 request.controlBufferLength))
  ctrunc : result.ctrunc = true ↔
    result.control.length < datagram.controlInfo.length
  read : result.control = (controlArray datagram.record).take
      (controlBytesRead request datagram.record)
  inside : controlBytesRead request datagram.record ≤ 128 ∧
    (controlArray datagram.record).length = 128

variable {datagram : Indication}

theorem Indication.Whole.mdls (h : datagram.Whole) :
    ∃ mdl rest, datagram.arrival.buffer.mdls = mdl :: rest ∧
      datagram.arrival.buffer.offset + datagram.arrival.buffer.length ≤
        mdl.length := by
  obtain ⟨hlength, hcontiguous, -, -⟩ := h
  cases hmdls : datagram.arrival.buffer.mdls with
  | nil =>
    rw [hmdls] at hcontiguous
    exact absurd (Nat.le_zero.mp ((Nat.le_add_left _ _).trans hcontiguous))
      hlength
  | cons mdl rest => exact ⟨mdl, rest, rfl, by simpa [hmdls] using hcontiguous⟩

theorem queueRecvData_of_whole (h : datagram.Whole) (binding : Binding) :
    (queueRecvData binding datagram.arrival datagram.controlInfo).recvDataList =
      binding.recvDataList ++ [datagram.record] := by
  obtain ⟨mdl, _, hmdls, hcontiguous⟩ := h.mdls
  obtain ⟨hlength, -, hmapped, hallocated⟩ := h
  have hnot : ¬mdl.length - datagram.arrival.buffer.offset <
      datagram.arrival.buffer.length := by omega
  simp [queueRecvData, Indication.record, hmdls, hlength, hnot, hmapped,
    hallocated]

theorem delivered_returnRecvData (h : datagram.Whole) (request : RecvRequest) :
    Delivered datagram request (returnRecvData request datagram.record) := by
  obtain ⟨mdl, _, hmdls, hcontiguous⟩ := h.mdls
  have hrecord : datagram.record =
      recvDataOf mdl datagram.arrival.buffer datagram.controlInfo := by
    simp [Indication.record, hmdls]
  obtain ⟨hdata, hdataLength⟩ :=
    recvDataOf_of_contiguous hmdls hcontiguous datagram.controlInfo
  rw [← hrecord] at hdata hdataLength
  rw [datagram.arrival.buffer.length_bytes] at hdataLength
  have hstored : datagram.record.controlData =
      datagram.controlInfo.take 128 := rfl
  have hlength : datagram.record.controlData.length =
      min 128 datagram.controlInfo.length := List.length_take
  have hcontrol : (returnRecvData request datagram.record).control =
      datagram.controlInfo.take (min datagram.controlInfo.length
        (min 128 request.controlBufferLength)) := by
    simp only [returnRecvData, hstored, List.take_take, List.take_eq_take_iff]
    omega
  have hread : controlBytesRead request datagram.record =
      min datagram.record.controlData.length request.controlBufferLength := by
    rw [controlBytesRead]
    split <;> omega
  constructor
  · intro hfits
    have hall := List.take_of_length_le
      (datagram.arrival.buffer.length_bytes.le)
    simp [returnRecvData, hdataLength, hdata, hfits, hall]
  · intro hlong
    simp [returnRecvData, hdataLength, hdata, hlong.not_ge, hlong.le]
  · exact hcontrol
  · have hctrunc : datagram.record.ctrunc = true ↔
        128 < datagram.controlInfo.length := decide_eq_true_iff
    rw [hcontrol, List.length_take]
    simp only [returnRecvData, hlength, Bool.or_eq_true, hctrunc,
      Bool.not_eq_true', decide_eq_false_iff_not]
    omega
  · rw [controlArray, List.take_append_of_le_length (by omega), hread]
    simp only [returnRecvData, List.take_eq_take_iff]
    omega
  · simp only [controlArray, sizeofControlData, List.length_append,
      List.length_replicate]
    omega

/-! ## Runs -/

/-- A position of `FnSockRecvMsg`, called with the given request. -/
def Receives (request : RecvRequest) (call : Sock.Call) : Prop :=
  call = .receiving request ∨ call = .waiting request ∨
    call = .rechecking request

theorem recvMsg_cases {x y : Sock.Shared} {c : ℕ} {request : RecvRequest}
    {call : Sock.Call} {after : Option Sock.Call}
    (hcall : Receives request call)
    (h : Sock.advance x c call = some (y, after)) :
    (y = x ∧ ∃ next, after = some next ∧ Receives request next) ∨
      (∃ recvData rest, x.binding.recvDataList = recvData :: rest ∧
        y = x.deliver request recvData rest ∧ after = none) ∨
      y = x.reply (.failed .unsuccessful) ∧ after = none := by
  rcases hcall with rfl | rfl | rfl
  · simp only [Sock.advance] at h
    split at h
    · cases h
      exact Or.inl ⟨rfl, _, rfl, Or.inr (Or.inl rfl)⟩
    · rename_i recvData rest hlist
      cases h
      exact Or.inr (Or.inl ⟨recvData, rest, hlist, rfl, rfl⟩)
  · obtain ⟨status, hstatus, h⟩ := Option.map_eq_some_iff.mp h
    have hsuccess : status.ntSuccess = true := by
      unfold waitForRecvEvent at hstatus
      split_ifs at hstatus <;> cases hstatus <;> rfl
    rw [if_pos hsuccess] at h
    cases h
    exact Or.inl ⟨rfl, _, rfl, Or.inr (Or.inr rfl)⟩
  · simp only [Sock.advance] at h
    split at h
    · cases h
      exact Or.inr (Or.inr ⟨rfl, rfl⟩)
    · rename_i recvData rest hlist
      cases h
      exact Or.inr (Or.inl ⟨recvData, rest, hlist, rfl, rfl⟩)

/-- The deliveries are those of the first datagrams, one each and in order; the
records of the other datagrams are in the list. -/
def Shared.Preserved (x : Shared) : Prop :=
  ∃ done waiting, x.indicated = done ++ waiting ∧
    List.Forall₂ (fun datagram delivery =>
      Delivered datagram delivery.1 delivery.2) done x.deliveries ∧
    x.socket.binding.recvDataList = waiting.map Indication.record ∧
    ∀ datagram ∈ waiting, datagram.Whole

structure Inv (x : Shared) : Prop where
  lastError : x.socket.LastErrorRight
  requests : x.requests.length = x.socket.returns.length
  preserved : x.Preserved

def Call.Receives : Call → Prop
  | .datagramReceive _ => True
  | .recvMsg request call => Datagram.Receives request call

variable {x : Shared}

theorem deliveries_reply (h : x.requests.length = x.socket.returns.length)
    (request : RecvRequest) (result : RecvReturn) (binding : Binding) :
    ({ x with
        socket := ({ x.socket with binding := binding }).reply result
        requests := x.requests ++ [request] } : Shared).deliveries =
      x.deliveries ++ ([(request, result)].filter fun delivery =>
        delivery.2.status = .success ∨
          delivery.2.status = .bufferOverflow) := by
  simp only [Shared.deliveries, Sock.Shared.reply, List.zip_append h,
    List.filter_append, List.zip_cons_cons, List.zip_nil_right]

theorem Inv.queue (h : Inv x) (hwhole : datagram.Whole) :
    Inv (x.queue datagram) := by
  obtain ⟨done, waiting, hindicated, hdone, hlist, hwaiting⟩ := h.preserved
  refine ⟨h.lastError, h.requests, done, waiting ++ [datagram], ?_, hdone, ?_,
    ?_⟩
  · simp [Shared.queue, hindicated]
  · simp [Shared.queue, queueRecvData_of_whole hwhole, hlist]
  · simpa [or_imp, forall_and] using ⟨hwaiting, hwhole⟩

theorem Inv.deliver (h : Inv x) (request : RecvRequest) {recvData : RecvData}
    {rest : List RecvData}
    (hlist : x.socket.binding.recvDataList = recvData :: rest) :
    Inv { x with
      socket := x.socket.deliver request recvData rest
      requests := x.requests ++ [request] } := by
  obtain ⟨done, waiting, hindicated, hdone, hrecords, hwaiting⟩ := h.preserved
  obtain ⟨datagram, waiting, rfl, rfl, rfl⟩ :=
    List.map_eq_cons_iff.mp (hrecords.symm.trans hlist)
  have hwhole := hwaiting datagram List.mem_cons_self
  have hdelivered := delivered_returnRecvData hwhole request
  refine ⟨Shared.LastErrorRight.reply h.lastError _, ?_,
    done ++ [datagram], waiting, ?_, ?_, rfl, fun d hd =>
      hwaiting d (List.mem_cons_of_mem _ hd)⟩
  · simp [Sock.Shared.deliver, Sock.Shared.reply, h.requests]
  · simp [hindicated]
  · have hstatus : (returnRecvData request datagram.record).status = .success ∨
        (returnRecvData request datagram.record).status = .bufferOverflow := by
      rcases le_or_gt datagram.arrival.buffer.length request.bufferLength with
        hfits | hlong
      · exact Or.inl (hdelivered.fits hfits).1
      · exact Or.inr (hdelivered.truncated hlong).1
    rw [Sock.Shared.deliver, deliveries_reply h.requests]
    refine List.rel_append hdone ?_
    simpa [hstatus] using hdelivered

theorem Inv.fail (h : Inv x) (request : RecvRequest) : Inv { x with
      socket := x.socket.reply (.failed .unsuccessful)
      requests := x.requests ++ [request] } := by
  obtain ⟨done, waiting, hindicated, hdone, hlist, hwaiting⟩ := h.preserved
  refine ⟨Shared.LastErrorRight.reply h.lastError _, ?_, done, waiting,
    hindicated, ?_, hlist, hwaiting⟩
  · simp [Sock.Shared.reply, h.requests]
  · have hsame := (deliveries_reply h.requests request
      (.failed .unsuccessful) x.socket.binding).trans (List.append_nil _)
    exact hsame ▸ hdone

theorem Inv.turn {receiveTimeout : UInt32} {s : Pool Shared Call} {c n : ℕ}
    {before after : Option Call} {y : Shared} (h : Inv s.shared)
    (hturn : (program receiveTimeout).Turn s c before n y after)
    (hbefore : ∀ call ∈ before, call.Receives)
    (hwhole : ∀ call ∈ before, QueuesWhole s.shared c call) :
    Inv y ∧ ∀ call ∈ after, call.Receives := by
  cases hturn with
  | @start input _ _ hc hstart =>
    cases input with
    | datagramReceive indications =>
      cases hstart
      exact ⟨h, by simp [Call.Receives]⟩
    | recvMsg request =>
      cases hstart
      exact ⟨h, by simp [Call.Receives, Receives]⟩
  | @advance call _ _ hc hadvance =>
    have hown := hbefore call rfl
    have hkept := hwhole call rfl
    cases call with
    | datagramReceive rest =>
      cases rest with
      | nil =>
        cases hadvance
        exact ⟨h, by simp⟩
      | cons datagram rest =>
        cases hadvance
        exact ⟨h.queue (hkept datagram rfl), by simp [Call.Receives]⟩
    | recvMsg request call =>
      obtain ⟨⟨_, next⟩, hsocket, hnext⟩ :=
        Option.map_eq_some_iff.mp hadvance
      rcases recvMsg_cases hown hsocket with
        ⟨rfl, next, rfl, hnext'⟩ | ⟨recvData, rest, hlist, rfl, rfl⟩ |
          ⟨rfl, rfl⟩
      · cases hnext
        exact ⟨h, by simpa [Call.Receives] using hnext'⟩
      · cases hnext
        exact ⟨h.deliver request hlist, by simp⟩
      · cases hnext
        exact ⟨h.fail request, by simp⟩

/-- A socket preserves the messages of every run in which the indicated
datagrams are whole.  While the last failure is that of a truncated datagram,
`FnSockGetLastError` gives `WSAEMSGSIZE`. -/
theorem datagrams_preserved {receiveTimeout : UInt32} {s : Pool Shared Call}
    (hs : (machine receiveTimeout).ReachableWithin
      (Program.Meets QueuesWhole) s) :
    s.shared.Preserved ∧
      ∀ result, lastFailed s.shared.socket.returns = some result →
        result.status = .bufferOverflow →
        s.shared.socket.fnSockGetLastError = .wsaemsgsize := by
  have hinv : Program.Annotated (fun _ => Inv) (fun _ _ => Call.Receives) s := by
    refine Program.invariant_within ?_ ?_ hs
    · refine ⟨⟨rfl, rfl, [], [], rfl, .nil, rfl, by simp⟩, ?_⟩
      intro c call hcall
      cases hcall
    · intro s c before n y after _ ih hbefore hturn hwhole
      obtain ⟨hy, hafter⟩ := ih.shared.turn hturn
        (fun call hcall => ih.calls c call (hbefore.trans hcall)) hwhole
      exact Program.Annotated.turn hy hafter fun c' call _ => ih.calls c' call
  refine ⟨hinv.shared.preserved, fun result hlast hoverflow => ?_⟩
  rw [Sock.Shared.fnSockGetLastError, hinv.shared.lastError, hlast]
  exact congrArg ntStatusToSocketError hoverflow

/-- Two datagrams are indicated at once.  A call with short buffers returns the
start of the first with the start of its control data, and the next call the
second one. -/
theorem datagrams_preserved_two :
    ∃ s, (machine wskclientInfinite).ReachableWithin
        (Program.Meets QueuesWhole) s ∧
      s.shared.socket.returns = [⟨.bufferOverflow, -1, [1, 2], [7], true⟩,
          ⟨.success, 1, [4], [], false⟩] ∧
      s.shared.Preserved ∧
      s.shared.socket.fnSockGetLastError = .wsaemsgsize := by
  obtain ⟨s, hs, hreturns⟩ := Machine.exists_reachableWithin_of_run
    (M := machine wskclientInfinite) (Program.Meets QueuesWhole)
    (P := fun s => s.shared.socket.returns =
      [⟨.bufferOverflow, -1, [1, 2], [7], true⟩, ⟨.success, 1, [4], [], false⟩])
    [.start (.datagramReceive
        [⟨plainArrival [1, 2, 3] (by decide), [7, 8]⟩,
          ⟨plainArrival [4] (by decide), []⟩]),
      .advance 0, .start (.recvMsg ⟨2, 1⟩), .advance 1, .advance 0,
      .start (.recvMsg ⟨4, 0⟩), .advance 2]
    (by decide +kernel)
  obtain ⟨hpreserved, herror⟩ := datagrams_preserved hs
  exact ⟨s, hs, hreturns, hpreserved,
    herror ⟨.bufferOverflow, -1, [1, 2], [7], true⟩ (by rw [hreturns]; rfl) rfl⟩

end Datagram

end WinNetTest.Sock
