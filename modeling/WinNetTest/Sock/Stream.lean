import WinNetTest.Sock.Recv

/-!
# The byte stream of a kernel stream socket

The bytes that the receive calls return and those still buffered are the bytes
acknowledged to WSK as long as no buffer of an indication is dropped and no
record is taken into a receive buffer that is too short for it.  An indication
is acknowledged in full in any case, so bytes get lost otherwise.
-/

namespace WinNetTest.Sock

open Support

/-! ## The bytes -/

def queuedBytes (recvDataList : List RecvData) : List UInt8 :=
  recvDataList.flatMap fun recvData => recvData.data

def returnedBytes (returns : List RecvReturn) : List UInt8 :=
  (returns.filter fun result => result.status.ntSuccess).flatMap fun result =>
    result.buffer.take result.bytesReceived.toNat

/-- `QueueRecvData` keeps the bytes of a buffer: there are none, or they are in
the first MDL, which can be mapped, and the pool has memory for a copy. -/
def Arrival.Kept (arrival : Arrival) : Prop :=
  arrival.buffer.length = 0 ∨ arrival.buffer.offset + arrival.buffer.length ≤
        (arrival.buffer.mdls.headD []).length ∧
      arrival.mapped = true ∧ arrival.allocated = true

instance (arrival : Arrival) : Decidable arrival.Kept :=
  inferInstanceAs (Decidable (_ ∨ _))

/-- The next action of a call loses no byte: the buffer an indication queues is
kept, and the record a receive call takes fits into its buffer. -/
def Keeps (x : Shared) (_c : ℕ) : Call → Prop
  | .indicating _ _ rest => ∀ arrival ∈ rest.head?, arrival.Kept
  | .receiving request => ∀ recvData ∈ x.binding.recvDataList.head?,
      recvData.dataLength ≤ request.bufferLength
  | .rechecking request => ∀ recvData ∈ x.binding.recvDataList.head?,
      recvData.dataLength ≤ request.bufferLength
  | .waiting _ => True

instance (x : Shared) (c : ℕ) (call : Call) : Decidable (Keeps x c call) := by
  cases call <;> unfold Keeps <;> infer_instance

/-! ## Queueing and taking a record -/

theorem WskBuf.length_bytes (buffer : WskBuf) :
    buffer.bytes.length = buffer.length := by
  have hfits := buffer.fits
  simp only [bytes, List.length_take, List.length_drop]
  omega

variable {buffer : WskBuf} {mdl : List UInt8} {rest : List (List UInt8)}

theorem WskBuf.bytes_eq_of_contiguous (hmdls : buffer.mdls = mdl :: rest)
    (h : buffer.offset + buffer.length ≤ mdl.length) :
    buffer.bytes = (mdl.drop buffer.offset).take buffer.length := by
  rw [bytes, hmdls, List.flatten_cons, List.drop_append_of_le_length (by omega),
    List.take_append_of_le_length (by simp only [List.length_drop]; omega)]

theorem copyMdls_done (va : List UInt8) {dataLength : ℕ}
    (mdls : List (List UInt8)) (mdlOffset : ℕ) {copied : List UInt8}
    (h : dataLength ≤ copied.length) :
    copyMdls va dataLength mdls mdlOffset copied = copied := by
  cases mdls with
  | nil => rfl
  | cons mdl rest => rw [copyMdls, if_neg (Nat.not_lt.mpr h)]

theorem copyMdls_of_contiguous (hmdls : buffer.mdls = mdl :: rest)
    (h : buffer.offset + buffer.length ≤ mdl.length) :
    copyMdls mdl buffer.length buffer.mdls buffer.offset [] = buffer.bytes := by
  have hbytes := WskBuf.bytes_eq_of_contiguous hmdls h
  have hmin : min (mdl.length - buffer.offset) (buffer.length - 0) =
      buffer.length := by omega
  rw [hmdls, copyMdls, List.length_nil, hmin, List.nil_append, ← hbytes]
  split
  · exact copyMdls_done _ _ _ buffer.length_bytes.ge
  · have hnil : buffer.bytes.length = 0 := by
      rw [buffer.length_bytes]
      omega
    exact (List.eq_nil_of_length_eq_zero hnil).symm

theorem recvDataOf_of_contiguous (hmdls : buffer.mdls = mdl :: rest)
    (h : buffer.offset + buffer.length ≤ mdl.length)
    (controlBuffer : List UInt8) :
    (recvDataOf mdl buffer controlBuffer).data = buffer.bytes ∧
      (recvDataOf mdl buffer controlBuffer).dataLength =
        buffer.bytes.length := by
  have hlt := buffer.byteCount_lt mdl (by simp [hmdls])
  have hlength := buffer.length_bytes
  simp only [recvDataOf, copyMdls_of_contiguous hmdls h, hlength,
    Nat.sub_self, List.replicate_zero, List.append_nil, true_and]
  exact Nat.mod_eq_of_lt (by omega)

def LengthsRight (recvDataList : List RecvData) : Prop :=
  ∀ recvData ∈ recvDataList, recvData.dataLength = recvData.data.length

theorem queueRecvData_cases (binding : Binding) (arrival : Arrival)
    (controlBuffer : List UInt8) :
    (queueRecvData binding arrival controlBuffer).recvDataList =
        binding.recvDataList ∧
      (arrival.Kept → arrival.buffer.bytes = []) ∨
    ∃ recvData : RecvData,
      (queueRecvData binding arrival controlBuffer).recvDataList =
          binding.recvDataList ++ [recvData] ∧
        recvData.data = arrival.buffer.bytes ∧
        recvData.dataLength = recvData.data.length := by
  have hoffset := arrival.buffer.offset_le
  have hlength := arrival.buffer.length_bytes
  cases hmdls : arrival.buffer.mdls with
  | nil =>
    refine Or.inl ⟨by simp [queueRecvData, hmdls], fun _ => ?_⟩
    simp [WskBuf.bytes, hmdls]
  | cons mdl rest =>
    have hhead : (arrival.buffer.mdls.headD []).length = mdl.length := by
      simp [hmdls]
    rw [hhead] at hoffset
    by_cases hstored : arrival.buffer.length ≠ 0 ∧
        arrival.buffer.offset + arrival.buffer.length ≤ mdl.length ∧
        arrival.mapped = true ∧ arrival.allocated = true
    · obtain ⟨hne, hcontiguous, hmapped, hallocated⟩ := hstored
      obtain ⟨hdata, hdataLength⟩ :=
        recvDataOf_of_contiguous hmdls hcontiguous controlBuffer
      have hnot : ¬mdl.length - arrival.buffer.offset <
          arrival.buffer.length := by omega
      refine Or.inr ⟨recvDataOf mdl arrival.buffer controlBuffer, ?_, hdata,
        by rw [hdataLength, hdata]⟩
      simp [queueRecvData, hmdls, hne, hnot, hmapped, hallocated]
    · refine Or.inl ⟨?_, ?_⟩
      · simp only [queueRecvData, hmdls]
        split
        · rfl
        · split
          · rfl
          · split
            · rfl
            · split
              · rfl
              · simp_all
                omega
      · rintro (hzero | hkept)
        · exact List.eq_nil_of_length_eq_zero (hlength.trans hzero)
        · rw [hhead] at hkept
          by_cases hzero : arrival.buffer.length = 0
          · exact List.eq_nil_of_length_eq_zero (hlength.trans hzero)
          · exact absurd ⟨hzero, hkept⟩ hstored

variable {request : RecvRequest} {recvData : RecvData}

theorem returnedBytes_returnRecvData
    (hfits : recvData.dataLength ≤ request.bufferLength)
    (hlength : recvData.dataLength = recvData.data.length) :
    returnedBytes [returnRecvData request recvData] = recvData.data := by
  have hdata : recvData.data.length ≤ request.bufferLength := hlength ▸ hfits
  simp [returnedBytes, returnRecvData, hlength, hdata, NtStatus.ntSuccess]

theorem returnedBytes_append (returns returns' : List RecvReturn) :
    returnedBytes (returns ++ returns') =
      returnedBytes returns ++ returnedBytes returns' := by
  simp [returnedBytes]

variable {status : NtStatus}

theorem returnedBytes_failed (hstatus : status.ntSuccess = false) :
    returnedBytes [RecvReturn.failed status] = [] := by
  simp [returnedBytes, RecvReturn.failed, hstatus]

theorem arrivedBytes_append (arrivals : List Arrival) (arrival : Arrival) :
    arrivedBytes (arrivals ++ [arrival]) =
      arrivedBytes arrivals ++ arrival.buffer.bytes := by
  simp [arrivedBytes]

theorem take_bytesIndicated (indication : Indication) :
    (arrivedBytes indication.arrivals).take indication.bytesIndicated =
      arrivedBytes indication.arrivals := by
  refine List.take_of_length_le (le_of_eq ?_)
  rw [indication.total, arrivedBytes, List.length_flatMap]
  simp only [WskBuf.length_bytes]

/-! ## Runs that lose nothing -/

def Shared.held (x : Shared) : List UInt8 :=
  returnedBytes x.returns ++ queuedBytes x.binding.recvDataList

structure StreamInv (x : Shared) : Prop where
  lengths : LengthsRight x.binding.recvDataList
  idle : x.indicating = none → x.held = x.acknowledged

def Call.Stream (x : Shared) (c : ℕ) : Call → Prop
  | .indicating indication done rest => x.indicating = some c ∧
      done ++ rest = indication.arrivals ∧
        x.held = x.acknowledged ++ arrivedBytes done
  | _ => True

variable {x : Shared}

theorem Call.Stream.of_isReceive {c : ℕ} {call : Call}
    (h : call.isReceive = true) : call.Stream x c := by
  cases call with
  | indicating indication done rest => cases h
  | _ => trivial

theorem held_deliver {rest : List RecvData}
    (hlist : x.binding.recvDataList = recvData :: rest)
    (hfits : recvData.dataLength ≤ request.bufferLength)
    (hlength : recvData.dataLength = recvData.data.length) :
    (x.deliver request recvData rest).held = x.held := by
  simp only [Shared.held, Shared.deliver, Shared.reply, returnedBytes_append,
    returnedBytes_returnRecvData hfits hlength, hlist, queuedBytes,
    List.flatMap_cons, List.append_assoc]

theorem held_failed (hstatus : status.ntSuccess = false) :
    (x.reply (.failed status)).held = x.held := by
  simp only [Shared.held, Shared.reply, returnedBytes_append,
    returnedBytes_failed hstatus, List.append_nil]

theorem held_queued {arrival : Arrival} (hkept : arrival.Kept) :
    ({ x with binding := queueRecvData x.binding arrival [] }).held =
      x.held ++ arrival.buffer.bytes := by
  rcases queueRecvData_cases x.binding arrival [] with
    ⟨hlist, hempty⟩ | ⟨recvData, hlist, hdata, -⟩
  · simp only [Shared.held, hlist, hempty hkept, List.append_nil]
  · simp [Shared.held, hlist, queuedBytes, hdata]

theorem lengths_queued (arrival : Arrival)
    (h : LengthsRight x.binding.recvDataList) :
    LengthsRight (queueRecvData x.binding arrival []).recvDataList := by
  rcases queueRecvData_cases x.binding arrival [] with
    ⟨hlist, -⟩ | ⟨recvData, hlist, -, hlength⟩
  · exact hlist ▸ h
  · rw [hlist]
    intro d hd
    rcases List.mem_append.mp hd with hd | hd
    · exact h d hd
    · exact List.mem_singleton.mp hd ▸ hlength

section Action

variable {x y : Shared} {c : ℕ} {before after : Option Call}

theorem held_delivered {call : Call} {rest : List RecvData} (hx : StreamInv x)
    (hcall : call = .receiving request ∨ call = .rechecking request)
    (hlist : x.binding.recvDataList = recvData :: rest)
    (hkeeps : Keeps x c call) :
    (x.deliver request recvData rest).held = x.held := by
  have hhead : recvData ∈ x.binding.recvDataList.head? := by simp [hlist]
  have hfits : recvData.dataLength ≤ request.bufferLength := by
    rcases hcall with rfl | rfl <;> exact hkeeps recvData hhead
  exact held_deliver hlist hfits (hx.lengths recvData (by simp [hlist]))

section

variable (h : Action x c before y after)

include h

theorem Action.streamInv (hx : StreamInv x)
    (hbefore : ∀ call, before = some call → call.Stream x c)
    (hkeeps : ∀ call ∈ before, Keeps x c call) : StreamInv y := by
  cases h with
  | looked hreceive hreceive' => exact hx
  | begins hidle => exact ⟨hx.lengths, by simp⟩
  | @queued indication done rest arrival =>
    obtain ⟨hindicating, -⟩ :=
      hbefore (.indicating indication done (arrival :: rest)) rfl
    exact ⟨lengths_queued arrival hx.lengths, by simp [hindicating]⟩
  | @acknowledged indication done =>
    obtain ⟨-, hdone, hheld⟩ := hbefore (.indicating indication done []) rfl
    rw [List.append_nil] at hdone
    refine ⟨hx.lengths, fun _ => ?_⟩
    rw [take_bytesIndicated, ← hdone]
    exact hheld
  | delivered hcall hlist =>
    refine ⟨fun d hd =>
      hx.lengths d (hlist ▸ List.mem_cons_of_mem _ hd), ?_⟩
    rw [held_delivered hx hcall hlist (hkeeps _ rfl)]
    exact hx.idle
  | failed hcall hstatus =>
    refine ⟨hx.lengths, ?_⟩
    rw [held_failed hstatus]
    exact hx.idle

theorem Action.stream_after (hx : StreamInv x)
    (hbefore : ∀ call, before = some call → call.Stream x c)
    (hkeeps : ∀ call ∈ before, Keeps x c call) :
    ∀ call ∈ after, call.Stream y c := by
  intro call hcall
  cases h with
  | looked hreceive hreceive' => exact .of_isReceive (hreceive' call hcall)
  | begins hidle =>
    cases hcall
    exact ⟨rfl, rfl, (hx.idle hidle).trans (List.append_nil _).symm⟩
  | @queued indication done rest arrival =>
    cases hcall
    obtain ⟨hindicating, hdone, hheld⟩ :=
      hbefore (.indicating indication done (arrival :: rest)) rfl
    have hkept := hkeeps _ rfl arrival rfl
    refine ⟨hindicating, by simpa using hdone, ?_⟩
    rw [held_queued hkept, hheld, arrivedBytes_append, List.append_assoc]
  | _ => cases hcall

theorem Action.stream_other {c' : ℕ} (hx : StreamInv x)
    (hbefore : ∀ call, before = some call → call.Stream x c)
    (hkeeps : ∀ call ∈ before, Keeps x c call) (hc : c' ≠ c) {call : Call}
    (hcall : call.Stream x c') : call.Stream y c' := by
  cases call with
  | indicating indication done rest =>
    obtain ⟨hindicating, hdone, hheld⟩ := hcall
    have hother : x.indicating ≠ some c := fun heq =>
      hc (Option.some.inj (hindicating.symm.trans heq))
    cases h with
    | looked hreceive hreceive' => exact ⟨hindicating, hdone, hheld⟩
    | begins hidle => exact absurd (hindicating.symm.trans hidle) (by simp)
    | queued | acknowledged => exact absurd (hbefore _ rfl).1 hother
    | delivered hcall hlist =>
      refine ⟨hindicating, hdone, ?_⟩
      rw [held_delivered hx hcall hlist (hkeeps _ rfl)]
      exact hheld
    | failed hcall hstatus =>
      refine ⟨hindicating, hdone, ?_⟩
      rw [held_failed hstatus]
      exact hheld
  | _ => trivial

end

end Action

/-- Between indications, a run that loses nothing has returned or still holds
the acknowledged bytes, in order. -/
theorem stream_delivered {receiveTimeout : UInt32} {s : Pool Shared Call}
    (hs : (machine receiveTimeout).ReachableWithin (Program.Meets Keeps) s)
    (hidle : s.shared.indicating = none) :
    returnedBytes s.shared.returns ++
      queuedBytes s.shared.binding.recvDataList = s.shared.acknowledged := by
  have hinv : Program.Annotated (fun _ => StreamInv)
      (fun x c => Call.Stream x c) s := by
    refine Program.invariant_within
      ?_ ?_ hs
    · refine ⟨⟨?_, fun _ => rfl⟩, fun c call hcall => by cases hcall⟩
      simp [program, Program.machine, initializeBinding, LengthsRight]
    · intro s c before n y after _ ih hbefore hturn hkeeps
      have haction := Action.of_turn hturn
      have hown : ∀ call, before = some call → call.Stream s.shared c :=
        fun call hcall => ih.calls c call (hbefore.trans hcall)
      exact Program.Annotated.turn (haction.streamInv ih.shared hown hkeeps)
        (haction.stream_after ih.shared hown hkeeps)
        fun c' call hc hcall => haction.stream_other ih.shared hown hkeeps hc
          (ih.calls c' call hcall)
  exact hinv.shared.idle hidle

def plainArrival (bytes : List UInt8) (h : bytes.length < 2 ^ 32) :
    Arrival where
  buffer :=
    { mdls := [bytes]
      offset := 0
      length := bytes.length
      byteCount_lt := by simpa using h
      offset_le := Nat.zero_le _
      fits := by simp }
  mapped := true
  allocated := true

def plainIndication (arrivals : List Arrival) : Indication where
  arrivals := arrivals
  bytesIndicated := (arrivals.map fun arrival => arrival.buffer.length).sum
  total := rfl

/-- Two buffers are indicated; a receive call returns the first while the second
stays buffered. -/
theorem stream_delivered_twoBuffers :
    ∃ s, (machine wskclientInfinite).ReachableWithin
        (Program.Meets Keeps) s ∧
      s.shared.acknowledged = [1, 2, 3] ∧
      queuedBytes s.shared.binding.recvDataList = [3] ∧
      returnedBytes s.shared.returns ++
        queuedBytes s.shared.binding.recvDataList = s.shared.acknowledged := by
  obtain ⟨s, hs, hP⟩ := Machine.exists_reachableWithin_of_run
    (M := machine wskclientInfinite) (Program.Meets Keeps)
    (P := fun s => s.shared.indicating = none ∧
      s.shared.acknowledged = [1, 2, 3] ∧
      queuedBytes s.shared.binding.recvDataList = [3])
    [.start (.recvMsg (fnSockRecv 2)), .advance 0,
      .start (.receiveEvent (plainIndication
        [plainArrival [1, 2] (by decide), plainArrival [3] (by decide)])),
      .advance 1, .advance 1, .advance 1, .advance 0, .advance 0]
    (by decide +kernel)
  exact ⟨s, hs, hP.2.1, hP.2.2, stream_delivered hs hP.1⟩

/-- A record that is too long for the receive buffer is dropped. -/
theorem shortBuffer_loses_bytes :
    ∃ s, (machine wskclientInfinite).Reachable s ∧ s.calls.keys = [] ∧
      s.shared.indicating = none ∧ s.shared.acknowledged = [1, 2] ∧
      returnedBytes s.shared.returns = [] ∧
      s.shared.binding.recvDataList = [] :=
  Machine.exists_reachable_of_run
    [.start (.receiveEvent (plainIndication
        [plainArrival [1, 2] (by decide)])), .advance 0, .advance 0,
      .start (.recvMsg (fnSockRecv 1)), .advance 1]
    (by decide +kernel)

end WinNetTest.Sock
