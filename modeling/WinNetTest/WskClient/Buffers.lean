import WinNetTest.WskClient.Completion
import WinNetTest.WskClient.Sync

/-!
# The buffers handed to the provider

`InitializeWskBuf` clears the `WSK_BUF` and sets its length, offset and MDL
together, at its end.  It returns `STATUS_SUCCESS` also when it has not come to
that, and its callers go on to the provider with the cleared `WSK_BUF`.
-/

namespace WinNetTest.WskClient

/-! ## What the provider is called with -/

/-- A `WSK_BUF`, with the number of bytes that its MDL describes. -/
structure WskBuf where
  length : UInt32
  offset : UInt32
  mdl : Option UInt32
  deriving DecidableEq

/-- The `WSK_BUF` that describes a whole buffer. -/
def WskBuf.whole (bufLen : UInt32) : WskBuf where
  length := bufLen
  offset := 0
  mdl := some bufLen

/-- The `WSK_BUF` that `InitializeWskBuf` has left. -/
def Resources.wskBuf (r : Resources) (bufLen : UInt32) : WskBuf :=
  if r.wskBufMdl then .whole bufLen
  else
    { length := 0
      offset := 0
      mdl := none }

def Request.describable (request : Request) : Bool :=
  request.mdlAllocated && (request.bufIsNonPagedPool || request.pagesProbed)

inductive AnyOperation where
  | async (operation : Operation)
  | sync (operation : SyncOperation)

def AnyOperation.prepare : AnyOperation → Request → Prepare Unit
  | .async operation => WskClient.prepare operation
  | .sync operation => prepareSync operation

def AnyOperation.fail : AnyOperation → Resources → Resources
  | .async operation => failure operation
  | .sync _ => cleanup

def AnyOperation.hasBuffer (operation : AnyOperation) (request : Request) :
    Bool :=
  match operation with
  | .async .accept | .sync .accept => false
  | .async .connect | .async .disconnect | .sync .connectEx
  | .sync .disconnect => request.bufGiven
  | _ => true

inductive Outcome where
  | called (buffer : Option WskBuf)
  | failed (status : NtStatus) (r : Resources)

def AnyOperation.outcome (operation : AnyOperation) (bufLen : UInt32)
    (request : Request) : Outcome :=
  match (operation.prepare request).run .empty with
  | (.ok (), r) =>
    .called (if operation.hasBuffer request then some (r.wskBuf bufLen)
      else none)
  | (.error status, r) => .failed status (operation.fail r)

/-- `FnSockSend` and `FnSockSendMsg`, with the operation they start, whether
their context can be allocated, and the status of the provider. -/
def fnSockSendWith (operation : Operation) (contextAllocated : Bool)
    (bufferLength : UInt32) (request : Request) (status : NtStatus) : ℤ :=
  if !contextAllocated then -1
  else
    match (AnyOperation.async operation).outcome bufferLength request with
    | .called _ => if status.ntSuccess then bufferLength.toNat else -1
    | .failed _ _ => -1

def fnSockSend : Bool → UInt32 → Request → NtStatus → ℤ :=
  fnSockSendWith .send

def fnSockSendMsg : Bool → UInt32 → Request → NtStatus → ℤ :=
  fnSockSendWith .sendTo

/-! ## When the provider is called -/

/-- Everything that an operation does before it calls the provider succeeds,
apart from the buffer. -/
def AnyOperation.admits (operation : AnyOperation) (request : Request) : Bool :=
  match operation with
  | .async .sendTo =>
    request.completionAllocated && request.irpAllocated &&
      !decide (sizeofControlData < request.controlLen)
  | .async .accept =>
    request.completionAllocated && request.irpAllocated &&
      decide (request.sockType ∈ [.listen, .stream])
  | .async _ =>
    request.completionAllocated && request.irpAllocated &&
      decide (request.sockType ∈ [.connection, .stream])
  | .sync .sendTo => request.irpAllocated
  | .sync .accept =>
    request.irpAllocated && decide (request.sockType ∈ [.listen, .stream])
  | .sync .receive =>
    request.irpAllocated &&
      decide (request.sockType ∈ [.connection, .stream, .datagram])
  | .sync _ =>
    request.irpAllocated && decide (request.sockType ∈ [.connection, .stream])

def Prepared (fail : Resources → Resources) (buffer admits : Bool)
    (request : Request) : Except NtStatus Unit × Resources → Prop
  | (.ok (), r) =>
    admits = true ∧ (buffer = true → r.wskBufMdl = request.describable)
  | (.error status, r) =>
    admits = false ∧ status.ntSuccess = false ∧ (fail r).Gone

/-- What `InitializeWskBuf` does to the memory of an operation. -/
def Resources.describe (request : Request) (r : Resources) : Resources :=
  { r with
    wskBufMdl := request.describable
    bufLocked := request.describable && !request.bufIsNonPagedPool
    pagesLocked := r.pagesLocked ||
      request.describable && !request.bufIsNonPagedPool
    mdl :=
      if request.describable then .fresh
      else if request.mdlAllocated then Block.fresh.free else r.mdl }

@[simp]
theorem run_initializeBuffer (request : Request) (r : Resources) :
    (initializeBuffer request).run r = (.ok (), r.describe request) := by
  rcases request with ⟨_, _, nonPaged, _, _, irp,
    mdl, probed⟩
  cases mdl <;> cases nonPaged <;> cases probed <;>
    simp [initializeBuffer, initializeWskBuf, Resources.describe,
      Request.describable, ExceptT.run_bind, NtStatus.ntSuccess] <;> rfl

section Families

variable (request : Request) (types : List SockType) (r : Resources)

@[simp]
theorem run_allocateCompletion : (allocateCompletion request).run r =
      if request.completionAllocated then
        (.ok (), { r with completion := .fresh })
      else (.error .insufficientResources, r) := by
  unfold allocateCompletion
  split
  · rfl
  · rfl

@[simp]
theorem run_selectDispatch : (selectDispatch types request).run r =
      if request.sockType ∈ types then (.ok (), r)
      else (.error .unsuccessful, r) := by
  unfold selectDispatch
  split
  · rfl
  · rfl

@[simp]
theorem run_allocateIrp : (allocateIrp request).run r =
      if request.irpAllocated then (.ok (), { r with irp := .fresh })
      else (.error .insufficientResources, r) := by
  unfold allocateIrp
  split
  · rfl
  · rfl

@[simp]
theorem run_bind {first second : Prepare Unit} :
    (first >>= fun _ => second).run r = match first.run r with
      | (.ok (), r') => second.run r'
      | (.error status, r') => (.error status, r') := by
  rcases h : first.run r with ⟨result, r'⟩
  rw [ExceptT.run_bind]
  simp only [bind, StateT.bind, h]
  cases result with
  | ok | error => rfl

variable {r}

theorem buffered_describe (hpages : r.pagesLocked = false)
    (hmdl : r.mdl = .none) : (r.describe request).Buffered := by
  cases hdescribable : request.describable with
  | true =>
    exact ⟨by simp [Resources.describe, hpages], by simp [Resources.describe,
      hdescribable], by simp [Resources.describe, hdescribable],
      by simp [Resources.describe, hdescribable]⟩
  | false =>
    refine ⟨by simp [Resources.describe, hpages], by simp [Resources.describe,
      hdescribable], by simp [Resources.describe, hdescribable], fun _ => ?_⟩
    simp only [Resources.describe, hdescribable, hmdl]
    cases request.mdlAllocated with
    | true | false => rfl

theorem gone_cleanup (h : r.Buffered) (hcompletion : r.completion = .none)
    (hirp : r.irp = .none) : (cleanup r).Gone := by
  obtain ⟨hmdl, hpages, hcompletion', hirp'⟩ := h.uninitializeWskBuf
  unfold cleanup
  rw [hirp]
  refine ⟨?_, ?_, hmdl, hpages⟩
  · rw [Block.none, if_neg (by simp), hcompletion', hcompletion]
    rfl
  · rw [Block.none, if_neg (by simp), hirp', hirp]
    rfl

theorem prepareBufferFirst_prepared : Prepared cleanup true
      (request.irpAllocated && decide (request.sockType ∈ types)) request
      ((prepareBufferFirst types request).run .empty) := by
  have hgone := gone_cleanup
    (buffered_describe request (r := .empty) rfl rfl) rfl rfl
  by_cases htype : request.sockType ∈ types
  · cases hirp : request.irpAllocated with
    | true =>
      simp [prepareBufferFirst, htype, hirp, Prepared, Resources.describe]
    | false =>
      simp [prepareBufferFirst, htype, hirp, Prepared, NtStatus.ntSuccess,
        hgone]
  · simp [prepareBufferFirst, htype, Prepared, NtStatus.ntSuccess, hgone]

theorem wskSendToSync_prepared :
    Prepared cleanup true request.irpAllocated request
      ((wskSendToSync request).run .empty) := by
  have hgone := gone_cleanup
    (buffered_describe request (r := .empty) rfl rfl) rfl rfl
  cases hirp : request.irpAllocated with
  | true =>
    simp [wskSendToSync, hirp, Prepared, Resources.describe]
  | false =>
    simp [wskSendToSync, hirp, Prepared, NtStatus.ntSuccess, hgone]

theorem prepareBufferLast_prepared (buffer : Bool) : Prepared cleanup buffer
      (request.irpAllocated && decide (request.sockType ∈ types)) request
      ((prepareBufferLast types buffer request).run .empty) := by
  have hgone : (cleanup .empty).Gone := ⟨rfl, rfl, rfl, rfl⟩
  by_cases htype : request.sockType ∈ types
  · cases hirp : request.irpAllocated with
    | true =>
      cases buffer with
      | true | false =>
        simp [prepareBufferLast, htype, hirp, Prepared, Resources.describe]
    | false =>
      simp [prepareBufferLast, htype, hirp, Prepared, NtStatus.ntSuccess, hgone]
  · simp [prepareBufferLast, htype, Prepared, NtStatus.ntSuccess, hgone]

theorem prepareWith_prepared (operation : Operation) (buffer : Bool) :
    Prepared (failure operation) buffer
      (request.completionAllocated && request.irpAllocated &&
        decide (request.sockType ∈ types)) request
      ((prepareWith types buffer request).run .empty) := by
  have hempty : (failure operation .empty).Gone := ⟨rfl, rfl, rfl, rfl⟩
  have hgone :
      (failure operation { Resources.empty with completion := .fresh }).Gone := by
    cases operation <;> exact ⟨rfl, rfl, rfl, rfl⟩
  cases hcompletion : request.completionAllocated with
  | false =>
    simp [prepareWith, hcompletion, Prepared, NtStatus.ntSuccess, hempty]
  | true =>
    by_cases htype : request.sockType ∈ types
    · cases hirp : request.irpAllocated with
      | true =>
        cases buffer with
        | true | false =>
          simp [prepareWith, hcompletion, htype, hirp, Prepared,
            Resources.describe]
      | false =>
        simp [prepareWith, hcompletion, htype, hirp, Prepared,
          NtStatus.ntSuccess, hgone]
    · simp [prepareWith, hcompletion, htype, Prepared, NtStatus.ntSuccess,
        hgone]

theorem wskSendToAsync_prepared : Prepared (failure .sendTo) true
      (request.completionAllocated && request.irpAllocated &&
        !decide (sizeofControlData < request.controlLen)) request
      ((wskSendToAsync request).run .empty) := by
  have hgone := prepare_run .sendTo request
  simp only [prepare, wskSendToAsync, run_bind, run_allocateCompletion,
    run_initializeBuffer] at hgone ⊢
  cases hcompletion : request.completionAllocated with
  | false =>
    rw [hcompletion] at hgone
    exact ⟨rfl, rfl, hgone⟩
  | true =>
    rw [hcompletion] at hgone
    by_cases hcontrol : sizeofControlData < request.controlLen
    · simp only [hcontrol, if_true] at hgone ⊢
      exact ⟨by simp, rfl, hgone⟩
    · cases hirp : request.irpAllocated with
      | true =>
        simp [hcontrol, run_allocateIrp, hirp, Prepared, Resources.describe]
      | false =>
        simp only [hcontrol, if_true, if_false, run_allocateIrp, hirp,
          Bool.false_eq_true] at hgone ⊢
        exact ⟨by simp, rfl, hgone⟩

end Families

variable (operation : AnyOperation)

theorem AnyOperation.prepared (request : Request) :
    Prepared operation.fail (operation.hasBuffer request)
      (operation.admits request) request
      ((operation.prepare request).run .empty) := by
  cases operation with
  | async operation =>
    cases operation with
    | sendTo => exact wskSendToAsync_prepared request
    | _ => exact prepareWith_prepared request _ _ _
  | sync operation =>
    cases operation with
    | connectEx | accept | disconnect =>
      exact prepareBufferLast_prepared request _ _
    | sendTo => exact wskSendToSync_prepared request
    | _ => exact prepareBufferFirst_prepared request _

/-! ## Buffers that cannot be described -/

/-- The provider is called only with a `WSK_BUF` for the whole buffer. -/
structure NeverSent (operation : AnyOperation) (bufLen : UInt32)
    (request : Request) : Prop where
  whole : ∀ buffer, operation.outcome bufLen request = .called (some buffer) →
    buffer = .whole bufLen
  refused : operation.hasBuffer request = true → request.describable = false →
    ∃ status r, operation.outcome bufLen request = .failed status r
  failed : ∀ status r, operation.outcome bufLen request = .failed status r →
    status.ntSuccess = false ∧ r.Gone

/-- The sockets library returns the length only if the whole buffer has been
handed to the provider. -/
def SendsWhole (operation : Operation) (bufferLength : UInt32)
    (request : Request) : Prop :=
  ∀ contextAllocated status,
    fnSockSendWith operation contextAllocated bufferLength request status =
        bufferLength.toNat →
      (AnyOperation.async operation).outcome bufferLength request =
        .called (some (.whole bufferLength))

theorem AnyOperation.outcome_cases (bufLen : UInt32) (request : Request) :
    (operation.admits request = true ∧ operation.outcome bufLen request =
        .called (if operation.hasBuffer request then
          some (if request.describable then .whole bufLen else ⟨0, 0, none⟩)
        else none)) ∨
    operation.admits request = false ∧ ∃ status r,
      operation.outcome bufLen request = .failed status r ∧
        status.ntSuccess = false ∧ r.Gone := by
  have hprepared := operation.prepared request
  unfold AnyOperation.outcome
  generalize (operation.prepare request).run .empty = p at hprepared ⊢
  rcases p with ⟨result, r⟩
  cases result with
  | ok =>
    obtain ⟨hadmits, hmdl⟩ := hprepared
    refine Or.inl ⟨hadmits, ?_⟩
    dsimp only
    split
    · rename_i hbuffer
      rw [Resources.wskBuf, hmdl hbuffer]
    · rfl
  | error status =>
    obtain ⟨hadmits, hstatus, hgone⟩ := hprepared
    exact Or.inr ⟨hadmits, status, _, rfl, hstatus, hgone⟩

theorem AnyOperation.neverSent_iff (bufLen : UInt32) (request : Request) :
    NeverSent operation bufLen request ↔
      operation.hasBuffer request = false ∨ request.describable = true ∨
        operation.admits request = false := by
  rcases operation.outcome_cases bufLen request with
    ⟨hadmits, houtcome⟩ | ⟨hadmits, status, r, houtcome, hstatus, hgone⟩
  · cases hbuffer : operation.hasBuffer request with
    | false =>
      rw [hbuffer] at houtcome
      refine iff_of_true ⟨?_, by simp [hbuffer], ?_⟩ (Or.inl rfl)
      · simp [houtcome]
      · simp [houtcome]
    | true =>
      rw [hbuffer] at houtcome
      cases hdescribable : request.describable with
      | true =>
        rw [hdescribable] at houtcome
        refine iff_of_true ⟨?_, by simp [hdescribable], ?_⟩ (by simp)
        · simp [houtcome]
        · simp [houtcome]
      | false =>
        refine iff_of_false ?_ (by simp [hadmits])
        intro h
        obtain ⟨status, r, hfailed⟩ := h.refused hbuffer hdescribable
        rw [houtcome] at hfailed
        cases hfailed
  · refine iff_of_true ⟨?_, fun _ _ => ⟨status, r, houtcome⟩, ?_⟩ (by
      simp [hadmits])
    · simp [houtcome]
    · rintro status' r' h
      rw [houtcome] at h
      cases h
      exact ⟨hstatus, hgone⟩

theorem sendsWhole_iff {operation : Operation}
    (hoperation : operation = .send ∨ operation = .sendTo)
    (bufferLength : UInt32) (request : Request) :
    SendsWhole operation bufferLength request ↔ request.describable = true ∨
        (AnyOperation.async operation).admits request = false := by
  have hbuffer : (AnyOperation.async operation).hasBuffer request = true := by
    rcases hoperation with rfl | rfl
    · rfl
    · rfl
  rcases (AnyOperation.async operation).outcome_cases bufferLength request with
    ⟨hadmits, houtcome⟩ | ⟨hadmits, status, r, houtcome, -⟩
  · rw [hbuffer] at houtcome
    cases hdescribable : request.describable with
    | true =>
      rw [hdescribable] at houtcome
      exact iff_of_true (fun _ _ _ => houtcome) (Or.inl rfl)
    | false =>
      rw [hdescribable] at houtcome
      refine iff_of_false ?_ (by simp [hadmits])
      intro h
      have hcalled := h true .success (by
        simp [fnSockSendWith, houtcome, NtStatus.ntSuccess])
      rw [houtcome] at hcalled
      simp [WskBuf.whole] at hcalled
  · refine iff_of_true ?_ (Or.inr hadmits)
    intro contextAllocated status' h
    cases contextAllocated with
    | true | false => simp [fnSockSendWith, houtcome] at h

/-- The provider is called with the whole buffer, or not at all, when and only
when the operation has no buffer, its buffer can be described, or it fails for
another reason.  The same holds for what `FnSockSend` and `FnSockSendMsg`
return. -/
theorem buffers_sent_whole_iff (operation : AnyOperation) (bufLen : UInt32)
    (request : Request) :
    (NeverSent operation bufLen request ↔
      operation.hasBuffer request = false ∨ request.describable = true ∨
        operation.admits request = false) ∧
    (SendsWhole .send bufLen request ↔ request.describable = true ∨
        (AnyOperation.async .send).admits request = false) ∧
    (SendsWhole .sendTo bufLen request ↔ request.describable = true ∨
        (AnyOperation.async .sendTo).admits request = false) :=
  ⟨operation.neverSent_iff bufLen request,
    sendsWhole_iff (Or.inl rfl) bufLen request,
    sendsWhole_iff (Or.inr rfl) bufLen request⟩

/-- Without an MDL, and with pages that cannot be locked, `FnSockSend` and
`FnSockSendMsg` return the length of the buffer; the provider has got a
`WSK_BUF` of length zero. -/
theorem undescribed_buffer_sent : (fnSockSend true 100
        { pagedRequest .stream with mdlAllocated := false } .success = 100 ∧
      (AnyOperation.async .send).outcome 100
          { pagedRequest .stream with mdlAllocated := false } =
        .called (some ⟨0, 0, none⟩)) ∧
    fnSockSendMsg true 100
        { pagedRequest .datagram with pagesProbed := false } .pending = 100 ∧
      (AnyOperation.async .sendTo).outcome 100
          { pagedRequest .datagram with pagesProbed := false } =
        .called (some ⟨0, 0, none⟩) := by
  exact ⟨⟨rfl, rfl⟩, rfl, rfl⟩

end WinNetTest.WskClient
