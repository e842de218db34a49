import WinNetTest.Fnmp.OidData
import WinNetTest.Fnmp.OidPath

/-!
# Completing a pended request

`MpIrpOidCompleteRequest` is executed to its end here, with the bytes it
moves: the checks before the lock, the removal under the lock, the copy into
the request it took, and the completion through NDIS, which is preceded by
regular processing if the user asks for it.  Either nothing happens, or one
request is removed and completed.
-/

namespace WinNetTest.Fnmp.OidCompletion

open Support Fnio

/-! ## The routine -/

/-- A call of `NdisMOidRequestComplete` or `NdisMDirectOidRequestComplete`,
with the request as NDIS gets it back. -/
structure Completed where
  interface : OidRequestInterface
  request : NdisOidRequest
  status : NdisStatus
  deriving DecidableEq

/-- What the routine works on: the configuration, the filter with the pended
requests, and the completions so far. -/
structure Adapter where
  config : AdapterConfig
  oids : OidFilter
  completions : List Completed

section Routine

variable {sizes : NdisSizes} (layout : NdisLayout sizes) (beyond : ℕ → UInt8)

def mpOidCompleteRequest (a : Adapter) (taken : TakenRequest) : Adapter :=
  let processed :=
    if taken.status ≠ .pending then
      Processed.mk taken.status taken.request a.config
    else answerOid layout beyond a.config taken.interface taken.request
  { a with
    config := processed.config
    completions := a.completions ++
      [⟨taken.interface, processed.request, processed.status⟩] }

def irpOidCompleteRequest (apiVersion : UInt32)
    (input : CompleteRequestInput) (a : Adapter) : NtStatus × Adapter :=
  match mpIrpOidCompleteRequest apiVersion input a.oids with
  | (status, oids, none) => (status, { a with oids := oids })
  | (status, oids, some taken) =>
    (status, mpOidCompleteRequest layout beyond { a with oids := oids } taken)

/-- `MiniportRequestHandler` and `MiniportDirectRequestHandler`: the request
goes through the filter and is processed if that lets it pass. -/
def requestHandler (now : UInt64) (allocated : Bool)
    (i : OidRequestInterface) (a : Adapter) (request : NdisOidRequest) :
    Processed × OidFilter :=
  let entering : NdisOidRequest :=
    match request.requestType with
    | .queryInformation | .queryStatistics =>
      { request with bytesWritten := 0 }
    | _ => request
  match request.requestType with
  | .other _ => (⟨.notSupported, request, a.config⟩, a.oids)
  | _ =>
    match mpFilterOid now allocated i entering a.oids with
    | (.success, oids) =>
      (answerOid layout beyond a.config i entering, oids)
    | (status, oids) => (⟨status, entering, a.config⟩, oids)

end Routine

/-! ## The checks before the lock -/

def callerBytes (input : CompleteRequestInput) : List UInt8 :=
  match input.informationBuffer.contents with
  | none => []
  | some byte =>
    (List.range input.informationBufferLength.toNat).map byte

theorem bounceBuffer_error {read : UserRead} {size : ℕ} {status : NtStatus}
    (h : bounceBuffer read size = .error status) :
    status.ntSuccess = false := by
  unfold bounceBuffer at h
  split at h
  · cases h
  · split at h
    · cases h
      rfl
    · split at h
      · cases h
        rfl
      · cases h

variable {input : CompleteRequestInput} {bytes : List UInt8}

theorem bounceBuffer_callerBytes
    (h : bounceBuffer input.informationBuffer
      input.informationBufferLength.toNat = .ok bytes) :
    bytes = callerBytes input := by
  unfold bounceBuffer at h
  unfold callerBytes
  split at h
  · rename_i hzero
    cases h
    rw [hzero]
    cases input.informationBuffer.contents <;> rfl
  · split at h
    · cases h
    · split at h
      · cases h
      · cases h
        simp [*]

theorem completionKey_error {apiVersion : UInt32} {status : NtStatus}
    (h : completionKey apiVersion input = .error status) :
    status.ntSuccess = false := by
  unfold completionKey at h
  split at h
  · split at h
    · cases h
      rfl
    · split at h
      · cases h
        rfl
      · cases h
  · cases h

structure Bounced (input : CompleteRequestInput) (key : OidKey)
    (bytes : List UInt8) : Prop where
  noData : input.status = .pending → input.informationBufferLength = 0
  bytes_eq : key.requestType ≠ .setInformation → bytes = callerBytes input ∧
      bytes.length = input.informationBufferLength.toNat

theorem bounceCompletion_spec (apiVersion : UInt32)
    (input : CompleteRequestInput) :
    match bounceCompletion apiVersion input with
    | .error status => status.ntSuccess = false
    | .ok (_, key, bytes) => Bounced input key bytes := by
  unfold bounceCompletion
  by_cases hlength : input.inputBufferLength < completeRequestInSize apiVersion
  · simp only [if_pos hlength]
    rfl
  · simp only [if_neg hlength]
    cases hkey : completionKey apiVersion input with
    | error status => exact completionKey_error hkey
    | ok key =>
      dsimp only
      cases OidRequestInterface.ofValue key.requestInterface with
      | none => rfl
      | some i =>
        dsimp only
        by_cases hpending : input.status = .pending ∧
            input.informationBufferLength > 0
        · simp only [if_pos hpending]
          rfl
        · simp only [if_neg hpending]
          have hnoData : input.status = .pending →
              input.informationBufferLength = 0 := by
            intro hstatus
            by_contra hne
            exact hpending ⟨hstatus, UInt32.pos_iff_ne_zero.mpr hne⟩
          by_cases hset : key.requestType = .setInformation
          · simp only [if_pos hset]
            exact ⟨hnoData, fun hne => absurd hset hne⟩
          · simp only [if_neg hset]
            cases hbounce : bounceBuffer input.informationBuffer
                input.informationBufferLength.toNat with
            | error status => exact bounceBuffer_error hbounce
            | ok bytes =>
              exact ⟨hnoData, fun _ =>
                ⟨bounceBuffer_callerBytes hbounce, bounceBuffer_length hbounce⟩⟩

/-! ## Under the lock -/

/-- A call that took a request: the oldest one of an interface, of the type
the key gives, with room for the data. -/
structure Takes (input : CompleteRequestInput) (oids oids' : OidFilter)
    (taken : TakenRequest) (entry : OidRequestEntry)
    (rest : List OidRequestEntry) (capacity : UInt32) (key : OidKey)
    (bytes : List UInt8) : Prop where
  list : oids.list taken.interface = entry :: rest
  requestType : entry.request.requestType = key.requestType
  outLength : entry.request.outLength = some capacity
  room : input.informationBufferLength ≤ capacity
  bounced : Bounced input key bytes
  oids_eq : oids' = oids.setList taken.interface rest
  request_eq : taken.request =
    entry.request.receive input.informationBufferLength bytes
  status_eq : taken.status = input.status

variable {key : OidKey} {entry : OidRequestEntry}

theorem requestType_of_find {oids : OidFilter} {i : OidRequestInterface}
    (h : mpOidFindFilteredOidByKey oids i key = some entry) :
    entry.request.requestType = key.requestType := by
  unfold mpOidFindFilteredOidByKey at h
  split at h
  · cases h
  · split at h
    · cases h
    · rename_i hnot
      cases h
      obtain ⟨-, hrest⟩ := not_or.mp hnot
      exact not_not.mp (not_or.mp hrest).1

theorem mpIrpOidCompleteRequest_spec (apiVersion : UInt32)
    (input : CompleteRequestInput) (oids : OidFilter) :
    match mpIrpOidCompleteRequest apiVersion input oids with
    | (status, oids', none) => status.ntSuccess = false ∧ oids' = oids
    | (status, oids', some taken) =>
      status.ntSuccess = true ∧ ∃ entry rest capacity key bytes,
        Takes input oids oids' taken entry rest capacity key bytes := by
  have hspec := bounceCompletion_spec apiVersion input
  unfold mpIrpOidCompleteRequest
  cases hbounce : bounceCompletion apiVersion input with
  | error status =>
    rw [hbounce] at hspec
    exact ⟨hspec, rfl⟩
  | ok result =>
    obtain ⟨i, key, bytes⟩ := result
    rw [hbounce] at hspec
    dsimp only
    cases hfind : mpOidFindFilteredOidByKey oids i key with
    | none => exact ⟨rfl, rfl⟩
    | some entry =>
      dsimp only
      cases hout : entry.request.outLength with
      | none => exact ⟨rfl, rfl⟩
      | some capacity =>
        dsimp only
        by_cases hroom : capacity < input.informationBufferLength
        · rw [if_pos hroom]
          exact ⟨rfl, rfl⟩
        · rw [if_neg hroom]
          exact ⟨rfl, entry, _, capacity, key, bytes,
            { list := list_of_mpOidFindFilteredOidByKey hfind
              requestType := requestType_of_find hfind
              outLength := hout
              room := UInt32.not_lt.mp hroom
              bounced := hspec
              oids_eq := rfl
              request_eq := rfl
              status_eq := rfl }⟩

/-! ## The data -/

section Receive

variable {request : NdisOidRequest} {length : UInt32} {bytes : List UInt8}

theorem receive_of_ne_set (htype : request.requestType ≠ .setInformation)
    (hlength : bytes.length = length.toNat) :
    request.receive length bytes = { request.fill bytes with
        bytesWritten :=
          if length = 0 then request.bytesWritten else length } := by
  by_cases hzero : length = 0
  · subst hzero
    have hnil : bytes = [] := List.length_eq_zero_iff.mp hlength
    subst hnil
    rfl
  · simp only [NdisOidRequest.receive, if_neg hzero, if_neg htype]
    rfl

theorem receive_of_set (htype : request.requestType = .setInformation) :
    request.receive length bytes = { request with
        bytesRead := if length = 0 then request.bytesRead else length } := by
  by_cases hzero : length = 0
  · subst hzero
    rfl
  · simp only [NdisOidRequest.receive, if_neg hzero, if_pos htype]

end Receive

/-! ## All or nothing -/

section AllOrNothing

variable {sizes : NdisSizes} (layout : NdisLayout sizes) (beyond : ℕ → UInt8)

structure RemovedAndCompleted (input : CompleteRequestInput) (a b : Adapter)
    (entry : OidRequestEntry) (rest : List OidRequestEntry)
    (completed : Completed) : Prop where
  oldest : a.oids.list completed.interface = entry :: rest
  removed : b.oids = a.oids.setList completed.interface rest
  completions : b.completions = a.completions ++ [completed]
  same_request : completed.request.id = entry.request.id
  final_status : input.status ≠ .pending →
    completed.status = input.status ∧ b.config = a.config
  data_out : input.status ≠ .pending →
    entry.request.requestType ≠ .setInformation →
    ∃ capacity, entry.request.outLength = some capacity ∧
      input.informationBufferLength ≤ capacity ∧
      (callerBytes input).length = input.informationBufferLength.toNat ∧
      completed.request = { entry.request.fill (callerBytes input) with
          bytesWritten :=
            if input.informationBufferLength = 0 then
              entry.request.bytesWritten
            else input.informationBufferLength }
  data_in : input.status ≠ .pending →
    entry.request.requestType = .setInformation →
    completed.request = { entry.request with
        bytesRead :=
          if input.informationBufferLength = 0 then entry.request.bytesRead
          else input.informationBufferLength }
  regular : input.status = .pending → ∀ now allocated,
    let unfiltered := { a with oids := mpOidClearFilter a.oids }
    let processed := (requestHandler layout beyond now allocated
      completed.interface unfiltered entry.request).1
    completed.status = processed.status ∧
      completed.request = processed.request ∧ b.config = processed.config

theorem mpFilterOid_mpOidClearFilter (now : UInt64) (allocated : Bool)
    (i : OidRequestInterface) (request : NdisOidRequest) (oids : OidFilter) :
    mpFilterOid now allocated i request (mpOidClearFilter oids) =
      (.success, mpOidClearFilter oids) :=
  rfl

variable {request : NdisOidRequest}

theorem answerOid_of_query (config : AdapterConfig) (i : OidRequestInterface)
    (htype : request.requestType = .queryInformation) :
    answerOid layout beyond config i request =
      answerQuery layout beyond config request := by
  simp only [answerOid, htype]

variable {capacity : UInt32}

theorem requestHandler_of_unfiltered (now : UInt64) (allocated : Bool)
    (i : OidRequestInterface) (a : Adapter)
    (hout : request.outLength = some capacity) :
    (requestHandler layout beyond now allocated i
        { a with oids := mpOidClearFilter a.oids } request).1 =
      answerOid layout beyond a.config i request := by
  unfold requestHandler
  cases htype : request.requestType with
  | queryInformation =>
    have hcleared : answerOid layout beyond a.config i
        { request with bytesWritten := 0 } =
          answerQuery layout beyond a.config request :=
      answerOid_of_query layout beyond a.config i htype
    simp only [mpFilterOid_mpOidClearFilter]
    rw [answerOid_of_query layout beyond a.config i htype]
    simpa only [htype] using hcleared
  | queryStatistics | other => simp [NdisOidRequest.outLength, htype] at hout
  | setInformation | method => simp only [mpFilterOid_mpOidClearFilter]

variable {rest : List OidRequestEntry} {taken : TakenRequest}

theorem removedAndCompleted_of_final {a : Adapter} {oids' : OidFilter}
    (h : Takes input a.oids oids' taken entry rest capacity key bytes)
    (hstatus : input.status ≠ .pending) :
    RemovedAndCompleted layout beyond input a
      (mpOidCompleteRequest layout beyond { a with oids := oids' } taken)
      entry rest ⟨taken.interface, taken.request, taken.status⟩ := by
  have htaken : taken.status ≠ .pending := h.status_eq ▸ hstatus
  simp only [mpOidCompleteRequest, if_pos htaken]
  exact
    { oldest := h.list
      removed := h.oids_eq
      completions := rfl
      same_request := by rw [h.request_eq, NdisOidRequest.receive_id]
      final_status := fun _ => ⟨h.status_eq, rfl⟩
      data_out := by
        intro _ htype
        have hkey : key.requestType ≠ .setInformation := h.requestType ▸ htype
        obtain ⟨hbytes, hlength⟩ := h.bounced.bytes_eq hkey
        refine ⟨capacity, h.outLength, h.room, hbytes ▸ hlength, ?_⟩
        rw [h.request_eq, receive_of_ne_set htype hlength, hbytes]
      data_in := by
        intro _ htype
        rw [h.request_eq, receive_of_set htype]
      regular := fun hpending => absurd hpending hstatus }

theorem removedAndCompleted_of_pending {a : Adapter} {oids' : OidFilter}
    (h : Takes input a.oids oids' taken entry rest capacity key bytes)
    (hstatus : input.status = .pending) :
    RemovedAndCompleted layout beyond input a
      (mpOidCompleteRequest layout beyond { a with oids := oids' } taken)
      entry rest
      ⟨taken.interface, (answerOid layout beyond a.config taken.interface
          entry.request).request,
        (answerOid layout beyond a.config taken.interface
          entry.request).status⟩ := by
  have htaken : ¬ taken.status ≠ .pending :=
    not_not.mpr (h.status_eq.trans hstatus)
  have hrequest : taken.request = entry.request := by
    rw [h.request_eq, h.bounced.noData hstatus]
    rfl
  simp only [mpOidCompleteRequest, if_neg htaken, hrequest]
  exact
    { oldest := h.list
      removed := h.oids_eq
      completions := rfl
      same_request := id_answerOid layout beyond a.config entry.request _
      final_status := fun hfinal => absurd hstatus hfinal
      data_out := fun hfinal => absurd hstatus hfinal
      data_in := fun hfinal => absurd hstatus hfinal
      regular := by
        intro _ now allocated
        dsimp only
        rw [requestHandler_of_unfiltered layout beyond now allocated _ a
          h.outLength]
        exact ⟨rfl, rfl, rfl⟩ }

/-- `MpIrpOidCompleteRequest` is all or nothing: if it fails, the pended
requests, the configuration and the completions are as they were; if it
succeeds, one request was removed and completed. -/
theorem oidCompleteRequest_all_or_nothing (apiVersion : UInt32)
    (input : CompleteRequestInput) (a : Adapter) :
    ((irpOidCompleteRequest layout beyond apiVersion input a).1.ntSuccess =
        false →
      (irpOidCompleteRequest layout beyond apiVersion input a).2 = a) ∧
    ((irpOidCompleteRequest layout beyond apiVersion input a).1.ntSuccess =
        true →
      ∃ entry rest completed, RemovedAndCompleted layout beyond input a
          (irpOidCompleteRequest layout beyond apiVersion input a).2
          entry rest completed) := by
  have hspec := mpIrpOidCompleteRequest_spec apiVersion input a.oids
  unfold irpOidCompleteRequest
  generalize mpIrpOidCompleteRequest apiVersion input a.oids = result
    at hspec ⊢
  obtain ⟨_, _, taken⟩ := result
  cases taken with
  | none =>
    obtain ⟨hfailed, rfl⟩ := hspec
    exact ⟨fun _ => rfl, fun hsuccess => by simp [hfailed] at hsuccess⟩
  | some taken =>
    obtain ⟨hsuccess, entry, rest, _, key, _, htakes⟩ := hspec
    refine ⟨fun hfailed => by simp [hsuccess] at hfailed, fun _ => ?_⟩
    refine ⟨entry, rest, ?_⟩
    by_cases hstatus : input.status = .pending
    · exact ⟨_, removedAndCompleted_of_pending layout beyond htakes hstatus⟩
    · exact ⟨_, removedAndCompleted_of_final layout beyond htakes hstatus⟩

end AllOrNothing

end WinNetTest.Fnmp.OidCompletion
