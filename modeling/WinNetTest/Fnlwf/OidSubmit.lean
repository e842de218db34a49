import WinNetTest.Fnlwf.Oid

/-!
# The buffer of a submitted OID request

`OidIrpSubmitRequest` bounces `InformationBufferLength` bytes and tells the lower
layer of a method that `OutputBufferLength` bytes may be written to them.  The
two lengths are both chosen by the caller and are compared nowhere.
-/

namespace WinNetTest.Fnlwf.Oid

open Support Fnmp

/-- A status of the IOCTL: one of the named codes, or a code of NDIS that is
passed on. -/
inductive SubmitStatus where
  | nt (status : NtStatus)
  | code (value : UInt32)
  deriving DecidableEq

def SubmitStatus.ntSuccess : SubmitStatus → Bool
  | .nt status => status.ntSuccess
  | .code value => value < 0x80000000

def SubmitStatus.isBufferTooSmall (status : SubmitStatus) : Bool :=
  status = .nt .bufferTooSmall ∨ status = .code 0xC0000023

def fnConvertNdisStatusToNtStatus : NdisStatus → SubmitStatus
  | .success => .nt .success
  | .pending => .nt .pending
  | .resources => .nt .insufficientResources
  | .notSupported => .nt .notSupported
  | .invalidParameter => .nt .invalidParameter
  | .bufferTooShort => .nt .bufferTooSmall
  | .invalidLength => .code 0xC0010014
  | .invalidOid => .code 0xC0010017
  | .other value =>
    if value < 0x80000000 ∧ value ≠ 0x40230001 then .nt .unsuccessful
    else .code value

/-- What the lower layer does with an internal request: the bytes it writes to
the buffer, the result fields, and the status it ends with. -/
structure LowerAnswer where
  written : List UInt8
  results : Results
  status : NdisStatus

/-- What `OidInternalRequest` returns, with `BytesProcessed`. -/
def oidInternalRequest (request : NdisOidRequest) :
    Option LowerAnswer → SubmitStatus × UInt32
  | none => (.code 0xC0010018, 0)
  | some answer =>
    (fnConvertNdisStatusToNtStatus (finalStatus answer.status),
      bytesProcessed (withResults request answer.results) answer.status)

/-- The end of the IOCTL: its status, `BytesReturned`, the request that was sent
down with what was made of it, and the size and the bytes that are copied to the
output buffer. -/
structure Submission where
  status : SubmitStatus
  bytesReturned : UInt32
  sent : Option (NdisOidRequest × LowerAnswer)
  copied : Option (UInt32 × List UInt8)

/-- `OidIrpSubmitRequest` after `OidInternalRequest`, with the
`IRP_INPUT_OPERATION` of the flags. -/
def submitReply (input : SubmitInput) (inputOperation : Bool)
    (sent : Option (NdisOidRequest × LowerAnswer)) (infoBuffer : List UInt8) :
    SubmitStatus × UInt32 → Submission
  | (status, requiredSize) =>
    if status.isBufferTooSmall ∧ input.outputBufferLength = 0 ∧
        !inputOperation then
      ⟨.nt .bufferOverflow, requiredSize, sent, none⟩
    else if !status.ntSuccess then ⟨status, 0, sent, none⟩
    else if input.outputBufferLength < requiredSize then
      ⟨.nt .bufferTooSmall, 0, sent, none⟩
    else
      ⟨status, requiredSize, sent,
        some (requiredSize, infoBuffer.take requiredSize.toNat)⟩

def oidIrpSubmitRequest (input : SubmitInput) (inputOperation : Bool)
    (lower : Option LowerAnswer) : Submission :=
  match input.interface with
  | .error status => ⟨.nt status, 0, none, none⟩
  | .ok _ =>
    submitReply input inputOperation
      (lower.map fun answer => (input.request 0, answer))
      (lower.elim input.information.bytes fun answer =>
        answer.written ++ input.information.bytes.drop answer.written.length)
      (oidInternalRequest (input.request 0) lower)

/-! ## The lengths -/

def told (request : NdisOidRequest) : List UInt32 :=
  match request.requestType with
  | .method => [request.inputBufferLength, request.outputBufferLength]
  | _ => [request.informationBufferLength]

/-- The length up to which the lower layer may write and report. -/
def capacity (request : NdisOidRequest) : UInt32 :=
  match request.requestType with
  | .method => request.outputBufferLength
  | _ => request.informationBufferLength

def reported (request : NdisOidRequest) (results : Results) : UInt32 :=
  match request.requestType with
  | .setInformation => results.bytesRead
  | _ => results.bytesWritten

def LowerAnswer.Bounded (answer : LowerAnswer) (request : NdisOidRequest) :
    Prop :=
  answer.written.length ≤ (capacity request).toNat ∧
    reported request answer.results ≤ capacity request

def sizeNeeded (input : SubmitInput) (inputOperation : Bool)
    (sent : NdisOidRequest × LowerAnswer) : UInt32 :=
  if finalStatus sent.2.status = .bufferTooShort ∧
      input.outputBufferLength = 0 ∧ inputOperation = false ∧
      input.key.requestType ∈ [.queryInformation, .setInformation, .method] then
    sent.2.results.bytesNeeded
  else 0

/-- The lower layer is told no more than the buffer has and writes inside it,
the copy stays inside both buffers, and a failure returns nothing but the size
needed. -/
structure Inside (input : SubmitInput) (inputOperation : Bool)
    (submission : Submission) : Prop where
  lower : ∀ sent ∈ submission.sent,
    (∀ length ∈ told sent.1, length ≤ input.informationBufferLength) ∧
      sent.2.written.length ≤ input.informationBufferLength.toNat
  read : ∀ copy ∈ submission.copied, copy.1 ≤ input.informationBufferLength
  write : ∀ copy ∈ submission.copied, copy.1 ≤ input.outputBufferLength
  failure : submission.status.ntSuccess = false → submission.bytesReturned =
      submission.sent.elim 0 (sizeNeeded input inputOperation)

/-- A method reaches the lower layer with more room than was bounced. -/
def Overstated (input : SubmitInput) : Prop :=
  (∃ i, input.interface = .ok i) ∧ input.key.requestType = .method ∧
    input.informationBufferLength < input.outputBufferLength

variable {input : SubmitInput}

@[simp] theorem requestType_request (a : ℕ) :
    (input.request a).requestType = input.key.requestType := by
  unfold SubmitInput.request
  cases h : input.key.requestType <;> simp

theorem told_request_le
    (h : input.key.requestType = .method →
      input.outputBufferLength ≤ input.informationBufferLength) :
    ∀ length ∈ told (input.request 0),
      length ≤ input.informationBufferLength := by
  unfold told
  rw [requestType_request]
  cases htype : input.key.requestType <;>
    simp [SubmitInput.request, htype, zeroedRequest, h]

theorem capacity_mem_told (request : NdisOidRequest) :
    capacity request ∈ told request := by
  unfold capacity told
  cases request.requestType <;> simp

variable {request : NdisOidRequest} {answer : LowerAnswer}

theorem bytesProcessed_le (hbounded : answer.Bounded request)
    (hsuccess : (fnConvertNdisStatusToNtStatus
      (finalStatus answer.status)).ntSuccess = true) :
    bytesProcessed (withResults request answer.results) answer.status ≤
      capacity request := by
  have hreported := hbounded.2
  unfold bytesProcessed
  revert hreported hsuccess
  cases finalStatus answer.status with
  | bufferTooShort => exact fun hsuccess => absurd hsuccess (by decide)
  | success =>
    unfold reported capacity withResults
    cases request.requestType <;> simp
  | _ => simp

theorem bytesProcessed_of_not_success
    (hfailure : (fnConvertNdisStatusToNtStatus
      (finalStatus answer.status)).ntSuccess = false) :
    bytesProcessed (withResults request answer.results) answer.status =
      if finalStatus answer.status = .bufferTooShort ∧ request.requestType ∈
          [.queryInformation, .setInformation, .method] then
        answer.results.bytesNeeded
      else 0 := by
  unfold bytesProcessed
  revert hfailure
  cases finalStatus answer.status with
  | success => exact fun hfailure => absurd hfailure (by decide)
  | bufferTooShort =>
    unfold withResults
    cases request.requestType <;> simp
  | _ => simp

theorem ntSuccess_of_isBufferTooSmall {status : SubmitStatus}
    (h : status.isBufferTooSmall = true) : status.ntSuccess = false := by
  rcases of_decide_eq_true h with rfl | rfl <;> decide

variable {inputOperation : Bool}

theorem submitReply_inside (infoBuffer : List UInt8)
    (hbounded : answer.Bounded (input.request 0))
    (htold : ∀ length ∈ told (input.request 0),
      length ≤ input.informationBufferLength) :
    Inside input inputOperation
      (submitReply input inputOperation (some (input.request 0, answer))
        infoBuffer (oidInternalRequest (input.request 0) (some answer))) := by
  have hcapacity := htold _ (capacity_mem_told _)
  have hlower : ∀ sent ∈ some (input.request 0, answer),
      (∀ length ∈ told sent.1, length ≤ input.informationBufferLength) ∧
        sent.2.written.length ≤ input.informationBufferLength.toNat := by
    rintro sent ⟨⟩
    exact ⟨htold, hbounded.1.trans (UInt32.le_iff_toNat_le.mp hcapacity)⟩
  rw [oidInternalRequest, submitReply]
  split_ifs with hprobe hfailure hshort
  · refine ⟨hlower, by simp, by simp, fun _ => ?_⟩
    obtain ⟨hsmall, houtput, hoperation⟩ := hprobe
    rw [Bool.not_eq_true'] at hoperation
    simp [sizeNeeded, houtput, hoperation, bytesProcessed_of_not_success
      (ntSuccess_of_isBufferTooSmall hsmall)]
  · refine ⟨hlower, by simp, by simp, fun _ => (if_neg ?_).symm⟩
    rintro ⟨hstatus, houtput, hoperation, -⟩
    dsimp only at hstatus
    exact hprobe ⟨hstatus ▸ rfl, houtput, by simp [hoperation]⟩
  · refine ⟨hlower, by simp, by simp, fun _ => (if_neg ?_).symm⟩
    rintro ⟨hstatus, -⟩
    dsimp only at hstatus
    exact hfailure (hstatus ▸ rfl)
  · rw [Bool.not_eq_true, Bool.not_eq_false'] at hfailure
    refine ⟨hlower, ?_, ?_, fun h => absurd h (by simp [hfailure])⟩
    · rintro copy ⟨⟩
      exact UInt32.le_trans (bytesProcessed_le hbounded hfailure) hcapacity
    · rintro copy ⟨⟩
      exact UInt32.not_lt.mp hshort

theorem oidIrpSubmitRequest_inside {lower : Option LowerAnswer}
    (hkept : ¬ Overstated input)
    (hbounded : ∀ answer ∈ lower, answer.Bounded (input.request 0)) :
    Inside input inputOperation
      (oidIrpSubmitRequest input inputOperation lower) := by
  cases hi : input.interface with
  | error status =>
    simp only [oidIrpSubmitRequest, hi]
    exact ⟨by simp, by simp, by simp, fun _ => rfl⟩
  | ok i =>
    simp only [oidIrpSubmitRequest, hi]
    cases lower with
    | none =>
      have hcode : (SubmitStatus.code 0xC0010018).isBufferTooSmall =
          false ∧ (SubmitStatus.code 0xC0010018).ntSuccess = false := by
        decide
      simp only [oidInternalRequest, submitReply, hcode.1, hcode.2,
        Bool.false_eq_true, false_and, if_false, Bool.not_false, if_true]
      exact ⟨by simp, by simp, by simp, fun _ => rfl⟩
    | some answer =>
      refine submitReply_inside _ (hbounded answer rfl)
        (told_request_le fun htype => ?_)
      exact UInt32.not_lt.mp fun h => hkept ⟨⟨i, hi⟩, htype, h⟩

/-- The call stays inside its buffers, whatever the lower layer does within the
length it is told, unless a method claims more room than was bounced. -/
theorem submit_inside_iff (input : SubmitInput) (inputOperation : Bool) :
    (∀ lower : Option LowerAnswer,
      (∀ answer ∈ lower, answer.Bounded (input.request 0)) →
      Inside input inputOperation
        (oidIrpSubmitRequest input inputOperation lower)) ↔
      ¬ Overstated input := by
  constructor
  · rintro hinside ⟨⟨i, hi⟩, htype, hless⟩
    have h := (hinside (some ⟨[], ⟨0, 0, 0, 0⟩, .notSupported⟩) (by
      rintro answer ⟨⟩
      simp [LowerAnswer.Bounded, reported, htype])).lower
    simp [oidIrpSubmitRequest, hi, oidInternalRequest, submitReply,
      fnConvertNdisStatusToNtStatus, finalStatus, SubmitStatus.ntSuccess,
      SubmitStatus.isBufferTooSmall, NtStatus.ntSuccess, told, htype,
      SubmitInput.request] at h
    exact UInt32.not_lt.mpr h hless
  · exact fun hkept _ => oidIrpSubmitRequest_inside hkept

def shortMethod : SubmitInput where
  apiVersion := lwfApiver2
  inputBufferLength := 24
  keyStatus := .success
  key := ⟨.other 1, .method, 0, 0⟩
  informationStatus := .success
  information := { (zeroedRequest 0).information with bytes := [1, 2, 3, 4] }
  informationBufferLength := 4
  outputBufferLength := 8

theorem method_writes_beyond_buffer : let answer : LowerAnswer :=
      ⟨List.replicate 8 7, ⟨8, 0, 8, 0⟩, .success⟩
    answer.Bounded (shortMethod.request 0) ∧
    ¬ Inside shortMethod false
      (oidIrpSubmitRequest shortMethod false (some answer)) := by
  refine ⟨⟨by decide, by decide⟩, fun h => ?_⟩
  exact absurd (h.read _ rfl) (by decide)

end WinNetTest.Fnlwf.Oid
