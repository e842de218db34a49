import WinNetTest.Fnmp.Configuration

/-!
# The QUIC connection OIDs

The loop of `MpProcessMethodOid` counts `InputBufferLength` down while it
writes a status into every connection, and then reports what is left of it as
`BytesRead`.  All connections are processed, and none of the bytes is reported
as read.
-/

namespace WinNetTest.Fnmp.QuicConnections

open Support

/-- The loop, with the bytes before and behind `Connection`, and what is left
of `InputBufferLength`. -/
def connectionLoop (size : UInt32) (statusOffset : ℕ) :
    ℕ → List UInt8 → List UInt8 → UInt32 → List UInt8 × UInt32
  | 0, done, rest, inputBufferLength => (done ++ rest, inputBufferLength)
  | fuel + 1, done, rest, inputBufferLength =>
    if 0 < inputBufferLength then
      connectionLoop size statusOffset fuel
        (done ++ (rest.take statusOffset ++ leBytes 4 0 ++
          (rest.take size.toNat).drop (statusOffset + 4)))
        (rest.drop size.toNat) (inputBufferLength - size)
    else (done ++ rest, inputBufferLength)

def Accepted (sizes : NdisSizes) (request : NdisOidRequest) : Prop :=
  request.inputBufferLength ≠ 0 ∧
    request.inputBufferLength % sizes.quicConnection = 0 ∧
    request.inputBufferLength = request.outputBufferLength

instance (sizes : NdisSizes) (request : NdisOidRequest) :
    Decidable (Accepted sizes request) :=
  inferInstanceAs (Decidable (_ ∧ _))

/-- The buffer after the request: `NDIS_STATUS_SUCCESS` in the `Status` of every
connection, all other bytes as they were. -/
def StatusesWritten {sizes : NdisSizes} (layout : NdisLayout sizes)
    (request : NdisOidRequest) (bytes : List UInt8) : Prop :=
  ∀ i : ℕ, bytes[i]? = if i < request.inputBufferLength.toNat ∧
        layout.quicStatusOffset ≤ i % sizes.quicConnection.toNat ∧
        i % sizes.quicConnection.toNat < layout.quicStatusOffset + 4 then
      some 0
    else request.information.bytes[i]?

/-- Everything is processed and reported, or refused and left alone. -/
def Complete {sizes : NdisSizes} (layout : NdisLayout sizes)
    (request : NdisOidRequest) (processed : Processed) : Prop :=
  if Accepted sizes request then
    processed.status = .success ∧
      StatusesWritten layout request processed.request.information.bytes ∧
      processed.request.bytesWritten = request.outputBufferLength ∧
      processed.request.bytesRead = request.inputBufferLength
  else processed.status = .invalidParameter ∧ processed.request = request

theorem connectionLoop_eq {size : UInt32} (statusOffset : ℕ) (hsize : 0 < size)
    (n fuel : ℕ) (hfuel : n ≤ fuel) (done rest : List UInt8)
    {inputBufferLength : UInt32}
    (hlength : inputBufferLength.toNat = n * size.toNat) :
    connectionLoop size statusOffset fuel done rest inputBufferLength =
      (done ++ succeedConnections size.toNat statusOffset n rest, 0) := by
  have hpos : 0 < size.toNat := UInt32.lt_iff_toNat_lt.mp hsize
  induction n generalizing fuel done rest inputBufferLength with
  | zero =>
    obtain rfl : inputBufferLength = 0 := by
      rw [← UInt32.toNat_inj, hlength, Nat.zero_mul]
      rfl
    cases fuel <;> simp [connectionLoop, succeedConnections]
  | succ n ih =>
    obtain ⟨fuel, rfl⟩ :=
      Nat.exists_eq_add_of_le' ((Nat.le_add_left 1 n).trans hfuel)
    have hle : size.toNat ≤ inputBufferLength.toNat := by
      rw [hlength, Nat.succ_mul]
      omega
    have hsub : (inputBufferLength - size).toNat = n * size.toNat := by
      rw [UInt32.toNat_sub_of_le _ _ (UInt32.le_iff_toNat_le.mpr hle),
        hlength, Nat.succ_mul, Nat.add_sub_cancel]
    rw [connectionLoop,
      if_pos (UInt32.lt_iff_toNat_lt.mpr (by simpa using hpos.trans_le hle)),
      ih fuel (by omega) _ _ hsub, succeedConnections]
    simp only [List.append_assoc]

variable {size statusOffset : ℕ} {bytes : List UInt8}

section

variable (hstatus : statusOffset + 4 ≤ size)

include hstatus

theorem length_connection (hbytes : size ≤ bytes.length) :
    (bytes.take statusOffset ++ leBytes 4 0 ++
      (bytes.take size).drop (statusOffset + 4)).length = size := by
  simp
  omega

theorem length_succeedConnections (n : ℕ) (hbytes : n * size ≤ bytes.length) :
    (succeedConnections size statusOffset n bytes).length = bytes.length := by
  induction n generalizing bytes with
  | zero => rfl
  | succ n ih =>
    rw [Nat.succ_mul] at hbytes
    rw [succeedConnections, List.length_append,
      length_connection hstatus (by omega), ih (by simp; omega),
      List.length_drop]
    omega

theorem getElem?_succeedConnections (n : ℕ) (hbytes : n * size ≤ bytes.length)
    (i : ℕ) :
    (succeedConnections size statusOffset n bytes)[i]? =
      if i < n * size ∧ statusOffset ≤ i % size ∧
          i % size < statusOffset + 4 then some 0
      else bytes[i]? := by
  induction n generalizing bytes i with
  | zero => simp [succeedConnections]
  | succ n ih =>
    rw [Nat.succ_mul] at hbytes ⊢
    have hhead := length_connection hstatus
      (show size ≤ bytes.length by omega)
    have hzero : leBytes 4 0 = List.replicate 4 0 := by decide
    rw [succeedConnections]
    by_cases hi : i < size
    · rw [List.getElem?_append_left (by omega), Nat.mod_eq_of_lt hi, hzero]
      by_cases hbefore : i < statusOffset
      · rw [List.append_assoc, List.getElem?_append_left (by simp; omega),
          List.getElem?_take_of_lt hbefore, if_neg (by omega)]
      · by_cases hinside : i < statusOffset + 4
        · rw [List.getElem?_append_left (by simp; omega),
            List.getElem?_append_right (by simp; omega),
            List.getElem?_replicate_of_lt (by simp; omega), if_pos (by omega)]
        · have hlength : (bytes.take statusOffset ++
              List.replicate 4 0).length = statusOffset + 4 := by
            simp
            omega
          rw [List.getElem?_append_right (by omega), hlength,
            List.getElem?_drop, Nat.add_sub_cancel' (by omega),
            List.getElem?_take_of_lt hi, if_neg (by omega)]
    · have hle : size ≤ i := Nat.not_lt.mp hi
      rw [List.getElem?_append_right (by omega), hhead,
        ih (by simp; omega), List.getElem?_drop, Nat.add_sub_cancel' hle,
        ← Nat.mod_eq_sub_mod hle]
      simp only [Nat.sub_lt_iff_lt_add hle]

end

theorem answerMethod_eq {sizes : NdisSizes} (layout : NdisLayout sizes)
    (config : AdapterConfig) (i : OidRequestInterface)
    {request : NdisOidRequest}
    (hoid : request.oid = .quicConnectionEncryption ∨
      request.oid = .quicConnectionEncryptionPrototype) :
    answerMethod layout config i request = if Accepted sizes request then
        ⟨.success, NdisOidRequest.fill
            { request with
              bytesRead := 0, bytesWritten := request.outputBufferLength }
            (succeedConnections sizes.quicConnection.toNat
              layout.quicStatusOffset
              (request.inputBufferLength / sizes.quicConnection).toNat
              (request.information.bytes.take
                request.inputBufferLength.toNat)), config⟩
      else ⟨.invalidParameter, request, config⟩ := by
  have hrefused : (request.inputBufferLength = 0 ∨
      request.inputBufferLength % sizes.quicConnection ≠ 0 ∨
      request.inputBufferLength ≠ request.outputBufferLength) ↔
        ¬ Accepted sizes request := by
    unfold Accepted
    tauto
  unfold answerMethod mpProcessMethodOid
  rcases hoid with hoid | hoid <;> simp only [hoid, hrefused] <;>
    by_cases h : Accepted sizes request <;> simp [h]

/-- Every connection is processed and no byte is reported as read: the
processing is complete exactly when there is no connection. -/
theorem quic_processing_complete_iff {sizes : NdisSizes}
    (layout : NdisLayout sizes) (config : AdapterConfig)
    (i : OidRequestInterface) {request : NdisOidRequest}
    (hoid : request.oid = .quicConnectionEncryption ∨
      request.oid = .quicConnectionEncryptionPrototype)
    (hstatus : layout.quicStatusOffset + 4 ≤ sizes.quicConnection.toNat)
    (hbacked : request.inputBufferLength.toNat ≤
      request.information.bytes.length) :
    (Accepted sizes request →
      (answerMethod layout config i request).status = .success ∧
      StatusesWritten layout request
        (answerMethod layout config i request).request.information.bytes ∧
      (answerMethod layout config i request).request.bytesWritten =
        request.outputBufferLength ∧
      (answerMethod layout config i request).request.bytesRead =
        (connectionLoop sizes.quicConnection layout.quicStatusOffset
          request.inputBufferLength.toNat [] request.information.bytes
          request.inputBufferLength).2) ∧
    (Complete layout request (answerMethod layout config i request) ↔
      ¬ Accepted sizes request) := by
  rw [answerMethod_eq layout config i hoid]
  unfold Complete
  by_cases haccepted : Accepted sizes request
  · have hpos : 0 < sizes.quicConnection :=
      UInt32.lt_iff_toNat_lt.mpr (by simp; omega)
    have hcount : (request.inputBufferLength / sizes.quicConnection).toNat *
        sizes.quicConnection.toNat = request.inputBufferLength.toNat := by
      have hmod := congrArg UInt32.toNat haccepted.2.1
      rw [UInt32.toNat_mod] at hmod
      rw [UInt32.toNat_div]
      exact Nat.div_mul_cancel (Nat.dvd_of_mod_eq_zero hmod)
    have htake : (request.information.bytes.take
        request.inputBufferLength.toNat).length =
          request.inputBufferLength.toNat := by simpa using hbacked
    have hlength := length_succeedConnections hstatus
      (request.inputBufferLength / sizes.quicConnection).toNat
      (hcount.trans htake.symm).le
    have hloop := connectionLoop_eq layout.quicStatusOffset hpos
      (request.inputBufferLength / sizes.quicConnection).toNat
      request.inputBufferLength.toNat
      (UInt32.toNat_div .. ▸ Nat.div_le_self ..) []
      request.information.bytes hcount.symm
    simp only [if_pos haccepted, hloop]
    refine ⟨fun _ => ⟨trivial, fun j => ?_, rfl, rfl⟩, ?_⟩
    · rw [NdisOidRequest.fill]
      dsimp only
      rw [hlength, htake]
      by_cases hj : j < request.inputBufferLength.toNat
      · rw [List.getElem?_append_left (by omega),
          getElem?_succeedConnections hstatus _ (hcount.trans htake.symm).le,
          hcount, List.getElem?_take_of_lt hj]
      · rw [List.getElem?_append_right (by omega), hlength, htake,
          List.getElem?_drop, Nat.add_sub_cancel' (by omega),
          if_neg fun h => hj h.1]
    · refine iff_of_false (fun h => ?_) (not_not_intro haccepted)
      exact haccepted.1 h.2.2.2.symm
  · simp [haccepted]

def twoConnections : NdisOidRequest :=
  Configuration.requestOf .method .quicConnectionEncryption
    (List.replicate 200 7)

def sampleConfig : AdapterConfig := ⟨true, 1500, 0, 0, [], 0⟩

theorem quic_processing_complete_iff_two :
    ¬ Complete sampleLayout twoConnections
      (answerMethod sampleLayout sampleConfig .regular twoConnections) ∧
    StatusesWritten sampleLayout twoConnections
      (answerMethod sampleLayout sampleConfig .regular
        twoConnections).request.information.bytes := by
  have haccepted : Accepted ⟨16, 40, 200, 28, 40, 20, 100⟩ twoConnections := by
    decide +kernel
  have hoid : twoConnections.oid = .quicConnectionEncryption ∨
      twoConnections.oid = .quicConnectionEncryptionPrototype := Or.inl rfl
  obtain ⟨hwritten, hiff⟩ := quic_processing_complete_iff sampleLayout
    sampleConfig .regular hoid (by decide) (by decide +kernel)
  exact ⟨hiff.not.mpr (not_not_intro haccepted), (hwritten haccepted).2.1⟩

theorem connections_not_reported_as_read :
    (answerMethod sampleLayout sampleConfig .regular
      twoConnections).status = .success ∧
    (answerMethod sampleLayout sampleConfig .regular
      twoConnections).request.bytesRead = 0 ∧
    twoConnections.inputBufferLength = 200 := by
  decide +kernel

end WinNetTest.Fnmp.QuicConnections
