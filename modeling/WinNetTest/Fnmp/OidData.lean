import WinNetTest.Fnmp.OidProcess

/-!
# The data of OID requests

The processing routines of the previous module decide the status of a request
and its byte counts.  Here they also move bytes.  A query points `Data` at an
object, sets `DataLength` on its own, and leaves the copy to a common tail; a
method may write into the buffer it was given.  Nothing keeps a query from
naming more bytes than the object has, so what lies in memory behind the
object is part of the model.
-/

namespace WinNetTest.Fnmp

open Support

/-! ## What the NDIS headers give -/

/-- The numbers of the OIDs, the version the driver is built for, and how NDIS
lays out the structures the routines fill in. -/
structure NdisLayout (sizes : NdisSizes) where
  oidValue : Oid → UInt32
  majorVersion : UInt8
  minorVersion : UInt8
  linkSpeed : (xmitLinkSpeed rcvLinkSpeed : UInt64) → List UInt8
  length_linkSpeed : ∀ xmit rcv,
    (linkSpeed xmit rcv).length = sizes.linkSpeed.toNat
  linkState : (xmitLinkSpeed rcvLinkSpeed : UInt64) →
    (mediaConnectState : UInt32) → List UInt8
  length_linkState : ∀ xmit rcv connect,
    (linkState xmit rcv connect).length = sizes.linkState.toNat
  statisticsInfo : (type revision : UInt8) → (size : UInt16) →
    (supportedStatistics : UInt32) → List UInt8
  length_statisticsInfo : ∀ type revision size supported,
    (statisticsInfo type revision size supported).length =
      sizes.statisticsInfo.toNat
  /-- Where `Status` lies in an `NDIS_QUIC_CONNECTION`. -/
  quicStatusOffset : ℕ

def ulongBytes (value : UInt32) : List UInt8 :=
  leBytes 4 value.toNat

@[simp] theorem length_ulongBytes (value : UInt32) :
    (ulongBytes value).length = 4 :=
  length_leBytes 4 value.toNat

def ndisHardwareStatusReady : UInt32 := 0

def ndisMedium8023 : UInt32 := 0

def ndisMediaStateConnected : UInt32 := 0

def mediaConnectStateConnected : UInt32 := 1

def mediaDuplexStateFull : UInt32 := 2

/-- `NDIS_MAC_OPTION_NO_LOOPBACK`, `NDIS_MAC_OPTION_COPY_LOOKAHEAD_DATA` and
`NDIS_MAC_OPTION_TRANSFERS_NOT_PEND`. -/
def macOptions : UInt32 := 0x8 ||| 0x1 ||| 0x4

/-- The statistics reported as supported: discards, bytes, directed and
broadcast frames, in both directions. -/
def supportedStatistics : UInt32 :=
  0x10 ||| 0x8 ||| 0x8000 ||| 0x200 ||| 0x1 ||| 0x40 ||| 0x4 ||| 0x100

def mpLinkSpeed : UInt32 := 0xFFFFFFFF

/-- The four link speeds of `MpGlobalContext` that are kept in bits per
second. -/
def mpLinkSpeedEx : UInt64 := 100000000000

/-- `MpMacAddressBase`, which every adapter copies into `MACAddress`. -/
def mpMacAddressBase : List UInt8 := [0x22, 0x22, 0x22, 0x22, 0x00, 0x00]

/-- `MpDriverFriendlyName`, the string `FNMP` and the zero that ends it. -/
def mpDriverFriendlyName : List UInt8 := [0x46, 0x4E, 0x4D, 0x50, 0x00]

def mpSupportedOidArray : List Oid :=
  [.genSupportedList, .genHardwareStatus, .genMediaSupported, .genMediaInUse,
    .genMaximumLookahead, .genMaximumFrameSize, .genLinkSpeed,
    .genTransmitBufferSpace, .genReceiveBufferSpace, .genTransmitBlockSize,
    .genReceiveBlockSize, .genVendorId, .genVendorDescription,
    .genCurrentPacketFilter, .genCurrentLookahead, .genMaximumTotalSize,
    .genMacOptions, .genMediaConnectStatus, .genLinkSpeedEx, .genMaxLinkSpeed,
    .genMediaConnectStatusEx, .genMediaDuplexState, .genLinkState,
    .genStatistics, .ieee8023PermanentAddress, .ieee8023CurrentAddress,
    .ieee8023MulticastList, .ieee8023MaximumListSize, .pnpSetPower,
    .pnpQueryPower, .offloadEncapsulation, .genReceiveScaleCapabilities,
    .genReceiveScaleParameters, .genDriverVersion, .tcpOffloadParameters,
    .tcpOffloadHwParameters, .quicConnectionEncryption,
    .quicConnectionEncryptionPrototype, .fnmpSetNop]

/-! ## The buffer of a request -/

def NdisOidRequest.Backed (request : NdisOidRequest) : Prop :=
  request.informationBufferLength.toNat ≤ request.information.bytes.length

instance (request : NdisOidRequest) : Decidable request.Backed :=
  inferInstanceAs (Decidable (_ ≤ _))

def NdisOidRequest.fill (request : NdisOidRequest) (bytes : List UInt8) :
    NdisOidRequest :=
  { request with
    information :=
      { request.information with
        bytes := bytes ++ request.information.bytes.drop bytes.length } }

section Fill

variable (request : NdisOidRequest) (bytes : List UInt8)

@[simp] theorem NdisOidRequest.id_fill :
    (request.fill bytes).id = request.id := rfl

@[simp] theorem NdisOidRequest.bytesWritten_fill :
    (request.fill bytes).bytesWritten = request.bytesWritten := rfl

@[simp] theorem NdisOidRequest.bytesNeeded_fill :
    (request.fill bytes).bytesNeeded = request.bytesNeeded := rfl

@[simp] theorem NdisOidRequest.bytes_fill :
    (request.fill bytes).information.bytes =
      bytes ++ request.information.bytes.drop bytes.length := rfl

theorem NdisOidRequest.drop_fill {bytes : List UInt8} {n : ℕ}
    (h : bytes.length ≤ n) :
    (request.fill bytes).information.bytes.drop n =
      request.information.bytes.drop n := by
  rw [bytes_fill, List.drop_append, List.drop_eq_nil_of_le h, List.nil_append,
    List.drop_drop, Nat.add_sub_of_le h]

end Fill

/-! ## Queries -/

/-- The object `Data` points to after the switch of `MpProcessQueryOid`. -/
def queryObject {sizes : NdisSizes} (layout : NdisLayout sizes)
    (config : AdapterConfig) (request : NdisOidRequest) : List UInt8 :=
  match request.oid with
  | .genSupportedList =>
    mpSupportedOidArray.flatMap fun oid => ulongBytes (layout.oidValue oid)
  | .genHardwareStatus => ulongBytes ndisHardwareStatusReady
  | .genMediaSupported | .genMediaInUse => ulongBytes ndisMedium8023
  | .genMaximumLookahead | .genMaximumFrameSize => ulongBytes config.mtuSize
  | .genCurrentLookahead => ulongBytes config.currentLookAhead
  | .genLinkSpeed => ulongBytes mpLinkSpeed
  | .genTransmitBufferSpace | .genReceiveBufferSpace | .genMaximumTotalSize
  | .genTransmitBlockSize | .genReceiveBlockSize =>
    ulongBytes (config.mtuSize + ethHdrLen)
  | .genDriverVersion =>
    leBytes 2 (layout.majorVersion.toNat * 256 + layout.minorVersion.toNat)
  | .genVendorId => ulongBytes 0x00FFFFFF
  | .genVendorDescription => mpDriverFriendlyName
  | .genCurrentPacketFilter => ulongBytes config.currentPacketFilter
  | .genMacOptions => ulongBytes macOptions
  | .genLinkState =>
    layout.linkState mpLinkSpeedEx mpLinkSpeedEx mediaConnectStateConnected
  | .genMediaConnectStatus => ulongBytes ndisMediaStateConnected
  | .ieee8023PermanentAddress | .ieee8023CurrentAddress => mpMacAddressBase
  | .ieee8023MaximumListSize => ulongBytes maxMulticastAddresses
  | .ieee8023MulticastList =>
    if !config.isMedium8023 then ulongBytes 0
    else if request.informationBufferLength % macAddrLen ≠ 0 then
      ulongBytes 0
    else config.multicastAddressList
  | .genLinkSpeedEx | .genMaxLinkSpeed =>
    layout.linkSpeed mpLinkSpeedEx mpLinkSpeedEx
  | .genMediaConnectStatusEx => ulongBytes mediaConnectStateConnected
  | .genMediaDuplexState => ulongBytes mediaDuplexStateFull
  | .genStatistics =>
    layout.statisticsInfo 0x80 1 sizes.statisticsInfo.toUInt16
      supportedStatistics
  | _ => ulongBytes 0

structure Copy where
  object : List UInt8
  length : UInt32
  deriving DecidableEq

/-- The bytes a copy moves.  Those beyond the end of the object are what the
memory behind it holds. -/
def Copy.bytes (copy : Copy) (beyond : ℕ → UInt8) : List UInt8 :=
  copy.object.take copy.length.toNat ++
    (List.range (copy.length.toNat - copy.object.length)).map beyond

/-- The copy `MpProcessQueryOid` makes, if it makes one. -/
def queryCopy {sizes : NdisSizes} (layout : NdisLayout sizes)
    (config : AdapterConfig) (request : NdisOidRequest) : Option Copy :=
  let answer := queryAnswer sizes config request
  if !answer.doCopy then none
  else if request.informationBufferLength < answer.dataLength then none
  else some ⟨queryObject layout config request, answer.dataLength⟩

/-- `MpProcessQueryOid` behind the filter, with its copy. -/
def answerQuery {sizes : NdisSizes} (layout : NdisLayout sizes)
    (beyond : ℕ → UInt8) (config : AdapterConfig) (request : NdisOidRequest) :
    Processed :=
  let processed := mpProcessQueryOid sizes config request
  match queryCopy layout config request with
  | none => processed
  | some copy =>
    { processed with request := processed.request.fill (copy.bytes beyond) }

section Query

variable {sizes : NdisSizes} (layout : NdisLayout sizes) (beyond : ℕ → UInt8)
  {config : AdapterConfig} {request : NdisOidRequest}

@[simp] theorem Copy.length_bytes (copy : Copy) :
    (copy.bytes beyond).length = copy.length.toNat := by
  simp only [Copy.bytes, List.length_append, List.length_take,
    List.length_map, List.length_range]
  omega

theorem Copy.bytes_of_le {copy : Copy}
    (h : copy.length.toNat ≤ copy.object.length) :
    copy.bytes beyond = copy.object.take copy.length.toNat := by
  simp [Copy.bytes, Nat.sub_eq_zero_of_le h]

theorem answerQuery_of_not_doCopy
    (hcopy : (queryAnswer sizes config request).doCopy = false) :
    queryCopy layout config request = none ∧
      answerQuery layout beyond config request =
        ⟨(queryAnswer sizes config request).status,
          { request with bytesWritten := 0 }, config⟩ := by
  have hnone : queryCopy layout config request = none := by
    simp [queryCopy, hcopy]
  have hskip : (!(queryAnswer sizes config request).doCopy) = true := by
    simp [hcopy]
  refine ⟨hnone, ?_⟩
  simp only [answerQuery, hnone]
  exact if_pos hskip

section

variable (hcopy : (queryAnswer sizes config request).doCopy = true)

include hcopy

theorem answerQuery_of_short
    (hshort : request.informationBufferLength <
      (queryAnswer sizes config request).dataLength) :
    queryCopy layout config request = none ∧
      answerQuery layout beyond config request = ⟨.bufferTooShort,
          { request with
            bytesWritten := 0
            bytesNeeded := (queryAnswer sizes config request).dataLength },
          config⟩ := by
  have hnone : queryCopy layout config request = none := by
    simp [queryCopy, hcopy, hshort]
  have hdo : ¬ (!(queryAnswer sizes config request).doCopy) = true := by
    simp [hcopy]
  refine ⟨hnone, ?_⟩
  simp only [answerQuery, hnone]
  exact (if_neg hdo).trans (if_pos hshort)

theorem answerQuery_of_room
    (hroom : ¬ request.informationBufferLength <
      (queryAnswer sizes config request).dataLength) :
    queryCopy layout config request = some ⟨queryObject layout config request,
          (queryAnswer sizes config request).dataLength⟩ ∧
      answerQuery layout beyond config request =
        ⟨(queryAnswer sizes config request).status, NdisOidRequest.fill
            { request with
              bytesWritten := (queryAnswer sizes config request).dataLength }
            (Copy.bytes ⟨queryObject layout config request,
              (queryAnswer sizes config request).dataLength⟩ beyond),
          config⟩ := by
  have hsome : queryCopy layout config request =
      some ⟨queryObject layout config request,
        (queryAnswer sizes config request).dataLength⟩ := by
    simp [queryCopy, hcopy, hroom]
  have hdo : ¬ (!(queryAnswer sizes config request).doCopy) = true := by
    simp [hcopy]
  have hprocessed : mpProcessQueryOid sizes config request =
      ⟨(queryAnswer sizes config request).status, { request with
          bytesWritten := (queryAnswer sizes config request).dataLength },
        config⟩ :=
    (if_neg hdo).trans (if_neg hroom)
  refine ⟨hsome, ?_⟩
  simp only [answerQuery, hsome, hprocessed]

end

end Query

/-! ## Methods -/

def succeedConnections (size statusOffset : ℕ) : ℕ → List UInt8 → List UInt8
  | 0, bytes => bytes
  | n + 1, bytes =>
    bytes.take statusOffset ++ leBytes 4 0 ++
      (bytes.take size).drop (statusOffset + 4) ++
        succeedConnections size statusOffset n (bytes.drop size)

/-- `MpProcessMethodOid` behind the filter, with what it writes: a status in
every QUIC connection of the buffer. -/
def answerMethod {sizes : NdisSizes} (layout : NdisLayout sizes)
    (config : AdapterConfig) (i : OidRequestInterface)
    (request : NdisOidRequest) : Processed :=
  let processed := mpProcessMethodOid sizes config i request
  match request.oid with
  | .quicConnectionEncryption | .quicConnectionEncryptionPrototype =>
    if processed.status = .success then
      { processed with
        request := processed.request.fill
          (succeedConnections sizes.quicConnection.toNat
            layout.quicStatusOffset
            (request.inputBufferLength / sizes.quicConnection).toNat
            (request.information.bytes.take
              request.inputBufferLength.toNat)) }
    else processed
  | _ => processed

def answerOid {sizes : NdisSizes} (layout : NdisLayout sizes)
    (beyond : ℕ → UInt8) (config : AdapterConfig) (i : OidRequestInterface)
    (request : NdisOidRequest) : Processed :=
  match request.requestType with
  | .queryInformation | .queryStatistics =>
    answerQuery layout beyond config request
  | .setInformation => mpProcessSetOid sizes config request
  | .method => answerMethod layout config i request
  | .other _ => ⟨.notSupported, request, config⟩

/-! ## The data changes nothing else -/

section Agreement

variable {sizes : NdisSizes} (layout : NdisLayout sizes) (beyond : ℕ → UInt8)
  (config : AdapterConfig) (request : NdisOidRequest)

structure Processed.SameButData (p q : Processed) : Prop where
  status : p.status = q.status
  config : p.config = q.config
  request : ∃ bytes, p.request = q.request.fill bytes

theorem Processed.SameButData.refl (p : Processed) : p.SameButData p :=
  ⟨rfl, rfl, [], rfl⟩

theorem answerQuery_sameButData :
    (answerQuery layout beyond config request).SameButData
      (mpProcessQueryOid sizes config request) := by
  unfold answerQuery
  cases queryCopy layout config request with
  | none => exact .refl _
  | some copy => exact ⟨rfl, rfl, _, rfl⟩

variable (i : OidRequestInterface)

theorem answerMethod_sameButData :
    (answerMethod layout config i request).SameButData
      (mpProcessMethodOid sizes config i request) := by
  unfold answerMethod
  dsimp only
  split
  · split
    · exact ⟨rfl, rfl, _, rfl⟩
    · exact .refl _
  · split
    · exact ⟨rfl, rfl, _, rfl⟩
    · exact .refl _
  · exact .refl _

theorem answerOid_sameButData :
    (answerOid layout beyond config i request).SameButData
      (processOid sizes config i request) := by
  unfold answerOid processOid
  cases request.requestType with
  | queryInformation | queryStatistics =>
    exact answerQuery_sameButData layout beyond config request
  | setInformation | other => exact .refl _
  | method => exact answerMethod_sameButData layout config request i

theorem id_mpProcessQueryOid :
    (mpProcessQueryOid sizes config request).request.id = request.id := by
  unfold mpProcessQueryOid
  dsimp only
  split_ifs <;> rfl

theorem id_mpProcessSetOid :
    (mpProcessSetOid sizes config request).request.id = request.id := by
  unfold mpProcessSetOid
  dsimp only
  split <;> first
    | rfl
    | (split_ifs <;> rfl)

theorem id_mpProcessMethodOid :
    (mpProcessMethodOid sizes config i request).request.id = request.id := by
  unfold mpProcessMethodOid
  split <;> first
    | rfl
    | (split_ifs <;> rfl)

theorem id_answerOid :
    (answerOid layout beyond config i request).request.id = request.id := by
  obtain ⟨_, hrequest⟩ :=
    (answerOid_sameButData layout beyond config request i).request
  rw [hrequest, NdisOidRequest.id_fill]
  unfold processOid
  cases request.requestType with
  | queryInformation | queryStatistics =>
    exact id_mpProcessQueryOid config request
  | setInformation => exact id_mpProcessSetOid config request
  | method => exact id_mpProcessMethodOid config request i
  | other value => rfl

end Agreement

def sampleLayout : NdisLayout ⟨16, 40, 200, 28, 40, 20, 100⟩ where
  oidValue
    | .other value => value
    | _ => 0
  majorVersion := 6
  minorVersion := 60
  linkSpeed xmit rcv := leBytes 8 xmit.toNat ++ leBytes 8 rcv.toNat
  length_linkSpeed xmit rcv := by simp
  linkState xmit rcv connect :=
    leBytes 4 0 ++ leBytes 4 connect.toNat ++ leBytes 8 0 ++
      leBytes 8 xmit.toNat ++ leBytes 8 rcv.toNat ++ leBytes 8 0
  length_linkState xmit rcv connect := by simp
  statisticsInfo type revision size supported :=
    [type, revision] ++ leBytes 2 size.toNat ++ leBytes 4 supported.toNat ++
      leBytes 192 0
  length_statisticsInfo type revision size supported := by simp
  quicStatusOffset := 4

end WinNetTest.Fnmp
