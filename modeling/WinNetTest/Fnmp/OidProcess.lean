import WinNetTest.Fnmp.Oid
import WinNetTest.Support.Memory

/-!
# Processing OID requests

A request that is not pended is processed by one of three routines, for
queries, sets and methods.  They compute the status of the request and its
byte counts, and a set may change the configuration of the adapter.  The
sizes of the structures that come from the NDIS headers are parameters.
-/

namespace WinNetTest.Fnmp

open Support

structure NdisSizes where
  linkSpeed : UInt32
  linkState : UInt32
  statisticsInfo : UInt32
  offloadEncapsulation : UInt32
  receiveScaleParameters : UInt32
  offloadParameters : UInt32
  quicConnection : UInt32

def macAddrLen : UInt32 := 6

def maxMulticastAddresses : UInt32 := 16

def ethHdrLen : UInt32 := 14

/-- `sizeof(MpSupportedOidArray)`: 39 OIDs of four bytes. -/
def mpSupportedOidArraySize : UInt32 := 156

structure AdapterConfig where
  isMedium8023 : Bool
  mtuSize : UInt32
  currentPacketFilter : UInt32
  currentLookAhead : UInt32
  multicastAddressList : List UInt8
  numMulticastAddresses : UInt32
  deriving DecidableEq, Repr

structure Processed where
  status : NdisStatus
  request : NdisOidRequest
  config : AdapterConfig

/-! ## Queries -/

/-- What the switch of `MpProcessQueryOid` leaves behind: the status so far,
the number of bytes to report and whether the common copy is made. -/
structure QueryAnswer where
  status : NdisStatus := .success
  dataLength : UInt32 := 4
  doCopy : Bool := true

/-- The switch of `MpProcessQueryOid`. -/
def queryAnswer (sizes : NdisSizes) (config : AdapterConfig)
    (request : NdisOidRequest) : QueryAnswer :=
  match request.oid with
  | .genSupportedList => { dataLength := mpSupportedOidArraySize }
  | .genHardwareStatus | .genMediaSupported | .genMediaInUse
  | .genMaximumLookahead | .genCurrentLookahead | .genMaximumFrameSize
  | .genLinkSpeed | .genTransmitBufferSpace | .genReceiveBufferSpace
  | .genMaximumTotalSize | .genTransmitBlockSize | .genReceiveBlockSize
  | .genVendorId | .genCurrentPacketFilter | .genMacOptions
  | .genMediaConnectStatus | .ieee8023MaximumListSize | .pnpQueryPower
  | .genMediaConnectStatusEx | .genMediaDuplexState => {}
  | .genDriverVersion => { dataLength := 2 }
  | .genVendorDescription => { dataLength := 8 }
  | .genLinkState => { dataLength := sizes.linkState }
  | .ieee8023PermanentAddress | .ieee8023CurrentAddress =>
    { dataLength := macAddrLen }
  | .ieee8023MulticastList =>
    { status :=
        if !config.isMedium8023 then .invalidOid
        else if request.informationBufferLength % macAddrLen ≠ 0 then
          .invalidLength
        else .success
      dataLength := config.numMulticastAddresses * macAddrLen }
  | .genLinkSpeedEx | .genMaxLinkSpeed => { dataLength := sizes.linkSpeed }
  | .genStatistics => { dataLength := sizes.statisticsInfo }
  | _ => { status := .notSupported, doCopy := false }

/-- `MpProcessQueryOid` behind the filter. -/
def mpProcessQueryOid (sizes : NdisSizes) (config : AdapterConfig)
    (request : NdisOidRequest) : Processed :=
  let request := { request with bytesWritten := 0 }
  let answer := queryAnswer sizes config request
  if !answer.doCopy then ⟨answer.status, request, config⟩
  else if request.informationBufferLength < answer.dataLength then
    ⟨.bufferTooShort, { request with bytesNeeded := answer.dataLength }, config⟩
  else
    ⟨answer.status, { request with bytesWritten := answer.dataLength }, config⟩

/-! ## Sets -/

def Encapsulation.Supported (encapsulation : Encapsulation) : Prop :=
  encapsulation.enabled = true →
    encapsulation.isIeee8023 = true ∧ encapsulation.headerSize = ethHdrLen

instance (encapsulation : Encapsulation) : Decidable encapsulation.Supported :=
  inferInstanceAs (Decidable (_ → _))

/-- The `OID_OFFLOAD_ENCAPSULATION` branch. -/
def setOffloadEncapsulation (sizes : NdisSizes) (request : NdisOidRequest) :
    NdisStatus :=
  let information := request.information
  if request.informationBufferLength < sizes.offloadEncapsulation then
    .invalidLength
  else if information.headerType ≠ .offloadEncapsulation ∨
      information.headerRevision < 1 ∨
      information.headerSize.toNat < sizes.offloadEncapsulation.toNat then
    .invalidParameter
  else if ¬ information.ipv6.Supported then .notSupported
  else if ¬ information.ipv4.Supported then .notSupported
  else .success

/-- The status of `MpSetOffloadParameters`. -/
def mpSetOffloadParameters (sizes : NdisSizes) (request : NdisOidRequest) :
    NdisStatus :=
  if request.informationBufferLength < sizes.offloadParameters ∨
      request.information.headerType ≠ .default then .invalidParameter
  else .success

/-- The `ULONG` at the start of the buffer. -/
def NdisOidRequest.ulong (request : NdisOidRequest) : UInt32 :=
  UInt32.ofNat (leValue (request.information.bytes.take 4))

/-- `MpProcessSetOid` behind the filter. -/
def mpProcessSetOid (sizes : NdisSizes) (config : AdapterConfig)
    (request : NdisOidRequest) : Processed :=
  let length := request.informationBufferLength
  match request.oid with
  | .offloadEncapsulation =>
    ⟨setOffloadEncapsulation sizes request, request, config⟩
  | .genCurrentPacketFilter =>
    if length < 4 then ⟨.invalidLength, request, config⟩
    else
      ⟨.success, { request with bytesRead := length },
        { config with currentPacketFilter := request.ulong }⟩
  | .genCurrentLookahead =>
    if length < 4 then ⟨.invalidLength, request, config⟩
    else if request.ulong > config.mtuSize then
      ⟨.invalidLength, request, config⟩
    else if request.ulong ≥ config.currentLookAhead then
      ⟨.success, { request with bytesRead := 4 },
        { config with currentLookAhead := request.ulong }⟩
    else ⟨.success, request, config⟩
  | .ieee8023MulticastList =>
    if !config.isMedium8023 then ⟨.invalidOid, request, config⟩
    else if length % macAddrLen ≠ 0 ∨
        length > maxMulticastAddresses * macAddrLen then
      ⟨.invalidLength, request, config⟩
    else
      ⟨.success, request, { config with
          multicastAddressList :=
            request.information.bytes.take length.toNat ++
              config.multicastAddressList.drop length.toNat
          numMulticastAddresses := length / macAddrLen }⟩
  | .pnpSetPower =>
    if length < 4 then ⟨.invalidLength, request, config⟩
    else ⟨.success, { request with bytesRead := 4 }, config⟩
  | .genReceiveScaleParameters =>
    if length < sizes.receiveScaleParameters then
      ⟨.invalidLength, request, config⟩
    else ⟨.success, request, config⟩
  | .tcpOffloadParameters | .tcpOffloadHwParameters =>
    ⟨mpSetOffloadParameters sizes request, request, config⟩
  | .fnmpSetNop => ⟨.success, { request with bytesRead := length }, config⟩
  | _ => ⟨.notSupported, request, config⟩

/-! ## Methods -/

/-- `MpProcessMethodOid` behind the filter. -/
def mpProcessMethodOid (sizes : NdisSizes) (config : AdapterConfig)
    (i : OidRequestInterface) (request : NdisOidRequest) : Processed :=
  match request.oid with
  | .quicConnectionEncryption | .quicConnectionEncryptionPrototype =>
    if request.inputBufferLength = 0 ∨
        request.inputBufferLength % sizes.quicConnection ≠ 0 ∨
        request.inputBufferLength ≠ request.outputBufferLength then
      ⟨.invalidParameter, request, config⟩
    else
      ⟨.success, { request with
          bytesRead := 0, bytesWritten := request.outputBufferLength }, config⟩
  | .fnmpMethodDirectNop =>
    if i ≠ .direct then ⟨.invalidParameter, request, config⟩
    else
      ⟨.success, { request with
          bytesRead := request.inputBufferLength
          bytesWritten := request.outputBufferLength }, config⟩
  | _ => ⟨.notSupported, request, config⟩

/-- The dispatch on the request type, common to the two request handlers and
to `MpOidCompleteRequest`. -/
def processOid (sizes : NdisSizes) (config : AdapterConfig)
    (i : OidRequestInterface) (request : NdisOidRequest) : Processed :=
  match request.requestType with
  | .queryInformation | .queryStatistics =>
    mpProcessQueryOid sizes config request
  | .setInformation => mpProcessSetOid sizes config request
  | .method => mpProcessMethodOid sizes config i request
  | .other _ => ⟨.notSupported, request, config⟩

/-! ## Processing never pends -/

variable (sizes : NdisSizes) (config : AdapterConfig)
  (request : NdisOidRequest)

theorem queryAnswer_status_ne_pending :
    (queryAnswer sizes config request).status ≠ .pending := by
  unfold queryAnswer
  split
  all_goals first
    | simp; done
    | (simp only
       split_ifs <;> simp)

theorem mpProcessQueryOid_status_ne_pending :
    (mpProcessQueryOid sizes config request).status ≠ .pending := by
  have hanswer := queryAnswer_status_ne_pending sizes config
    { request with bytesWritten := 0 }
  unfold mpProcessQueryOid
  simp only
  split
  · exact hanswer
  · split
    · simp
    · exact hanswer

theorem setOffloadEncapsulation_ne_pending :
    setOffloadEncapsulation sizes request ≠ .pending := by
  unfold setOffloadEncapsulation
  simp only
  split_ifs <;> simp

theorem mpSetOffloadParameters_ne_pending :
    mpSetOffloadParameters sizes request ≠ .pending := by
  unfold mpSetOffloadParameters
  split_ifs <;> simp

theorem mpProcessSetOid_status_ne_pending :
    (mpProcessSetOid sizes config request).status ≠ .pending := by
  unfold mpProcessSetOid
  simp only
  split
  · exact setOffloadEncapsulation_ne_pending sizes request
  all_goals first
    | exact mpSetOffloadParameters_ne_pending sizes request
    | (split_ifs <;> simp)
    | simp

theorem mpProcessMethodOid_status_ne_pending (i : OidRequestInterface) :
    (mpProcessMethodOid sizes config i request).status ≠ .pending := by
  unfold mpProcessMethodOid
  split
  all_goals first
    | (split_ifs <;> simp)
    | simp

theorem processOid_status_ne_pending (i : OidRequestInterface) :
    (processOid sizes config i request).status ≠ .pending := by
  unfold processOid
  split
  · exact mpProcessQueryOid_status_ne_pending sizes config request
  · exact mpProcessQueryOid_status_ne_pending sizes config request
  · exact mpProcessSetOid_status_ne_pending sizes config request
  · exact mpProcessMethodOid_status_ne_pending sizes config request i
  · simp

end WinNetTest.Fnmp
