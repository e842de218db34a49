import WinNetTest.Fnmp.Configuration

/-!
# What a query copies

`MpProcessQueryOid` sets the status, the data and the length of the data
independently of each other, OID by OID, and its tail copies whenever the
buffer has room for the length, whatever the status is.  A query is respected
when the three agree: the copy stays inside the object and inside the buffer,
a failure leaves no trace, and the counts are the size of what is reported.
-/

namespace WinNetTest.Fnmp.QueryCopy

open Support WinNetTest.Fnmp.Configuration

/-! ## The whole routine -/

/-- How `MpProcessQueryOid` ends: the status, the request, the lists of pended
requests, and the copy that was made. -/
structure Answered where
  status : NdisStatus
  request : NdisOidRequest
  oids : OidFilter
  copy : Option Copy

def filterOid (shouldFilter : Bool) (now : UInt64) (allocated : Bool)
    (i : OidRequestInterface) (request : NdisOidRequest) (oids : OidFilter) :
    NdisStatus × OidFilter :=
  if shouldFilter then mpFilterOid now allocated i request oids
  else (.success, oids)

def answered {sizes : NdisSizes} (layout : NdisLayout sizes)
    (beyond : ℕ → UInt8) (config : AdapterConfig) (request : NdisOidRequest)
    (oids : OidFilter) : Answered :=
  ⟨(answerQuery layout beyond config request).status,
    (answerQuery layout beyond config request).request, oids,
    queryCopy layout config request⟩

def mpProcessQueryOid {sizes : NdisSizes} (layout : NdisLayout sizes)
    (beyond : ℕ → UInt8) (config : AdapterConfig) (shouldFilter : Bool)
    (now : UInt64) (allocated : Bool) (i : OidRequestInterface)
    (oids : OidFilter) (request : NdisOidRequest) : Answered :=
  let cleared := { request with bytesWritten := 0 }
  let filtered := filterOid shouldFilter now allocated i cleared oids
  if filtered.1 ≠ .success then ⟨filtered.1, cleared, filtered.2, none⟩
  else answered layout beyond config cleared filtered.2

/-! ## Respected queries -/

/-- The object a query is to report.  Of the multicast list it is the part in
use. -/
def reportedObject {sizes : NdisSizes} (layout : NdisLayout sizes)
    (config : AdapterConfig) (request : NdisOidRequest) : List UInt8 :=
  match request.oid with
  | .ieee8023MulticastList =>
    config.multicastAddressList.take (config.numMulticastAddresses.toNat * 6)
  | _ => queryObject layout config request

/-- A query for an object that copies only what there is and fails without a
trace. -/
structure Respected (reported : List UInt8) (request : NdisOidRequest)
    (answered : Answered) : Prop where
  inside : ∀ copy, answered.copy = some copy →
    copy.length.toNat ≤ copy.object.length
  bounded : ∀ copy, answered.copy = some copy →
    copy.length ≤ request.informationBufferLength
  untouched : answered.request.information.bytes.drop
        request.informationBufferLength.toNat =
      request.information.bytes.drop request.informationBufferLength.toNat
  failed : answered.status ≠ .success →
    answered.request.information.bytes = request.information.bytes ∧
      answered.request.bytesWritten = 0
  succeeded : answered.status = .success →
    answered.request.bytesWritten.toNat = reported.length
  tooShort : answered.status = .bufferTooShort →
    answered.request.bytesNeeded.toNat = reported.length

variable {reported : List UInt8}

theorem respected_of_filtered {request : NdisOidRequest} {status : NdisStatus}
    (oids : OidFilter) (hsuccess : status ≠ .success)
    (hshort : status ≠ .bufferTooShort) : Respected reported request
      ⟨status, { request with bytesWritten := 0 }, oids, none⟩ where
  inside := by simp
  bounded := by simp
  untouched := rfl
  failed _ := ⟨rfl, rfl⟩
  succeeded h := absurd h hsuccess
  tooShort h := absurd h hshort

section Answer

variable {sizes : NdisSizes} (layout : NdisLayout sizes) (beyond : ℕ → UInt8)
  {config : AdapterConfig} {request : NdisOidRequest} (oids : OidFilter)

theorem answered_cleared :
    answered layout beyond config { request with bytesWritten := 0 } oids =
      answered layout beyond config request oids :=
  rfl

section

variable (hdo : (queryAnswer sizes config request).doCopy = true)

include hdo

theorem answered_of_short
    (hshort : request.informationBufferLength <
      (queryAnswer sizes config request).dataLength) :
    answered layout beyond config request oids = ⟨.bufferTooShort,
        { request with
          bytesWritten := 0
          bytesNeeded := (queryAnswer sizes config request).dataLength },
        oids, none⟩ := by
  obtain ⟨hcopy, hquery⟩ := answerQuery_of_short layout beyond hdo hshort
  rw [answered, hcopy, hquery]

theorem answered_of_room
    (hroom : ¬ request.informationBufferLength <
      (queryAnswer sizes config request).dataLength) :
    answered layout beyond config request oids =
      ⟨(queryAnswer sizes config request).status, NdisOidRequest.fill
          { request with
            bytesWritten := (queryAnswer sizes config request).dataLength }
          (Copy.bytes ⟨queryObject layout config request,
            (queryAnswer sizes config request).dataLength⟩ beyond), oids,
        some ⟨queryObject layout config request,
          (queryAnswer sizes config request).dataLength⟩⟩ := by
  obtain ⟨hcopy, hquery⟩ := answerQuery_of_room layout beyond hdo hroom
  rw [answered, hcopy, hquery]

end

theorem respected_of_not_doCopy
    (hdo : (queryAnswer sizes config request).doCopy = false)
    (hstatus : (queryAnswer sizes config request).status = .notSupported) :
    Respected reported request
      (answered layout beyond config request oids) := by
  obtain ⟨hcopy, hquery⟩ := answerQuery_of_not_doCopy layout beyond hdo
  rw [answered, hcopy, hquery, hstatus]
  exact respected_of_filtered oids (by simp) (by simp)

theorem respected_of_short
    (hdo : (queryAnswer sizes config request).doCopy = true)
    (hshort : request.informationBufferLength <
      (queryAnswer sizes config request).dataLength)
    (hsize : (queryAnswer sizes config request).dataLength.toNat =
      reported.length) : Respected reported request
      (answered layout beyond config request oids) := by
  rw [answered_of_short layout beyond oids hdo hshort]
  exact
    { inside := by simp
      bounded := by simp
      untouched := rfl
      failed := fun _ => ⟨rfl, rfl⟩
      succeeded := by simp
      tooShort := fun _ => hsize }

theorem respected_of_agree
    (hdo : (queryAnswer sizes config request).doCopy = true)
    (hinside : (queryAnswer sizes config request).dataLength.toNat ≤
      (queryObject layout config request).length)
    (hsize : (queryAnswer sizes config request).dataLength.toNat =
      reported.length)
    (hstatus : (queryAnswer sizes config request).status = .success ∨
      (queryAnswer sizes config request).status ≠ .bufferTooShort ∧
        (queryAnswer sizes config request).dataLength = 0) :
    Respected reported request
      (answered layout beyond config request oids) := by
  by_cases hshort : request.informationBufferLength <
      (queryAnswer sizes config request).dataLength
  · exact respected_of_short layout beyond oids hdo hshort hsize
  · rw [answered_of_room layout beyond oids hdo hshort]
    have hroom := UInt32.not_lt.mp hshort
    exact
      { inside := by
          rintro copy ⟨⟩
          exact hinside
        bounded := by
          rintro copy ⟨⟩
          exact hroom
        untouched := by
          apply NdisOidRequest.drop_fill
          rw [Copy.length_bytes]
          exact UInt32.le_iff_toNat_le.mp hroom
        failed := by
          intro hfailed
          obtain ⟨-, hzero⟩ := hstatus.resolve_left hfailed
          simp [hzero, Copy.bytes]
        succeeded := fun _ => hsize
        tooShort := by
          intro htooShort
          rcases hstatus with hsuccess | ⟨hother, -⟩
          · exact absurd (hsuccess.symm.trans htooShort) (by simp)
          · exact absurd htooShort hother }

end Answer

/-! ## The data of each OID -/

section Oids

variable {sizes : NdisSizes} (layout : NdisLayout sizes) (beyond : ℕ → UInt8)
  {config : AdapterConfig} {request : NdisOidRequest} (oids : OidFilter)

theorem queryAnswer_cases (hvendor : request.oid ≠ .genVendorDescription)
    (hmulticast : request.oid ≠ .ieee8023MulticastList) :
    ((queryAnswer sizes config request).doCopy = false ∧
      (queryAnswer sizes config request).status = .notSupported) ∨
    ((queryAnswer sizes config request).doCopy = true ∧
      (queryAnswer sizes config request).status = .success ∧
      (queryAnswer sizes config request).dataLength.toNat =
        (queryObject layout config request).length) := by
  cases hoid : request.oid
  case genVendorDescription => exact absurd hoid hvendor
  case ieee8023MulticastList => exact absurd hoid hmulticast
  case genSupportedList =>
    right
    simp [queryAnswer, queryObject, hoid, mpSupportedOidArray,
      mpSupportedOidArraySize]
  case genLinkState =>
    right
    simp [queryAnswer, queryObject, hoid, layout.length_linkState]
  case genLinkSpeedEx =>
    right
    simp [queryAnswer, queryObject, hoid, layout.length_linkSpeed]
  case genMaxLinkSpeed =>
    right
    simp [queryAnswer, queryObject, hoid, layout.length_linkSpeed]
  case genStatistics =>
    right
    simp [queryAnswer, queryObject, hoid, layout.length_statisticsInfo]
  all_goals
    simp [queryAnswer, queryObject, hoid, mpMacAddressBase, macAddrLen]

theorem not_respected_vendorDescription
    (hoid : request.oid = .genVendorDescription) :
    ¬ Respected (reportedObject layout config request) request
      (answered layout beyond config request oids) := by
  intro h
  have hanswer : queryAnswer sizes config request = { dataLength := 8 } := by
    simp [queryAnswer, hoid]
  have hobject : queryObject layout config request = mpDriverFriendlyName := by
    simp [queryObject, hoid]
  have hreported : reportedObject layout config request =
      mpDriverFriendlyName := by
    simp [reportedObject, hoid, hobject]
  have hdo : (queryAnswer sizes config request).doCopy = true := by
    rw [hanswer]
  by_cases hshort : request.informationBufferLength <
      (queryAnswer sizes config request).dataLength
  · have hneeded := h.tooShort
    rw [answered_of_short layout beyond oids hdo hshort, hanswer,
      hreported] at hneeded
    have hsize : (8 : UInt32).toNat = mpDriverFriendlyName.length :=
      hneeded rfl
    exact absurd hsize (by decide)
  · have hinside := h.inside
    rw [answered_of_room layout beyond oids hdo hshort, hanswer,
      hobject] at hinside
    exact absurd (hinside _ rfl) (by decide)

/-- The multicast list fails and is copied all the same if the length is not a
multiple of six, some address is set and there is room for all that are. -/
def CopiedInFailure (config : AdapterConfig) (request : NdisOidRequest) :
    Prop :=
  request.oid = .ieee8023MulticastList ∧
    request.informationBufferLength % macAddrLen ≠ 0 ∧
    config.numMulticastAddresses ≠ 0 ∧
    config.numMulticastAddresses.toNat * 6 ≤
      request.informationBufferLength.toNat

def Agrees (config : AdapterConfig) (request : NdisOidRequest) : Prop :=
  request.oid ≠ .genVendorDescription ∧ ¬ CopiedInFailure config request

section Multicast

variable {last : List UInt8} (h : Kept config last)
  (hoid : request.oid = .ieee8023MulticastList)

include h

theorem toNat_listLength : (config.numMulticastAddresses * macAddrLen).toNat =
      config.numMulticastAddresses.toNat * 6 := by
  have hcount := h.count
  have hmax := h.length_last
  simp only [UInt32.toNat_mul, macAddrLen, UInt32.reduceToNat]
  omega

include hoid

theorem dataLength_multicastList :
    (queryAnswer sizes config request).dataLength.toNat =
      (reportedObject layout config request).length := by
  have hcount := h.count
  have hmax := h.length_last
  simp only [queryAnswer, reportedObject, hoid, toNat_listLength h,
    List.length_take, h.length_list]
  omega

theorem respected_multicastList_of_multiple
    (hmod : request.informationBufferLength % macAddrLen = 0) :
    Respected (reportedObject layout config request) request
      (answered layout beyond config request oids) := by
  have hobject : queryObject layout config request =
      config.multicastAddressList := by
    simp [queryObject, hoid, hmod, h.medium]
  have hstatus : (queryAnswer sizes config request).status = .success := by
    simp [queryAnswer, hoid, hmod, h.medium]
  have hsize := dataLength_multicastList layout h hoid
  apply respected_of_agree layout beyond oids (by simp [queryAnswer, hoid])
    _ hsize (.inl hstatus)
  rw [hsize, hobject]
  simp [reportedObject, hoid]

theorem not_respected_of_copiedInFailure
    (hcopied : CopiedInFailure config request) :
    ¬ Respected (reportedObject layout config request) request
      (answered layout beyond config request oids) := by
  intro hrespected
  obtain ⟨-, hmod, hsome, hroom⟩ := hcopied
  have hdata : (queryAnswer sizes config request).dataLength =
      config.numMulticastAddresses * macAddrLen := by
    simp [queryAnswer, hoid]
  have hstatus : (queryAnswer sizes config request).status =
      .invalidLength := by
    simp [queryAnswer, hoid, hmod, h.medium]
  have hfits : ¬ request.informationBufferLength <
      (queryAnswer sizes config request).dataLength := by
    rw [hdata, UInt32.lt_iff_toNat_lt, toNat_listLength h]
    exact Nat.not_lt.mpr hroom
  have hfailed := hrespected.failed
  rw [answered_of_room layout beyond oids (by simp [queryAnswer, hoid]) hfits,
    hstatus, hdata] at hfailed
  have hzero : config.numMulticastAddresses * macAddrLen = 0 :=
    (hfailed (by simp)).2
  have hlength := toNat_listLength h
  rw [hzero] at hlength
  exact hsome (UInt32.toNat_inj.mp (by simpa using hlength.symm))

theorem respected_multicastList_of_not_copied
    (hcopied : ¬ CopiedInFailure config request)
    (hmod : request.informationBufferLength % macAddrLen ≠ 0) :
    Respected (reportedObject layout config request) request
      (answered layout beyond config request oids) := by
  have hdata : (queryAnswer sizes config request).dataLength =
      config.numMulticastAddresses * macAddrLen := by
    simp [queryAnswer, hoid]
  have hsize := dataLength_multicastList layout h hoid
  by_cases hzero : config.numMulticastAddresses = 0
  · have hnone : (queryAnswer sizes config request).dataLength = 0 := by
      rw [hdata, hzero]
      rfl
    have hstatus : (queryAnswer sizes config request).status =
        .invalidLength := by
      simp [queryAnswer, hoid, hmod, h.medium]
    apply respected_of_agree layout beyond oids (by simp [queryAnswer, hoid])
      _ hsize (.inr ⟨by simp [hstatus], hnone⟩)
    rw [hnone]
    exact Nat.zero_le _
  · have hshort : request.informationBufferLength <
        (queryAnswer sizes config request).dataLength := by
      rw [hdata, UInt32.lt_iff_toNat_lt, toNat_listLength h]
      by_contra hroom
      exact hcopied ⟨hoid, hmod, hzero, Nat.not_lt.mp hroom⟩
    exact respected_of_short layout beyond oids (by simp [queryAnswer, hoid])
      hshort hsize

end Multicast

theorem respected_answered_iff {last : List UInt8} (h : Kept config last) :
    Respected (reportedObject layout config request) request
        (answered layout beyond config request oids) ↔
      Agrees config request := by
  by_cases hvendor : request.oid = .genVendorDescription
  · constructor
    · intro hrespected
      exact absurd hrespected
        (not_respected_vendorDescription layout beyond oids hvendor)
    · intro hagrees
      exact absurd hvendor hagrees.1
  · by_cases hoid : request.oid = .ieee8023MulticastList
    · constructor
      · intro hrespected
        refine ⟨hvendor, fun hcopied => ?_⟩
        exact not_respected_of_copiedInFailure layout beyond oids h hoid
          hcopied hrespected
      · intro hagrees
        by_cases hmod : request.informationBufferLength % macAddrLen = 0
        · exact respected_multicastList_of_multiple layout beyond oids h hoid
            hmod
        · exact respected_multicastList_of_not_copied layout beyond oids h
            hoid hagrees.2 hmod
    · have hrespected : Respected (reportedObject layout config request)
          request (answered layout beyond config request oids) := by
        have hreported : reportedObject layout config request =
            queryObject layout config request := by
          simp [reportedObject]
        rcases queryAnswer_cases layout hvendor hoid with
          ⟨hdo, hstatus⟩ | ⟨hdo, hstatus, hsize⟩
        · exact respected_of_not_doCopy layout beyond oids hdo hstatus
        · exact respected_of_agree layout beyond oids hdo hsize.le
            (hreported ▸ hsize) (.inl hstatus)
      constructor
      · intro _
        exact ⟨hvendor, fun hcopied => hoid hcopied.1⟩
      · intro _
        exact hrespected

end Oids

/-! ## The filter -/

theorem filterOid_ne_bufferTooShort
    (shouldFilter : Bool) (now : UInt64) (allocated : Bool)
    (i : OidRequestInterface) (request : NdisOidRequest) (oids : OidFilter) :
    (filterOid shouldFilter now allocated i request oids).1 ≠
      .bufferTooShort := by
  unfold filterOid mpFilterOid
  split_ifs <;> simp

/-- A query is respected exactly when the filter keeps it from being processed
or its status, data and length agree. -/
theorem query_respected_iff
    {sizes : NdisSizes} (layout : NdisLayout sizes) (beyond : ℕ → UInt8)
    (config : AdapterConfig) (hconfig : (machine sizes).Reachable config)
    (shouldFilter : Bool) (now : UInt64) (allocated : Bool)
    (i : OidRequestInterface) (oids : OidFilter) (request : NdisOidRequest) :
    Respected (reportedObject layout config request) request
        (mpProcessQueryOid layout beyond config shouldFilter now allocated i
          oids request) ↔
      (filterOid shouldFilter now allocated i
        { request with bytesWritten := 0 } oids).1 ≠ .success ∨
        Agrees config request := by
  obtain ⟨_, hkept⟩ := Kept.exists_of_reachable hconfig
  unfold mpProcessQueryOid
  dsimp only
  split
  · rename_i hfiltered
    have hshort := filterOid_ne_bufferTooShort shouldFilter now allocated i
      { request with bytesWritten := 0 } oids
    constructor
    · intro _
      exact Or.inl hfiltered
    · intro _
      exact respected_of_filtered _ hfiltered hshort
  · rename_i hfiltered
    rw [answered_cleared, respected_answered_iff layout beyond _ hkept]
    constructor
    · intro hagrees
      exact Or.inr hagrees
    · intro hor
      exact hor.resolve_left hfiltered

/-- The answer to a query with `0xCC` in the memory behind every object. -/
def sampleAnswer (config : AdapterConfig) (request : NdisOidRequest) :
    Answered :=
  mpProcessQueryOid sampleLayout (fun _ => 0xCC) config true 0 true .regular
    .empty request

def lookaheadQuery : NdisOidRequest :=
  requestOf .queryInformation .genCurrentLookahead [0, 0, 0, 0]

/-- A lookahead of 1000 is set and queried. -/
theorem query_respected_iff_lookahead :
    ∃ config, (machine ⟨16, 40, 200, 28, 40, 20, 100⟩).Reachable config ∧
      (sampleAnswer config lookaheadQuery).request.information.bytes =
        [0xE8, 0x03, 0, 0] ∧
      Respected (reportedObject sampleLayout config lookaheadQuery)
        lookaheadQuery (sampleAnswer config lookaheadQuery) := by
  refine (Machine.exists_reachable_of_run
    [setLookahead] (by decide +kernel)).imp fun config ⟨hconfig, hrun⟩ =>
      ⟨hconfig, hrun, ?_⟩
  refine (query_respected_iff sampleLayout (fun _ => 0xCC) config hconfig true
    0 true .regular .empty _).mpr (Or.inr ⟨by decide, ?_⟩)
  intro hcopied
  exact absurd hcopied.1 (by decide)

def oddQuery : NdisOidRequest :=
  requestOf .queryInformation .ieee8023MulticastList [1, 2, 3, 4, 5, 6, 7]

def vendorQuery : NdisOidRequest :=
  requestOf .queryInformation .genVendorDescription [1, 2, 3, 4, 5, 6, 7, 8]

/-- After one multicast address is set, the odd query fails and copies six
bytes out of a variable of four.  The vendor description is copied out of a
string of five bytes, eight of them. -/
theorem query_copies_beyond_object :
    ∃ config, (machine ⟨16, 40, 200, 28, 40, 20, 100⟩).Reachable config ∧
      ((sampleAnswer config oddQuery).status = .invalidLength ∧
        (sampleAnswer config oddQuery).request.bytesWritten = 6 ∧
        (sampleAnswer config oddQuery).request.information.bytes =
          [0, 0, 0, 0, 0xCC, 0xCC, 7] ∧
        (sampleAnswer config oddQuery).copy = some ⟨[0, 0, 0, 0], 6⟩ ∧
        (sampleAnswer config vendorQuery).copy =
          some ⟨mpDriverFriendlyName, 8⟩) ∧
      ¬ Respected (reportedObject sampleLayout config oddQuery) oddQuery
          (sampleAnswer config oddQuery) ∧
      ¬ Respected (reportedObject sampleLayout config vendorQuery) vendorQuery
          (sampleAnswer config vendorQuery) := by
  refine (Machine.exists_reachable_of_run [setMulticastList]
    (by decide +kernel)).imp fun config ⟨hconfig, hrun⟩ =>
      ⟨hconfig, hrun, fun h => ?_, fun h => ?_⟩
  · have hzero := (h.failed (by rw [hrun.1]; decide)).2
    rw [hrun.2.1] at hzero
    exact absurd hzero (by decide)
  · exact absurd (h.inside _ hrun.2.2.2.2) (by decide)

end WinNetTest.Fnmp.QueryCopy
