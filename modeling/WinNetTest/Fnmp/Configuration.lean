import WinNetTest.Fnmp.OidData
import WinNetTest.Fnmp.StatusIoctls

/-!
# The configuration of an adapter over time

Two interfaces change the configuration: set requests, which come from NDIS,
and `SharedIrpSetMtu`, which comes from the shared handle.  They are the steps
of a machine that starts from what `MpReadConfiguration` leaves in a zeroed
adapter.  Beside the configuration a history variable keeps the multicast list
that was last set.
-/

namespace WinNetTest.Fnmp.Configuration

open Support StatusIoctls

/-! ## The machine -/

def fnmpDefaultMtu : UInt32 := fnmpMaxMtu

/-- The adapter after `MpReadConfiguration`. -/
def mpReadConfiguration : AdapterConfig where
  isMedium8023 := true
  mtuSize := fnmpDefaultMtu - ethHdrLen
  currentPacketFilter := 0
  currentLookAhead := 0
  multicastAddressList :=
    List.replicate (macAddrLen * maxMulticastAddresses).toNat 0
  numMulticastAddresses := 0

/-- `SharedIrpSetMtu`, as far as it changes the adapter. -/
def setMtu (config : AdapterConfig) (inputBufferLength : ℕ) (mtu : UInt32) :
    AdapterConfig :=
  { config with
    mtuSize :=
      (sharedIrpSetMtu ⟨config.mtuSize, []⟩ 0 inputBufferLength mtu).1.mtuSize }

abbrev BackedRequest := { request : NdisOidRequest // request.Backed }

inductive Label where
  | set (request : BackedRequest)
  | query (request : BackedRequest)
  | setMtu (inputBufferLength : ℕ) (mtu : UInt32)

def step (sizes : NdisSizes) (config : AdapterConfig) :
    Label → Option AdapterConfig
  | .set request => some (mpProcessSetOid sizes config request).config
  | .query request => some (mpProcessQueryOid sizes config request).config
  | .setMtu inputBufferLength mtu => some (setMtu config inputBufferLength mtu)

def machine (sizes : NdisSizes) : Machine AdapterConfig Label :=
  ⟨mpReadConfiguration, step sizes⟩

def lastMulticastList (sizes : NdisSizes) (config : AdapterConfig)
    (label : Label) (_ : AdapterConfig) (last : List UInt8) : List UInt8 :=
  match label with
  | .set ⟨request, _⟩ =>
    if request.oid = .ieee8023MulticastList ∧
        (mpProcessSetOid sizes config request).status = .success then
      request.information.bytes.take request.informationBufferLength.toNat
    else last
  | _ => last

def observed (sizes : NdisSizes) : Machine (AdapterConfig × List UInt8) Label :=
  (machine sizes).observe [] (lastMulticastList sizes)

/-! ## What a step does -/

/-- What `OID_802_3_MULTICAST_LIST` changes. -/
def setMulticast (config : AdapterConfig) (request : NdisOidRequest) :
    AdapterConfig :=
  { config with
    multicastAddressList :=
      request.information.bytes.take request.informationBufferLength.toNat ++
        config.multicastAddressList.drop request.informationBufferLength.toNat
    numMulticastAddresses := request.informationBufferLength / macAddrLen }

/-- The effects of `MpProcessSetOid` on the configuration. -/
inductive SetEffect (config : AdapterConfig) (request : NdisOidRequest) :
    NdisStatus → AdapterConfig → Prop
  | nothing (status : NdisStatus)
      (hoid : request.oid = .ieee8023MulticastList → status ≠ .success) :
      SetEffect config request status config
  | packetFilter (hoid : request.oid = .genCurrentPacketFilter) :
      SetEffect config request .success
        { config with currentPacketFilter := request.ulong }
  | lookahead (hoid : request.oid = .genCurrentLookahead)
      (hle : request.ulong ≤ config.mtuSize) :
      SetEffect config request .success
        { config with currentLookAhead := request.ulong }
  | multicast (hoid : request.oid = .ieee8023MulticastList)
      (hmod : request.informationBufferLength % macAddrLen = 0)
      (hle : request.informationBufferLength ≤
        maxMulticastAddresses * macAddrLen) :
      SetEffect config request .success
        (setMulticast config request)

theorem mpProcessSetOid_effect
    (sizes : NdisSizes) (config : AdapterConfig) (request : NdisOidRequest) :
    SetEffect config request (mpProcessSetOid sizes config request).status
      (mpProcessSetOid sizes config request).config := by
  unfold mpProcessSetOid
  dsimp only
  split
  case h_1 hoid => exact .nothing _ (by simp [hoid])
  case h_2 hoid =>
    split
    · exact .nothing _ (by simp [hoid])
    · exact .packetFilter hoid
  case h_3 hoid =>
    split
    · exact .nothing _ (by simp [hoid])
    · split
      · exact .nothing _ (by simp [hoid])
      · rename_i hle
        split
        · exact .lookahead hoid (UInt32.not_lt.mp hle)
        · exact .nothing _ (by simp [hoid])
  case h_4 hoid =>
    split
    · exact .nothing _ (by simp)
    · split
      · exact .nothing _ (by simp)
      · rename_i hlength
        obtain ⟨hmod, hle⟩ := not_or.mp hlength
        exact .multicast hoid (not_not.mp hmod) (UInt32.not_lt.mp hle)
  case h_5 hoid =>
    split
    · exact .nothing _ (by simp [hoid])
    · exact .nothing _ (by simp [hoid])
  case h_6 hoid =>
    split
    · exact .nothing _ (by simp [hoid])
    · exact .nothing _ (by simp [hoid])
  case h_7 hoid => exact .nothing _ (by simp [hoid])
  case h_8 hoid => exact .nothing _ (by simp [hoid])
  case h_9 hoid => exact .nothing _ (by simp [hoid])
  case h_10 => exact .nothing _ (by simp)

theorem config_mpProcessQueryOid
    (sizes : NdisSizes) (config : AdapterConfig) (request : NdisOidRequest) :
    (mpProcessQueryOid sizes config request).config = config := by
  unfold mpProcessQueryOid
  dsimp only
  split
  · rfl
  · split <;> rfl

/-- `SharedIrpSetMtu` takes the MTU it is given. -/
def AcceptsMtu (inputBufferLength : ℕ) (mtu : UInt32) : Prop :=
  sizeofSetMtuIn ≤ inputBufferLength ∧ fnmpMinMtu ≤ mtu ∧ mtu ≤ fnmpMaxMtu

instance (inputBufferLength : ℕ) (mtu : UInt32) :
    Decidable (AcceptsMtu inputBufferLength mtu) :=
  inferInstanceAs (Decidable (_ ∧ _))

variable {inputBufferLength : ℕ}

theorem setMtu_of_accepts (config : AdapterConfig) {mtu : UInt32}
    (h : AcceptsMtu inputBufferLength mtu) :
    setMtu config inputBufferLength mtu =
      { config with mtuSize := mtu - ethHdrLen } := by
  obtain ⟨hlength, hmin, hmax⟩ := h
  have hbounds : ¬ (mtu < fnmpMinMtu ∨ fnmpMaxMtu < mtu) :=
    not_or.mpr ⟨UInt32.not_lt.mpr hmin, UInt32.not_lt.mpr hmax⟩
  simp [setMtu, sharedIrpSetMtu, Nat.not_lt.mpr hlength, hbounds]

theorem setMtu_of_not_accepts (config : AdapterConfig) {mtu : UInt32}
    (h : ¬ AcceptsMtu inputBufferLength mtu) :
    setMtu config inputBufferLength mtu = config := by
  by_cases hlength : inputBufferLength < sizeofSetMtuIn
  · simp [setMtu, sharedIrpSetMtu, hlength, Shared.reply]
  · have hbounds : mtu < fnmpMinMtu ∨ fnmpMaxMtu < mtu := by
      by_contra hbounds
      obtain ⟨hmin, hmax⟩ := not_or.mp hbounds
      exact h ⟨Nat.not_lt.mp hlength, UInt32.not_lt.mp hmin,
        UInt32.not_lt.mp hmax⟩
    simp [setMtu, sharedIrpSetMtu, hlength, hbounds, Shared.reply]

/-! ## What every run keeps -/

structure Kept (config : AdapterConfig) (last : List UInt8) : Prop where
  medium : config.isMedium8023 = true
  mtu_min : fnmpMinMtu.toNat ≤ config.mtuSize.toNat + ethHdrLen.toNat
  mtu_max : config.mtuSize.toNat + ethHdrLen.toNat ≤ fnmpMaxMtu.toNat
  length_list : config.multicastAddressList.length = 96
  length_last : last.length ≤ 96
  count : config.numMulticastAddresses.toNat * 6 = last.length
  list : config.multicastAddressList.take last.length = last

theorem kept_mpReadConfiguration : Kept mpReadConfiguration [] where
  medium := rfl
  mtu_min := by decide
  mtu_max := by decide
  length_list := rfl
  length_last := by decide
  count := rfl
  list := rfl

namespace Kept

variable {sizes : NdisSizes} {config : AdapterConfig} {last : List UInt8}

section

variable (h : Kept config last)

include h

theorem setMtu (inputBufferLength : ℕ) (mtu : UInt32) :
    Kept (setMtu config inputBufferLength mtu) last := by
  by_cases haccepts : AcceptsMtu inputBufferLength mtu
  · have hmin := UInt32.le_iff_toNat_le.mp haccepts.2.1
    have hmax := UInt32.le_iff_toNat_le.mp haccepts.2.2
    have hmtu : (mtu - ethHdrLen).toNat + ethHdrLen.toNat = mtu.toNat := by
      have hheader : ethHdrLen ≤ mtu :=
        UInt32.le_trans (show ethHdrLen ≤ fnmpMinMtu by decide) haccepts.2.1
      rw [UInt32.toNat_sub_of_le _ _ hheader]
      exact Nat.sub_add_cancel (UInt32.le_iff_toNat_le.mp hheader)
    rw [setMtu_of_accepts config haccepts]
    exact { h with mtu_min := hmtu ▸ hmin, mtu_max := hmtu ▸ hmax }
  · rw [setMtu_of_not_accepts config haccepts]
    exact h

theorem multicast {request : NdisOidRequest} (hbacked : request.Backed)
    (hmod : request.informationBufferLength % macAddrLen = 0)
    (hle : request.informationBufferLength ≤
      maxMulticastAddresses * macAddrLen) :
    Kept (setMulticast config request)
      (request.information.bytes.take
        request.informationBufferLength.toNat) := by
  have hlength : (request.information.bytes.take
      request.informationBufferLength.toNat).length =
        request.informationBufferLength.toNat := by
    rw [List.length_take]
    exact Nat.min_eq_left hbacked
  have hmax : request.informationBufferLength.toNat ≤ 96 :=
    UInt32.le_iff_toNat_le.mp hle
  have hsix : request.informationBufferLength.toNat % 6 = 0 := by
    simpa [macAddrLen] using congrArg UInt32.toNat hmod
  exact { h with
    length_list := by
      simp only [setMulticast, List.length_append, hlength, List.length_drop,
        h.length_list]
      omega
    length_last := hlength.le.trans hmax
    count := by
      simp only [setMulticast, hlength, UInt32.toNat_div, macAddrLen,
        UInt32.reduceToNat]
      omega
    list := List.take_left }

theorem set (request : BackedRequest) (next : AdapterConfig) :
    Kept (mpProcessSetOid sizes config request).config
      (lastMulticastList sizes config (.set request) next last) := by
  obtain ⟨request, hbacked⟩ := request
  have heffect := mpProcessSetOid_effect sizes config request
  dsimp only [lastMulticastList]
  generalize (mpProcessSetOid sizes config request).status = status
    at heffect ⊢
  generalize (mpProcessSetOid sizes config request).config = config'
    at heffect ⊢
  cases heffect with
  | nothing _ hoid =>
    have hkeep : ¬ (request.oid = .ieee8023MulticastList ∧
        status = .success) := fun hset => hoid hset.1 hset.2
    simpa only [if_neg hkeep] using h
  | packetFilter hoid | lookahead hoid =>
    simp only [hoid, reduceCtorEq, false_and, if_false]
    exact { h with }
  | multicast hoid hmod hle =>
    simp only [hoid, and_self, if_true]
    exact h.multicast hbacked hmod hle

theorem step {label : Label} {next : AdapterConfig}
    (hstep : step sizes config label = some next) :
    Kept next (lastMulticastList sizes config label next last) := by
  cases label with
  | set request =>
    cases hstep
    exact h.set request _
  | query request =>
    cases hstep
    rw [config_mpProcessQueryOid]
    exact h
  | setMtu inputBufferLength mtu =>
    cases hstep
    exact h.setMtu inputBufferLength mtu

end

theorem of_reachableWithin {G : AdapterConfig → Label → Prop}
    {p : AdapterConfig × List UInt8}
    (hp : (observed sizes).ReachableWithin (fun p => G p.1) p) :
    Kept p.1 p.2 :=
  Machine.ReachableWithin.observe_invariant kept_mpReadConfiguration
    (fun _ _ _ _ _ hkept _ hstep => hkept.step hstep) hp

theorem exists_of_reachable (h : (machine sizes).Reachable config) :
    ∃ last, Kept config last := by
  have hobserved : ∃ last, (observed sizes).ReachableWithin
      (fun _ _ => True) (config, last) := h.observe
  obtain ⟨last, hlast⟩ := hobserved
  exact ⟨last, of_reachableWithin (G := fun _ _ => True) hlast⟩

end Kept

/-! ## The lookahead -/

/-- The condition on a step under which the lookahead stays below the MTU: an
MTU that is accepted leaves room for the current lookahead. -/
def LeavesLookahead (config : AdapterConfig) : Label → Prop
  | .setMtu inputBufferLength mtu =>
    AcceptsMtu inputBufferLength mtu → config.currentLookAhead ≤ mtu - ethHdrLen
  | _ => True

instance (config : AdapterConfig) (label : Label) :
    Decidable (LeavesLookahead config label) :=
  match label with
  | .setMtu _ _ => inferInstanceAs (Decidable (_ → _))
  | .set _ => inferInstanceAs (Decidable True)
  | .query _ => inferInstanceAs (Decidable True)

variable {config next : AdapterConfig} {sizes : NdisSizes}

theorem lookahead_step {label : Label} (hleaves : LeavesLookahead config label)
    (h : config.currentLookAhead ≤ config.mtuSize)
    (hstep : step sizes config label = some next) :
    next.currentLookAhead ≤ next.mtuSize := by
  cases label with
  | set request =>
    cases hstep
    have heffect := mpProcessSetOid_effect sizes config request
    generalize (mpProcessSetOid sizes config request).status = status
      at heffect
    generalize (mpProcessSetOid sizes config request).config = config'
      at heffect ⊢
    cases heffect with
    | nothing | packetFilter | multicast => exact h
    | lookahead _ hle => exact hle
  | query request =>
    cases hstep
    rw [config_mpProcessQueryOid]
    exact h
  | setMtu inputBufferLength mtu =>
    cases hstep
    by_cases haccepts : AcceptsMtu inputBufferLength mtu
    · rw [setMtu_of_accepts config haccepts]
      exact hleaves haccepts
    · rw [setMtu_of_not_accepts config haccepts]
      exact h

theorem not_lookahead_step {label : Label}
    (hleaves : ¬ LeavesLookahead config label)
    (hstep : step sizes config label = some next) :
    ¬ next.currentLookAhead ≤ next.mtuSize := by
  cases label with
  | set | query => exact absurd trivial hleaves
  | setMtu inputBufferLength mtu =>
    cases hstep
    obtain ⟨haccepts, hle⟩ := Classical.not_imp.mp hleaves
    rw [setMtu_of_accepts config haccepts]
    exact hle

/-! ## What queries report -/

section Report

variable {sizes : NdisSizes} (layout : NdisLayout sizes) (beyond : ℕ → UInt8)
  {config : AdapterConfig} {last : List UInt8}

variable {request : NdisOidRequest}

theorem ulong_answerQuery {value : UInt32}
    (hanswer : queryAnswer sizes config request = {})
    (hobject : queryObject layout config request = ulongBytes value)
    (hroom : 4 ≤ request.informationBufferLength) :
    (answerQuery layout beyond config request).request.ulong = value := by
  have hlt : value.toNat < 256 ^ 4 := value.toNat_lt
  have hcopy : Copy.bytes ⟨ulongBytes value, 4⟩ beyond = ulongBytes value :=
    Copy.bytes_of_le beyond (by simp)
  have hdo : (queryAnswer sizes config request).doCopy = true := by
    rw [hanswer]
  have hfits : ¬ request.informationBufferLength <
      (queryAnswer sizes config request).dataLength := by
    rw [hanswer]
    exact UInt32.not_lt.mpr hroom
  rw [(answerQuery_of_room layout beyond hdo hfits).2, hanswer, hobject,
    hcopy, NdisOidRequest.ulong, NdisOidRequest.bytes_fill,
    List.take_left' (length_ulongBytes value),
    ulongBytes, leValue_leBytes hlt, UInt32.ofNat_toNat]

theorem multicast_answerQuery (h : Kept config last)
    (hoid : request.oid = .ieee8023MulticastList)
    (hmod : request.informationBufferLength % macAddrLen = 0)
    (hroom : last.length ≤ request.informationBufferLength.toNat) :
    answerQuery layout beyond config request = ⟨.success, NdisOidRequest.fill
          { request with bytesWritten := UInt32.ofNat last.length } last,
        config⟩ := by
  have hlast : (UInt32.ofNat last.length).toNat = last.length :=
    UInt32.toNat_ofNat_of_lt' (h.length_last.trans_lt (by decide))
  have hlength : config.numMulticastAddresses * macAddrLen =
      UInt32.ofNat last.length := by
    apply UInt32.toNat_inj.mp
    have hcount := h.count
    have hmax := h.length_last
    simp only [hlast, UInt32.toNat_mul, macAddrLen, UInt32.reduceToNat]
    omega
  have hanswer : queryAnswer sizes config request =
      { dataLength := UInt32.ofNat last.length } := by
    simp [queryAnswer, hoid, hmod, h.medium, hlength]
  have hobject : queryObject layout config request =
      config.multicastAddressList := by
    simp [queryObject, hoid, hmod, h.medium]
  have hcopy : Copy.bytes
      ⟨config.multicastAddressList, UInt32.ofNat last.length⟩ beyond =
        last := by
    have hinside : (UInt32.ofNat last.length).toNat ≤
        config.multicastAddressList.length := by
      rw [hlast, h.length_list]
      exact h.length_last
    rw [Copy.bytes_of_le beyond hinside]
    simp only [hlast, h.list]
  have hdo : (queryAnswer sizes config request).doCopy = true := by
    rw [hanswer]
  have hfits : ¬ request.informationBufferLength <
      (queryAnswer sizes config request).dataLength := by
    rw [hanswer, UInt32.lt_iff_toNat_lt, hlast]
    exact Nat.not_lt.mpr hroom
  rw [(answerQuery_of_room layout beyond hdo hfits).2, hanswer, hobject, hcopy]

end Report

/-! ## Coherence -/

structure Coherent {sizes : NdisSizes} (layout : NdisLayout sizes)
    (beyond : ℕ → UInt8) (config : AdapterConfig) (last : List UInt8) :
    Prop where
  mtu_min : fnmpMinMtu.toNat ≤ config.mtuSize.toNat + ethHdrLen.toNat
  mtu_max : config.mtuSize.toNat + ethHdrLen.toNat ≤ fnmpMaxMtu.toNat
  lookahead : config.currentLookAhead ≤ config.mtuSize
  lookahead_reported : ∀ current maximum : NdisOidRequest,
    current.oid = .genCurrentLookahead → maximum.oid = .genMaximumLookahead →
    4 ≤ current.informationBufferLength →
    4 ≤ maximum.informationBufferLength →
    (answerQuery layout beyond config current).request.ulong ≤
      (answerQuery layout beyond config maximum).request.ulong
  count : config.numMulticastAddresses ≤ maxMulticastAddresses
  multicast_reported : ∀ request : NdisOidRequest,
    request.oid = .ieee8023MulticastList →
    request.informationBufferLength % macAddrLen = 0 →
    last.length ≤ request.informationBufferLength.toNat →
    (answerQuery layout beyond config request).status = .success ∧
    (answerQuery layout beyond config request).request.bytesWritten.toNat =
      last.length ∧
    (answerQuery layout beyond config request).request.information.bytes =
      last ++ request.information.bytes.drop last.length

theorem Kept.coherent (layout : NdisLayout sizes) (beyond : ℕ → UInt8)
    {last : List UInt8} (h : Kept config last)
    (hlookahead : config.currentLookAhead ≤ config.mtuSize) :
    Coherent layout beyond config last where
  mtu_min := h.mtu_min
  mtu_max := h.mtu_max
  lookahead := hlookahead
  lookahead_reported := by
    intro current maximum hcurrent hmaximum hroom hroom'
    have hreported : (answerQuery layout beyond config current).request.ulong =
        config.currentLookAhead :=
      ulong_answerQuery layout beyond (by simp [queryAnswer, hcurrent])
        (by simp [queryObject, hcurrent]) hroom
    have hreported' : (answerQuery layout beyond config maximum).request.ulong =
          config.mtuSize :=
      ulong_answerQuery layout beyond (by simp [queryAnswer, hmaximum])
        (by simp [queryObject, hmaximum]) hroom'
    rw [hreported, hreported']
    exact hlookahead
  count := by
    have hcount := h.count
    have hmax := h.length_last
    simp only [UInt32.le_iff_toNat_le, maxMulticastAddresses,
      UInt32.reduceToNat]
    omega
  multicast_reported := by
    intro request hoid hmod hroom
    have hlast : (UInt32.ofNat last.length).toNat = last.length :=
      UInt32.toNat_ofNat_of_lt' (h.length_last.trans_lt (by decide))
    rw [multicast_answerQuery layout beyond h hoid hmod hroom]
    exact ⟨rfl, hlast, rfl⟩

/-- A run in which every MTU that is accepted leaves room for the current
lookahead ends in a coherent configuration, and any other step ends the
coherence. -/
theorem configuration_coherent
    {sizes : NdisSizes} (layout : NdisLayout sizes) (beyond : ℕ → UInt8)
    (p : AdapterConfig × List UInt8)
    (hp : (observed sizes).ReachableWithin
      (fun p label => LeavesLookahead p.1 label) p) :
    Coherent layout beyond p.1 p.2 ∧ ∀ label q, ¬ LeavesLookahead p.1 label →
        (observed sizes).step p label = some q →
        ¬ Coherent layout beyond q.1 q.2 := by
  have hkept : Kept p.1 p.2 :=
    Kept.of_reachableWithin (G := LeavesLookahead) hp
  have hlookahead : p.1.currentLookAhead ≤ p.1.mtuSize :=
    Machine.ReachableWithin.observe_invariant
      (G := LeavesLookahead)
      (I := fun config _ => config.currentLookAhead ≤ config.mtuSize)
      (show mpReadConfiguration.currentLookAhead ≤
        mpReadConfiguration.mtuSize by decide)
      (fun _ _ _ _ _ h hleaves hstep => lookahead_step hleaves h hstep) hp
  refine ⟨hkept.coherent layout beyond hlookahead, ?_⟩
  intro label q hleaves hstep hcoherent
  obtain ⟨_, hnext, rfl⟩ := Option.map_eq_some_iff.mp hstep
  exact not_lookahead_step hleaves hnext hcoherent.lookahead

def requestOf (requestType : NdisRequestType) (oid : Oid)
    (bytes : List UInt8) : NdisOidRequest where
  id := 0
  oid := oid
  requestType := requestType
  portNumber := 0
  information :=
    ⟨bytes, .default, 0, 0, ⟨false, false, 0⟩, ⟨false, false, 0⟩⟩
  informationBufferLength := UInt32.ofNat bytes.length
  inputBufferLength := UInt32.ofNat bytes.length
  outputBufferLength := UInt32.ofNat bytes.length
  bytesRead := 0
  bytesWritten := 0
  bytesNeeded := 0

def setRequest (oid : Oid) (bytes : List UInt8)
    (h : bytes.length < UInt32.size) : BackedRequest :=
  ⟨requestOf .setInformation oid bytes, (UInt32.toNat_ofNat_of_lt' h).le⟩

/-- The lookahead is set to 1000. -/
def setLookahead : Label :=
  .set (setRequest .genCurrentLookahead [0xE8, 0x03, 0, 0] (by decide))

/-- One multicast address is set. -/
def setMulticastList : Label :=
  .set (setRequest .ieee8023MulticastList [1, 0, 94, 0, 0, 1] (by decide))

theorem configuration_coherent_smaller_mtu :
    ∃ p, (observed ⟨16, 40, 200, 28, 40, 20, 100⟩).ReachableWithin
        (fun p label => LeavesLookahead p.1 label) p ∧
      (p.1.mtuSize = 1500 ∧ p.1.currentLookAhead = 1000 ∧
        p.2 = [1, 0, 94, 0, 0, 1]) ∧
      ∀ (layout : NdisLayout ⟨16, 40, 200, 28, 40, 20, 100⟩) beyond,
        Coherent layout beyond p.1 p.2 :=
  (Machine.exists_reachableWithin_of_run _
    [setLookahead, setMulticastList, .setMtu 4 1514] (by decide +kernel)).imp
    fun p ⟨hp, hrun⟩ => ⟨hp, hrun,
      fun layout beyond => (configuration_coherent layout beyond p hp).1⟩

/-- The lookahead is raised to 10000, and the MTU is lowered to 1514. -/
theorem lookahead_above_mtu :
    ∃ p, (observed ⟨16, 40, 200, 28, 40, 20, 100⟩).Reachable p ∧
      (p.1.mtuSize = 1500 ∧ p.1.currentLookAhead = 10000) ∧
      ∀ (layout : NdisLayout ⟨16, 40, 200, 28, 40, 20, 100⟩) beyond,
        ¬ Coherent layout beyond p.1 p.2 := by
  obtain ⟨p, hp, hmtu, hlookahead⟩ := Machine.exists_reachable_of_run
    (M := observed ⟨16, 40, 200, 28, 40, 20, 100⟩)
    (P := fun p => p.1.mtuSize = 1500 ∧ p.1.currentLookAhead = 10000)
    [.set (setRequest .genCurrentLookahead [0x10, 0x27, 0, 0] (by decide)),
      .setMtu 4 1514]
    (by decide +kernel)
  refine ⟨p, hp, ⟨hmtu, hlookahead⟩, fun layout beyond h => ?_⟩
  have hle := h.lookahead
  rw [hmtu, hlookahead] at hle
  exact absurd hle (by decide)

end WinNetTest.Fnmp.Configuration
