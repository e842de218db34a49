import WinNetTest.Fnmp.StatusIoctls

/-!
# Offload settings

An adapter keeps its offload settings and its offload capabilities in two
records.  `MpSetOffloadParameters` updates a record from an
`NDIS_OFFLOAD_PARAMETERS`, whose revision and length say which fields it has,
and `MpFillOffload` translates a record to the `NDIS_OFFLOAD` that NDIS is
given.  The translation takes both RSC fields from the IPv4 setting, so a
report is faithful exactly when the two settings agree.

The layout of `NDIS_OFFLOAD_PARAMETERS` comes from the NDIS headers and is a
parameter.  The header of `NDIS_OFFLOAD` is left out.
-/

namespace WinNetTest.Fnmp.Offload

open StatusIoctls

/-! ## Records and reports -/

/-- The settings that a record and an `NDIS_OFFLOAD_PARAMETERS` share. -/
inductive Setting where
  | ipChecksumIPv4
  | tcpChecksumIPv4
  | tcpChecksumIPv6
  | udpChecksumIPv4
  | udpChecksumIPv6
  | lsoV2IPv4
  | lsoV2IPv6
  | rscIPv4
  | rscIPv6
  | usoIPv4
  | usoIPv6
  deriving DecidableEq

/-- A checksum is a `CHECKSUM_OFFLOAD_STATE`; the other settings are on or
off. -/
def Setting.isChecksum : Setting → Bool
  | ipChecksumIPv4 | tcpChecksumIPv4 | tcpChecksumIPv6 | udpChecksumIPv4
  | udpChecksumIPv6 => true
  | _ => false

@[ext] structure AdapterOffload where
  setting : Setting → UInt32
  udpRsc : UInt32
  gsoMaxOffloadSize : UInt32

/-- The records `MpGetOffload` selects from. -/
inductive Store where
  | currentConfig
  | hardwareCapabilities
  deriving DecidableEq

/-- The offload records of an adapter. -/
@[ext] structure Adapter where
  offloadConfig : AdapterOffload
  offloadCapabilities : AdapterOffload

def Adapter.mpGetOffload (adapter : Adapter) : Store → AdapterOffload
  | .currentConfig => adapter.offloadConfig
  | .hardwareCapabilities => adapter.offloadCapabilities

def checksumOffloadTx : UInt32 := 1

def checksumOffloadRx : UInt32 := 2

def checksumOffloadRxTx : UInt32 := 3

def ndisEncapsulationIeee8023 : UInt32 := 2

def fnmpDefaultMinGsoSegCount : UInt32 := 2

/-- The checksums of one IP version in one direction.  IPv6 has no header
checksum. -/
structure ChecksumSupport where
  encapsulation : UInt32
  ipChecksum : Bool
  ipOptionsSupported : Bool
  tcpChecksum : Bool
  tcpOptionsSupported : Bool
  udpChecksum : Bool

structure SegmentationSupport where
  encapsulation : UInt32 := 0
  maxOffLoadSize : UInt32 := 0
  minSegmentCount : UInt32 := 0
  ipExtensionHeadersSupported : Bool := false
  tcpOptionsSupported : Bool := false
  subMssFinalSegmentSupported : Bool := false

structure NdisOffload where
  ipv4Transmit : ChecksumSupport
  ipv4Receive : ChecksumSupport
  ipv6Transmit : ChecksumSupport
  ipv6Receive : ChecksumSupport
  lsoV2IPv4 : SegmentationSupport
  lsoV2IPv6 : SegmentationSupport
  udpSegmentationIPv4 : SegmentationSupport
  udpSegmentationIPv6 : SegmentationSupport
  rscIPv4Enabled : Bool
  rscIPv6Enabled : Bool

/-- The checksum branches for one IP version and direction; each of them sets
the encapsulation. -/
def checksumSupport (ip tcp udp : Bool) : ChecksumSupport :=
  ⟨if ip || tcp || udp then ndisEncapsulationIeee8023 else 0, ip, ip, tcp, tcp,
    udp⟩

variable (offload : AdapterOffload)

/-- `MpFillOffload`.  Its last branch tests `RscIPv4` again. -/
def mpFillOffload : NdisOffload :=
  let tx (s : Setting) : Bool := offload.setting s &&& checksumOffloadTx ≠ 0
  let rx (s : Setting) : Bool := offload.setting s &&& checksumOffloadRx ≠ 0
  let on (s : Setting) : Bool := offload.setting s ≠ 0
  let segmentation : SegmentationSupport :=
    { encapsulation := ndisEncapsulationIeee8023
      maxOffLoadSize := offload.gsoMaxOffloadSize
      minSegmentCount := fnmpDefaultMinGsoSegCount }
  { ipv4Transmit := checksumSupport (tx .ipChecksumIPv4) (tx .tcpChecksumIPv4)
      (tx .udpChecksumIPv4)
    ipv4Receive := checksumSupport (rx .ipChecksumIPv4) (rx .tcpChecksumIPv4)
      (rx .udpChecksumIPv4)
    ipv6Transmit := checksumSupport false (tx .tcpChecksumIPv6)
      (tx .udpChecksumIPv6)
    ipv6Receive := checksumSupport false (rx .tcpChecksumIPv6)
      (rx .udpChecksumIPv6)
    lsoV2IPv4 := if on .lsoV2IPv4 then segmentation else {}
    lsoV2IPv6 :=
      if on .lsoV2IPv6 then
        { segmentation with
          ipExtensionHeadersSupported := true, tcpOptionsSupported := true }
      else {}
    udpSegmentationIPv4 :=
      if on .usoIPv4 then
        { segmentation with subMssFinalSegmentSupported := true }
      else {}
    udpSegmentationIPv6 :=
      if on .usoIPv6 then
        { segmentation with
          ipExtensionHeadersSupported := true
          subMssFinalSegmentSupported := true }
      else {}
    rscIPv4Enabled := on .rscIPv4
    rscIPv6Enabled := on .rscIPv4 }

/-- What `MpSetOffloadAttributes` reports of each record. -/
def mpSetOffloadAttributes (adapter : Adapter) (store : Store) : NdisOffload :=
  mpFillOffload (adapter.mpGetOffload store)

/-! ## Parameters -/

/-- The revision of `NDIS_OFFLOAD_PARAMETERS` that has a setting. -/
def Setting.revision : Setting → UInt8
  | rscIPv4 | rscIPv6 => 3
  | usoIPv4 | usoIPv6 => 5
  | _ => 1

/-- The sizes of `NDIS_OFFLOAD_PARAMETERS` in its revisions and the offsets of
its fields. -/
structure ParametersLayout where
  sizeofRevision : UInt8 → ℕ
  offset : Setting → ℕ
  header_le : 2 ≤ sizeofRevision 1
  offset_lt : ∀ s, offset s < sizeofRevision s.revision

variable (state : UInt32)

/-- `MpUpdateChecksumParameter`.  A value that NDIS does not define only fails
an `ASSERT`. -/
def mpUpdateChecksumParameter (value : UInt8) : UInt32 :=
  match value.toNat with
  | 1 => 0
  | 2 => checksumOffloadTx
  | 3 => checksumOffloadRx
  | 4 => checksumOffloadRxTx
  | _ => state

def mpUpdateOffloadParameter (value : UInt8) : UInt32 :=
  match value.toNat with
  | 1 => 0
  | 2 => 1
  | _ => state

variable (s : Setting)

def Setting.update (value : UInt8) : UInt32 :=
  if s.isChecksum then mpUpdateChecksumParameter state value
  else mpUpdateOffloadParameter state value

/-- Update settings from their fields, one after the other.  A read beyond the
buffer has no result. -/
def updateSettings (layout : ParametersLayout) (parameters : List UInt8) :
    List Setting → AdapterOffload → Option AdapterOffload
  | [], offload => some offload
  | s :: rest, offload => do
    let value ← parameters[layout.offset s]?
    updateSettings layout parameters rest
      { offload with
        setting := Function.update offload.setting s
          (s.update (offload.setting s) value) }

def updateRevision (layout : ParametersLayout) (parameters : List UInt8)
    (revision required : UInt8) (settings : List Setting)
    (offload : AdapterOffload) : Option AdapterOffload :=
  if required ≤ revision ∧
      layout.sizeofRevision required ≤ parameters.length then
    updateSettings layout parameters settings offload
  else some offload

/-- The status of `MpSetOffloadParameters`, the record, and what is
indicated. -/
structure SetResult where
  status : NdisStatus
  offload : AdapterOffload
  indicated : Option NdisOffload

def mpSetOffloadParameters (layout : ParametersLayout)
    (parameters : List UInt8) (offload : AdapterOffload) :
    Option SetResult :=
  if parameters.length < layout.sizeofRevision 1 then
    some ⟨.invalidParameter, offload, none⟩
  else do
    let type ← parameters[0]?
    if type ≠ ndisObjectTypeDefault then
      return ⟨.invalidParameter, offload, none⟩
    let revision ← parameters[1]?
    let offload ← updateRevision layout parameters revision 1
      [.ipChecksumIPv4, .tcpChecksumIPv4, .tcpChecksumIPv6, .udpChecksumIPv4,
        .udpChecksumIPv6, .lsoV2IPv4, .lsoV2IPv6] offload
    let offload ← updateRevision layout parameters revision 3
      [.rscIPv4, .rscIPv6] offload
    let offload ← updateRevision layout parameters revision 5
      [.usoIPv4, .usoIPv6] offload
    return ⟨.success, offload, some (mpFillOffload offload)⟩

def indications (layout : ParametersLayout) :
    AdapterOffload → List (List UInt8) → Option (List NdisOffload)
  | _, [] => some []
  | offload, parameters :: rest => do
    let result ← mpSetOffloadParameters layout parameters offload
    let indicated ← result.indicated
    return indicated :: (← indications layout result.offload rest)

/-! ## What should be reported

The value of a setting is a pair, for transmission and for reception.  Both are
the same for the settings that are not checksums. -/

def Setting.value : Bool × Bool :=
  if s.isChecksum then
    (state &&& checksumOffloadTx ≠ 0, state &&& checksumOffloadRx ≠ 0)
  else (state ≠ 0, state ≠ 0)

def AdapterOffload.enabled : Bool × Bool :=
  s.value (offload.setting s)

def NdisOffload.advertises (report : NdisOffload) (s : Setting) : Bool × Bool :=
  let both (supported : Bool) := (supported, supported)
  match s with
  | .ipChecksumIPv4 =>
    (report.ipv4Transmit.ipChecksum, report.ipv4Receive.ipChecksum)
  | .tcpChecksumIPv4 =>
    (report.ipv4Transmit.tcpChecksum, report.ipv4Receive.tcpChecksum)
  | .tcpChecksumIPv6 =>
    (report.ipv6Transmit.tcpChecksum, report.ipv6Receive.tcpChecksum)
  | .udpChecksumIPv4 =>
    (report.ipv4Transmit.udpChecksum, report.ipv4Receive.udpChecksum)
  | .udpChecksumIPv6 =>
    (report.ipv6Transmit.udpChecksum, report.ipv6Receive.udpChecksum)
  | .lsoV2IPv4 => both (report.lsoV2IPv4.encapsulation ≠ 0)
  | .lsoV2IPv6 => both (report.lsoV2IPv6.encapsulation ≠ 0)
  | .rscIPv4 => both report.rscIPv4Enabled
  | .rscIPv6 => both report.rscIPv6Enabled
  | .usoIPv4 => both (report.udpSegmentationIPv4.encapsulation ≠ 0)
  | .usoIPv6 => both (report.udpSegmentationIPv6.encapsulation ≠ 0)

/-- What the value of a parameter asks for, if it is not
`NDIS_OFFLOAD_PARAMETERS_NO_CHANGE`. -/
def Setting.meaning (value : UInt8) : Option (Bool × Bool) :=
  match s.isChecksum, value.toNat with
  | _, 1 => some (false, false)
  | true, 2 => some (true, false)
  | true, 3 => some (false, true)
  | true, 4 => some (true, true)
  | false, 2 => some (true, true)
  | _, _ => none

def asked (layout : ParametersLayout) (s : Setting)
    (parameters : List UInt8) : Option (Bool × Bool) :=
  if s.revision ≤ parameters.getD 1 0 ∧
      layout.sizeofRevision s.revision ≤ parameters.length then
    s.meaning (parameters.getD (layout.offset s) 0)
  else none

def expected (layout : ParametersLayout) (stored : AdapterOffload)
    (calls : List (List UInt8)) (s : Setting) : Bool × Bool :=
  (calls.filterMap (asked layout s)).getLast?.getD (stored.enabled s)

/-- A report after a sequence of calls advertises what was asked for last, and
the limit of the record for segmentation. -/
structure Faithful (layout : ParametersLayout) (stored : AdapterOffload)
    (calls : List (List UInt8)) (report : NdisOffload) : Prop where
  settings : ∀ s, report.advertises s = expected layout stored calls s
  limits : ∀ segmentation ∈ [report.lsoV2IPv4, report.lsoV2IPv6,
      report.udpSegmentationIPv4, report.udpSegmentationIPv6],
    segmentation.encapsulation ≠ 0 →
      segmentation.maxOffLoadSize = stored.gsoMaxOffloadSize

/-! ## What is reported -/

theorem advertises_mpFillOffload :
    (mpFillOffload offload).advertises s =
      offload.enabled (if s = .rscIPv6 then .rscIPv4 else s) := by
  have hcode : ndisEncapsulationIeee8023 ≠ 0 := by decide
  cases s <;>
    simp [mpFillOffload, NdisOffload.advertises, AdapterOffload.enabled,
      Setting.value, Setting.isChecksum, checksumSupport,
      apply_ite SegmentationSupport.encapsulation, hcode]

theorem faithful_mpFillOffload (layout : ParametersLayout)
    (stored : AdapterOffload) :
    Faithful layout stored [] (mpFillOffload stored) ↔
      stored.enabled .rscIPv6 = stored.enabled .rscIPv4 := by
  constructor
  · intro h
    exact (h.settings .rscIPv6).symm.trans
      (advertises_mpFillOffload stored .rscIPv6)
  · intro heq
    refine ⟨fun s => ?_, ?_⟩
    · rw [advertises_mpFillOffload]
      split
      · rename_i hs
        rw [hs, ← heq]
        rfl
      · rfl
    · simp only [mpFillOffload, List.mem_cons, List.not_mem_nil, or_false]
      rintro segmentation (rfl | rfl | rfl | rfl) <;> split <;> simp

theorem Setting.value_update (value : UInt8) :
    s.value (s.update state value) =
      (s.meaning value).getD (s.value state) := by
  unfold Setting.value Setting.update Setting.meaning
    mpUpdateChecksumParameter mpUpdateOffloadParameter
  cases s.isChecksum <;> simp only [if_true, Bool.false_eq_true, if_false] <;>
    split <;> first | rfl | (split <;> simp_all <;> decide)

variable {layout : ParametersLayout} {parameters : List UInt8}

theorem updateSettings_spec {settings : List Setting}
    (hbound : ∀ s ∈ settings, layout.offset s < parameters.length)
    (hnodup : settings.Nodup) (offload : AdapterOffload) :
    ∃ next, updateSettings layout parameters settings offload = some next ∧
      next.gsoMaxOffloadSize = offload.gsoMaxOffloadSize ∧
      ∀ s, next.setting s = if s ∈ settings then
          s.update (offload.setting s) (parameters.getD (layout.offset s) 0)
        else offload.setting s := by
  induction settings generalizing offload with
  | nil => exact ⟨offload, rfl, rfl, fun s => rfl⟩
  | cons head rest ih =>
    obtain ⟨hhead, hrest⟩ := List.nodup_cons.mp hnodup
    have hread : parameters[layout.offset head]? =
        some (parameters.getD (layout.offset head) 0) := by
      simp [hbound head List.mem_cons_self]
    obtain ⟨next, hnext, hgso, hsetting⟩ := ih
      (fun s hs => hbound s (List.mem_cons_of_mem _ hs)) hrest
      { offload with
        setting := Function.update offload.setting head
          (head.update (offload.setting head)
            (parameters.getD (layout.offset head) 0)) }
    refine ⟨next, ?_, hgso, fun s => ?_⟩
    · rw [updateSettings, hread]
      exact hnext
    · rw [hsetting]
      by_cases hs : s = head
      · subst hs
        simp [hhead]
      · simp [hs]

theorem updateRevision_spec (layout : ParametersLayout)
    (parameters : List UInt8) (required : UInt8) (settings : List Setting)
    (hrevision : ∀ s ∈ settings, s.revision = required)
    (hnodup : settings.Nodup) (offload : AdapterOffload) :
    ∃ next, updateRevision layout parameters (parameters.getD 1 0) required
        settings offload = some next ∧
      next.gsoMaxOffloadSize = offload.gsoMaxOffloadSize ∧
      ∀ s, next.enabled s = if s ∈ settings then
          (asked layout s parameters).getD (offload.enabled s)
        else offload.enabled s := by
  unfold updateRevision asked
  split
  · rename_i hcarried
    obtain ⟨next, hnext, hgso, hsetting⟩ := updateSettings_spec (fun s hs =>
      (layout.offset_lt s).trans_le (hrevision s hs ▸ hcarried.2)) hnodup
      offload
    refine ⟨next, hnext, hgso, fun s => ?_⟩
    unfold AdapterOffload.enabled
    rw [hsetting]
    by_cases hs : s ∈ settings
    · rw [if_pos hs, if_pos hs, hrevision s hs, if_pos hcarried,
        Setting.value_update]
    · rw [if_neg hs, if_neg hs]
  · rename_i hcarried
    refine ⟨offload, rfl, rfl, fun s => ?_⟩
    by_cases hs : s ∈ settings
    · rw [if_pos hs, hrevision s hs, if_neg hcarried]
      rfl
    · rw [if_neg hs]

/-- `MpSetOffloadParameters` does not refuse the structure. -/
def WellFormed (layout : ParametersLayout) (parameters : List UInt8) : Prop :=
  layout.sizeofRevision 1 ≤ parameters.length ∧
    parameters.getD 0 0 = ndisObjectTypeDefault

theorem mpSetOffloadParameters_spec (layout : ParametersLayout)
    (parameters : List UInt8) (offload : AdapterOffload) :
    (¬WellFormed layout parameters ∧
      mpSetOffloadParameters layout parameters offload =
        some ⟨.invalidParameter, offload, none⟩) ∨
    WellFormed layout parameters ∧
      ∃ next, mpSetOffloadParameters layout parameters offload =
          some ⟨.success, next, some (mpFillOffload next)⟩ ∧
        next.gsoMaxOffloadSize = offload.gsoMaxOffloadSize ∧
        ∀ s, next.enabled s =
          (asked layout s parameters).getD (offload.enabled s) := by
  unfold mpSetOffloadParameters
  split
  · rename_i hlength
    exact Or.inl ⟨fun h => absurd h.1 (by omega), rfl⟩
  · rename_i hlength
    have hheader := layout.header_le
    have hread : ∀ i < 2, parameters[i]? = some (parameters.getD i 0) := by
      intro i hi
      rw [List.getD_eq_getElem?_getD, List.getElem?_eq_getElem (by omega)]
      rfl
    rw [hread 0 (by omega), hread 1 (by omega)]
    by_cases htype : parameters.getD 0 0 = ndisObjectTypeDefault
    · obtain ⟨first, hfirst, hgso₁, henabled₁⟩ := updateRevision_spec
        layout parameters 1
        [.ipChecksumIPv4, .tcpChecksumIPv4, .tcpChecksumIPv6,
          .udpChecksumIPv4, .udpChecksumIPv6, .lsoV2IPv4, .lsoV2IPv6]
        (by decide) (by decide) offload
      obtain ⟨second, hsecond, hgso₂, henabled₂⟩ := updateRevision_spec
        layout parameters 3 [.rscIPv4, .rscIPv6] (by decide) (by decide) first
      obtain ⟨third, hthird, hgso₃, henabled₃⟩ := updateRevision_spec
        layout parameters 5 [.usoIPv4, .usoIPv6] (by decide) (by decide) second
      refine Or.inr ⟨⟨by omega, htype⟩, third, ?_,
        hgso₃.trans (hgso₂.trans hgso₁), fun s => ?_⟩
      · simp only [Option.bind_eq_bind, Option.bind_some, htype, ne_eq,
          not_true_eq_false, if_false, hfirst, hsecond, hthird]
        rfl
      · rw [henabled₃, henabled₂, henabled₁]
        cases s <;> rfl
    · refine Or.inl ⟨fun h => htype h.2, ?_⟩
      simp only [Option.bind_eq_bind, Option.bind_some, ne_eq, htype,
        not_false_eq_true, if_true]
      rfl

/-- What the processing of OID requests says of the status of
`MpSetOffloadParameters` is the status of the update. -/
theorem status_mpSetOffloadParameters (layout : ParametersLayout)
    (offload : AdapterOffload) {sizes : NdisSizes} {request : NdisOidRequest}
    (hsize : sizes.offloadParameters.toNat = layout.sizeofRevision 1)
    (hlength : request.information.bytes.length =
      request.informationBufferLength.toNat)
    (htype : request.information.headerType = .default ↔
      request.information.bytes.getD 0 0 = ndisObjectTypeDefault) :
    (mpSetOffloadParameters layout request.information.bytes offload).map
        (·.status) = some (Fnmp.mpSetOffloadParameters sizes request) := by
  have hrefused : (request.informationBufferLength < sizes.offloadParameters ∨
        request.information.headerType ≠ .default) ↔
      ¬WellFormed layout request.information.bytes := by
    rw [UInt32.lt_iff_toNat_lt, hsize, ← hlength, Ne, htype, WellFormed,
      not_and_or, Nat.not_le]
  rcases mpSetOffloadParameters_spec layout request.information.bytes offload
    with ⟨hnot, heq⟩ | ⟨hwell, next, heq, -⟩
  · rw [heq, Fnmp.mpSetOffloadParameters, if_pos (hrefused.mpr hnot)]
    rfl
  · rw [heq, Fnmp.mpSetOffloadParameters,
      if_neg (fun h => hrefused.mp h hwell)]
    rfl

theorem expected_cons {stored next : AdapterOffload}
    (henabled : ∀ s, next.enabled s =
      (asked layout s parameters).getD (stored.enabled s))
    (calls : List (List UInt8)) :
    expected layout stored (parameters :: calls) =
      expected layout next calls := by
  funext s
  unfold expected
  rw [henabled, List.filterMap_cons]
  cases asked layout s parameters with
  | none => rfl
  | some value => simp [List.getLast?_cons]

/-- No call reads beyond its buffer.  In a sequence of successful calls, the
report made after any number of them is faithful exactly when the RSC settings
that were asked for last agree. -/
theorem reports_faithful_iff (layout : ParametersLayout) (adapter : Adapter)
    (store : Store) :
    (∀ parameters offload,
      (mpSetOffloadParameters layout parameters offload).isSome) ∧
    ∀ calls reports,
      indications layout (adapter.mpGetOffload store) calls = some reports →
      ∀ k report,
        (mpSetOffloadAttributes adapter store :: reports)[k]? = some report →
        (Faithful layout (adapter.mpGetOffload store) (calls.take k) report ↔
          expected layout (adapter.mpGetOffload store) (calls.take k)
              .rscIPv6 =
            expected layout (adapter.mpGetOffload store) (calls.take k)
              .rscIPv4) := by
  constructor
  · intro parameters offload
    rcases mpSetOffloadParameters_spec layout parameters offload with
      ⟨-, h⟩ | ⟨-, next, h, -⟩ <;> rw [h] <;> rfl
  · intro calls reports
    unfold mpSetOffloadAttributes
    generalize adapter.mpGetOffload store = stored
    intro hreports k
    induction k generalizing stored calls reports with
    | zero =>
      rintro report ⟨⟩
      exact faithful_mpFillOffload layout stored
    | succ k ih =>
      intro report hreport
      cases calls with
      | nil =>
        cases hreports
        cases hreport
      | cons parameters calls =>
        rcases mpSetOffloadParameters_spec layout parameters stored with
          ⟨-, h⟩ | ⟨-, next, h, hgso, henabled⟩
        · simp [indications, h] at hreports
        · simp only [indications, h, Option.bind_eq_bind,
            Option.bind_some, Option.bind_eq_some_iff] at hreports
          obtain ⟨rest, hrest, heq⟩ := hreports
          obtain rfl := Option.some.inj heq
          have hexpected := expected_cons henabled (calls.take k)
          have hfaithful :
              Faithful layout stored (parameters :: calls.take k) report ↔
                Faithful layout next (calls.take k) report :=
            ⟨fun h => ⟨hexpected ▸ h.settings, hgso ▸ h.limits⟩,
              fun h => ⟨hexpected ▸ h.settings, hgso ▸ h.limits⟩⟩
          rw [List.take_succ_cons, hfaithful, hexpected]
          exact ih calls rest next hrest report hreport

def sampleLayout : ParametersLayout where
  sizeofRevision revision := if revision < 3 then 20 else
    if revision < 5 then 26 else 34
  offset
    | .ipChecksumIPv4 => 4
    | .tcpChecksumIPv4 => 5
    | .udpChecksumIPv4 => 6
    | .tcpChecksumIPv6 => 7
    | .udpChecksumIPv6 => 8
    | .lsoV2IPv4 => 11
    | .lsoV2IPv6 => 12
    | .rscIPv4 => 22
    | .rscIPv6 => 23
    | .usoIPv4 => 32
    | .usoIPv6 => 33
  header_le := by decide
  offset_lt s := by cases s <;> decide

def disabledAdapter : Adapter :=
  ⟨⟨fun _ => 0, 0, 0x20000⟩, ⟨fun _ => 0, 0, 0x20000⟩⟩

def rscParameters (ipv4 ipv6 : UInt8) : List UInt8 :=
  [0x80, 3, 26, 0] ++ List.replicate 18 0 ++ [ipv4, ipv6, 0, 0]

theorem reports_faithful_iff_bothEnabled : ∃ report,
      indications sampleLayout disabledAdapter.offloadConfig
        [rscParameters 2 2] = some [report] ∧
      Faithful sampleLayout disabledAdapter.offloadConfig [rscParameters 2 2]
        report := by
  refine ⟨_, rfl, ?_⟩
  exact (((reports_faithful_iff sampleLayout disabledAdapter .currentConfig).2
    [rscParameters 2 2] _ rfl 1 _ rfl).mpr (by decide))

/-- RSC is enabled for IPv6 only, and not advertised. -/
theorem ipv6Rsc_not_advertised :
    (indications sampleLayout disabledAdapter.offloadConfig
        [rscParameters 0 2]).map (·.map (·.advertises .rscIPv6)) =
      some [(false, false)] ∧
    expected sampleLayout disabledAdapter.offloadConfig [rscParameters 0 2]
      .rscIPv6 = (true, true) := by
  decide

end WinNetTest.Fnmp.Offload
