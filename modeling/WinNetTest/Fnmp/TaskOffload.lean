import WinNetTest.Fnmp.Offload

/-!
# Updating the task offloads

`SharedIrpUpdateTaskOffload` writes the options to the record before it copies
and checks the parameters, and `MpReadOffload` clears the whole record when the
registry holds a value out of range.  A call that fails later than the options
changes nothing only if these writes happen to write what was there.
-/

namespace WinNetTest.Fnmp.Offload

open Support Fnio StatusIoctls

/-- The values `NdisReadConfiguration` finds. -/
structure Registry where
  setting : Setting → Option UInt32
  udpRsc : Option UInt32

def AdapterOffload.zero : AdapterOffload := ⟨fun _ => 0, 0, 0⟩

/-- The greatest value of a setting. -/
def Setting.maximum (s : Setting) : UInt32 :=
  if s.isChecksum then checksumOffloadRxTx else 1

def readSettings (registry : Registry) :
    List Setting → (Setting → UInt32) → Option (Setting → UInt32)
  | [], setting => some setting
  | s :: rest, setting =>
    let value := (registry.setting s).getD (setting s)
    if s.maximum < value then none
    else readSettings registry rest (Function.update setting s value)

/-- The settings in the order in which `MpReadOffload` reads them. -/
def readOrder : List Setting :=
  [.ipChecksumIPv4, .tcpChecksumIPv4, .tcpChecksumIPv6, .udpChecksumIPv4,
    .udpChecksumIPv6, .lsoV2IPv4, .lsoV2IPv6, .usoIPv4, .usoIPv6, .rscIPv4,
    .rscIPv6]

def mpReadOffload (registry : Registry) (offload : AdapterOffload) :
    NdisStatus × AdapterOffload :=
  let udpRsc := registry.udpRsc.getD offload.udpRsc
  match readSettings registry readOrder offload.setting with
  | none => (.invalidParameter, .zero)
  | some setting =>
    if 1 < udpRsc then (.invalidParameter, .zero)
    else (.success, { offload with setting, udpRsc })

def Adapter.set (adapter : Adapter) (offload : AdapterOffload) : Store → Adapter
  | .currentConfig => { adapter with offloadConfig := offload }
  | .hardwareCapabilities => { adapter with offloadCapabilities := offload }

def store : OffloadType → Option Store
  | .currentConfig => some .currentConfig
  | .hardwareCapabilities => some .hardwareCapabilities
  | .other _ => none

structure Updated where
  status : NtStatus
  adapter : Adapter
  indicated : Option NdisOffload

/-- The limit in the options, zero if there are none. -/
def optionsSize : Option UserRead → Except NtStatus UInt32
  | none => .ok 0
  | some options =>
    (bounceBuffer options sizeofOffloadOptions).map fun bytes =>
      UInt32.ofNat (leValue bytes)

/-- Write the limit of the options to a record, unless it is zero. -/
def Adapter.limit (adapter : Adapter) (store : Store) (size : UInt32) :
    Adapter :=
  if size ≠ 0 then
    adapter.set { adapter.mpGetOffload store with gsoMaxOffloadSize := size }
      store
  else adapter

variable (layout : ParametersLayout)

def applyParameters (registry : Registry) (adapter : Adapter) (store : Store)
    (input : UpdateTaskOffloadInput) : Option Updated :=
  if 0 < input.offloadParametersLength then
    match bounceBuffer input.offloadParameters
      input.offloadParametersLength.toNat with
    | .error status => some ⟨status, adapter, none⟩
    | .ok parameters =>
      (mpSetOffloadParameters layout parameters
        (adapter.mpGetOffload store)).map fun result =>
          ⟨if result.status = .success then .success else .invalidParameter,
            adapter.set result.offload store, result.indicated⟩
  else if !input.opened then some ⟨.unsuccessful, adapter, none⟩
  else
    let (status, offload) := mpReadOffload registry (adapter.mpGetOffload store)
    if status ≠ .success then
      some ⟨.invalidParameter, adapter.set offload store, none⟩
    else
      some ⟨.success, adapter.set offload store, some (mpFillOffload offload)⟩

/-- The values of `SharedIrpUpdateTaskOffload`, whose calls are in
`StatusIoctls`, given what the registry holds for each record. -/
def sharedIrpUpdateTaskOffload (registry : Store → Registry) (adapter : Adapter)
    (input : UpdateTaskOffloadInput) : Option Updated :=
  if input.inputBufferLength < sizeofUpdateTaskOffloadIn then
    some ⟨.bufferTooSmall, adapter, none⟩
  else
    match store input.offloadType with
    | none => some ⟨.invalidParameter, adapter, none⟩
    | some store =>
      match optionsSize input.offloadOptions with
      | .error status => some ⟨status, adapter, none⟩
      | .ok size =>
        applyParameters layout (registry store) (adapter.limit store size)
          store input

def Updated.Harmless (result : Updated) (adapter : Adapter) : Prop :=
  result.status.ntSuccess = false →
    result.adapter = adapter ∧ result.indicated = none

theorem Adapter.set_eq_iff {adapter : Adapter} {store : Store}
    {offload : AdapterOffload} :
    adapter.set offload store = adapter ↔
      adapter.mpGetOffload store = offload := by
  cases store <;> simp [Adapter.set, mpGetOffload, Adapter.ext_iff, eq_comm]

section Limit

variable (adapter : Adapter) (store : Store) (size : UInt32)

theorem Adapter.limit_eq_iff : adapter.limit store size = adapter ↔
      size = 0 ∨ size = (adapter.mpGetOffload store).gsoMaxOffloadSize := by
  unfold Adapter.limit
  split
  · rename_i hne
    cases store <;>
      simp [Adapter.set, mpGetOffload, Adapter.ext_iff,
        AdapterOffload.ext_iff, hne]
  · rename_i heq
    exact iff_of_true rfl (Or.inl (not_not.mp heq))

theorem Adapter.set_limit (offload : AdapterOffload) :
    (adapter.limit store size).set offload store =
      adapter.set offload store := by
  unfold Adapter.limit
  split <;> cases store <;> rfl

theorem Adapter.mpGetOffload_limit :
    ((adapter.limit store size).mpGetOffload store).setting =
        (adapter.mpGetOffload store).setting ∧
      ((adapter.limit store size).mpGetOffload store).udpRsc =
        (adapter.mpGetOffload store).udpRsc := by
  unfold Adapter.limit
  split <;> cases store <;> exact ⟨rfl, rfl⟩

end Limit

/-! ## Failures -/

/-- What `MpReadOffload` reads is in range.  A value that the registry does not
hold is that of the record. -/
def InRange (registry : Registry) (offload : AdapterOffload) : Prop :=
  (∀ s, (registry.setting s).getD (offload.setting s) ≤ s.maximum) ∧
    registry.udpRsc.getD offload.udpRsc ≤ 1

theorem readSettings_eq_none_iff (registry : Registry) {settings : List Setting}
    (hnodup : settings.Nodup) (setting : Setting → UInt32) :
    readSettings registry settings setting = none ↔
      ∃ s ∈ settings,
        ¬(registry.setting s).getD (setting s) ≤ s.maximum := by
  induction settings generalizing setting with
  | nil => simp [readSettings]
  | cons s rest ih =>
    obtain ⟨hs, hrest⟩ := List.nodup_cons.mp hnodup
    have hsame : ∀ value, ∀ s' ∈ rest,
        Function.update setting s value s' = setting s' := by
      intro value s' hs'
      refine Function.update_of_ne ?_ _ _
      rintro rfl
      exact hs hs'
    rw [readSettings, List.exists_mem_cons_iff]
    split
    · rename_i hlt
      exact iff_of_true rfl (Or.inl (UInt32.not_le.mpr hlt))
    · rename_i hle
      rw [ih hrest, or_iff_right (not_not.mpr (UInt32.not_lt.mp hle))]
      refine exists_congr fun s' => and_congr_right fun hs' => ?_
      rw [hsame _ s' hs']

theorem mpReadOffload_cases (registry : Registry) (offload : AdapterOffload) :
    (¬InRange registry offload ∧
      mpReadOffload registry offload = (.invalidParameter, .zero)) ∨
    InRange registry offload ∧
      ∃ next, mpReadOffload registry offload = (.success, next) := by
  have hiff := readSettings_eq_none_iff registry
    (show readOrder.Nodup by decide) offload.setting
  unfold mpReadOffload
  dsimp only
  split
  · rename_i hnone
    obtain ⟨s, -, hs⟩ := hiff.mp hnone
    exact Or.inl ⟨fun h => hs (h.1 s), rfl⟩
  · rename_i setting hsome
    have hrange : ∀ s, (registry.setting s).getD (offload.setting s) ≤
        s.maximum := by
      intro s
      by_contra hs
      have hnone := hiff.mpr ⟨s, by cases s <;> decide, hs⟩
      rw [hsome] at hnone
      cases hnone
    split
    · rename_i hlt
      exact Or.inl ⟨fun h => UInt32.not_lt.mpr h.2 hlt, rfl⟩
    · rename_i hle
      exact Or.inr ⟨⟨hrange, UInt32.not_lt.mp hle⟩, _, rfl⟩

/-- The parameters cannot be read or are refused; or there are none, and the
configuration does not open or holds a value out of range. -/
def Fails (registry : Registry) (offload : AdapterOffload)
    (input : UpdateTaskOffloadInput) : Prop :=
  if 0 < input.offloadParametersLength then
    ∀ parameters, bounceBuffer input.offloadParameters
        input.offloadParametersLength.toNat = .ok parameters →
      ¬WellFormed layout parameters
  else input.opened = true → ¬InRange registry offload

theorem ntSuccess_of_bounceBuffer {read : UserRead} {size : ℕ}
    {status : NtStatus} (h : bounceBuffer read size = .error status) :
    status.ntSuccess = false := by
  unfold bounceBuffer at h
  split_ifs at h
  · cases h
    rfl
  · split at h
    · cases h
      rfl
    · cases h

theorem applyParameters_spec (registry : Registry) (adapter : Adapter)
    (store : Store) (input : UpdateTaskOffloadInput) :
    ∃ result,
      applyParameters layout registry adapter store input = some result ∧
      (result.status.ntSuccess = false ↔
        Fails layout registry (adapter.mpGetOffload store) input) ∧
      (result.status.ntSuccess = false → result.indicated = none ∧
        result.adapter =
          if input.offloadParametersLength = 0 ∧ input.opened = true then
            adapter.set .zero store
          else adapter) := by
  unfold applyParameters Fails
  split
  · rename_i hpos
    have hne : input.offloadParametersLength ≠ 0 :=
      UInt32.pos_iff_ne_zero.mp hpos
    simp only [hne, false_and, if_false]
    cases hread : bounceBuffer input.offloadParameters
      input.offloadParametersLength.toNat with
    | error status =>
      exact ⟨_, rfl, iff_of_true (ntSuccess_of_bounceBuffer hread) (by simp),
        fun _ => ⟨rfl, rfl⟩⟩
    | ok parameters =>
      rcases mpSetOffloadParameters_spec layout parameters
        (adapter.mpGetOffload store) with ⟨hnot, h⟩ | ⟨hformed, next, h, -⟩
      · simp only [h]
        exact ⟨_, rfl, iff_of_true rfl (by simpa using hnot),
          fun _ => ⟨rfl, Adapter.set_eq_iff.mpr rfl⟩⟩
      · simp only [h]
        exact ⟨_, rfl, by simp [NtStatus.ntSuccess, hformed],
          by simp [NtStatus.ntSuccess]⟩
  · rename_i hzero
    have hzero : input.offloadParametersLength = 0 := by
      simpa [UInt32.pos_iff_ne_zero] using hzero
    cases hopened : input.opened with
    | false => exact ⟨_, rfl, iff_of_true rfl (by simp), fun _ => ⟨rfl, by simp⟩⟩
    | true =>
      simp only [hzero, true_and, if_true, Bool.not_true,
        Bool.false_eq_true, if_false, true_implies]
      rcases mpReadOffload_cases registry (adapter.mpGetOffload store) with
        ⟨hnot, h⟩ | ⟨hrange, next, h⟩
      · simp only [h]
        exact ⟨_, rfl, iff_of_true rfl hnot, fun _ => ⟨rfl, rfl⟩⟩
      · simp only [h]
        exact ⟨_, rfl, by simp [NtStatus.ntSuccess, hrange],
          by simp [NtStatus.ntSuccess]⟩

/-- A failed call is harmless exactly when it fails no later than the options;
or the options have no limit or that of the record, and the parameters or the
opening of the configuration fail; or the registry holds a value out of range
and the record was clear. -/
theorem failed_update_harmless_iff (layout : ParametersLayout)
    (registry : Store → Registry) (adapter : Adapter)
    (input : UpdateTaskOffloadInput) :
    ∃ result, sharedIrpUpdateTaskOffload layout registry adapter input =
        some result ∧
      (result.Harmless adapter ↔ ∀ store' size,
          sizeofUpdateTaskOffloadIn ≤ input.inputBufferLength →
          store input.offloadType = some store' →
          optionsSize input.offloadOptions = .ok size →
          Fails layout (registry store') (adapter.mpGetOffload store') input →
          if input.offloadParametersLength = 0 ∧ input.opened = true then
            adapter.mpGetOffload store' = .zero
          else size = 0 ∨
            size = (adapter.mpGetOffload store').gsoMaxOffloadSize) := by
  unfold sharedIrpUpdateTaskOffload
  split
  · refine ⟨_, rfl, iff_of_true (fun _ => ⟨rfl, rfl⟩) ?_⟩
    intros
    omega
  · rename_i hlength
    cases store input.offloadType with
    | none =>
      exact ⟨_, rfl, iff_of_true (fun _ => ⟨rfl, rfl⟩) (by simp)⟩
    | some selected =>
      cases hsize : optionsSize input.offloadOptions with
      | error status =>
        exact ⟨_, rfl, iff_of_true (fun _ => ⟨rfl, rfl⟩) (by simp)⟩
      | ok size =>
        obtain ⟨result, hresult, hfails, hfailed⟩ := applyParameters_spec
          layout (registry selected) (adapter.limit selected size) selected
          input
        refine ⟨result, hresult, ?_⟩
        have hrecord := adapter.mpGetOffload_limit selected size
        simp only [Fails, InRange, hrecord.1, hrecord.2] at hfails
        have hiff : result.status.ntSuccess = false →
            (result.adapter = adapter ∧ result.indicated = none ↔
            if input.offloadParametersLength = 0 ∧ input.opened = true then
              adapter.mpGetOffload selected = .zero
            else size = 0 ∨
              size = (adapter.mpGetOffload selected).gsoMaxOffloadSize) := by
          intro hstatus
          obtain ⟨hnone, heq⟩ := hfailed hstatus
          rw [heq, hnone, and_iff_left rfl]
          split
          · rw [Adapter.set_limit, Adapter.set_eq_iff]
          · exact Adapter.limit_eq_iff ..
        constructor
        · rintro h store' size' - hstore hsize' hfail
          obtain rfl := Option.some.inj hstore
          obtain rfl := Except.ok.inj hsize'
          have hstatus := hfails.mpr hfail
          exact (hiff hstatus).mp (h hstatus)
        · intro h hstatus
          exact (hiff hstatus).mpr
            (h selected size (by omega) rfl rfl (hfails.mp hstatus))

def unreadableUpdate : UpdateTaskOffloadInput where
  inputBufferLength := sizeofUpdateTaskOffloadIn
  offloadType := .currentConfig
  offloadOptions := some ⟨true, some fun i => if i = 0 then 1 else 0⟩
  offloadParametersLength := 20
  offloadParameters := ⟨true, none⟩
  opened := true
  read := true

theorem failed_update_changes_limit :
    (sharedIrpUpdateTaskOffload sampleLayout (fun _ => ⟨fun _ => none, none⟩)
        disabledAdapter unreadableUpdate).map
        (fun result => (result.status,
          result.adapter.offloadConfig.gsoMaxOffloadSize)) =
      some (.accessViolation, 1) ∧
    disabledAdapter.offloadConfig.gsoMaxOffloadSize = 0x20000 := by
  decide

end WinNetTest.Fnmp.Offload
