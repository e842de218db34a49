import WinNetTest.Fnlwf.Rx

/-!
# Low-resources receives

A miniport that indicates a chain with `NDIS_RECEIVE_FLAGS_RESOURCES` takes it
back when the indication returns.  `FilterReceiveNetBufferLists` forwards the
flag and does not look at it: filters capture NBLs of such a chain as of any
other.  FNMP's `SharedIrpRxFlush` with the `LowResources` option frees the
chain it gets back, and with it an NBL that FNLWF holds.
-/

namespace WinNetTest.Fnlwf

open Support Fnio Fnio.CapturePath Fnmp

/-! ## Links -/

/-- The `Next` link of an NBL in a chain. -/
def nextLink : List ℕ → ℕ → Option ℕ
  | [], _ => none
  | j :: rest, i => if i = j then rest.head? else nextLink rest i

def filterQueues (filter : DataFilter) : List (List ℕ) :=
  [filter.nblQueue.chain.map NetBufferList.id,
    filter.nblReturn.chain.map NetBufferList.id]

def queuesAfter (sweep : Sweep) : List (List ℕ) :=
  sweep.queue.chain.map NetBufferList.id ::
    sweep.filters.handles.entries.flatMap fun entry =>
      entry.2.elim [] filterQueues

def chainFrom (sweep : Sweep) (i : ℕ) : List ℕ :=
  (((queuesAfter sweep).find? fun queue => i ∈ queue).getD []).dropWhile
    fun j => j ≠ i

/-! ## The two calls -/

/-- What a call of `FilterReceiveNetBufferLists` leaves: the filters, the chain
indicated to the layer above, and the flags of that indication. -/
structure Indication where
  sweep : Sweep
  receiveFlags : UInt32

/-- `FilterReceiveNetBufferLists`, with or without run-down protection. -/
def filterReceiveNetBufferLists (env : CaptureEnv) (acquired : Bool)
    (fl : FilterList) (chain : NblCountedQueue) (receiveFlags : UInt32) :
    Indication :=
  ⟨if acquired then fl.capture env chain
    else ⟨fl, NblCountedQueue.empty.appendQueue chain, []⟩, receiveFlags⟩

/-- The end of `SharedIrpRxFlush` with the `LowResources` option, after the
chain it indicated has gone through FNLWF: the links are compared with the
shadow list, and the chain found at the first NBL is freed. -/
def verifyAndFree (chain : List ℕ) (sweep : Sweep) : NtStatus × List ℕ :=
  match chain with
  | [] => (.success, [])
  | first :: _ =>
    let returned := chainFrom sweep first
    (if (returned.all fun i => nextLink returned i == nextLink chain i) &&
        ulong returned.length == ulong chain.length then .success
      else .ioDeviceError, returned)

/-! ## What is retained -/

/-- No NBL of the chain is in a filter, and each has the link it arrived
with. -/
structure NotRetained (chain : NblCountedQueue) (sweep : Sweep) : Prop where
  notHeld : ∀ i ∈ chain.ids, i ∉ sweep.filters.ids
  links : ∀ i ∈ chain.ids, ∃ queue ∈ queuesAfter sweep, i ∈ queue ∧
    nextLink queue i = nextLink (chain.chain.map NetBufferList.id) i

/-- No linked filter captures the NBL: those that match it find no memory for
the context. -/
def PassesAll (env : CaptureEnv) (fl : FilterList) (nbl : NetBufferList) :
    Prop :=
  ∀ h ∈ fl.links, ∀ filter, fl.filter? h = some filter →
    nbl.netBuffers.any (fnIoFilterNb filter) = true →
      env.allocated nbl.id h = false

variable (env : CaptureEnv)

theorem fnIoFilterNbl_eq_pending_iff (h : ℕ) (pool : ContextPool)
    (filter : DataFilter) (nbl : NetBufferList) :
    (fnIoFilterNbl env h pool filter nbl).1 = .pending ↔
      nbl.netBuffers.any (fnIoFilterNb filter) = true ∧
        env.allocated nbl.id h = true := by
  unfold fnIoFilterNbl
  split
  · rename_i hmatch
    split
    · rename_i halloc
      simp [hmatch, halloc]
    · rename_i halloc
      simp [halloc]
  · rename_i hmatch
    simp [hmatch]

theorem filterNblLoop_eq_false_iff (nbl : NetBufferList) (fl : FilterList)
    {handles : List ℕ} (hlinked : ∀ h ∈ handles, (fl.filter? h).isSome) :
    FilterList.filterNblLoop env nbl fl handles = (false, fl) ↔
      ∀ h ∈ handles, ∀ filter, fl.filter? h = some filter →
        nbl.netBuffers.any (fnIoFilterNb filter) = true →
          env.allocated nbl.id h = false := by
  induction handles with
  | nil => simp [FilterList.filterNblLoop]
  | cons h rest ih =>
    obtain ⟨filter, hfilter⟩ :=
      Option.isSome_iff_exists.mp (hlinked h List.mem_cons_self)
    have hrest := ih fun h' hh' => hlinked h' (List.mem_cons_of_mem h hh')
    have hpending := fnIoFilterNbl_eq_pending_iff env h fl.pool filter nbl
    unfold FilterList.filterNblLoop
    simp only [hfilter]
    by_cases hcaptured : (fnIoFilterNbl env h fl.pool filter nbl).1 = .pending
    · have hmatch := hpending.mp hcaptured
      simp only [hcaptured, if_true]
      refine iff_of_false (by simp) fun hpass => ?_
      have hfalse := hpass h List.mem_cons_self filter hfilter hmatch.1
      rw [hmatch.2] at hfalse
      cases hfalse
    · rw [if_neg hcaptured, hrest]
      refine ⟨fun hpass h' hmem => ?_, fun hpass h' hmem =>
        hpass h' (List.mem_cons_of_mem h hmem)⟩
      rcases List.mem_cons.mp hmem with rfl | hmem
      · intro filter' hfilter' hmatch
        cases hfilter.symm.trans hfilter'
        by_contra halloc
        exact hcaptured (hpending.mpr
          ⟨hmatch, Bool.eq_true_of_not_eq_false halloc⟩)
      · exact hpass h' hmem

theorem filterNbl_cases {fl : FilterList} (hfl : fl.WellLinked)
    (env : CaptureEnv) (nbl : NetBufferList) :
    PassesAll env fl nbl ∧ fl.filterNbl env nbl = (false, fl) ∨
      ¬ PassesAll env fl nbl ∧ (fl.filterNbl env nbl).1 = true ∧
        nbl.id ∈ (fl.filterNbl env nbl).2.ids := by
  have hlinked : ∀ h ∈ fl.links, (fl.filter? h).isSome := fun h hh =>
    (hfl.mem_links h).mp hh
  have hiff := filterNblLoop_eq_false_iff env nbl fl hlinked
  have hids := FilterList.ids_filterNbl hfl env nbl
  rcases FilterList.filterNblLoop_cases env nbl fl hlinked with
    heq | ⟨h, filter, context, -, -, -, heq⟩
  · exact Or.inl ⟨hiff.mp heq, heq⟩
  · have htrue : (fl.filterNbl env nbl).1 = true := by
      rw [FilterList.filterNbl, heq]
    refine Or.inr ⟨fun hpass => ?_, htrue, ?_⟩
    · have hfalse : fl.filterNbl env nbl = (false, fl) := hiff.mpr hpass
      rw [hfalse] at htrue
      cases htrue
    · rw [hids, htrue]
      simp

variable {s : Sweep} (nbls : List NetBufferList)

theorem ids_le_filterNbls (hs : s.filters.WellLinked) :
    s.filters.ids ≤ (FilterList.filterNbls env nbls s).filters.ids := by
  induction nbls generalizing s with
  | nil => exact le_rfl
  | cons nbl rest ih =>
    have hids := FilterList.ids_filterNbl hs env nbl
    calc
      s.filters.ids ≤ (s.filters.filterNbl env nbl).2.ids := by
        rw [hids]
        exact Multiset.le_add_right _ _
      _ ≤ _ := ih (FilterList.wellLinked_filterNbl hs env nbl)

theorem passesAll_of_notHeld (hs : s.filters.WellLinked)
    (hnot : ∀ nbl ∈ nbls,
      nbl.id ∉ (FilterList.filterNbls env nbls s).filters.ids) :
    ∀ nbl ∈ nbls, PassesAll env s.filters nbl := by
  induction nbls generalizing s with
  | nil => simp
  | cons nbl rest ih =>
    have hlinked := FilterList.wellLinked_filterNbl hs env nbl
    unfold FilterList.filterNbls at hnot
    rcases filterNbl_cases hs env nbl with ⟨hpass, heq⟩ | ⟨-, -, hmem⟩
    · simp only [heq, Bool.false_eq_true, if_false] at hnot
      have hrest := ih
        (s := ⟨s.filters, s.queue.appendSingleNbl nbl, s.cleared⟩) hs
        fun nbl' hmem' => hnot nbl' (List.mem_cons_of_mem nbl hmem')
      intro nbl' hmem'
      rcases List.mem_cons.mp hmem' with rfl | hmem'
      · exact hpass
      · exact hrest nbl' hmem'
    · exact absurd (Multiset.mem_of_le (ids_le_filterNbls env rest hlinked) hmem)
        (hnot nbl List.mem_cons_self)

theorem filterNbls_of_passesAll (hs : s.filters.WellLinked)
    (hpass : ∀ nbl ∈ nbls, PassesAll env s.filters nbl) :
    (FilterList.filterNbls env nbls s).filters = s.filters ∧
      (FilterList.filterNbls env nbls s).queue.chain =
        s.queue.chain ++ nbls := by
  induction nbls generalizing s with
  | nil => simp [FilterList.filterNbls]
  | cons nbl rest ih =>
    have heq : s.filters.filterNbl env nbl = (false, s.filters) := by
      rcases filterNbl_cases hs env nbl with ⟨-, heq⟩ | ⟨hnot, -⟩
      · exact heq
      · exact absurd (hpass nbl List.mem_cons_self) hnot
    unfold FilterList.filterNbls
    simp only [heq, Bool.false_eq_true, if_false]
    obtain ⟨hfilters, hqueue⟩ := ih
      (s := ⟨s.filters, s.queue.appendSingleNbl nbl, s.cleared⟩) hs
      fun nbl' hmem => hpass nbl' (List.mem_cons_of_mem nbl hmem)
    refine ⟨hfilters, ?_⟩
    rw [hqueue]
    simp [NblCountedQueue.appendSingleNbl]

/-! ## When a chain is not retained -/

theorem filterReceiveNetBufferLists_passed {fl : FilterList}
    (hfl : fl.WellLinked) (env : CaptureEnv) (acquired : Bool)
    (chain : NblCountedQueue) (receiveFlags : UInt32)
    (hpass : acquired = true → ∀ nbl ∈ chain.chain, PassesAll env fl nbl) :
    let result :=
      filterReceiveNetBufferLists env acquired fl chain receiveFlags
    result.sweep.filters = fl ∧ result.sweep.queue.chain = chain.chain := by
  cases acquired with
  | true => exact filterNbls_of_passesAll env chain.chain hfl (hpass rfl)
  | false => exact ⟨rfl, rfl⟩

theorem verifyAndFree_of_queue {chain : List ℕ} {sweep : Sweep}
    (hqueue : sweep.queue.chain.map NetBufferList.id = chain) :
    verifyAndFree chain sweep = (.success, chain) := by
  cases chain with
  | nil => rfl
  | cons first rest =>
    have hfrom : chainFrom sweep first = first :: rest := by
      simp [chainFrom, queuesAfter, hqueue]
    simp [verifyAndFree, hfrom]

/-- Whatever the flags of the indication, the chain is not retained exactly when
protection is refused or no filter captures one of its NBLs.  Then FNMP, which
indicated it with low resources, finds it unmodified and frees all of it, and
none of it is with FNLWF. -/
theorem lowResources_notRetained_iff {s : State}
    (hs : rxMachine.Reachable s) (env : CaptureEnv) (acquired : Bool)
    (nbls : List NetBufferList) (receiveFlags : UInt32) :
    let chain := arriving s nbls
    let ids := chain.chain.map NetBufferList.id
    let result := filterReceiveNetBufferLists env acquired s.filters chain
      receiveFlags
    (NotRetained chain result.sweep ↔ (acquired = true →
        ∀ nbl ∈ chain.chain, PassesAll env s.filters nbl)) ∧
    (NotRetained chain result.sweep →
      verifyAndFree ids result.sweep = (.success, ids) ∧
        ∀ i ∈ ids, i ∉ result.sweep.filters.ids) := by
  intro chain ids result
  have hinv := (invariant_of_reachable hs).contained
  have hiff : NotRetained chain result.sweep ↔ (acquired = true →
      ∀ nbl ∈ chain.chain, PassesAll env s.filters nbl) := by
    refine ⟨fun hnot hacquired => ?_, fun hpass => ?_⟩
    · refine passesAll_of_notHeld env chain.chain (s := .start s.filters)
        hinv.linked fun nbl hnbl => ?_
      have hid : nbl.id ∈ chain.ids :=
        Multiset.mem_coe.mpr (List.mem_map_of_mem hnbl)
      simpa [result, filterReceiveNetBufferLists, hacquired,
        FilterList.capture] using hnot.notHeld nbl.id hid
    · obtain ⟨hfilters, hqueue⟩ := filterReceiveNetBufferLists_passed
        hinv.linked env acquired chain receiveFlags hpass
      refine ⟨fun i hi hheld => ?_, fun i hi => ?_⟩
      · have hlt : i ∈ Multiset.range s.received := by
          rw [hinv.partition, ← hfilters]
          exact Multiset.mem_add.mpr (Or.inl (Multiset.mem_add.mpr
            (Or.inl hheld)))
        have hge := le_of_mem_arriving hi
        rw [Multiset.mem_range] at hlt
        omega
      · refine ⟨_, List.mem_cons_self, ?_, ?_⟩
        · rw [hqueue]
          exact hi
        · rw [hqueue]
  refine ⟨hiff, fun hnot => ?_⟩
  obtain ⟨-, hqueue⟩ := filterReceiveNetBufferLists_passed
    hinv.linked env acquired chain receiveFlags (hiff.mp hnot)
  exact ⟨verifyAndFree_of_queue (congrArg _ hqueue), hnot.notHeld⟩

/-- A module with a filter that matches `onePacket`. -/
def filterSet : List Label :=
  [.restart, .locked 0 (.create 0), .locked 0 (.filter 0 matchRequest)]

/-- A chain of one packet that the filter does not match. -/
theorem lowResources_notRetained_iff_otherPacket :
    ∃ s, rxMachine.Reachable s ∧ s.filters.links = [0] ∧
      ∀ receiveFlags,
        verifyAndFree [0] (filterReceiveNetBufferLists captureAtZero true
          s.filters (arriving s
            [{ onePacket with firstNb := ⟨[], [⟨[0xcd]⟩], 0, 1⟩ }])
          receiveFlags).sweep = (.success, [0]) := by
  let nbls : List NetBufferList :=
    [{ onePacket with firstNb := ⟨[], [⟨[0xcd]⟩], 0, 1⟩ }]
  obtain ⟨s, hs, hlinks, hreceived, hmatch⟩ := Machine.exists_reachable_of_run
    (M := rxMachine)
    (P := fun s => s.filters.links = [0] ∧ s.received = 0 ∧
      ∀ nbl ∈ (arriving s nbls).chain, (s.filters.filter? 0).all
        (fun filter => !nbl.netBuffers.any (fnIoFilterNb filter)) = true)
    filterSet (by decide +kernel)
  refine ⟨s, hs, hlinks, fun receiveFlags => ?_⟩
  obtain ⟨hiff, hfreed⟩ := lowResources_notRetained_iff hs captureAtZero true
    nbls receiveFlags
  have hids : (arriving s nbls).chain.map NetBufferList.id = [0] := by
    rw [map_id_arriving, hreceived]
    rfl
  have hnot := hiff.mpr fun _ nbl hnbl h hh filter hfilter hany => by
    rw [hlinks, List.mem_singleton] at hh
    subst hh
    have hnone := hmatch nbl hnbl
    rw [hfilter] at hnone
    simp [hany] at hnone
  have hresult := (hfreed hnot).1
  rwa [hids] at hresult

/-- A chain of one packet that the filter matches, indicated with any flags,
`NDIS_RECEIVE_FLAGS_RESOURCES` among them: FNMP frees the packet, and FNLWF
holds it. -/
theorem lowResources_retained :
    ∃ s, rxMachine.Reachable s ∧ ∀ receiveFlags,
      let result := filterReceiveNetBufferLists captureAtZero true s.filters
        (arriving s [onePacket]) receiveFlags
      ¬ NotRetained (arriving s [onePacket]) result.sweep ∧
      0 ∈ result.sweep.filters.ids ∧
      0 ∈ (verifyAndFree [0] result.sweep).2 := by
  obtain ⟨s, hs, hids, hheld, hfreed⟩ := Machine.exists_reachable_of_run
    (M := rxMachine)
    (P := fun s =>
      let result := filterReceiveNetBufferLists captureAtZero true s.filters
        (arriving s [onePacket]) 0
      0 ∈ (arriving s [onePacket]).ids ∧ 0 ∈ result.sweep.filters.ids ∧
        0 ∈ (verifyAndFree [0] result.sweep).2)
    filterSet (by decide +kernel)
  exact ⟨s, hs, fun _ =>
    ⟨fun hnot => hnot.notHeld 0 hids hheld, hheld, hfreed⟩⟩

end WinNetTest.Fnlwf
