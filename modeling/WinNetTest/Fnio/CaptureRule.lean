import WinNetTest.Fnio.Conservation
import Mathlib.Data.Nat.Bitwise

/-!
# The capture rule

Which filter captures an NBL is a function of the linked filters and of the
packet bytes: the first filter, in the order of registration, that some packet
of the NBL agrees with.  This module states the rule in these terms, bit by
bit, and proves that the lock sections follow it: for one NBL, for a chain of
them, and, as far as the order of the queues is concerned, for any sequence of
calls.
-/

namespace WinNetTest.Fnio

/-! ## Agreement with a pattern -/

/-- The packet agrees with the pattern on every bit of the mask, over the
first `min(DataLength, Length)` bytes. -/
def FilterParams.Agrees (params : FilterParams) (nb : NetBuffer) : Prop :=
  ∀ i < min nb.dataLength params.length, ∀ byte ∈ nb.data[i]?, ∀ b < 8,
    (params.mask.getD i 0).toNat.testBit b = true →
      byte.toNat.testBit b = (params.pattern.getD i 0).toNat.testBit b

instance (params : FilterParams) (nb : NetBuffer) :
    Decidable (params.Agrees nb) :=
  inferInstanceAs (Decidable (∀ i < _, _))

def FilterParams.Matches (params : FilterParams) (nbl : NetBufferList) : Prop :=
  ∃ nb ∈ nbl.netBuffers, params.Agrees nb

instance (params : FilterParams) (nbl : NetBufferList) :
    Decidable (params.Matches nbl) :=
  inferInstanceAs (Decidable (∃ nb ∈ _, _))

theorem xor_and_eq_zero_iff (byte pattern mask : UInt8) :
    (byte ^^^ pattern) &&& mask = 0 ↔ ∀ b < 8, mask.toNat.testBit b = true →
        byte.toNat.testBit b = pattern.toNat.testBit b := by
  rw [← UInt8.toNat_inj, UInt8.toNat_and, UInt8.toNat_xor]
  constructor
  · intro h b _ hmask
    have hbit := congrArg (Nat.testBit · b) h
    simpa [hmask] using hbit
  · intro h
    apply Nat.eq_of_testBit_eq
    intro b
    by_cases hb : b < 8
    · cases hmask : mask.toNat.testBit b with
      | false => simp [hmask]
      | true => simp [hmask, h b hb hmask]
    · have hmask : mask.toNat.testBit b = false :=
        Nat.testBit_lt_two_pow
          (mask.toNat_lt.trans_le (Nat.pow_le_pow_right (by decide) (by omega)))
      simp [hmask]

variable (filter : DataFilter)

theorem fnIoFilterNb_iff_agrees (nb : NetBuffer) :
    fnIoFilterNb filter nb = true ↔ filter.params.Agrees nb := by
  have hmask := filter.params.mask_length
  simp only [fnIoFilterNb, List.all_eq_true, beq_iff_eq, xor_and_eq_zero_iff,
    FilterParams.Agrees, FilterParams.length]
  constructor
  · intro h i hi byte hbyte
    refine h (byte, filter.params.pattern.getD i 0,
      filter.params.mask.getD i 0) (List.mem_of_getElem? (i := i) ?_)
    have hpattern : i < filter.params.pattern.length := by omega
    have hmask : i < filter.params.mask.length := by omega
    rw [List.getElem?_zip_eq_some, List.getElem?_zip_eq_some,
      List.getElem?_take_of_lt hi]
    exact ⟨hbyte, by simp [hpattern], by simp [hmask]⟩
  · rintro h ⟨byte, pattern, mask⟩ hmem
    obtain ⟨i, hi⟩ := List.mem_iff_getElem?.mp hmem
    rw [List.getElem?_zip_eq_some, List.getElem?_zip_eq_some] at hi
    obtain ⟨hbyte, hpattern, hmask⟩ := hi
    rw [List.getElem?_take] at hbyte
    split at hbyte
    · rename_i hlt
      have hagrees := h i hlt byte hbyte
      simpa [List.getD, hpattern, hmask] using hagrees
    · cases hbyte

theorem any_fnIoFilterNb_iff_matches (nbl : NetBufferList) :
    nbl.netBuffers.any (fnIoFilterNb filter) = true ↔
      filter.params.Matches nbl := by
  simp only [List.any_eq_true, fnIoFilterNb_iff_agrees, FilterParams.Matches]

variable {params : FilterParams}

theorem FilterParams.agrees_of_data_eq {nb nb' : NetBuffer}
    (hdata : nb.data = nb'.data) (h : params.Agrees nb) :
    params.Agrees nb' := by
  intro i hi byte hbyte
  rw [← hdata] at hbyte
  have hlt : i < nb.dataLength := by
    have hlength := (List.getElem?_eq_some_iff.mp hbyte).1
    simp only [NetBuffer.data, List.length_take] at hlength
    omega
  exact h i (by omega) byte hbyte

theorem FilterParams.matches_of_data_eq {nbl nbl' : NetBufferList}
    (hdata : nbl.netBuffers.map NetBuffer.data =
      nbl'.netBuffers.map NetBuffer.data) (h : params.Matches nbl) :
    params.Matches nbl' := by
  obtain ⟨nb, hnb, hagrees⟩ := h
  have hmem : nb.data ∈ nbl'.netBuffers.map NetBuffer.data := by
    rw [← hdata]
    exact List.mem_map_of_mem hnb
  obtain ⟨nb', hnb', heq⟩ := List.mem_map.mp hmem
  exact ⟨nb', hnb', agrees_of_data_eq heq.symm hagrees⟩

namespace FilterList

/-! ## The captor of an NBL -/

def params? (fl : FilterList) (h : ℕ) : Option FilterParams :=
  (fl.filter? h).map DataFilter.params

def MatchesOn (fl : FilterList) (nbl : NetBufferList) (h : ℕ) : Prop :=
  ∃ params ∈ fl.params? h, params.Matches nbl

instance (fl : FilterList) (nbl : NetBufferList) (h : ℕ) :
    Decidable (fl.MatchesOn nbl h) :=
  inferInstanceAs (Decidable (∃ params ∈ _, _))

/-- The first handle, in the order of registration, whose filter matches the
NBL. -/
def captor (fl : FilterList) (nbl : NetBufferList) : Option ℕ :=
  fl.links.find? fun h => fl.MatchesOn nbl h

variable {fl : FilterList} {nbl : NetBufferList}

theorem matchesOn_iff {h : ℕ} {filter : DataFilter}
    (hfilter : fl.filter? h = some filter) (nbl : NetBufferList) :
    fl.MatchesOn nbl h ↔ nbl.netBuffers.any (fnIoFilterNb filter) = true := by
  rw [any_fnIoFilterNb_iff_matches]
  simp [MatchesOn, params?, hfilter]

variable {nbl' : NetBufferList}

theorem captor_congr {fl' : FilterList} (hlinks : fl'.links = fl.links)
    (hmatches : ∀ h, fl'.MatchesOn nbl' h ↔ fl.MatchesOn nbl h) :
    fl'.captor nbl' = fl.captor nbl := by
  simp only [captor, hlinks, hmatches]

theorem captor_eq_of_data_eq (fl : FilterList)
    (hdata : nbl'.netBuffers.map NetBuffer.data =
      nbl.netBuffers.map NetBuffer.data) : fl.captor nbl' = fl.captor nbl := by
  refine captor_congr rfl fun h => ⟨?_, ?_⟩
  · rintro ⟨params, hparams, hmatches⟩
    exact ⟨params, hparams, FilterParams.matches_of_data_eq hdata hmatches⟩
  · rintro ⟨params, hparams, hmatches⟩
    exact ⟨params, hparams, FilterParams.matches_of_data_eq hdata.symm hmatches⟩

variable {env : CaptureEnv}

theorem filterNblLoop_of_not_matchesOn {handles : List ℕ}
    (hlinked : ∀ h ∈ handles, (fl.filter? h).isSome)
    (hnot : ∀ h ∈ handles, ¬fl.MatchesOn nbl h) :
    filterNblLoop env nbl fl handles = (false, fl) := by
  induction handles with
  | nil => rfl
  | cons h rest ih =>
    obtain ⟨_, hfilter⟩ :=
      Option.isSome_iff_exists.mp (hlinked h List.mem_cons_self)
    have hmatch := hnot h List.mem_cons_self
    rw [matchesOn_iff hfilter] at hmatch
    simp only [filterNblLoop, hfilter, fnIoFilterNbl, hmatch]
    exact ih (fun h' hh' => hlinked h' (List.mem_cons_of_mem h hh'))
      fun h' hh' => hnot h' (List.mem_cons_of_mem h hh')

theorem filterNblLoop_of_find? (hallocated : ∀ h, env.allocated nbl.id h = true)
    {handles : List ℕ} (hlinked : ∀ h ∈ handles, (fl.filter? h).isSome) {h : ℕ}
    (hfind : handles.find? (fun h => fl.MatchesOn nbl h) = some h) :
    ∃ filter context, fl.filter? h = some filter ∧
      filterNblLoop env nbl fl handles =
        (true, fl.setFilter h (some (filter.capture nbl context))
          { fl.pool with allocated := fl.pool.allocated + 1 }) := by
  induction handles with
  | nil => cases hfind
  | cons h' rest ih =>
    obtain ⟨filter, hfilter⟩ :=
      Option.isSome_iff_exists.mp (hlinked h' List.mem_cons_self)
    by_cases hmatch : fl.MatchesOn nbl h'
    · rw [List.find?_cons_of_pos (by simpa using hmatch)] at hfind
      cases hfind
      rw [matchesOn_iff hfilter] at hmatch
      exact ⟨filter,
        ⟨fl.pool.allocated, env.processorNumber, env.interruptTime nbl.id h⟩,
        hfilter, by simp [filterNblLoop, hfilter, fnIoFilterNbl, hmatch,
          hallocated]⟩
    · rw [List.find?_cons_of_neg (by simpa using hmatch)] at hfind
      rw [matchesOn_iff hfilter] at hmatch
      simp only [filterNblLoop, hfilter, fnIoFilterNbl, hmatch]
      exact ih (fun k hk => hlinked k (List.mem_cons_of_mem h' hk)) hfind

theorem filterNbl_of_captor_none (hfl : fl.WellLinked) (env : CaptureEnv)
    (hcaptor : fl.captor nbl = none) :
    fl.filterNbl env nbl = (false, fl) := by
  apply filterNblLoop_of_not_matchesOn fun h hh => (hfl.mem_links h).mp hh
  simpa [captor] using hcaptor

theorem filterNbl_of_captor (hfl : fl.WellLinked)
    (hallocated : ∀ h, env.allocated nbl.id h = true) {h : ℕ}
    (hcaptor : fl.captor nbl = some h) :
    ∃ filter context, fl.filter? h = some filter ∧ fl.filterNbl env nbl =
        (true, fl.setFilter h (some (filter.capture nbl context))
          { fl.pool with allocated := fl.pool.allocated + 1 }) :=
  filterNblLoop_of_find? hallocated (fun h hh => (hfl.mem_links h).mp hh)
    hcaptor

end FilterList

/-! ## Chains of NBLs -/

/-- The filter after it has captured NBLs: they are appended to its queue in
order, each with a context. -/
structure DataFilter.Appended (filter : DataFilter)
    (nbls : List NetBufferList) (filter' : DataFilter) : Prop where
  params : filter'.params = filter.params
  nblReturn : filter'.nblReturn = filter.nblReturn
  nblQueue : ∃ added, List.Forall₂ (fun nbl nbl' => ∃ context,
      nbl' = NetBufferList.fnIoFilterNblSetContext nbl (some context))
        nbls added ∧
      filter'.nblQueue.chain = filter.nblQueue.chain ++ added

theorem DataFilter.appended_nil : filter.Appended [] filter :=
  ⟨rfl, rfl, [], .nil, by simp⟩

theorem DataFilter.appended_capture (nbl : NetBufferList)
    (context : FilterNblContext) :
    filter.Appended [nbl] (filter.capture nbl context) :=
  ⟨rfl, rfl, _, .cons ⟨context, rfl⟩ .nil, rfl⟩

theorem DataFilter.Appended.trans
    {filter filter' filter'' : DataFilter} {nbls nbls' : List NetBufferList}
    (h : filter.Appended nbls filter') (h' : filter'.Appended nbls' filter'') :
    filter.Appended (nbls ++ nbls') filter'' := by
  obtain ⟨added, hadded, hchain⟩ := h.nblQueue
  obtain ⟨added', hadded', hchain'⟩ := h'.nblQueue
  exact ⟨h'.params.trans h.params, h'.nblReturn.trans h.nblReturn,
    added ++ added', List.rel_append hadded hadded', by
      rw [hchain', hchain, List.append_assoc]⟩

namespace FilterList

/-- The filter list after its filters have captured NBLs, each those given for
its handle. -/
structure Takes (fl : FilterList) (taken : ℕ → List NetBufferList)
    (fl' : FilterList) : Prop where
  links : fl'.links = fl.links
  filter : ∀ h filter, fl.filter? h = some filter →
    ∃ filter', fl'.filter? h = some filter' ∧ filter.Appended (taken h) filter'
  no_filter : ∀ h, fl.filter? h = none → fl'.filter? h = none

theorem takes_nil (fl : FilterList) : fl.Takes (fun _ => []) fl :=
  ⟨rfl, fun _ filter hfilter => ⟨filter, hfilter, filter.appended_nil⟩,
    fun _ hnone => hnone⟩

variable {fl fl' : FilterList}

theorem Takes.trans {fl'' : FilterList} {taken taken' : ℕ → List NetBufferList}
    (h : fl.Takes taken fl') (h' : fl'.Takes taken' fl'') :
    fl.Takes (fun k => taken k ++ taken' k) fl'' := by
  refine ⟨h'.links.trans h.links, ?_,
    fun k hnone => h'.no_filter k (h.no_filter k hnone)⟩
  intro k filter hfilter
  obtain ⟨filter', hfilter', happended⟩ := h.filter k filter hfilter
  obtain ⟨filter'', hfilter'', happended'⟩ := h'.filter k filter' hfilter'
  exact ⟨filter'', hfilter'', happended.trans happended'⟩

theorem Takes.captor_eq {taken : ℕ → List NetBufferList}
    (h : fl.Takes taken fl') (nbl : NetBufferList) :
    fl'.captor nbl = fl.captor nbl := by
  refine captor_congr h.links fun k => ?_
  have hparams : fl'.params? k = fl.params? k := by
    cases hfilter : fl.filter? k with
    | none => simp [params?, hfilter, h.no_filter k hfilter]
    | some filter =>
      obtain ⟨_, hfilter', happended⟩ := h.filter k filter hfilter
      simp [params?, hfilter, hfilter', happended.params]
  simp only [MatchesOn, hparams]

theorem takes_setFilter {h : ℕ} {filter : DataFilter}
    (hfilter : fl.filter? h = some filter) (nbl : NetBufferList)
    (context : FilterNblContext) (pool : ContextPool) :
    fl.Takes (fun k => if h = k then [nbl] else [])
      (fl.setFilter h (some (filter.capture nbl context)) pool) := by
  refine ⟨rfl, ?_, ?_⟩
  · intro k filter' hfilter'
    by_cases hk : h = k
    · subst hk
      rw [hfilter] at hfilter'
      cases hfilter'
      exact ⟨_, filter?_setFilter_self _ _ _ _, by
        simpa using filter.appended_capture nbl context⟩
    · exact ⟨filter', by rwa [filter?_setFilter_ne fl (Ne.symm hk)], by
        simpa [hk] using filter'.appended_nil⟩
  · intro k hnone
    by_cases hk : h = k
    · subst hk
      rw [hfilter] at hnone
      cases hnone
    · rwa [filter?_setFilter_ne fl (Ne.symm hk)]

variable {env : CaptureEnv}

theorem filterNbl_takes (hfl : fl.WellLinked) {nbl : NetBufferList}
    (hallocated : ∀ h, env.allocated nbl.id h = true) :
    (fl.filterNbl env nbl).1 = (fl.captor nbl).isSome ∧
      fl.Takes (fun h => if fl.captor nbl = some h then [nbl] else [])
        (fl.filterNbl env nbl).2 := by
  cases hcaptor : fl.captor nbl with
  | none =>
    rw [filterNbl_of_captor_none hfl env hcaptor]
    exact ⟨rfl, by simpa using fl.takes_nil⟩
  | some h =>
    obtain ⟨_, context, hfilter, heq⟩ :=
      filterNbl_of_captor hfl hallocated hcaptor
    rw [heq]
    exact ⟨rfl, by simpa using takes_setFilter hfilter nbl context _⟩

theorem filterNbls_takes {nbls : List NetBufferList}
    (hallocated : ∀ nbl ∈ nbls, ∀ h, env.allocated nbl.id h = true) {s : Sweep}
    (hs : s.filters.WellLinked) :
    s.filters.Takes (fun h => nbls.filter (s.filters.captor · = some h))
        (filterNbls env nbls s).filters ∧
      (filterNbls env nbls s).queue.chain =
        s.queue.chain ++ nbls.filter (s.filters.captor · = none) := by
  induction nbls generalizing s with
  | nil => exact ⟨s.filters.takes_nil, by simp [filterNbls]⟩
  | cons nbl rest ih =>
    obtain ⟨hcaptured, htakes⟩ :=
      filterNbl_takes hs (hallocated nbl List.mem_cons_self)
    obtain ⟨hrest, hqueue⟩ := ih
      (fun nbl' hnbl' => hallocated nbl' (List.mem_cons_of_mem nbl hnbl'))
      (s := { s with
        filters := (s.filters.filterNbl env nbl).2
        queue :=
          if (s.filters.filterNbl env nbl).1 then s.queue
          else s.queue.appendSingleNbl nbl })
      (wellLinked_filterNbl hs env nbl)
    simp only [htakes.captor_eq] at hrest hqueue
    unfold filterNbls
    refine ⟨?_, hqueue.trans ?_⟩
    · have hall := htakes.trans hrest
      convert hall using 2 with h
      by_cases hh : s.filters.captor nbl = some h
      · simp [hh]
      · simp [hh]
    · rw [hcaptured]
      cases hnone : s.filters.captor nbl with
      | none => simp [NblCountedQueue.appendSingleNbl, hnone]
      | some h => simp [hnone]

/-! ## The order of the queues -/

def queued (fl : FilterList) (h : ℕ) : List ℕ :=
  (fl.filter? h).elim [] fun filter =>
    filter.nblQueue.chain.map NetBufferList.id

/-- Every queue is, in order, a part of what it was followed by the NBLs that
have arrived since. -/
def InOrder (fl : FilterList) (arrived : List ℕ) (fl' : FilterList) : Prop :=
  ∀ h, (fl'.queued h).Sublist (fl.queued h ++ arrived)

theorem InOrder.trans {fl'' : FilterList} {arrived arrived' : List ℕ}
    (h : fl.InOrder arrived fl') (h' : fl'.InOrder arrived' fl'') :
    fl.InOrder (arrived ++ arrived') fl'' := by
  intro k
  rw [← List.append_assoc]
  exact (h' k).trans ((h k).append_right arrived')

theorem inOrder_of_queued (arrived : List ℕ)
    (h : ∀ k, fl'.queued k = [] ∨ fl'.queued k = fl.queued k) :
    fl.InOrder arrived fl' := by
  intro k
  rcases h k with heq | heq
  · simp [heq]
  · rw [heq]
    exact List.sublist_append_left _ _

theorem queued_eq_of_filter? {h : ℕ} {filter : DataFilter}
    (hfilter : fl.filter? h = some filter) :
    fl.queued h = filter.nblQueue.chain.map NetBufferList.id := by
  simp [queued, hfilter]

theorem inOrder_setFilter {h : ℕ} {filter' : DataFilter} {arrived : List ℕ}
    (pool : ContextPool)
    (hsublist : (filter'.nblQueue.chain.map NetBufferList.id).Sublist
      (fl.queued h ++ arrived)) :
    fl.InOrder arrived (fl.setFilter h (some filter') pool) := by
  intro k
  by_cases hk : k = h
  · subst hk
    rwa [queued_eq_of_filter? (filter?_setFilter_self _ _ _ _)]
  · rw [queued, filter?_setFilter_ne fl hk]
    exact List.sublist_append_left _ _

theorem inOrder_filterNblLoop
    (env : CaptureEnv) (nbl : NetBufferList) (fl : FilterList)
    (handles : List ℕ) :
    fl.InOrder [nbl.id] (filterNblLoop env nbl fl handles).2 := by
  induction handles with
  | nil => exact inOrder_of_queued _ fun _ => Or.inr rfl
  | cons h rest ih =>
    unfold filterNblLoop
    split
    · exact inOrder_of_queued _ fun _ => Or.inr rfl
    · rename_i filter hfilter
      rcases fnIoFilterNbl_cases env h fl.pool filter nbl with
        ⟨_, -, heq⟩ | ⟨status, hstatus, heq⟩
      · simp only [heq, if_true]
        apply inOrder_setFilter
        simp [queued_eq_of_filter? hfilter, DataFilter.capture,
          NblCountedQueue.appendSingleNbl]
      · simpa only [heq, hstatus, if_false] using ih

theorem inOrder_filterNbls
    (env : CaptureEnv) (nbls : List NetBufferList) (s : Sweep) :
    s.filters.InOrder (nbls.map NetBufferList.id)
      (filterNbls env nbls s).filters := by
  induction nbls generalizing s with
  | nil => exact inOrder_of_queued _ fun _ => Or.inr rfl
  | cons nbl rest ih =>
    exact (inOrder_filterNblLoop env nbl s.filters _).trans (ih _)

theorem inOrder_clearFilter (s : Sweep) (h : ℕ) :
    s.filters.InOrder [] (s.clearFilter h).filters := by
  refine inOrder_of_queued _ fun k => ?_
  by_cases hk : k = h
  · subst hk
    exact Or.inl (by simp [queued, Sweep.clearFilter_filter?_self])
  · exact Or.inr (by simp [queued, Sweep.clearFilter_filter?_ne s hk])

theorem inOrder_watchdogLoop
    (clock : ℕ → UInt64 × UInt64) (handles : List ℕ) (s : Sweep) :
    s.filters.InOrder [] (Sweep.watchdogLoop clock handles s).filters := by
  have hsame : ∀ fl : FilterList, fl.InOrder [] fl :=
    fun _ => inOrder_of_queued _ fun _ => Or.inr rfl
  induction handles generalizing s with
  | nil => exact hsame _
  | cons h rest ih =>
    unfold Sweep.watchdogLoop
    split
    · exact hsame _
    · split
      · exact hsame _
      · split
        · exact hsame _
        · exact (inOrder_clearFilter s h).trans (ih _)
        · exact ih s

theorem inOrder_irpFrame
    (fl : FilterList) (h inputBufferLength size : ℕ)
    {body : DataFilter → NtStatus × DataFilter}
    (hbody : ∀ filter, ((body filter).2.nblQueue.chain.map
      NetBufferList.id).Sublist (filter.nblQueue.chain.map NetBufferList.id)) :
    fl.InOrder [] (fl.irpFrame h inputBufferLength size body).2 := by
  rcases irpFrame_cases fl h inputBufferLength size body with
    heq | ⟨filter, hfilter, heq⟩
  · rw [heq]
    exact inOrder_of_queued _ fun _ => Or.inr rfl
  · rw [heq]
    apply inOrder_setFilter
    simpa [queued_eq_of_filter? hfilter] using hbody filter

end FilterList

theorem dequeueLoop_order
    (index nblIndex : ℕ) (nbls : List NetBufferList) (status : NtStatus)
    (nblReturn nblChain : NblCountedQueue) :
    (dequeueLoop index nblIndex nbls
      (status, nblReturn, nblChain)).2.2.chain.Sublist
        (nblChain.chain ++ nbls) := by
  induction nbls generalizing nblIndex status nblReturn nblChain with
  | nil => simp [dequeueLoop]
  | cons nbl rest ih =>
    unfold dequeueLoop
    split
    · exact (ih _ _ _ _).trans
        ((List.sublist_cons_self nbl rest).append_left _)
    · simpa [NblCountedQueue.appendSingleNbl] using
        ih _ status nblReturn (nblChain.appendSingleNbl nbl)

theorem fnIoDequeueFilteredFrame_order (index : ℕ) :
    (fnIoDequeueFilteredFrame filter index).2.nblQueue.chain.Sublist
      filter.nblQueue.chain := by
  simpa [fnIoDequeueFilteredFrame, NblCountedQueue.appendQueue] using
    dequeueLoop_order index 0 filter.nblQueue.chain .notFound filter.nblReturn
      .empty

def Section.arrivals : Section → List ℕ
  | capture _ chain => chain.chain.map NetBufferList.id
  | _ => []

namespace FilterList

theorem inOrder_create (fl : FilterList) (h : ℕ) :
    fl.InOrder [] (fl.create h) := by
  refine inOrder_of_queued _ fun k => ?_
  by_cases hk : k = h
  · subst hk
    exact Or.inl (by simp [queued, filter?, create])
  · exact Or.inr (by simp [queued, filter?, create, AList.lookup_insert_ne hk])

theorem irpFilter_filter?_self
    (fl : FilterList) (h : ℕ) (filter : DataFilter) :
    (fl.irpFilter h (some filter)).filters.filter? h = some filter := by
  simp [filter?, irpFilter]

theorem irpFilter_filter?_ne
    (fl : FilterList) {h h' : ℕ} (hne : h' ≠ h) (filter : DataFilter) :
    (fl.irpFilter h (some filter)).filters.filter? h' = fl.filter? h' := by
  have hclear : ((Sweep.start fl).clearFilter h).filters.filter? h' =
      fl.filter? h' := Sweep.clearFilter_filter?_ne _ hne
  simpa [filter?, irpFilter, AList.lookup_insert_ne hne] using hclear

variable {request : FilterRequest}

theorem inOrder_irpFilter (fl : FilterList) (h : ℕ)
    {dataFilter : Option DataFilter}
    (hprepare : prepareFilter request = .ok dataFilter) :
    fl.InOrder [] (fl.irpFilter h dataFilter).filters := by
  rcases prepareFilter_cases hprepare with ⟨-, rfl⟩ | ⟨filter, rfl, hcreate⟩
  · exact inOrder_clearFilter (.start fl) h
  · refine inOrder_of_queued _ fun k => ?_
    by_cases hk : k = h
    · subst hk
      rw [queued_eq_of_filter? (irpFilter_filter?_self _ _ _),
        (fnIoCreateFilter_queues hcreate).1]
      exact Or.inl rfl
    · exact Or.inr (by simp only [queued, irpFilter_filter?_ne fl hk])

theorem inOrder_irpFlush (fl : FilterList) (h : ℕ) :
    fl.InOrder [] (fl.irpFlush h).filters := by
  unfold irpFlush
  split
  · exact inOrder_of_queued _ fun _ => Or.inr rfl
  · rename_i filter hfilter
    apply inOrder_setFilter
    simp [queued_eq_of_filter? hfilter, fnIoFlushDequeuedFrames]

theorem inOrder_cleanup (fl : FilterList) (h : ℕ) :
    fl.InOrder [] (fl.cleanup h).filters := by
  refine (inOrder_clearFilter (.start fl) h).trans
    (inOrder_of_queued [] fun k => ?_)
  by_cases hk : k = h
  · subst hk
    exact Or.inl (by simp [queued, filter?, cleanup])
  · exact Or.inr (by simp [queued, filter?, cleanup, AList.lookup_erase_ne hk])

theorem inOrder_apply (fl : FilterList) (sec : Section) :
    fl.InOrder sec.arrivals (sec.apply fl).2.filters := by
  cases sec with
  | create h => exact inOrder_create fl h
  | filter h request =>
    simp only [Section.apply]
    split
    · exact inOrder_of_queued _ fun _ => Or.inr rfl
    · rename_i hprepare
      exact inOrder_irpFilter fl h hprepare
  | getFrame h inputBufferLength index subIndex request =>
    obtain ⟨_, heq⟩ :=
      irpGetFrame_cases fl h inputBufferLength index subIndex request
    refine inOrder_of_queued _ fun _ => Or.inr ?_
    simp [Section.apply, Sweep.start, heq, queued, filter?]
  | setFrame h inputBufferLength index subIndex frame =>
    have hbody : ∀ filter, ((fnIoSetFilteredFrame filter index subIndex
        frame).2.nblQueue.chain.map NetBufferList.id).Sublist
          (filter.nblQueue.chain.map NetBufferList.id) := by
      intro filter
      rw [fnIoSetFilteredFrame_map fun _ _ => rfl]
    exact inOrder_irpFrame fl h _ _ hbody
  | dequeueFrame h inputBufferLength index =>
    exact inOrder_irpFrame fl h _ _ fun filter =>
      (fnIoDequeueFilteredFrame_order filter index).map _
  | flush h => exact inOrder_irpFlush fl h
  | capture env chain => exact inOrder_filterNbls env chain.chain (.start fl)
  | watchdog clock => exact inOrder_watchdogLoop clock fl.links (.start fl)
  | cleanup h => exact inOrder_cleanup fl h

def after (fl : FilterList) (sections : List Section) : FilterList :=
  sections.foldl (fun fl sec => (sec.apply fl).2.filters) fl

theorem inOrder_after (fl : FilterList) (sections : List Section) :
    fl.InOrder (sections.flatMap Section.arrivals) (fl.after sections) := by
  induction sections generalizing fl with
  | nil => exact inOrder_of_queued _ fun _ => Or.inr rfl
  | cons sec rest ih => exact (inOrder_apply fl sec).trans (ih _)

/-! ## Filter calls -/

variable {fl : FilterList}

theorem apply_filter_last {h : ℕ} (hlength : request.length ≠ 0)
    (hsuccess : (Section.apply fl (.filter h request)).1 = .success) :
    ∃ filter, fnIoCreateFilter request = some filter ∧
      (Section.apply fl (.filter h request)).2.filters.filter? h = some filter ∧
      (Section.apply fl (.filter h request)).2.filters.links =
        fl.links.erase h ++ [h] ∧
      ∀ h', h' ≠ h →
        (Section.apply fl (.filter h request)).2.filters.filter? h' =
          fl.filter? h' := by
  cases hprepare : prepareFilter request with
  | error status =>
    simp only [Section.apply, hprepare] at hsuccess
    exact absurd hsuccess (prepareFilter_error hprepare)
  | ok dataFilter =>
    simp only [Section.apply, hprepare]
    rcases prepareFilter_cases hprepare with
      ⟨hzero, -⟩ | ⟨filter, rfl, hcreate⟩
    · exact absurd hzero hlength
    · exact ⟨filter, hcreate, irpFilter_filter?_self fl h filter,
        by simp [irpFilter, Sweep.clearFilter_links, Sweep.start],
        fun h' hne => irpFilter_filter?_ne fl hne filter⟩

theorem apply_filter_failed {h : ℕ}
    (hfailed : (Section.apply fl (.filter h request)).1 ≠ .success) :
    (Section.apply fl (.filter h request)).2 = .start fl := by
  cases hprepare : prepareFilter request with
  | error status => simp only [Section.apply, hprepare]
  | ok dataFilter => simp [Section.apply, hprepare] at hfailed

/-! ## The rule -/

structure CaptureRule (fl : FilterList) : Prop where
  captures : ∀ env nbl, (∀ h, env.allocated nbl.id h = true) →
    ∀ h, fl.captor nbl = some h → ∃ filter context, fl.filter? h = some filter ∧
        fl.filterNbl env nbl =
          (true, fl.setFilter h (some (filter.capture nbl context))
            { fl.pool with allocated := fl.pool.allocated + 1 })
  passes : ∀ env nbl, fl.captor nbl = none → fl.filterNbl env nbl = (false, fl)
  bytes : ∀ nbl nbl' : NetBufferList,
    nbl'.netBuffers.map NetBuffer.data = nbl.netBuffers.map NetBuffer.data →
      fl.captor nbl' = fl.captor nbl
  chain : ∀ (env : CaptureEnv) (chain : NblCountedQueue),
    (∀ nbl ∈ chain.chain, ∀ h, env.allocated nbl.id h = true) →
      fl.Takes (fun h => chain.chain.filter (fl.captor · = some h))
          (fl.capture env chain).filters ∧
        (fl.capture env chain).queue.chain =
          chain.chain.filter (fl.captor · = none)
  order : ∀ sections : List Section,
    fl.InOrder (sections.flatMap Section.arrivals) (fl.after sections)
  filter_last : ∀ h request, request.length ≠ 0 →
    (Section.apply fl (.filter h request)).1 = .success →
      ∃ filter, fnIoCreateFilter request = some filter ∧
        (Section.apply fl (.filter h request)).2.filters.filter? h =
          some filter ∧
        (Section.apply fl (.filter h request)).2.filters.links =
          fl.links.erase h ++ [h] ∧
        ∀ h', h' ≠ h →
          (Section.apply fl (.filter h request)).2.filters.filter? h' =
            fl.filter? h'
  filter_failed : ∀ h request,
    (Section.apply fl (.filter h request)).1 ≠ .success →
      (Section.apply fl (.filter h request)).2 = .start fl

/-- Each NBL goes to the tail of the queue of the first registered filter that
one of its packets agrees with, bit by bit under the mask, and to no other;
queues and uncaptured NBLs keep the order of arrival; setting a filter registers
it last and a failing filter call has no effect. -/
theorem capture_rule {fl : FilterList} (hfl : fl.WellLinked) :
    fl.CaptureRule where
  captures _ _ hallocated _ hcaptor := filterNbl_of_captor hfl hallocated hcaptor
  passes env _ hcaptor := filterNbl_of_captor_none hfl env hcaptor
  bytes _ _ hdata := fl.captor_eq_of_data_eq hdata
  chain _ _ hallocated := filterNbls_takes (s := .start fl) hallocated hfl
  order sections := fl.inOrder_after sections
  filter_last _ _ hlength hsuccess := apply_filter_last hlength hsuccess
  filter_failed _ _ hfailed := apply_filter_failed hfailed

def idleFilter (params : FilterParams) : DataFilter :=
  ⟨params, .empty, .empty, []⟩

/-- Two filters: for packets that start with `AA`, and with a high nibble of `B`
followed by `01`. -/
def twoFilters : FilterList :=
  { handles := AList.insert 0 (some (idleFilter (.ofPairs (0xAA, 0xFF) [])))
      (AList.insert 1
        (some (idleFilter (.ofPairs (0xB0, 0xF0) [(1, 0xFF)]))) ∅)
    links := [0, 1]
    pool := .empty
    nullFilter := false }

/-- An NBL with one packet, the bytes `BC 01` in two MDLs. -/
def fragmentedNbl : NetBufferList :=
  ⟨7, ⟨[], [⟨[0xBC]⟩, ⟨[1]⟩], 0, 2⟩, [], ⟨0, 0, 0, 0, 0, 0⟩, none⟩

theorem capture_rule_second :
    twoFilters.WellLinked ∧ twoFilters.captor fragmentedNbl = some 1 ∧
      twoFilters.CaptureRule := by
  have hlinked : twoFilters.WellLinked := by
    refine ⟨by decide, ?_, rfl⟩
    intro h
    match h with
    | 0 => decide
    | 1 => decide
    | n + 2 => exact ⟨by simp [twoFilters], fun hsome => by cases hsome⟩
  exact ⟨hlinked, by decide +kernel, capture_rule hlinked⟩

end FilterList

end WinNetTest.Fnio
