import WinNetTest.Fnio.CaptureSafety

/-!
# The lifecycle of frame contexts

A captured NBL owns one context from its capture until it leaves the filter,
and the context is then freed.  `FnIoFlushAllFrames` and
`FnIoFlushDequeuedFrames` free the contexts of everything in the queue they
append to, so they are right only for a queue that was empty before.  The
callers use a fresh queue, except for the watchdog loops, which flush all
filters that have expired into one queue.
-/

namespace WinNetTest.Fnio

open Support

/-! ## Ownership -/

def contextAddresses (nbls : List NetBufferList) : List ℕ :=
  nbls.filterMap fun nbl => nbl.scratch.map FilterNblContext.address

namespace FilterList

def contexts (fl : FilterList) : Multiset ℕ :=
  fl.stubs.filterMap fun p => p.2.map FilterNblContext.address

/-- No bad context has been used, every captured NBL has a context, and these
together with the freed ones are those allocated, each once. -/
structure ContextsSafe (fl : FilterList) : Prop where
  noFault : fl.pool.fault = false
  owned : ∀ p ∈ fl.stubs, p.2.isSome
  accounts : fl.contexts + (fl.pool.freed : Multiset ℕ) =
    Multiset.range fl.pool.allocated

end FilterList

def DataFilter.frames (filter : DataFilter) : List NetBufferList :=
  filter.nblQueue.chain ++ filter.nblReturn.chain

theorem DataFilter.stubs_eq_frames (filter : DataFilter) :
    filter.stubs = (filter.frames.map NetBufferList.stub : List _) := by
  simp [DataFilter.stubs, DataFilter.frames, NblCountedQueue.stubs]

theorem filterMap_stubs (nbls : List NetBufferList) :
    ((nbls.map NetBufferList.stub : List _) :
      Multiset (ℕ × Option FilterNblContext)).filterMap
        (fun p => p.2.map FilterNblContext.address) =
      (contextAddresses nbls : Multiset ℕ) := by
  simp only [Multiset.filterMap_coe, List.filterMap_map]
  rfl

namespace FilterList

variable {fl : FilterList} {filter : DataFilter} {h : ℕ}

theorem stubs_le_of_filter? (hfilter : fl.filter? h = some filter) :
    filter.stubs ≤ fl.stubs := by
  have hsplit := stubs_setFilter hfilter none fl.pool
  simp only [Option.elim_none, add_zero] at hsplit
  rw [← hsplit]
  exact Multiset.le_add_left _ _

theorem ContextsSafe.nodup (hfl : fl.ContextsSafe) :
    (fl.contexts + (fl.pool.freed : Multiset ℕ)).Nodup := by
  rw [hfl.accounts]
  exact Multiset.nodup_range _

variable {nbl : NetBufferList}

theorem ContextsSafe.frame_owned (hfl : fl.ContextsSafe)
    (hfilter : fl.filter? h = some filter) (hnbl : nbl ∈ filter.frames) :
    nbl.scratch.isSome := by
  have hmem : nbl.stub ∈ filter.stubs := by
    rw [DataFilter.stubs_eq_frames]
    exact Multiset.mem_coe.mpr (List.mem_map_of_mem hnbl)
  exact hfl.owned nbl.stub (Multiset.mem_of_le (stubs_le_of_filter? hfilter) hmem)

theorem contextAddresses_le (hfilter : fl.filter? h = some filter) :
    (contextAddresses filter.frames : Multiset ℕ) ≤ fl.contexts := by
  rw [← filterMap_stubs, ← DataFilter.stubs_eq_frames]
  exact Multiset.filterMap_le_filterMap _ (stubs_le_of_filter? hfilter)

theorem ContextsSafe.frames_nodup (hfl : fl.ContextsSafe)
    (hfilter : fl.filter? h = some filter) :
    (contextAddresses filter.frames).Nodup :=
  Multiset.coe_nodup.mp (Multiset.nodup_of_le (contextAddresses_le hfilter)
    (Multiset.nodup_add.mp hfl.nodup).1)

theorem ContextsSafe.frames_not_freed (hfl : fl.ContextsSafe)
    (hfilter : fl.filter? h = some filter) {a : ℕ}
    (ha : a ∈ contextAddresses filter.frames) : a ∉ fl.pool.freed := by
  intro hfreed
  have hmem : a ∈ fl.contexts :=
    Multiset.mem_of_le (contextAddresses_le hfilter) (Multiset.mem_coe.mpr ha)
  exact Multiset.disjoint_left.mp (Multiset.nodup_add.mp hfl.nodup).2.2 hmem
    (Multiset.mem_coe.mpr hfreed)

theorem ContextsSafe.context_eq (hfl : fl.ContextsSafe)
    (hfilter : fl.filter? h = some filter) (hnbl : nbl ∈ filter.frames) :
    fnIoFilterNblContext fl.pool nbl = nbl.scratch ∧ nbl.scratch.isSome := by
  have howned := hfl.frame_owned hfilter hnbl
  refine ⟨?_, howned⟩
  obtain ⟨context, hcontext⟩ := Option.isSome_iff_exists.mp howned
  have haddress : context.address ∈ contextAddresses filter.frames :=
    List.mem_filterMap.mpr ⟨nbl, hnbl, by simp [hcontext]⟩
  simp [fnIoFilterNblContext, hcontext, hfl.frames_not_freed hfilter haddress]

end FilterList

/-! ## Freeing -/

variable {nbls : List NetBufferList}

theorem fnIoFreeFlushedFrameContexts_owned (pool : ContextPool)
    (howned : ∀ nbl ∈ nbls, nbl.scratch.isSome)
    (hnodup : (contextAddresses nbls).Nodup)
    (hlive : ∀ a ∈ contextAddresses nbls, a ∉ pool.freed) :
    fnIoFreeFlushedFrameContexts pool nbls =
      ({ pool with freed := pool.freed ++ contextAddresses nbls },
        nbls.map fun nbl => nbl.fnIoFilterNblSetContext none) := by
  induction nbls generalizing pool with
  | nil => simp [fnIoFreeFlushedFrameContexts, contextAddresses]
  | cons nbl rest ih =>
    obtain ⟨context, hcontext⟩ :=
      Option.isSome_iff_exists.mp (howned nbl List.mem_cons_self)
    have haddresses : contextAddresses (nbl :: rest) =
        context.address :: contextAddresses rest := by
      simp [contextAddresses, hcontext]
    rw [haddresses] at hnodup hlive ⊢
    obtain ⟨hnot, hrest⟩ := List.nodup_cons.mp hnodup
    have hfound : fnIoFilterNblContext pool nbl = some context := by
      simp [fnIoFilterNblContext, hcontext,
        hlive context.address List.mem_cons_self]
    unfold fnIoFreeFlushedFrameContexts
    simp only [hfound]
    rw [ih]
    · simp
    · exact fun nbl hnbl => howned nbl (List.mem_cons_of_mem _ hnbl)
    · exact hrest
    · intro a ha hfreed
      rcases List.mem_append.mp hfreed with hold | hnew
      · exact hlive a (List.mem_cons_of_mem _ ha) hold
      · rw [List.mem_singleton] at hnew
        exact hnot (hnew ▸ ha)

/-! ## The sections other than the watchdogs -/

theorem contextAddresses_append (l l' : List NetBufferList) :
    contextAddresses (l ++ l') = contextAddresses l ++ contextAddresses l' := by
  simp [contextAddresses]

namespace FilterList

variable {fl : FilterList}

theorem ContextsSafe.congr
    (hfl : fl.ContextsSafe) {fl' : FilterList}
    (hstubs : fl'.stubs = fl.stubs) (hpool : fl'.pool = fl.pool) :
    fl'.ContextsSafe := by
  refine ⟨?_, ?_, ?_⟩
  · rw [hpool]
    exact hfl.noFault
  · rw [hstubs]
    exact hfl.owned
  · rw [contexts, hstubs, hpool]
    exact hfl.accounts

theorem ContextsSafe.release
    (hfl : fl.ContextsSafe) {h : ℕ} {filter : DataFilter}
    (hfilter : fl.filter? h = some filter) (filter' : Option DataFilter)
    {flushed : List NetBufferList}
    (hsplit : filter.stubs = filter'.elim 0 DataFilter.stubs +
      (flushed.map NetBufferList.stub : List _)) :
    (fl.setFilter h filter'
      { fl.pool with
        freed := fl.pool.freed ++ contextAddresses flushed }).ContextsSafe := by
  have hstubs := stubs_setFilter hfilter filter'
    { fl.pool with freed := fl.pool.freed ++ contextAddresses flushed }
  rw [hsplit, add_comm (filter'.elim 0 DataFilter.stubs), ← add_assoc] at hstubs
  have hstubs := add_right_cancel hstubs
  have hcontexts := congrArg
    (Multiset.filterMap fun p => p.2.map FilterNblContext.address) hstubs
  rw [Multiset.filterMap_add, filterMap_stubs] at hcontexts
  refine ⟨hfl.noFault, ?_, ?_⟩
  · intro p hp
    apply hfl.owned p
    rw [← hstubs]
    exact Multiset.mem_add.mpr (Or.inl hp)
  · have haccounts := hfl.accounts
    simp only [contexts, setFilter] at haccounts hcontexts ⊢
    rw [← haccounts, ← hcontexts, ← Multiset.coe_add]
    abel

theorem ContextsSafe.clearFilter
    {s : Sweep} (hs : s.filters.ContextsSafe) (hqueue : s.queue.chain = [])
    (h : ℕ) : (s.clearFilter h).filters.ContextsSafe := by
  unfold Sweep.clearFilter
  simp only
  split
  · exact hs.congr rfl rfl
  · rename_i filter hfilter
    have hfilter : s.filters.filter? h = some filter := hfilter
    have hsafe : ({ s.filters with
        links := s.filters.links.erase h } : FilterList).ContextsSafe :=
      hs.congr rfl rfl
    have hchain : ((s.queue.appendQueue filter.nblQueue).appendQueue
        filter.nblReturn).chain = filter.frames := by
      simp [NblCountedQueue.appendQueue, hqueue, DataFilter.frames]
    have hfree := fnIoFreeFlushedFrameContexts_owned s.filters.pool
      (fun nbl hnbl => hs.frame_owned hfilter hnbl)
      (hs.frames_nodup hfilter)
      (fun a ha => hs.frames_not_freed hfilter ha)
    simp only [fnIoFlushAllFrames, NblCountedQueue.freeContexts, hchain, hfree]
    exact hsafe.release hfilter none (by simp [DataFilter.stubs_eq_frames])

theorem ContextsSafe.irpFlush
    (hfl : fl.ContextsSafe) (h : ℕ) :
    (fl.irpFlush h).filters.ContextsSafe := by
  unfold FilterList.irpFlush
  split
  · exact hfl
  · rename_i filter hfilter
    have hmem : ∀ nbl ∈ filter.nblReturn.chain, nbl ∈ filter.frames :=
      fun nbl hnbl => List.mem_append_right _ hnbl
    have haddress : ∀ a ∈ contextAddresses filter.nblReturn.chain,
        a ∈ contextAddresses filter.frames := by
      intro a ha
      rw [DataFilter.frames, contextAddresses_append]
      exact List.mem_append_right _ ha
    have hnodup : (contextAddresses filter.nblReturn.chain).Nodup := by
      have h := hfl.frames_nodup hfilter
      rw [DataFilter.frames, contextAddresses_append] at h
      exact (List.nodup_append.mp h).2.1
    have hfree := fnIoFreeFlushedFrameContexts_owned fl.pool
      (fun nbl hnbl => hfl.frame_owned hfilter (hmem nbl hnbl)) hnodup
      (fun a ha => hfl.frames_not_freed hfilter (haddress a ha))
    have hchain : (NblCountedQueue.empty.appendQueue
        filter.nblReturn).chain = filter.nblReturn.chain := by
      simp [NblCountedQueue.appendQueue]
    simp only [fnIoFlushDequeuedFrames, NblCountedQueue.freeContexts, hchain,
      hfree]
    apply hfl.release hfilter (some { filter with nblReturn := .empty })
    simp [DataFilter.stubs, NblCountedQueue.stubs]

theorem ContextsSafe.filterNbl
    (hfl : fl.ContextsSafe) (hlinked : fl.WellLinked)
    (env : CaptureEnv) (nbl : NetBufferList) :
    (fl.filterNbl env nbl).2.ContextsSafe := by
  rcases filterNblLoop_cases env nbl fl
      fun h hh => (hlinked.mem_links h).mp hh with
    heq | ⟨h, filter, context, -, hfilter, haddress, heq⟩
  · simpa [FilterList.filterNbl, heq] using hfl
  · simp only [FilterList.filterNbl, heq]
    have hstubs := stubs_setFilter hfilter (some (filter.capture nbl context))
      { fl.pool with allocated := fl.pool.allocated + 1 }
    have hcapture : (filter.capture nbl context).stubs =
        filter.stubs + {(nbl.id, some context)} := by
      simp only [DataFilter.stubs, DataFilter.capture,
        NblCountedQueue.stubs_appendSingleNbl]
      rw [add_right_comm]
      rfl
    rw [Option.elim_some, hcapture, ← add_assoc, add_right_comm] at hstubs
    have hstubs := add_right_cancel hstubs
    refine ⟨hfl.noFault, ?_, ?_⟩
    · intro p hp
      rw [hstubs] at hp
      rcases Multiset.mem_add.mp hp with hold | hnew
      · exact hfl.owned p hold
      · rw [Multiset.mem_singleton] at hnew
        simp [hnew]
    · have haccounts := hfl.accounts
      simp only [contexts] at haccounts
      have hone : Multiset.filterMap
          (fun p : ℕ × Option FilterNblContext =>
            p.2.map FilterNblContext.address)
          {(nbl.id, some context)} = {fl.pool.allocated} := by
        rw [← haddress]
        rfl
      rw [contexts, hstubs, Multiset.filterMap_add, hone]
      simp only [setFilter, Multiset.range_succ, ← haccounts,
        ← Multiset.singleton_add]
      abel

theorem ContextsSafe.filterNbls
    (env : CaptureEnv) (nbls : List NetBufferList)
    {s : Sweep} (hs : s.filters.ContextsSafe)
    (hlinked : s.filters.WellLinked) :
    (filterNbls env nbls s).filters.ContextsSafe := by
  induction nbls generalizing s with
  | nil => exact hs
  | cons nbl rest ih =>
    exact ih (hs.filterNbl hlinked env nbl)
      (wellLinked_filterNbl hlinked env nbl)

theorem ContextsSafe.irpFrame
    (hfl : fl.ContextsSafe) (hlinked : fl.WellLinked)
    (h inputBufferLength size : ℕ)
    {body : DataFilter → NtStatus × DataFilter}
    (hbody : ∀ filter, (body filter).2.stubs = filter.stubs) :
    (fl.irpFrame h inputBufferLength size body).2.ContextsSafe := by
  refine hfl.congr (irpFrame_spec hlinked h inputBufferLength size hbody).2 ?_
  rcases irpFrame_cases fl h inputBufferLength size body with
    heq | ⟨filter, -, heq⟩
  · rw [heq]
  · rw [heq]
    rfl

theorem ContextsSafe.irpGetFrame
    (hfl : fl.ContextsSafe) (h inputBufferLength index subIndex : ℕ)
    (request : OutputRequest) :
    (fl.irpGetFrame h inputBufferLength index subIndex
      request).2.ContextsSafe := by
  unfold FilterList.irpGetFrame
  split
  · exact hfl
  · rename_i filter hfilter
    split
    · exact hfl
    · have hcontexts : ∀ nbl ∈ filter.nblQueue.chain,
          (fnIoFilterNblContext fl.pool nbl).isSome := by
        intro nbl hnbl
        obtain ⟨heq, howned⟩ := hfl.context_eq hfilter
          (List.mem_append_left _ hnbl)
        rw [heq]
        exact howned
      have hsome :=
        fnIoGetFilteredFrame_isSome hcontexts index subIndex request
      obtain ⟨_, hresult⟩ := Option.isSome_iff_exists.mp hsome
      simp only [hresult]
      exact hfl

end FilterList

/-! ## The watchdogs -/

def overdue (currentTime : UInt64) (nbls : List NetBufferList) : Bool :=
  nbls.any fun nbl => nbl.scratch.any fun context =>
    decide (currentTime > context.timestamp + watchdogGracePeriod)

theorem fnIoIsNblQueueWatchdogExpired_eq {pool : ContextPool}
    (currentTime : UInt64)
    (h : ∀ nbl ∈ nbls, fnIoFilterNblContext pool nbl = nbl.scratch ∧
      nbl.scratch.isSome) :
    fnIoIsNblQueueWatchdogExpired pool currentTime nbls =
      some (overdue currentTime nbls) := by
  induction nbls with
  | nil => rfl
  | cons nbl rest ih =>
    obtain ⟨hfound, howned⟩ := h nbl List.mem_cons_self
    obtain ⟨context, hcontext⟩ := Option.isSome_iff_exists.mp howned
    have ih := ih fun nbl hnbl => h nbl (List.mem_cons_of_mem _ hnbl)
    rw [hcontext] at hfound
    have hcons : overdue currentTime (nbl :: rest) =
        (decide (currentTime > context.timestamp + watchdogGracePeriod) ||
          overdue currentTime rest) := by
      unfold overdue
      rw [List.any_cons, hcontext, Option.any_some]
    rw [hcons, fnIoIsNblQueueWatchdogExpired, hfound]
    dsimp only
    split
    · rename_i hlate
      rw [decide_eq_true hlate, Bool.true_or]
    · rename_i hearly
      rw [decide_eq_false hearly, Bool.false_or, ih]

namespace FilterList

def overdue (clock : ℕ → UInt64 × UInt64) (fl : FilterList) (h : ℕ) : Bool :=
  (fl.filter? h).any fun filter =>
    Fnio.overdue (clock h).1 filter.nblQueue.chain ||
      Fnio.overdue (clock h).2 filter.nblReturn.chain

def expired (clock : ℕ → UInt64 × UInt64) (fl : FilterList) : List ℕ :=
  fl.links.filter fun h =>
    (fl.filter? h).any fun filter =>
      fnIoIsFilterWatchdogExpired fl.pool (clock h).1 (clock h).2 filter ==
        some true

variable {fl : FilterList}

section

variable (hfl : fl.ContextsSafe)

include hfl

theorem ContextsSafe.expired_eq {h : ℕ} {filter : DataFilter}
    (hfilter : fl.filter? h = some filter) (clock : ℕ → UInt64 × UInt64) :
    fnIoIsFilterWatchdogExpired fl.pool (clock h).1 (clock h).2 filter =
      some (fl.overdue clock h) := by
  have hqueue := fnIoIsNblQueueWatchdogExpired_eq (clock h).1
    fun nbl (hnbl : nbl ∈ filter.nblQueue.chain) =>
      hfl.context_eq hfilter (List.mem_append_left _ hnbl)
  have hreturn := fnIoIsNblQueueWatchdogExpired_eq (clock h).2
    fun nbl (hnbl : nbl ∈ filter.nblReturn.chain) =>
      hfl.context_eq hfilter (List.mem_append_right _ hnbl)
  simp only [fnIoIsFilterWatchdogExpired, hqueue, hreturn, overdue, hfilter,
    Option.any_some]
  cases Fnio.overdue (clock h).1 filter.nblQueue.chain <;> rfl

theorem ContextsSafe.expired_eq_overdue (clock : ℕ → UInt64 × UInt64) :
    fl.expired clock = fl.links.filter (fl.overdue clock) := by
  apply List.filter_congr
  intro h _
  cases hfilter : fl.filter? h with
  | none => simp [overdue, hfilter]
  | some filter =>
    rw [Option.any_some, hfl.expired_eq hfilter clock]
    simp

theorem not_stopped (hlinked : fl.WellLinked) : fl.stopped = false := by
  simp [stopped, hfl.noFault, hlinked.not_null]

end

end FilterList

namespace Sweep

variable (clock : ℕ → UInt64 × UInt64) {handles : List ℕ}

theorem watchdogLoop_of_not_overdue {s : Sweep} (hs : s.filters.ContextsSafe)
    (hlinked : s.filters.WellLinked) (hmem : ∀ h ∈ handles, h ∈ s.filters.links)
    (hnone : ∀ h ∈ handles, s.filters.overdue clock h = false) :
    watchdogLoop clock handles s = s := by
  induction handles with
  | nil => rfl
  | cons h rest ih =>
    obtain ⟨_, hfilter⟩ := Option.isSome_iff_exists.mp
      ((hlinked.mem_links h).mp (hmem h List.mem_cons_self))
    unfold watchdogLoop
    simp only [FilterList.not_stopped hs hlinked, Bool.false_eq_true,
      if_false, hfilter, hs.expired_eq hfilter clock,
      hnone h List.mem_cons_self]
    exact ih (fun h' hh' => hmem h' (List.mem_cons_of_mem h hh'))
      fun h' hh' => hnone h' (List.mem_cons_of_mem h hh')

theorem overdue_clearFilter (s : Sweep) {h h' : ℕ} (hne : h' ≠ h) :
    (s.clearFilter h).filters.overdue clock h' =
      s.filters.overdue clock h' := by
  simp only [FilterList.overdue, clearFilter_filter?_ne s hne]

theorem contextsSafe_watchdogLoop {s : Sweep} (hs : s.filters.ContextsSafe)
    (hlinked : s.filters.WellLinked) (hqueue : s.queue.chain = [])
    (hnodup : handles.Nodup) (hmem : ∀ h ∈ handles, h ∈ s.filters.links)
    (hone : (handles.filter (s.filters.overdue clock)).length ≤ 1) :
    (watchdogLoop clock handles s).filters.ContextsSafe := by
  induction handles with
  | nil => exact hs
  | cons h rest ih =>
    obtain ⟨hnot, hrest⟩ := List.nodup_cons.mp hnodup
    obtain ⟨_, hfilter⟩ := Option.isSome_iff_exists.mp
      ((hlinked.mem_links h).mp (hmem h List.mem_cons_self))
    have htail : ∀ h' ∈ rest, h' ∈ s.filters.links := fun h' hh' =>
      hmem h' (List.mem_cons_of_mem h hh')
    unfold watchdogLoop
    simp only [FilterList.not_stopped hs hlinked, Bool.false_eq_true,
      if_false, hfilter, hs.expired_eq hfilter clock]
    cases hdue : s.filters.overdue clock h with
    | false =>
      simp only [List.filter_cons, hdue, Bool.false_eq_true, if_false] at hone
      exact ih hrest htail hone
    | true =>
      have hrestnone : rest.filter (s.filters.overdue clock) = [] := by
        simp only [List.filter_cons, hdue, if_true, List.length_cons] at hone
        exact List.length_eq_zero_iff.mp (by omega)
      have hne : ∀ h' ∈ rest, h' ≠ h := fun h' hh' heq =>
        hnot (heq ▸ hh')
      have hclear := hs.clearFilter hqueue h
      rw [watchdogLoop_of_not_overdue clock hclear
        (wellLinked_clearFilter hlinked h)]
      · exact hclear
      · intro h' hh'
        rw [clearFilter_links, hlinked.nodup.mem_erase_iff]
        exact ⟨hne h' hh', htail h' hh'⟩
      · intro h' hh'
        rw [overdue_clearFilter clock s (hne h' hh')]
        simpa using List.filter_eq_nil_iff.mp hrestnone h' hh'

end Sweep

/-! ## Every run -/

theorem Section.apply_contextsSafe
    {fl : FilterList} (hfl : fl.ContextsSafe) (hlinked : fl.WellLinked)
    (sec : Section) (hfresh : sec.Fresh fl)
    (hone : ∀ clock, sec = .watchdog clock → (fl.expired clock).length ≤ 1) :
    (sec.apply fl).2.filters.ContextsSafe := by
  cases sec with
  | create h =>
    exact hfl.congr (FilterList.create_spec hlinked hfresh).2 rfl
  | filter h request =>
    simp only [apply]
    split
    · exact hfl
    · rename_i dataFilter hprepare
      have hclear := FilterList.ContextsSafe.clearFilter
        (s := Sweep.start fl) hfl rfl h
      cases dataFilter with
      | none => exact hclear
      | some filter =>
        exact hclear.congr (FilterList.stubs_install
          (Sweep.clearFilter_filter?_self _ h)
          (FilterList.prepareFilter_stubs hprepare) _) rfl
  | getFrame h inputBufferLength index subIndex request =>
    exact hfl.irpGetFrame h inputBufferLength index subIndex request
  | setFrame h inputBufferLength index subIndex frame =>
    exact hfl.irpFrame hlinked h _ _
      fun filter => fnIoSetFilteredFrame_stubs filter index subIndex frame
  | dequeueFrame h inputBufferLength index =>
    exact hfl.irpFrame hlinked h _ _
      fun filter => fnIoDequeueFilteredFrame_stubs filter index
  | flush h => exact hfl.irpFlush h
  | capture env chain =>
    exact FilterList.ContextsSafe.filterNbls env chain.chain
      (s := Sweep.start fl) hfl hlinked
  | watchdog clock =>
    have hone := hone clock rfl
    rw [hfl.expired_eq_overdue] at hone
    exact Sweep.contextsSafe_watchdogLoop clock (s := Sweep.start fl) hfl
      hlinked rfl hlinked.nodup (fun h hh => hh) hone
  | cleanup h =>
    have hclear := FilterList.ContextsSafe.clearFilter
      (s := Sweep.start fl) hfl rfl h
    exact hclear.congr (FilterList.stubs_remove
      (Sweep.clearFilter_filter?_self _ h)) rfl

namespace CapturePath

def expiries (s : State) : Label → ℕ
  | .locked _ (.watchdog clock) => (s.filters.expired clock).length
  | _ => 0

/-- The step is not a watchdog tick that finds several filters expired. -/
def OneExpiry (s : State) (label : Label) : Prop :=
  expiries s label ≤ 1

instance (s : State) (label : Label) : Decidable (OneExpiry s label) :=
  inferInstanceAs (Decidable (expiries s label ≤ 1))

theorem contextsSafe_init : init.filters.ContextsSafe := by
  refine ⟨rfl, ?_, rfl⟩
  intro p hp
  simp [init, FilterList.empty, FilterList.stubs] at hp

theorem contextsSafe_step
    {d : Driver} {s t : State} {label : Label} (hc : Contained s)
    (hs : s.filters.ContextsSafe) (hone : OneExpiry s label)
    (ht : Transition d s label t) : t.filters.ContextsSafe := by
  cases ht with
  | @transferLocked c env call chain hcall hentry hphase =>
    simp only [CapturePath.transferLocked, State.settle_filters]
    exact Section.apply_contextsSafe hs hc.linked (.capture env chain)
      trivial (by simp)
  | @locked c sec hstart =>
    simp only [CapturePath.locked, State.settle_filters]
    apply Section.apply_contextsSafe hs hc.linked sec (hc.fresh hstart)
    rintro clock rfl
    exact hone
  | pause | restart => exact hs
  | _ =>
    simpa [State.handBack, State.converted, State.releaseCount] using hs

theorem contextsSafe_of_reachableWithin
    {d : Driver} {s : State}
    (hs : (machine d).ReachableWithin OneExpiry s) :
    s.filters.ContextsSafe := by
  have hboth : Contained s ∧ s.filters.ContextsSafe := by
    refine Machine.ReachableWithin.invariant
      (P := fun s => Contained s ∧ s.filters.ContextsSafe)
      ⟨contained_init, contextsSafe_init⟩ ?_ hs
    rintro s label t ⟨hc, hsafe⟩ hone hstep
    have ht := transition_of_step hstep
    exact ⟨hc.step ht, contextsSafe_step hc hsafe hone ht⟩
  exact hboth.2

end CapturePath

end WinNetTest.Fnio
