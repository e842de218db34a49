import WinNetTest.Fnio.FilterList

/-!
# What the locked sections conserve

Every section moves NBLs between the filters of the adapter and its private
flush queue and loses none.  The contents of a queue are measured by its
stubs: the identity and the scratch pointer of each NBL.  This module proves
one equation for each function, shows that the link list names exactly the
handles with a filter, and follows the NBLs a filter has captured.
-/

namespace WinNetTest.Fnio

open Support

/-! ## Stubs -/

def NetBufferList.stub (nbl : NetBufferList) : ℕ × Option FilterNblContext :=
  (nbl.id, nbl.scratch)

namespace NblCountedQueue

def stubs (q : NblCountedQueue) : Multiset (ℕ × Option FilterNblContext) :=
  (q.chain.map NetBufferList.stub : List _)

theorem ids_eq_stubs (q : NblCountedQueue) : q.ids = q.stubs.map Prod.fst := by
  simp only [ids, stubs, Multiset.map_coe, List.map_map]
  rfl

@[simp] theorem stubs_empty : empty.stubs = 0 := rfl

@[simp] theorem stubs_appendSingleNbl
    (q : NblCountedQueue) (nbl : NetBufferList) :
    (q.appendSingleNbl nbl).stubs = q.stubs + {nbl.stub} := by
  simp only [stubs, appendSingleNbl, List.map_append, List.map_cons,
    List.map_nil, ← Multiset.coe_add, Multiset.coe_singleton]

@[simp] theorem stubs_appendQueue (q source : NblCountedQueue) :
    (q.appendQueue source).stubs = q.stubs + source.stubs := by
  simp [stubs, appendQueue]

theorem ids_freeContexts (pool : ContextPool) (q : NblCountedQueue) :
    (q.freeContexts pool).2.ids = q.ids := by
  simp [ids, freeContexts, fnIoFreeFlushedFrameContexts_ids]

end NblCountedQueue

namespace DataFilter

def stubs (filter : DataFilter) : Multiset (ℕ × Option FilterNblContext) :=
  filter.nblQueue.stubs + filter.nblReturn.stubs

def ids (filter : DataFilter) : Multiset ℕ :=
  filter.nblQueue.ids + filter.nblReturn.ids

theorem ids_eq_stubs (filter : DataFilter) :
    filter.ids = filter.stubs.map Prod.fst := by
  simp [ids, stubs, NblCountedQueue.ids_eq_stubs]

end DataFilter

theorem fnIoCreateFilter_stubs
    {request : FilterRequest} {filter : DataFilter}
    (h : fnIoCreateFilter request = some filter) : filter.stubs = 0 := by
  obtain ⟨hqueue, hreturn, -⟩ := fnIoCreateFilter_queues h
  simp [DataFilter.stubs, hqueue, hreturn]

theorem fnIoSetFilteredFrame_stubs
    (filter : DataFilter) (index subIndex : ℕ) (frame : FrameInput) :
    (fnIoSetFilteredFrame filter index subIndex frame).2.stubs =
      filter.stubs := by
  have hreturn :
      (fnIoSetFilteredFrame filter index subIndex frame).2.nblReturn =
        filter.nblReturn := by
    rcases fnIoSetFilteredFrame_cases filter index subIndex frame with
      ⟨_, -, heq⟩ | ⟨nbl, nb, -, -, -, heq⟩ <;> rw [heq]
  have hstub : ∀ (nbl : NetBufferList) (info : NblInfo),
      NetBufferList.stub { nbl with info := info } = nbl.stub :=
    fun _ _ => rfl
  simp only [DataFilter.stubs, hreturn, NblCountedQueue.stubs,
    fnIoSetFilteredFrame_map hstub]

theorem fnIoSetFilteredFrame_captured
    (filter : DataFilter) (index subIndex : ℕ) (frame : FrameInput) :
    (fnIoSetFilteredFrame filter index subIndex frame).2.captured =
      filter.captured := by
  rcases fnIoSetFilteredFrame_cases filter index subIndex frame with
    ⟨_, -, heq⟩ | ⟨nbl, nb, -, -, -, heq⟩ <;> rw [heq]

theorem dequeueLoop_stubs
    (index nblIndex : ℕ) (nbls : List NetBufferList) (status : NtStatus)
    (nblReturn nblChain : NblCountedQueue) :
    let result := dequeueLoop index nblIndex nbls (status, nblReturn, nblChain)
    result.2.1.stubs + result.2.2.stubs = nblReturn.stubs + nblChain.stubs +
        (nbls.map NetBufferList.stub : List _) := by
  induction nbls generalizing nblIndex status nblReturn nblChain with
  | nil => simp [dequeueLoop]
  | cons nbl rest ih =>
    have hcons : ((nbl :: rest).map NetBufferList.stub :
        Multiset (ℕ × Option FilterNblContext)) =
          {nbl.stub} + (rest.map NetBufferList.stub : List _) := by
      simp
    rw [hcons]
    unfold dequeueLoop
    split
    · simp only [ih, NblCountedQueue.stubs_appendSingleNbl]
      abel
    · simp only [ih, NblCountedQueue.stubs_appendSingleNbl]
      abel

theorem fnIoDequeueFilteredFrame_stubs (filter : DataFilter) (index : ℕ) :
    (fnIoDequeueFilteredFrame filter index).2.stubs = filter.stubs := by
  have hloop := dequeueLoop_stubs index 0 filter.nblQueue.chain .notFound
    filter.nblReturn .empty
  simp only [fnIoDequeueFilteredFrame, DataFilter.stubs,
    NblCountedQueue.stubs_appendQueue, NblCountedQueue.stubs_empty, zero_add]
  rw [add_comm, hloop, NblCountedQueue.stubs_empty, add_zero, add_comm]
  rfl

/-! ## The handles -/

namespace FilterList

@[simp] theorem filter?_setFilter_self
    (fl : FilterList) (h : ℕ) (filter : Option DataFilter)
    (pool : ContextPool) :
    (fl.setFilter h filter pool).filter? h = filter := by
  simp [filter?, setFilter]

theorem filter?_setFilter_ne
    (fl : FilterList) {h h' : ℕ} (hne : h' ≠ h) (filter : Option DataFilter)
    (pool : ContextPool) :
    (fl.setFilter h filter pool).filter? h' = fl.filter? h' := by
  simp [filter?, setFilter, AList.lookup_insert_ne hne]

def stubs (fl : FilterList) : Multiset (ℕ × Option FilterNblContext) :=
  Table.total (fun _ filter => filter.elim 0 DataFilter.stubs) fl.handles

def ids (fl : FilterList) : Multiset ℕ :=
  fl.stubs.map Prod.fst

variable {fl : FilterList} {filter : DataFilter}

theorem lookup_of_filter? {h : ℕ} (hfilter : fl.filter? h = some filter) :
    fl.handles.lookup h = some (some filter) := by
  unfold filter? at hfilter
  exact Option.join_eq_some_iff.mp hfilter

theorem stubs_setFilter {h : ℕ} (hfilter : fl.filter? h = some filter)
    (filter' : Option DataFilter) (pool : ContextPool) :
    (fl.setFilter h filter' pool).stubs + filter.stubs =
      fl.stubs + filter'.elim 0 DataFilter.stubs := by
  exact Table.total_update _ filter' (lookup_of_filter? hfilter)

theorem mem_stubs {p : ℕ × Option FilterNblContext} :
    p ∈ fl.stubs ↔ ∃ h filter, fl.filter? h = some filter ∧
      p ∈ filter.stubs := by
  unfold stubs
  rw [Table.mem_total]
  constructor
  · rintro ⟨h, filter, hlookup, hp⟩
    cases filter with
    | none => simp at hp
    | some filter => exact ⟨h, filter, by simp [filter?, hlookup], hp⟩
  · rintro ⟨h, filter, hfilter, hp⟩
    exact ⟨h, some filter, lookup_of_filter? hfilter, hp⟩

end FilterList

/-! ## The link list -/

namespace FilterList

/-- The link list names each handle that has a filter once, and no other. -/
structure WellLinked (fl : FilterList) : Prop where
  nodup : fl.links.Nodup
  mem_links : ∀ h, h ∈ fl.links ↔ (fl.filter? h).isSome
  not_null : fl.nullFilter = false

theorem WellLinked.setFilter
    {fl : FilterList} (hfl : fl.WellLinked) {h : ℕ} {filter : DataFilter}
    (hfilter : fl.filter? h = some filter)
    (filter' : DataFilter) (pool : ContextPool) :
    (fl.setFilter h (some filter') pool).WellLinked := by
  refine ⟨hfl.nodup, ?_, hfl.not_null⟩
  intro h'
  have hlinks : h' ∈ (fl.setFilter h (some filter') pool).links ↔
      (fl.filter? h').isSome := hfl.mem_links h'
  rw [hlinks]
  by_cases hh : h' = h
  · subst hh
    simp [hfilter]
  · rw [filter?_setFilter_ne fl hh]

end FilterList

namespace Sweep

variable (s : Sweep)

theorem clearFilter_links (h : ℕ) :
    (s.clearFilter h).filters.links = s.filters.links.erase h := by
  unfold clearFilter
  simp only
  split <;> rfl

theorem clearFilter_filter?_self (h : ℕ) :
    (s.clearFilter h).filters.filter? h = none := by
  unfold clearFilter
  simp only
  split
  · rename_i hnone
    exact hnone
  · exact FilterList.filter?_setFilter_self _ _ _ _

theorem clearFilter_filter?_ne {h h' : ℕ} (hne : h' ≠ h) :
    (s.clearFilter h).filters.filter? h' = s.filters.filter? h' := by
  unfold clearFilter
  simp only
  split
  · rfl
  · exact FilterList.filter?_setFilter_ne _ hne _ _

theorem clearFilter_nullFilter (h : ℕ) :
    (s.clearFilter h).filters.nullFilter = s.filters.nullFilter := by
  unfold clearFilter
  simp only
  split <;> rfl

theorem wellLinked_clearFilter
    {s : Sweep} (hs : s.filters.WellLinked) (h : ℕ) :
    (s.clearFilter h).filters.WellLinked := by
  refine ⟨?_, ?_, ?_⟩
  · rw [clearFilter_links]
    exact hs.nodup.erase h
  · intro h'
    rw [clearFilter_links, hs.nodup.mem_erase_iff, hs.mem_links]
    by_cases hh : h' = h
    · subst hh
      simp [clearFilter_filter?_self]
    · simp [clearFilter_filter?_ne s hh, hh]
  · rw [clearFilter_nullFilter]
    exact hs.not_null

theorem wellLinked_watchdogLoop
    (clock : ℕ → UInt64 × UInt64) {handles : List ℕ} (hnodup : handles.Nodup)
    {s : Sweep} (hs : s.filters.WellLinked)
    (hlinked : ∀ h ∈ handles, h ∈ s.filters.links) :
    (watchdogLoop clock handles s).filters.WellLinked := by
  induction handles generalizing s with
  | nil => exact hs
  | cons h rest ih =>
    obtain ⟨hnot, hrest⟩ := List.nodup_cons.mp hnodup
    have htail : ∀ h' ∈ rest, h' ∈ s.filters.links := fun h' hh' =>
      hlinked h' (List.mem_cons_of_mem h hh')
    obtain ⟨_, hfilter⟩ := Option.isSome_iff_exists.mp
      ((hs.mem_links h).mp (hlinked h List.mem_cons_self))
    unfold watchdogLoop
    split
    · exact hs
    · simp only [hfilter]
      split
      · exact ⟨hs.nodup, hs.mem_links, hs.not_null⟩
      · apply ih hrest (wellLinked_clearFilter hs h)
        intro h' hh'
        rw [clearFilter_links, hs.nodup.mem_erase_iff]
        refine ⟨?_, htail h' hh'⟩
        rintro rfl
        exact hnot hh'
      · exact ih hrest hs htail

end Sweep

/-! ## Conservation of NBLs -/

namespace Sweep

def ids (s : Sweep) : Multiset ℕ :=
  s.filters.ids + s.queue.ids

theorem ids_start (fl : FilterList) : (start fl).ids = fl.ids := by
  simp [ids, start]

theorem ids_clearFilter (s : Sweep) (h : ℕ) :
    (s.clearFilter h).ids = s.ids := by
  unfold clearFilter
  simp only
  split
  · rfl
  · rename_i filter hfilter
    have hstubs := FilterList.stubs_setFilter hfilter none
      (fnIoFlushAllFrames s.filters.pool filter s.queue).1
    have hids := congrArg (Multiset.map Prod.fst) hstubs
    simp only [Multiset.map_add, Option.elim_none, add_zero] at hids
    simp only [ids, fnIoFlushAllFrames, NblCountedQueue.ids_freeContexts,
      NblCountedQueue.ids_appendQueue]
    rw [← DataFilter.ids_eq_stubs, DataFilter.ids] at hids
    have hsame : s.filters.ids = Multiset.map Prod.fst
          ({ s.filters with links := s.filters.links.erase h }).stubs := rfl
    rw [hsame, ← hids]
    simp only [FilterList.ids, fnIoFlushAllFrames]
    abel

theorem ids_watchdogLoop
    (clock : ℕ → UInt64 × UInt64) (handles : List ℕ) (s : Sweep) :
    (watchdogLoop clock handles s).ids = s.ids := by
  induction handles generalizing s with
  | nil => rfl
  | cons h rest ih =>
    unfold watchdogLoop
    split
    · rfl
    · split
      · rfl
      · split
        · rfl
        · rw [ih, ids_clearFilter]
        · exact ih s

end Sweep

namespace FilterList

theorem filterNblLoop_cases
    (env : CaptureEnv) (nbl : NetBufferList) (fl : FilterList)
    {handles : List ℕ} (hlinked : ∀ h ∈ handles, (fl.filter? h).isSome) :
    filterNblLoop env nbl fl handles = (false, fl) ∨
    ∃ h filter context, h ∈ handles ∧ fl.filter? h = some filter ∧
      context.address = fl.pool.allocated ∧
      filterNblLoop env nbl fl handles =
        (true, fl.setFilter h (some (filter.capture nbl context))
          { fl.pool with allocated := fl.pool.allocated + 1 }) := by
  induction handles with
  | nil => exact Or.inl rfl
  | cons h rest ih =>
    obtain ⟨filter, hfilter⟩ :=
      Option.isSome_iff_exists.mp (hlinked h List.mem_cons_self)
    have ih := ih fun h' hh' => hlinked h' (List.mem_cons_of_mem h hh')
    unfold filterNblLoop
    simp only [hfilter]
    rcases fnIoFilterNbl_cases env h fl.pool filter nbl with
      ⟨context, haddress, heq⟩ | ⟨status, hstatus, heq⟩
    · right
      exact ⟨h, filter, context, List.mem_cons_self, hfilter, haddress,
        by simp [heq]⟩
    · simp only [heq, hstatus, if_false]
      rcases ih with hpass | ⟨h', filter', context, hmem, hrest⟩
      · exact Or.inl hpass
      · exact Or.inr ⟨h', filter', context, List.mem_cons_of_mem h hmem, hrest⟩

variable {fl : FilterList}

theorem ids_filterNbl (hfl : fl.WellLinked) (env : CaptureEnv)
    (nbl : NetBufferList) :
    (fl.filterNbl env nbl).2.ids =
      fl.ids + if (fl.filterNbl env nbl).1 then {nbl.id} else 0 := by
  rcases filterNblLoop_cases env nbl fl fun h hh => (hfl.mem_links h).mp hh with
    heq | ⟨h, filter, context, -, hfilter, -, heq⟩
  · simp [filterNbl, heq]
  · have hstubs := stubs_setFilter hfilter (some (filter.capture nbl context))
      { fl.pool with allocated := fl.pool.allocated + 1 }
    have hids := congrArg (Multiset.map Prod.fst) hstubs
    simp only [Option.elim_some, DataFilter.stubs, DataFilter.capture,
      NblCountedQueue.stubs_appendSingleNbl, Multiset.map_add,
      Multiset.map_singleton, NetBufferList.stub,
      NetBufferList.fnIoFilterNblSetContext_id] at hids
    simp only [filterNbl, heq, if_true, ids, DataFilter.capture]
    apply add_right_cancel (b := filter.nblQueue.stubs.map Prod.fst +
      filter.nblReturn.stubs.map Prod.fst)
    rw [hids]
    abel

theorem wellLinked_filterNbl (hfl : fl.WellLinked) (env : CaptureEnv)
    (nbl : NetBufferList) :
    (fl.filterNbl env nbl).2.WellLinked := by
  rcases filterNblLoop_cases env nbl fl fun h hh => (hfl.mem_links h).mp hh with
    heq | ⟨h, filter, context, -, hfilter, -, heq⟩
  · simpa [filterNbl, heq] using hfl
  · simp only [filterNbl, heq]
    exact hfl.setFilter hfilter _ _

theorem filterNbls_spec
    (env : CaptureEnv) (nbls : List NetBufferList)
    {s : Sweep} (hs : s.filters.WellLinked) :
    (filterNbls env nbls s).filters.WellLinked ∧ (filterNbls env nbls s).ids =
        s.ids + (nbls.map NetBufferList.id : List ℕ) := by
  induction nbls generalizing s with
  | nil => simpa [filterNbls] using hs
  | cons nbl rest ih =>
    have hids := ids_filterNbl hs env nbl
    unfold filterNbls
    obtain ⟨hlinked, hrest⟩ := ih
      (s := { s with
        filters := (s.filters.filterNbl env nbl).2
        queue :=
          if (s.filters.filterNbl env nbl).1 then s.queue
          else s.queue.appendSingleNbl nbl })
      (wellLinked_filterNbl hs env nbl)
    refine ⟨hlinked, ?_⟩
    rw [hrest]
    simp only [Sweep.ids, hids, List.map_cons, ← Multiset.cons_coe,
      ← Multiset.singleton_add]
    cases (s.filters.filterNbl env nbl).1 with
    | true =>
      simp only [if_true]
      abel
    | false =>
      simp only [Bool.false_eq_true, if_false,
        NblCountedQueue.ids_appendSingleNbl]
      abel

theorem irpGetFrame_cases
    (fl : FilterList) (h inputBufferLength index subIndex : ℕ)
    (request : OutputRequest) :
    ∃ pool, (fl.irpGetFrame h inputBufferLength index subIndex request).2 =
      { fl with pool := pool } := by
  unfold irpGetFrame
  split
  · exact ⟨fl.pool, rfl⟩
  · split
    · exact ⟨fl.pool, rfl⟩
    · split
      · exact ⟨_, rfl⟩
      · exact ⟨fl.pool, rfl⟩

theorem irpFrame_cases
    (fl : FilterList) (h inputBufferLength size : ℕ)
    (body : DataFilter → NtStatus × DataFilter) :
    (fl.irpFrame h inputBufferLength size body).2 = fl ∨
    ∃ filter, fl.filter? h = some filter ∧
      (fl.irpFrame h inputBufferLength size body).2 =
        fl.setFilter h (some (body filter).2) fl.pool := by
  unfold irpFrame
  split
  · exact Or.inl rfl
  · rename_i filter hfilter
    split
    · exact Or.inl rfl
    · exact Or.inr ⟨filter, hfilter, rfl⟩

theorem irpFrame_spec (hfl : fl.WellLinked) (h inputBufferLength size : ℕ)
    {body : DataFilter → NtStatus × DataFilter}
    (hbody : ∀ filter, (body filter).2.stubs = filter.stubs) :
    (fl.irpFrame h inputBufferLength size body).2.WellLinked ∧
      (fl.irpFrame h inputBufferLength size body).2.stubs = fl.stubs := by
  rcases irpFrame_cases fl h inputBufferLength size body with
    heq | ⟨filter, hfilter, heq⟩
  · rw [heq]
    exact ⟨hfl, rfl⟩
  · rw [heq]
    refine ⟨hfl.setFilter hfilter _ _, ?_⟩
    have hstubs := stubs_setFilter hfilter (some (body filter).2) fl.pool
    simp only [Option.elim_some, hbody] at hstubs
    exact add_right_cancel hstubs

theorem irpFlush_spec (hfl : fl.WellLinked) (h : ℕ) :
    (fl.irpFlush h).filters.WellLinked ∧ (fl.irpFlush h).ids = fl.ids := by
  unfold irpFlush
  split
  · exact ⟨hfl, Sweep.ids_start fl⟩
  · rename_i filter hfilter
    refine ⟨hfl.setFilter hfilter _ _, ?_⟩
    have hstubs := stubs_setFilter hfilter
      (some (fnIoFlushDequeuedFrames fl.pool filter .empty).2.1)
      (fnIoFlushDequeuedFrames fl.pool filter .empty).1
    have hids := congrArg (Multiset.map Prod.fst) hstubs
    simp only [Multiset.map_add, Option.elim_some,
      ← DataFilter.ids_eq_stubs] at hids
    simp only [Sweep.ids, fnIoFlushDequeuedFrames, DataFilter.ids,
      NblCountedQueue.ids_freeContexts, NblCountedQueue.ids_appendQueue,
      NblCountedQueue.ids_empty, zero_add, add_zero] at hids ⊢
    apply add_right_cancel (b := filter.nblQueue.ids)
    simp only [ids] at hids ⊢
    rw [← hids]
    abel

variable {h : ℕ}

theorem create_spec (hfl : fl.WellLinked) (hopen : fl.isOpen h = false) :
    (fl.create h).WellLinked ∧ (fl.create h).stubs = fl.stubs := by
  have hnone : fl.handles.lookup h = none := by
    simpa [isOpen] using hopen
  have hfilter : ∀ h', (fl.create h).filter? h' = fl.filter? h' := by
    intro h'
    by_cases hh : h' = h
    · subst hh
      simp [filter?, create, hnone]
    · simp [filter?, create, AList.lookup_insert_ne hh]
  refine ⟨⟨hfl.nodup, ?_, hfl.not_null⟩, ?_⟩
  · intro h'
    rw [hfilter]
    exact hfl.mem_links h'
  · unfold stubs create
    rw [Table.total_insert_of_lookup_none _ _ hnone]
    simp

section

variable (hfilter : fl.filter? h = none)

include hfilter

theorem stubs_eq_erase_of_filter?_none :
    fl.stubs = Table.total (fun _ filter => filter.elim 0 DataFilter.stubs)
        (fl.handles.erase h) := by
  unfold stubs
  cases hlookup : fl.handles.lookup h with
  | none => rw [Table.erase_eq_of_lookup_none hlookup]
  | some filter =>
    have hnone : filter = none := by
      simpa [filter?, hlookup] using hfilter
    rw [Table.total_eq_of_lookup _ hlookup, hnone]
    simp

theorem stubs_install {filter : DataFilter} (hempty : filter.stubs = 0)
    (links : List ℕ) :
    ({ fl with
      handles := fl.handles.insert h (some filter)
      links := links } : FilterList).stubs = fl.stubs := by
  rw [stubs_eq_erase_of_filter?_none hfilter]
  simp [stubs, Table.total_insert, hempty]

theorem stubs_remove :
    ({ fl with handles := fl.handles.erase h } : FilterList).stubs =
      fl.stubs := by
  rw [stubs_eq_erase_of_filter?_none hfilter]
  rfl

end

variable {dataFilter : Option DataFilter}

theorem WellLinked.clearFilter (hfl : fl.WellLinked) (h : ℕ) :
    ((Sweep.start fl).clearFilter h).filters.WellLinked ∧
      ((Sweep.start fl).clearFilter h).ids = fl.ids ∧
      ((Sweep.start fl).clearFilter h).filters.filter? h = none :=
  ⟨Sweep.wellLinked_clearFilter (s := Sweep.start fl) hfl h,
    (Sweep.ids_clearFilter ..).trans (Sweep.ids_start fl),
    Sweep.clearFilter_filter?_self (Sweep.start fl) h⟩

theorem irpFilter_spec (hfl : fl.WellLinked) (h : ℕ)
    (hempty : dataFilter.elim 0 DataFilter.stubs = 0) :
    (fl.irpFilter h dataFilter).filters.WellLinked ∧
      (fl.irpFilter h dataFilter).ids = fl.ids := by
  obtain ⟨hclear, hids, hnone⟩ := hfl.clearFilter h
  cases dataFilter with
  | none => exact ⟨hclear, hids⟩
  | some filter =>
    unfold irpFilter
    generalize (Sweep.start fl).clearFilter h = s at hclear hids hnone
    have hnot : h ∉ s.filters.links := by
      rw [hclear.mem_links, hnone]
      simp
    refine ⟨⟨?_, ?_, hclear.not_null⟩, ?_⟩
    · simp only [List.nodup_append, List.nodup_singleton, true_and]
      refine ⟨hclear.nodup, ?_⟩
      rintro a ha b hb rfl
      rw [List.mem_singleton] at hb
      exact hnot (hb ▸ ha)
    · intro h'
      by_cases hh : h' = h
      · subst hh
        simp [filter?]
      · have hmem := hclear.mem_links h'
        simp only [filter?] at hmem ⊢
        simp [hh, hmem]
    · rw [← hids]
      simp only [Sweep.ids, ids, stubs_install hnone hempty]

theorem cleanup_spec (hfl : fl.WellLinked) (h : ℕ) :
    (fl.cleanup h).filters.WellLinked ∧ (fl.cleanup h).ids = fl.ids := by
  obtain ⟨hclear, hids, hnone⟩ := hfl.clearFilter h
  unfold cleanup
  generalize (Sweep.start fl).clearFilter h = s at hclear hids hnone
  refine ⟨⟨hclear.nodup, ?_, hclear.not_null⟩, ?_⟩
  · intro h'
    rw [hclear.mem_links]
    by_cases hh : h' = h
    · subst hh
      rw [hnone]
      simp [filter?]
    · simp [filter?, AList.lookup_erase_ne hh]
  · rw [← hids]
    simp only [Sweep.ids, ids, stubs_remove hnone]

theorem prepareFilter_stubs {request : FilterRequest}
    (h : prepareFilter request = .ok dataFilter) :
    dataFilter.elim 0 DataFilter.stubs = 0 := by
  rcases prepareFilter_cases h with ⟨-, rfl⟩ | ⟨filter, rfl, hcreate⟩
  · rfl
  · exact fnIoCreateFilter_stubs hcreate

end FilterList

namespace Section

def Fresh (fl : FilterList) : Section → Prop
  | create h => fl.isOpen h = false
  | _ => True

theorem apply_spec
    {fl : FilterList} (hfl : fl.WellLinked) (sec : Section)
    (hfresh : sec.Fresh fl) :
    (sec.apply fl).2.filters.WellLinked ∧
      (sec.apply fl).2.ids = fl.ids + sec.incoming := by
  cases sec with
  | create h =>
    obtain ⟨hlinked, hstubs⟩ := FilterList.create_spec hfl hfresh
    refine ⟨hlinked, ?_⟩
    simp only [apply, Sweep.ids_start, incoming, add_zero, FilterList.ids,
      hstubs]
  | filter h request =>
    simp only [apply, incoming, add_zero]
    split
    · exact ⟨hfl, Sweep.ids_start fl⟩
    · rename_i hprepare
      exact FilterList.irpFilter_spec hfl h
        (FilterList.prepareFilter_stubs hprepare)
  | getFrame h inputBufferLength index subIndex request =>
    obtain ⟨_, heq⟩ := FilterList.irpGetFrame_cases fl h
      inputBufferLength index subIndex request
    simp only [apply, heq, Sweep.ids_start, incoming, add_zero]
    exact ⟨⟨hfl.nodup, hfl.mem_links, hfl.not_null⟩, rfl⟩
  | setFrame h inputBufferLength index subIndex frame =>
    obtain ⟨hlinked, hstubs⟩ := FilterList.irpFrame_spec hfl h
      inputBufferLength FilterList.sizeofDataSetFrameIn
      (fun filter => fnIoSetFilteredFrame_stubs filter index subIndex frame)
    refine ⟨hlinked, ?_⟩
    simp only [apply, Sweep.ids_start, incoming, add_zero, FilterList.ids]
    exact congrArg _ hstubs
  | dequeueFrame h inputBufferLength index =>
    obtain ⟨hlinked, hstubs⟩ := FilterList.irpFrame_spec hfl h
      inputBufferLength FilterList.sizeofDataDequeueFrameIn
      (fun filter => fnIoDequeueFilteredFrame_stubs filter index)
    refine ⟨hlinked, ?_⟩
    simp only [apply, Sweep.ids_start, incoming, add_zero, FilterList.ids]
    exact congrArg _ hstubs
  | flush h =>
    simpa [apply, incoming] using FilterList.irpFlush_spec hfl h
  | capture env chain =>
    obtain ⟨hlinked, hids⟩ := FilterList.filterNbls_spec env chain.chain
      (s := Sweep.start fl) hfl
    refine ⟨hlinked, ?_⟩
    simp only [apply, FilterList.capture, hids, Sweep.ids_start, incoming]
    rfl
  | watchdog clock =>
    refine ⟨?_, ?_⟩
    · exact Sweep.wellLinked_watchdogLoop clock hfl.nodup
        (s := Sweep.start fl) hfl fun h hh => hh
    · simp only [apply, FilterList.watchdog, Sweep.ids_watchdogLoop,
        Sweep.ids_start, incoming, add_zero]
  | cleanup h =>
    simpa [apply, incoming] using FilterList.cleanup_spec hfl h

end Section

/-! ## Open handles -/

namespace FilterList

theorem isOpen_setFilter
    {fl : FilterList} {h : ℕ} {filter : DataFilter}
    (hfilter : fl.filter? h = some filter)
    (filter' : Option DataFilter) (pool : ContextPool) (h' : ℕ) :
    (fl.setFilter h filter' pool).isOpen h' = fl.isOpen h' := by
  by_cases hh : h' = h
  · subst hh
    simp [isOpen, setFilter, lookup_of_filter? hfilter]
  · simp [isOpen, setFilter, AList.lookup_insert_ne hh]

theorem isOpen_irpFrame
    (fl : FilterList) (h inputBufferLength size : ℕ)
    (body : DataFilter → NtStatus × DataFilter) (h' : ℕ) :
    (fl.irpFrame h inputBufferLength size body).2.isOpen h' = fl.isOpen h' := by
  rcases irpFrame_cases fl h inputBufferLength size body with
    heq | ⟨filter, hfilter, heq⟩
  · rw [heq]
  · rw [heq, isOpen_setFilter hfilter]

theorem isOpen_filterNbls
    (env : CaptureEnv) (nbls : List NetBufferList)
    {s : Sweep} (hs : s.filters.WellLinked) (h' : ℕ) :
    (filterNbls env nbls s).filters.isOpen h' = s.filters.isOpen h' := by
  induction nbls generalizing s with
  | nil => rfl
  | cons nbl rest ih =>
    unfold filterNbls
    rw [ih (wellLinked_filterNbl hs env nbl)]
    rcases filterNblLoop_cases env nbl s.filters
        fun h hh => (hs.mem_links h).mp hh with
      heq | ⟨h, filter, context, -, hfilter, -, heq⟩
    · simp [filterNbl, heq]
    · simp only [filterNbl, heq]
      exact isOpen_setFilter hfilter _ _ h'

end FilterList

theorem Sweep.isOpen_clearFilter (s : Sweep) (h h' : ℕ) :
    (s.clearFilter h).filters.isOpen h' = s.filters.isOpen h' := by
  unfold clearFilter
  simp only
  split
  · rfl
  · rename_i filter hfilter
    exact FilterList.isOpen_setFilter hfilter none _ h'

theorem Sweep.isOpen_watchdogLoop
    (clock : ℕ → UInt64 × UInt64) (handles : List ℕ) (s : Sweep) (h' : ℕ) :
    (watchdogLoop clock handles s).filters.isOpen h' = s.filters.isOpen h' := by
  induction handles generalizing s with
  | nil => rfl
  | cons h rest ih =>
    unfold watchdogLoop
    split
    · rfl
    · split
      · rfl
      · split
        · rfl
        · rw [ih, isOpen_clearFilter]
        · exact ih s

namespace Section

def openAfter (fl : FilterList) (h' : ℕ) : Section → Bool
  | create h => h' == h || fl.isOpen h'
  | cleanup h => h' != h && fl.isOpen h'
  | _ => fl.isOpen h'

def OnOpenHandle (fl : FilterList) : Section → Prop
  | filter h _ => fl.isOpen h = true
  | _ => True

theorem apply_isOpen
    {fl : FilterList} (hfl : fl.WellLinked) (sec : Section)
    (hopen : sec.OnOpenHandle fl) (h' : ℕ) :
    (sec.apply fl).2.filters.isOpen h' = sec.openAfter fl h' := by
  cases sec with
  | create h =>
    by_cases hh : h' = h
    · subst hh
      simp [apply, openAfter, Sweep.start, FilterList.create, FilterList.isOpen]
    · simp [apply, openAfter, Sweep.start, FilterList.create,
        FilterList.isOpen, hh, AList.lookup_insert_ne hh]
  | filter h request =>
    simp only [apply, openAfter]
    split
    · rfl
    · rename_i dataFilter hprepare
      have hclear := (Sweep.start fl).isOpen_clearFilter h h'
      cases dataFilter with
      | none => exact hclear
      | some filter =>
        by_cases hh : h' = h
        · subst hh
          have hopen : fl.isOpen h' = true := hopen
          rw [hopen]
          simp [FilterList.irpFilter, FilterList.isOpen]
        · have hstart : fl.isOpen h' = (Sweep.start fl).filters.isOpen h' := rfl
          rw [hstart, ← hclear]
          simp [FilterList.irpFilter, FilterList.isOpen,
            AList.lookup_insert_ne hh]
  | getFrame h inputBufferLength index subIndex request =>
    obtain ⟨_, heq⟩ := FilterList.irpGetFrame_cases fl h
      inputBufferLength index subIndex request
    simp only [apply, heq]
    rfl
  | setFrame h inputBufferLength index subIndex frame =>
    exact FilterList.isOpen_irpFrame fl h _ _ _ h'
  | dequeueFrame h inputBufferLength index =>
    exact FilterList.isOpen_irpFrame fl h inputBufferLength
      FilterList.sizeofDataDequeueFrameIn
      (fun filter => fnIoDequeueFilteredFrame filter index) h'
  | flush h =>
    simp only [apply, openAfter, FilterList.irpFlush]
    split
    · rfl
    · rename_i filter hfilter
      exact FilterList.isOpen_setFilter hfilter _ _ h'
  | capture env chain =>
    exact FilterList.isOpen_filterNbls env chain.chain
      (s := Sweep.start fl) hfl h'
  | watchdog clock => exact Sweep.isOpen_watchdogLoop clock fl.links _ h'
  | cleanup h =>
    have hclear := (Sweep.start fl).isOpen_clearFilter h h'
    by_cases hh : h' = h
    · subst hh
      simp [apply, openAfter, FilterList.cleanup, FilterList.isOpen]
    · have hstart : fl.isOpen h' = (Sweep.start fl).filters.isOpen h' := rfl
      simp only [openAfter, hstart, ← hclear]
      simp [apply, FilterList.cleanup, FilterList.isOpen, hh,
        AList.lookup_erase_ne hh]

end Section

end WinNetTest.Fnio
