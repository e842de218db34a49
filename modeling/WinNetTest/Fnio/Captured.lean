import WinNetTest.Fnio.Conservation

/-!
# Following captured NBLs

A filter records every NBL it has captured.  Such an NBL is still in one of
the filter's queues or has left it, and what it means to have left is a
parameter here: a call on the same handle has flushed it, or it has been
completed.  The sections keep this, and a section that clears a filter
accounts for everything the filter had captured.
-/

namespace WinNetTest.Fnio

open Support

/-- Every NBL a filter has captured is still in it, or gone from its handle in
the given sense. -/
def FilterList.Tracks (fl : FilterList) (gone : ℕ → ℕ → Prop) : Prop :=
  ∀ h filter, fl.filter? h = some filter →
    ∀ i ∈ filter.captured, i ∈ filter.ids ∨ gone h i

/-- In addition, every NBL captured by a filter the section has cleared is in
the flush queue, or gone. -/
def Sweep.Tracks (s : Sweep) (gone : ℕ → ℕ → Prop) : Prop :=
  s.filters.Tracks gone ∧
    ∀ e ∈ s.cleared, ∀ i ∈ e.2, i ∈ s.queue.ids ∨ gone e.1 i

variable {fl : FilterList}

theorem FilterList.Tracks.mono {gone gone' : ℕ → ℕ → Prop} (h : fl.Tracks gone)
    (hgone : ∀ h i, gone h i → gone' h i) : fl.Tracks gone' := by
  intro k filter hfilter i hi
  exact (h k filter hfilter i hi).imp_right (hgone k i)

variable {gone : ℕ → ℕ → Prop}

theorem FilterList.Tracks.setFilter (htracks : fl.Tracks gone) (h : ℕ)
    {filter' : DataFilter} (pool : ContextPool)
    (hfilter' : ∀ i ∈ filter'.captured, i ∈ filter'.ids ∨ gone h i) :
    (fl.setFilter h (some filter') pool).Tracks gone := by
  intro k filter hfilter i hi
  by_cases hk : k = h
  · subst hk
    rw [FilterList.filter?_setFilter_self] at hfilter
    cases hfilter
    exact hfilter' i hi
  · rw [FilterList.filter?_setFilter_ne fl hk] at hfilter
    exact htracks k filter hfilter i hi

namespace Sweep

theorem tracks_start (h : fl.Tracks gone) : (start fl).Tracks gone :=
  ⟨h, by simp [start]⟩

theorem Tracks.clearFilter {s : Sweep} (hs : s.Tracks gone) (h : ℕ) :
    (s.clearFilter h).Tracks gone := by
  obtain ⟨hfilters, hcleared⟩ := hs
  refine ⟨?_, ?_⟩
  · intro k filter hfilter i hi
    by_cases hk : k = h
    · subst hk
      rw [clearFilter_filter?_self] at hfilter
      cases hfilter
    · rw [clearFilter_filter?_ne s hk] at hfilter
      exact hfilters k filter hfilter i hi
  · unfold Sweep.clearFilter
    simp only
    split
    · exact hcleared
    · rename_i filter hfilter
      simp only [fnIoFlushAllFrames, NblCountedQueue.ids_freeContexts,
        NblCountedQueue.ids_appendQueue]
      intro e he i hi
      rcases List.mem_append.mp he with hold | hnew
      · refine (hcleared e hold i hi).imp_left ?_
        intro hqueue
        exact Multiset.mem_add.mpr (Or.inl (Multiset.mem_add.mpr
          (Or.inl hqueue)))
      · rw [List.mem_singleton] at hnew
        subst hnew
        refine (hfilters h filter hfilter i hi).imp_left ?_
        intro hids
        rw [add_assoc]
        exact Multiset.mem_add.mpr (Or.inr hids)

theorem Tracks.watchdogLoop (clock : ℕ → UInt64 × UInt64) (handles : List ℕ)
    {s : Sweep} (hs : s.Tracks gone) :
    (watchdogLoop clock handles s).Tracks gone := by
  induction handles generalizing s with
  | nil => exact hs
  | cons h rest ih =>
    unfold Sweep.watchdogLoop
    split
    · exact hs
    · split
      · exact hs
      · split
        · exact hs
        · exact ih (hs.clearFilter h)
        · exact ih hs

end Sweep

namespace FilterList

variable {fl : FilterList} {gone : ℕ → ℕ → Prop}

theorem Tracks.filterNbl (hfl : fl.WellLinked) (htracks : fl.Tracks gone)
    (env : CaptureEnv) (nbl : NetBufferList) :
    (fl.filterNbl env nbl).2.Tracks gone := by
  rcases filterNblLoop_cases env nbl fl fun h hh => (hfl.mem_links h).mp hh with
    heq | ⟨h, filter, context, -, hfilter, -, heq⟩
  · simpa [FilterList.filterNbl, heq] using htracks
  · simp only [FilterList.filterNbl, heq]
    apply htracks.setFilter
    intro i hi
    simp only [DataFilter.capture, List.mem_append, List.mem_singleton] at hi
    simp only [DataFilter.ids, DataFilter.capture,
      NblCountedQueue.ids_appendSingleNbl, Multiset.mem_add,
      Multiset.mem_singleton, NetBufferList.fnIoFilterNblSetContext_id]
    rcases hi with hold | hnew
    · rcases htracks h filter hfilter i hold with hids | hgone
      · rcases Multiset.mem_add.mp hids with hqueue | hreturn
        · exact Or.inl (Or.inl (Or.inl hqueue))
        · exact Or.inl (Or.inr hreturn)
      · exact Or.inr hgone
    · exact Or.inl (Or.inl (Or.inr hnew))

theorem filterNbls_tracks (env : CaptureEnv) (nbls : List NetBufferList)
    {s : Sweep} (hlinked : s.filters.WellLinked) (hs : s.filters.Tracks gone)
    (hcleared : s.cleared = []) :
    (filterNbls env nbls s).Tracks gone := by
  induction nbls generalizing s with
  | nil =>
    refine ⟨hs, ?_⟩
    simp [filterNbls, hcleared]
  | cons nbl rest ih =>
    exact ih (wellLinked_filterNbl hlinked env nbl)
      (hs.filterNbl hlinked env nbl) hcleared

theorem Tracks.irpFrame (htracks : fl.Tracks gone)
    (h inputBufferLength size : ℕ) {body : DataFilter → NtStatus × DataFilter}
    (hstubs : ∀ filter, (body filter).2.stubs = filter.stubs)
    (hcaptured : ∀ filter, (body filter).2.captured = filter.captured) :
    (fl.irpFrame h inputBufferLength size body).2.Tracks gone := by
  rcases irpFrame_cases fl h inputBufferLength size body with
    heq | ⟨filter, hfilter, heq⟩
  · rw [heq]
    exact htracks
  · rw [heq]
    apply htracks.setFilter
    intro i hi
    rw [hcaptured] at hi
    rw [DataFilter.ids_eq_stubs, hstubs, ← DataFilter.ids_eq_stubs]
    exact htracks h filter hfilter i hi

theorem Tracks.irpFlush (htracks : fl.Tracks gone) (h : ℕ) :
    (fl.irpFlush h).Tracks fun k i =>
      gone k i ∨ k = h ∧ i ∈ (fl.irpFlush h).queue.ids := by
  unfold FilterList.irpFlush
  split
  · exact Sweep.tracks_start (htracks.mono fun k i hgone => Or.inl hgone)
  · rename_i filter hfilter
    refine ⟨?_, by simp⟩
    simp only
    apply FilterList.Tracks.setFilter
      (htracks.mono fun k i hgone => Or.inl hgone)
    intro i hi
    simp only [fnIoFlushDequeuedFrames, NblCountedQueue.ids_freeContexts,
      NblCountedQueue.ids_appendQueue, NblCountedQueue.ids_empty, zero_add,
      DataFilter.ids, add_zero] at hi ⊢
    rcases htracks h filter hfilter i hi with hids | hgone
    · rcases Multiset.mem_add.mp hids with hqueue | hreturn
      · exact Or.inl hqueue
      · exact Or.inr (Or.inr ⟨trivial, hreturn⟩)
    · exact Or.inr (Or.inl hgone)

variable {request : FilterRequest}

theorem prepareFilter_captured {filter : DataFilter}
    (h : prepareFilter request = .ok (some filter)) : filter.captured = [] := by
  rcases prepareFilter_cases h with ⟨-, hnone⟩ | ⟨filter', hsome, hcreate⟩
  · cases hnone
  · cases hsome
    exact (fnIoCreateFilter_queues hcreate).2.2

theorem Tracks.irpFilter (htracks : fl.Tracks gone) (h : ℕ)
    {dataFilter : Option DataFilter}
    (hprepare : prepareFilter request = .ok dataFilter) :
    (fl.irpFilter h dataFilter).Tracks gone := by
  have hclear := (Sweep.tracks_start htracks).clearFilter h
  cases dataFilter with
  | none => exact hclear
  | some filter =>
    refine ⟨?_, hclear.2⟩
    exact hclear.1.setFilter h ((Sweep.start fl).clearFilter h).filters.pool
      (by simp [prepareFilter_captured hprepare])

theorem Tracks.cleanup (htracks : fl.Tracks gone) (h : ℕ) :
    (fl.cleanup h).Tracks gone := by
  have hclear := (Sweep.tracks_start htracks).clearFilter h
  refine ⟨?_, hclear.2⟩
  intro k filter hfilter i hi
  unfold FilterList.cleanup at hfilter
  by_cases hk : k = h
  · subst hk
    simp [filter?] at hfilter
  · apply hclear.1 k filter _ i hi
    simpa [filter?, AList.lookup_erase_ne hk] using hfilter

end FilterList

namespace Section

def FlushesOn (h : ℕ) : Section → Prop
  | flush h' => h = h'
  | _ => False

theorem apply_tracks (hfl : fl.WellLinked) (htracks : fl.Tracks gone)
    (sec : Section) : (sec.apply fl).2.Tracks fun h i =>
      gone h i ∨ sec.FlushesOn h ∧ i ∈ (sec.apply fl).2.queue.ids := by
  have hmono : ∀ {s : Sweep} {gone' : ℕ → ℕ → Prop}, s.Tracks gone →
      s.Tracks fun h i => gone h i ∨ gone' h i := by
    intro s gone' hs
    refine ⟨hs.1.mono fun h i => Or.inl, ?_⟩
    intro e he i hi
    exact (hs.2 e he i hi).imp_right Or.inl
  cases sec with
  | create h =>
    apply hmono
    apply Sweep.tracks_start
    intro k filter hfilter i hi
    apply htracks k filter _ i hi
    by_cases hk : k = h
    · subst hk
      simp [FilterList.filter?, FilterList.create] at hfilter
    · simpa [FilterList.filter?, FilterList.create,
        AList.lookup_insert_ne hk] using hfilter
  | filter h request =>
    simp only [apply]
    split
    · exact hmono (Sweep.tracks_start htracks)
    · rename_i hprepare
      exact hmono (htracks.irpFilter h hprepare)
  | getFrame h inputBufferLength index subIndex request =>
    obtain ⟨_, heq⟩ := FilterList.irpGetFrame_cases fl h
      inputBufferLength index subIndex request
    simp only [apply, heq]
    exact hmono (Sweep.tracks_start htracks)
  | setFrame h inputBufferLength index subIndex frame =>
    exact hmono (Sweep.tracks_start (htracks.irpFrame h _ _
      (fun filter => fnIoSetFilteredFrame_stubs filter index subIndex frame)
      fun filter =>
        fnIoSetFilteredFrame_captured filter index subIndex frame))
  | dequeueFrame h inputBufferLength index =>
    exact hmono (Sweep.tracks_start (htracks.irpFrame h _ _
      (fun filter => fnIoDequeueFilteredFrame_stubs filter index)
      fun filter => rfl))
  | flush h => exact htracks.irpFlush h
  | capture env chain =>
    exact hmono (FilterList.filterNbls_tracks env chain.chain
      (s := Sweep.start fl) hfl htracks rfl)
  | watchdog clock =>
    exact hmono ((Sweep.tracks_start htracks).watchdogLoop clock fl.links)
  | cleanup h => exact hmono (htracks.cleanup h)

end Section

end WinNetTest.Fnio
