import WinNetTest.Fnio.CaptureSafety

/-!
# Accepted NBLs and returning calls

Two further parts of the invariant.  The first identifies the NBLs that hold
references with those that were accepted and have not been handed back.  The
second says what a returning call leaves behind of the filters it has
cleared: their NBLs have been handed back, or a flush on the same handle that
is still running has them.
-/

namespace WinNetTest.Fnio

open Support

namespace CapturePath

/-! ## Accepted NBLs -/

/-- Captured NBLs and those of calls with references were accepted; where
references are released last, NBLs without one were refused. -/
structure Acceptance (d : Driver) (s : State) : Prop where
  nodup : s.accepted.Nodup
  lt : ∀ i ∈ s.accepted, i < s.received
  captured : ∀ i ∈ s.filters.ids, i ∈ s.accepted
  referenced : ∀ c call, s.calls.lookup c = some call →
    ∀ i ∈ call.phase.referenced, i ∈ s.accepted
  surrendered : d.releaseFirst = false →
    ∀ c call, s.calls.lookup c = some call →
      ∀ i ∈ call.phase.surrendered, i ∉ s.accepted

theorem acceptance_init (d : Driver) : Acceptance d init := by
  refine ⟨List.nodup_nil, ?_, ?_, ?_, ?_⟩
  · simp [init]
  · simp [init, FilterList.ids, FilterList.stubs, FilterList.empty]
  · simp [init]
  · simp [init]

variable {s t : State} {c i : ℕ} {call : Call}

theorem Contained.call_lt (hs : Contained s)
    (hcall : s.calls.lookup c = some call) (hi : i ∈ call.phase.ids) :
    i < s.received := by
  rw [← Multiset.mem_range, hs.partition]
  exact Multiset.mem_add.mpr (Or.inl (Multiset.mem_add.mpr
    (Or.inr (State.mem_callIds.mpr ⟨c, call, hcall, hi⟩))))

variable {d : Driver}

theorem Acceptance.settle (hs : Acceptance d s) (hcalls : t.calls = s.calls)
    (haccepted : t.accepted = s.accepted) (hreceived : s.received ≤ t.received)
    (hcaptured : ∀ i ∈ t.filters.ids, i ∈ s.accepted)
    (hreferenced : ∀ i ∈ call.phase.referenced, i ∈ s.accepted)
    (hsurrendered : d.releaseFirst = false →
      ∀ i ∈ call.phase.surrendered, i ∉ s.accepted) :
    Acceptance d (t.settle c call) := by
  refine ⟨?_, ?_, ?_, ?_, ?_⟩
  · simpa [haccepted] using hs.nodup
  · intro i hi
    rw [State.settle_accepted, haccepted] at hi
    rw [State.settle_received]
    exact lt_of_lt_of_le (hs.lt i hi) hreceived
  · simpa [haccepted] using hcaptured
  · intro c' call' hcall'
    rw [State.settle_accepted, haccepted]
    rcases State.lookup_settle hcall' with ⟨-, rfl⟩ | ⟨-, hold⟩
    · exact hreferenced
    · rw [hcalls] at hold
      exact hs.referenced c' call' hold
  · intro hd c' call' hcall'
    rw [State.settle_accepted, haccepted]
    rcases State.lookup_settle hcall' with ⟨-, rfl⟩ | ⟨-, hold⟩
    · exact hsurrendered hd
    · rw [hcalls] at hold
      exact hs.surrendered hd c' call' hold

theorem referenced_afterSection (queue : NblCountedQueue) :
    (afterSection queue).referenced = queue.ids := by
  unfold afterSection
  split
  · rename_i hempty
    rw [ids_eq_zero_of_isEmpty hempty]
    rfl
  · rfl

theorem surrendered_afterSection (queue : NblCountedQueue) :
    (afterSection queue).surrendered = 0 := by
  unfold afterSection
  split <;> rfl

variable {fl : FilterList}

theorem mem_of_apply (hfl : fl.WellLinked) (sec : Section)
    (hfresh : sec.Fresh fl)
    (hi : i ∈ (sec.apply fl).2.filters.ids ∨
      i ∈ (sec.apply fl).2.queue.ids) : i ∈ fl.ids ∨ i ∈ sec.incoming := by
  have hids := (Section.apply_spec hfl sec hfresh).2
  rw [← Multiset.mem_add, ← hids]
  exact Multiset.mem_add.mpr hi

theorem le_of_mem_arriving {nbls : List NetBufferList}
    (hi : i ∈ (arriving s nbls).ids) : s.received ≤ i := by
  simp only [NblCountedQueue.ids, map_id_arriving, Multiset.mem_coe,
    List.mem_range'_1] at hi
  exact hi.1

theorem Acceptance.step {label : Label} (hc : Contained s) (hs : Acceptance d s)
    (ht : Transition d s label t) : Acceptance d t := by
  cases ht with
  | @refused c declared nbls hfree =>
    refine hs.settle rfl rfl (by simp) hs.captured ?_ ?_
    · simp [Phase.referenced]
    · intro _ i hi hmem
      have hlt := hs.lt i hmem
      have hle := le_of_mem_arriving hi
      omega
  | @accepted c declared nbls rundown hfree hcount =>
    have hnew : ∀ i ∈ (arriving s nbls).chain.map NetBufferList.id,
        s.received ≤ i ∧ i < s.received + nbls.length := by
      intro i hi
      rw [map_id_arriving, List.mem_range'_1] at hi
      exact hi
    refine ⟨?_, ?_, ?_, ?_, ?_⟩
    · rw [State.settle_accepted]
      refine List.nodup_append.mpr ⟨hs.nodup, ?_, ?_⟩
      · rw [map_id_arriving]
        exact List.nodup_range'
      · rintro i hi j hj rfl
        have hlt := hs.lt i hi
        have hle := (hnew i hj).1
        omega
    · intro i hi
      rw [State.settle_accepted] at hi
      rw [State.settle_received]
      rcases List.mem_append.mp hi with hold | hi
      · exact lt_of_lt_of_le (hs.lt i hold) (Nat.le_add_right _ _)
      · exact (hnew i hi).2
    · intro i hi
      rw [State.settle_filters] at hi
      rw [State.settle_accepted]
      exact List.mem_append_left _ (hs.captured i hi)
    · intro c' call' hcall' i hi
      rw [State.settle_accepted]
      rcases State.lookup_settle hcall' with ⟨-, rfl⟩ | ⟨-, hold⟩
      · exact List.mem_append_right _ hi
      · exact List.mem_append_left _ (hs.referenced c' call' hold i hi)
    · intro hd c' call' hcall' i hi
      rw [State.settle_accepted]
      rcases State.lookup_settle hcall' with ⟨-, rfl⟩ | ⟨-, hold⟩
      · simp [Phase.surrendered] at hi
      · intro hmem
        rcases List.mem_append.mp hmem with haccepted | harriving
        · exact hs.surrendered hd c' call' hold i hi haccepted
        · have hlt := hc.call_lt hold (i := i)
            (Phase.mem_ids.mpr (Or.inr hi))
          have hle := (hnew i harriving).1
          omega
  | @transferLocked c env call chain hcall hentry hphase =>
    have hchain : ∀ i ∈ chain.ids, i ∈ s.accepted := by
      have h := hs.referenced c call hcall
      rw [hphase] at h
      exact h
    have hmem : ∀ i, i ∈ (s.filters.capture env chain).filters.ids ∨
        i ∈ (s.filters.capture env chain).queue.ids → i ∈ s.accepted := by
      intro i hi
      rcases mem_of_apply hc.linked (.capture env chain) trivial hi
        with hold | hnew
      · exact hs.captured i hold
      · exact hchain i hnew
    refine hs.settle rfl rfl le_rfl (fun i hi => hmem i (Or.inl hi)) ?_ ?_
    · intro i hi
      apply hmem i
      dsimp only at hi
      split at hi
      · exact Or.inr hi
      · rw [referenced_afterSection] at hi
        exact Or.inr hi
    · intro hd i hi
      simp [hd, surrendered_afterSection] at hi
  | @locked c sec hstart =>
    obtain ⟨hfree, hin, -, -, -, -⟩ := mayStart_spec hstart
    have hmem : ∀ i, i ∈ (sec.apply s.filters).2.filters.ids ∨
        i ∈ (sec.apply s.filters).2.queue.ids → i ∈ s.accepted := by
      intro i hi
      rcases mem_of_apply hc.linked sec (hc.fresh hstart) hi with hold | hnew
      · exact hs.captured i hold
      · simp [hin] at hnew
    unfold CapturePath.locked
    refine hs.settle rfl rfl le_rfl (fun i hi => hmem i (Or.inl hi)) ?_ ?_
    · intro i hi
      rw [referenced_afterSection] at hi
      exact hmem i (Or.inr hi)
    · intro _ i hi
      simp [surrendered_afterSection] at hi
  | completing | passing | completed =>
    refine hs.settle rfl rfl le_rfl hs.captured ?_ ?_ <;>
      simp [Phase.referenced, Phase.surrendered]
  | @releasing c call queue hcall hphase =>
    refine hs.settle rfl rfl le_rfl hs.captured ?_ ?_
    · dsimp only
      split <;> simp [Phase.referenced]
    · intro hd i hi
      have hold := hs.surrendered hd c call hcall
      rw [hphase] at hold
      dsimp only at hi
      split at hi
      · simp [Phase.surrendered] at hi
      · exact hold i hi
  | pause | restart =>
    exact ⟨hs.nodup, hs.lt, hs.captured, hs.referenced, hs.surrendered⟩

/-! ## References of accepted NBLs -/

def State.outstanding (s : State) : List ℕ :=
  s.accepted.filter fun i => i ∉ s.completed

theorem Contained.nodup (hs : Contained s) :
    (s.filters.ids + s.callIds + (s.completed : Multiset ℕ)).Nodup := by
  rw [← hs.partition]
  exact Multiset.nodup_range _

theorem referencedIds_le_callIds (s : State) : s.referencedIds ≤ s.callIds := by
  unfold State.referencedIds State.callIds State.sum
  apply Table.total_le_total
  intro _ call
  cases call.phase <;> simp [Phase.referenced]

theorem outstanding_eq (hd : d.releaseFirst = false) (hc : Contained s)
    (ha : Acceptance d s) :
    (s.outstanding : Multiset ℕ) = s.filters.ids + s.referencedIds := by
  have hnodup := hc.nodup
  obtain ⟨hheld, -, hdisjoint⟩ := Multiset.nodup_add.mp hnodup
  have hle : s.filters.ids + s.referencedIds ≤ s.filters.ids + s.callIds :=
    add_le_add le_rfl (referencedIds_le_callIds s)
  have hleft : (s.outstanding : Multiset ℕ).Nodup :=
    Multiset.coe_nodup.mpr (ha.nodup.filter _)
  refine (Multiset.Nodup.ext hleft (Multiset.nodup_of_le hle hheld)).mpr ?_
  intro i
  simp only [State.outstanding, Multiset.mem_coe, List.mem_filter,
    decide_eq_true_eq]
  constructor
  · rintro ⟨haccepted, hnot⟩
    have hrange := Multiset.mem_range.mpr (ha.lt i haccepted)
    rw [hc.partition] at hrange
    rcases Multiset.mem_add.mp hrange with hin | hcompleted
    · rcases Multiset.mem_add.mp hin with hfilters | hcalls
      · exact Multiset.mem_add.mpr (Or.inl hfilters)
      · obtain ⟨c, call, hcall, hi⟩ := State.mem_callIds.mp hcalls
        rcases Phase.mem_ids.mp hi with href | hsurrendered
        · exact Multiset.mem_add.mpr
            (Or.inr (State.mem_referencedIds.mpr ⟨c, call, hcall, href⟩))
        · exact absurd haccepted
            (ha.surrendered hd c call hcall i hsurrendered)
    · exact absurd (Multiset.mem_coe.mp hcompleted) hnot
  · intro hmem
    refine ⟨?_, ?_⟩
    · rcases Multiset.mem_add.mp hmem with hfilters | href
      · exact ha.captured i hfilters
      · obtain ⟨c, call, hcall, hi⟩ := State.mem_referencedIds.mp href
        exact ha.referenced c call hcall i hi
    · intro hcompleted
      exact Multiset.disjoint_left.mp hdisjoint
        (Multiset.mem_of_le hle hmem) (Multiset.mem_coe.mpr hcompleted)

theorem sum_references (s : State) : s.sum Phase.references =
      Multiset.card s.referencedIds + s.pendingRelease := by
  simp only [State.referencedIds, State.pendingRelease, State.sum,
    Table.card_total]
  exact Table.total_add _ _ _

theorem count_eq_outstanding (hd : d.releaseFirst = false) (hc : Contained s)
    (ha : Acceptance d s) (hcount : Counted s) (hfit : s.countsFit = true) :
    s.rundown.count = s.outstanding.length + s.pendingRelease := by
  have hcard := congrArg Multiset.card (outstanding_eq hd hc ha)
  rw [Multiset.coe_card, Multiset.card_add] at hcard
  rw [hcount hfit, sum_references, hcard, add_assoc]

/-! ## One place for every NBL -/

/-- The places of an NBL: the chain of a transfer, a queue of a filter, the
flush queue of another call, or back with NDIS. -/
inductive Place where
  | chain (c : ℕ)
  | nblQueue (h : ℕ)
  | nblReturn (h : ℕ)
  | flushQueue (c : ℕ)
  | completed
  deriving DecidableEq

def State.At (s : State) (i : ℕ) : Place → Prop
  | .chain c => ∃ call, s.calls.lookup c = some call ∧
      call.entry = .transfer ∧ i ∈ call.phase.ids
  | .nblQueue h => ∃ filter, s.filters.filter? h = some filter ∧
      i ∈ filter.nblQueue.ids
  | .nblReturn h => ∃ filter, s.filters.filter? h = some filter ∧
      i ∈ filter.nblReturn.ids
  | .flushQueue c => ∃ call, s.calls.lookup c = some call ∧
      call.entry ≠ .transfer ∧ i ∈ call.phase.ids
  | .completed => i ∈ s.completed

def State.located (s : State) : Multiset (Place × ℕ) :=
  Table.total
      (fun h filter => filter.elim 0 fun filter =>
        filter.nblQueue.ids.map (fun i => (Place.nblQueue h, i)) +
          filter.nblReturn.ids.map (fun i => (Place.nblReturn h, i)))
      s.filters.handles +
    Table.total
      (fun c call => call.phase.ids.map fun i =>
        (if call.entry = .transfer then Place.chain c else Place.flushQueue c,
          i))
      s.calls +
    (s.completed : Multiset ℕ).map fun i => (Place.completed, i)

theorem map_snd_located (s : State) : s.located.map Prod.snd =
      s.filters.ids + s.callIds + (s.completed : Multiset ℕ) := by
  have hfilters : ∀ (h : ℕ) (filter : Option DataFilter),
      (filter.elim 0 fun filter =>
        filter.nblQueue.ids.map (fun i => (Place.nblQueue h, i)) +
          filter.nblReturn.ids.map
            (fun i => (Place.nblReturn h, i))).map Prod.snd =
        (filter.elim 0 DataFilter.stubs).map Prod.fst := by
    intro h filter
    cases filter with
    | none => rfl
    | some filter =>
      simp [DataFilter.stubs, NblCountedQueue.ids_eq_stubs]
  simp only [State.located, Multiset.map_add, Table.map_total, hfilters,
    Multiset.map_map, Function.comp_def, Multiset.map_id', FilterList.ids,
    FilterList.stubs, State.callIds, State.sum]

theorem mem_located {p : Place} : (p, i) ∈ s.located ↔ s.At i p := by
  simp only [State.located, Multiset.mem_add, Table.mem_total,
    Multiset.mem_map, Prod.mk.injEq, Multiset.mem_coe]
  constructor
  · rintro ((⟨h, filter, hlookup, hmem⟩ | ⟨c, call, hcall, j, hj, rfl, rfl⟩) |
      ⟨j, hj, rfl, rfl⟩)
    · cases filter with
      | none => simp at hmem
      | some filter =>
        have hfilter : s.filters.filter? h = some filter := by
          simp [FilterList.filter?, hlookup]
        simp only [Option.elim_some, Multiset.mem_add, Multiset.mem_map,
          Prod.mk.injEq] at hmem
        rcases hmem with ⟨j, hj, rfl, rfl⟩ | ⟨j, hj, rfl, rfl⟩
        · exact ⟨filter, hfilter, hj⟩
        · exact ⟨filter, hfilter, hj⟩
    · split
      · rename_i hentry
        exact ⟨call, hcall, hentry, hj⟩
      · rename_i hentry
        exact ⟨call, hcall, hentry, hj⟩
    · exact hj
  · intro hat
    cases p with
    | chain c | flushQueue c =>
      obtain ⟨call, hcall, hentry, hi⟩ := hat
      exact Or.inl (Or.inr ⟨c, call, hcall, i, hi, by simp [hentry], rfl⟩)
    | nblQueue h | nblReturn h =>
      obtain ⟨filter, hfilter, hi⟩ := hat
      exact Or.inl (Or.inl ⟨h, some filter,
        FilterList.lookup_of_filter? hfilter, by simp [hi]⟩)
    | completed => exact Or.inr ⟨i, hat, rfl, rfl⟩

theorem Contained.existsUnique_place (hs : Contained s) (hi : i < s.received) :
    ∃! p, s.At i p := by
  have hnodup : (s.located.map Prod.snd).Nodup := by
    rw [map_snd_located]
    exact hs.nodup
  have hmem : i ∈ s.located.map Prod.snd := by
    rw [map_snd_located, ← hs.partition]
    exact Multiset.mem_range.mpr hi
  obtain ⟨⟨p, j⟩, hp, rfl⟩ := Multiset.mem_map.mp hmem
  refine ⟨p, mem_located.mp hp, ?_⟩
  intro q hq
  have heq := Multiset.inj_on_of_nodup_map hnodup _ (mem_located.mpr hq) _ hp rfl
  exact congrArg Prod.fst heq

/-! ## Returning calls -/

/-- The NBL has been handed back, or a flush on the handle has it. -/
def State.Gone (s : State) (h i : ℕ) : Prop :=
  i ∈ s.completed ∨
    ∃ c call, s.calls.lookup c = some call ∧ call.entry = .flush h ∧
      i ∈ call.phase.ids

/-- What has become of the captured NBLs: of filters in place, of filters a
running call has cleared, and of filters cleared by calls that have returned. -/
structure Tracked (s : State) : Prop where
  filters : s.filters.Tracks s.Gone
  calls : ∀ c call, s.calls.lookup c = some call →
    ∀ e ∈ call.cleared, ∀ i ∈ e.2, i ∈ call.phase.ids ∨ s.Gone e.1 i
  returned : ∀ call ∈ s.returned, ∀ e ∈ call.cleared, ∀ i ∈ e.2, s.Gone e.1 i
  cleanups : ∀ c call h, s.calls.lookup c = some call →
    call.entry = .cleanup h →
      ∀ e ∈ call.cleared, ∀ i ∈ e.2, i ∈ call.phase.ids ∨ i ∈ s.completed
  returnedCleanups : ∀ call ∈ s.returned, ∀ h, call.entry = .cleanup h →
    ∀ e ∈ call.cleared, ∀ i ∈ e.2, i ∈ s.completed

theorem tracked_init : Tracked init := by
  refine ⟨?_, ?_, ?_, ?_, ?_⟩
  · intro h filter hfilter
    simp [init, FilterList.empty, FilterList.filter?] at hfilter
  · simp [init]
  · simp [init]
  · simp [init]
  · simp [init]

theorem Tracked.settle (hs : Tracked s) (hcalls : t.calls = s.calls)
    (hreturned : t.returned = s.returned)
    (hcompleted : ∀ i ∈ s.completed, i ∈ t.completed)
    (hown : ∀ old h, s.calls.lookup c = some old → old.entry = .flush h →
      ∀ i ∈ old.phase.ids,
        i ∈ t.completed ∨ call.entry = .flush h ∧ i ∈ call.phase.ids)
    (hfilters : t.filters.Tracks fun h i =>
      s.Gone h i ∨ call.entry = .flush h ∧ i ∈ call.phase.ids)
    (hcleared : ∀ e ∈ call.cleared, ∀ i ∈ e.2,
      i ∈ call.phase.ids ∨ s.Gone e.1 i ∨ i ∈ t.completed)
    (hcleanup : ∀ h, call.entry = .cleanup h → ∀ e ∈ call.cleared, ∀ i ∈ e.2,
        i ∈ call.phase.ids ∨ i ∈ t.completed) : Tracked (t.settle c call) := by
  have hdone : ∀ h i, i ∈ t.completed → (t.settle c call).Gone h i := by
    intro h i hi
    left
    rwa [State.settle_completed]
  have hself : ∀ h i, call.entry = .flush h → i ∈ call.phase.ids →
      (t.settle c call).Gone h i := by
    intro h i hentry hi
    have hphase : call.phase ≠ .finished := by
      intro hfinished
      simp [hfinished] at hi
    exact Or.inr ⟨c, call, t.lookup_settle_self c hphase, hentry, hi⟩
  have hmono : ∀ h i, s.Gone h i → (t.settle c call).Gone h i := by
    rintro h i (hold | ⟨c', call', hlookup, hentry, hi⟩)
    · exact hdone h i (hcompleted i hold)
    · by_cases hc : c' = c
      · subst hc
        rcases hown call' h hlookup hentry i hi with hin | ⟨hflush, hin⟩
        · exact hdone h i hin
        · exact hself h i hflush hin
      · right
        refine ⟨c', call', ?_, hentry, hi⟩
        rw [State.lookup_settle_ne t call hc, hcalls]
        exact hlookup
  have hcleared' : ∀ e ∈ call.cleared, ∀ i ∈ e.2,
      i ∈ call.phase.ids ∨ (t.settle c call).Gone e.1 i := by
    intro e he i hi
    rcases hcleared e he i hi with hin | hgone | hin
    · exact Or.inl hin
    · exact Or.inr (hmono e.1 i hgone)
    · exact Or.inr (hdone e.1 i hin)
  refine ⟨?_, ?_, ?_, ?_, ?_⟩
  · rw [State.settle_filters]
    apply hfilters.mono
    rintro h i (hgone | ⟨hentry, hi⟩)
    · exact hmono h i hgone
    · exact hself h i hentry hi
  · intro c' call' hcall' e he i hi
    rcases State.lookup_settle hcall' with ⟨-, rfl⟩ | ⟨-, hold⟩
    · exact hcleared' e he i hi
    · rw [hcalls] at hold
      exact (hs.calls c' call' hold e he i hi).imp_right (hmono e.1 i)
  · intro call' hcall' e he i hi
    rcases State.mem_returned_settle hcall' with hold | ⟨rfl, hphase⟩
    · rw [hreturned] at hold
      exact hmono e.1 i (hs.returned call' hold e he i hi)
    · rcases hcleared' e he i hi with hin | hgone
      · simp [hphase] at hin
      · exact hgone
  · intro c' call' h hcall' hentry e he i hi
    rw [State.settle_completed]
    rcases State.lookup_settle hcall' with ⟨-, rfl⟩ | ⟨-, hold⟩
    · exact hcleanup h hentry e he i hi
    · rw [hcalls] at hold
      exact (hs.cleanups c' call' h hold hentry e he i hi).imp_right
        (hcompleted i)
  · intro call' hcall' h hentry e he i hi
    rw [State.settle_completed]
    rcases State.mem_returned_settle hcall' with hold | ⟨rfl, hphase⟩
    · rw [hreturned] at hold
      exact hcompleted i (hs.returnedCleanups call' hold h hentry e he i hi)
    · rcases hcleanup h hentry e he i hi with hin | hin
      · simp [hphase] at hin
      · exact hin

theorem Tracked.advance {phase : Phase} (hs : Tracked s)
    (hcalls : t.calls = s.calls) (hreturned : t.returned = s.returned)
    (hfilters : t.filters = s.filters)
    (hcompleted : ∀ i ∈ s.completed, i ∈ t.completed)
    (hcall : s.calls.lookup c = some call)
    (hids : ∀ i ∈ call.phase.ids, i ∈ phase.ids ∨ i ∈ t.completed) :
    Tracked (t.settle c { call with phase := phase }) := by
  refine hs.settle hcalls hreturned hcompleted ?_ ?_ ?_ ?_
  · intro old h hold hentry i hi
    rw [hcall] at hold
    cases hold
    exact (hids i hi).symm.imp_right fun hin => ⟨hentry, hin⟩
  · rw [hfilters]
    exact hs.filters.mono fun h i => Or.inl
  · intro e he i hi
    rcases hs.calls c call hcall e he i hi with hin | hgone
    · exact (hids i hin).imp_right Or.inr
    · exact Or.inr (Or.inl hgone)
  · intro h hentry e he i hi
    rcases hs.cleanups c call h hcall hentry e he i hi with hin | hin
    · exact hids i hin
    · exact Or.inr (hcompleted i hin)

theorem Tracked.transfer {status : NtStatus} {phase : Phase} (hs : Tracked s)
    (hcalls : t.calls = s.calls) (hreturned : t.returned = s.returned)
    (hcompleted : t.completed = s.completed)
    (hown : ∀ old h, s.calls.lookup c = some old → old.entry ≠ .flush h)
    (hfilters : t.filters.Tracks s.Gone) :
    Tracked (t.settle c ⟨.transfer, status, [], phase⟩) := by
  refine hs.settle hcalls hreturned (fun i hi => hcompleted ▸ hi) ?_ ?_ ?_ ?_
  · intro old h hold hentry
    exact absurd hentry (hown old h hold)
  · exact hfilters.mono fun h i => Or.inl
  · simp
  · simp

theorem cleared_cleanup {h : ℕ} {e : ℕ × List ℕ}
    (he : e ∈ (fl.cleanup h).cleared) : e.1 = h := by
  unfold FilterList.cleanup Sweep.clearFilter at he
  simp only at he
  split at he
  · simp [Sweep.start] at he
  · simp only [Sweep.start, List.nil_append, List.mem_singleton] at he
    rw [he]

theorem Tracked.step {label : Label} (hc : Contained s) (hs : Tracked s)
    (ht : Transition d s label t) : Tracked t := by
  cases ht with
  | @refused c declared nbls hfree | @accepted c declared nbls rundown hfree =>
    exact hs.transfer rfl rfl rfl (by simp [hfree]) hs.filters
  | @transferLocked c env call chain hcall hentry hphase =>
    refine hs.transfer rfl rfl rfl ?_ ?_
    · intro old h hold
      rw [hcall] at hold
      cases hold
      simp [hentry]
    · exact (FilterList.filterNbls_tracks env chain.chain
        (s := Sweep.start s.filters) hc.linked hs.filters rfl).1
  | @locked c sec hstart =>
    obtain ⟨hfree, -, -, -, -, hclose⟩ := mayStart_spec hstart
    obtain ⟨htracks, hcleared⟩ :=
      Section.apply_tracks hc.linked hs.filters sec
    unfold CapturePath.locked
    refine hs.settle rfl rfl (fun i hi => hi) (by simp [hfree]) ?_ ?_ ?_
    · apply htracks.mono
      rintro h i (hgone | ⟨hflush, hi⟩)
      · exact Or.inl hgone
      · right
        rw [ids_afterSection]
        refine ⟨?_, hi⟩
        cases sec <;> simp_all [Section.FlushesOn, Entry.ofSection]
    · intro e he i hi
      rw [ids_afterSection]
      rcases hcleared e he i hi with hin | hgone | ⟨-, hin⟩
      · exact Or.inl hin
      · exact Or.inr (Or.inl hgone)
      · exact Or.inl hin
    · intro h hentry e he i hi
      rw [ids_afterSection]
      cases sec with
      | cleanup k =>
        obtain ⟨-, hidle⟩ := hclose k rfl
        have hk : e.1 = k := cleared_cleanup he
        rcases hcleared e he i hi with hin | hgone | ⟨-, hin⟩
        · exact Or.inl hin
        · rcases hgone with hdone | ⟨c', call', hcall', hflush, -⟩
          · exact Or.inr hdone
          · have hbusy := hidle c' call' hcall'
            rw [hflush, hk] at hbusy
            exact absurd rfl hbusy
        · exact Or.inl hin
      | _ => simp [Entry.ofSection] at hentry
  | @completing c call queue hcall hphase
  | @passing c call queue hcall hphase =>
    refine hs.advance rfl rfl rfl ?_ hcall ?_
    · intro i hi
      exact List.mem_append_left _ hi
    · intro i hi
      rw [hphase] at hi
      exact Or.inr (List.mem_append_right _ hi)
  | @completed c call count hcall hphase =>
    refine hs.advance rfl rfl rfl (fun i hi => hi) hcall ?_
    intro i hi
    simp [hphase] at hi
  | @releasing c call queue hcall hphase =>
    refine hs.advance rfl rfl rfl (fun i hi => hi) hcall ?_
    intro i hi
    rw [hphase, Phase.ids_releasing] at hi
    left
    split
    · rename_i hempty
      simp [ids_eq_zero_of_isEmpty hempty] at hi
    · exact hi
  | pause | restart =>
    exact ⟨hs.filters, hs.calls, hs.returned, hs.cleanups, hs.returnedCleanups⟩

/-! ## The invariant of every run -/

structure Invariant (d : Driver) (s : State) : Prop where
  contained : Contained s
  counted : Counted s
  acceptance : Acceptance d s
  tracked : Tracked s

theorem invariant_of_reachable (hs : (machine d).Reachable s) :
    Invariant d s := by
  refine Machine.Reachable.invariant ?_ ?_ hs
  · exact ⟨contained_init, fun _ => rfl, acceptance_init d, tracked_init⟩
  · intro s label t hinv hstep
    have ht := transition_of_step hstep
    exact ⟨hinv.contained.step ht, hinv.counted.step hinv.contained ht,
      hinv.acceptance.step hinv.contained ht,
      hinv.tracked.step hinv.contained ht⟩

end CapturePath

end WinNetTest.Fnio
