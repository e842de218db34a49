import WinNetTest.Fnio.CaptureAccounting

/-!
# The order of uncaptured NBLs

The NBLs of a chain that no filter captures are passed on in the order in
which they arrived.  To say so, the runs of the capture path are observed: the
history keeps the chains that arrived and the NBLs that some filter has held.
-/

namespace WinNetTest.Fnio

open Support

namespace CapturePath

/-! ## The history -/

/-- The chains received so far, as the identities of their NBLs, and the NBLs
that a filter has held. -/
structure History where
  chains : List (List ℕ)
  captured : Multiset ℕ

def History.empty : History := ⟨[], 0⟩

def arrivals (s : State) : Label → List (List ℕ)
  | .receive _ _ nbls => [List.range' s.received nbls.length]
  | _ => []

def record (s : State) (label : Label) (t : State) (h : History) : History :=
  ⟨h.chains ++ arrivals s label, h.captured ∪ t.filters.ids⟩

def observed (d : Driver) : Machine (State × History) Label :=
  (machine d).observe .empty record

/-- The NBLs of a chain, among those handed back, that no filter has held, in
the order in which they were handed back. -/
def uncaptured (h : History) (chain completed : List ℕ) : List ℕ :=
  completed.filter fun i => i ∈ chain ∧ i ∉ h.captured

theorem uncaptured_append (h : History) (chain l l' : List ℕ) :
    uncaptured h chain (l ++ l') =
      uncaptured h chain l ++ uncaptured h chain l' :=
  List.filter_append _ _

variable {h h' : History} {queue : NblCountedQueue} {chain : List ℕ}

theorem uncaptured_eq_nil {l : List ℕ}
    (hnone : ∀ i ∈ l, i ∈ chain → i ∈ h.captured) :
    uncaptured h chain l = [] := by
  rw [uncaptured, List.filter_eq_nil_iff]
  intro i hi huncaptured
  simp only [decide_eq_true_eq] at huncaptured
  exact huncaptured.2 (hnone i hi huncaptured.1)

/-! ## The invariant -/

def Phase.queue? : Phase → Option NblCountedQueue
  | accepted chain => some chain
  | completing queue => some queue
  | releasing queue => some queue
  | passing queue => some queue
  | completed _ => none
  | finished => none

theorem Phase.mem_ids_of_queue? {phase : Phase}
    (h : phase.queue? = some queue) : phase.ids = queue.ids := by
  cases phase <;> cases h <;> rfl

/-- A transfer has a part of one chain in hand, in order, with all its NBLs that
no filter has held. -/
structure HoldsPart (h : History) (entry : Entry) (queue : NblCountedQueue) :
    Prop where
  flushed : entry ≠ .transfer → ∀ i ∈ queue.ids, i ∈ h.captured
  part : entry = .transfer → ∃ chain ∈ h.chains,
    (queue.chain.map NetBufferList.id).Sublist chain ∧
      ∀ i ∈ chain, i ∉ h.captured → i ∈ queue.ids

structure Ordered (s : State) (h : History) : Prop where
  captured : ∀ i ∈ s.filters.ids, i ∈ h.captured
  chains_lt : ∀ chain ∈ h.chains, ∀ i ∈ chain, i < s.received
  disjoint : h.chains.Pairwise List.Disjoint
  calls : ∀ c call, s.calls.lookup c = some call →
    ∀ queue ∈ call.phase.queue?, HoldsPart h call.entry queue
  order : ∀ chain ∈ h.chains, (uncaptured h chain s.completed).Sublist chain

theorem ordered_init : Ordered init .empty := by
  refine ⟨?_, by simp [History.empty], List.Pairwise.nil, by simp [init],
    by simp [History.empty]⟩
  simp [init, FilterList.ids, FilterList.stubs, FilterList.empty]

structure History.Extends (h h' : History) : Prop where
  chains : ∀ chain ∈ h.chains, chain ∈ h'.chains
  captured : ∀ i ∈ h.captured, i ∈ h'.captured

theorem extends_record (s : State) (label : Label) (t : State) (h : History) :
    h.Extends (record s label t h) :=
  ⟨fun _ hchain => List.mem_append_left _ hchain,
    fun _ hi => Multiset.mem_union.mpr (Or.inl hi)⟩

theorem HoldsPart.mono (hext : h.Extends h') {entry : Entry}
    (hp : HoldsPart h entry queue) :
    HoldsPart h' entry queue := by
  refine ⟨fun hentry i hi => hext.captured i (hp.flushed hentry i hi), ?_⟩
  intro hentry
  obtain ⟨chain, hchain, hsublist, hall⟩ := hp.part hentry
  exact ⟨chain, hext.chains chain hchain, hsublist, fun i hi hnot =>
    hall i hi fun hc => hnot (hext.captured i hc)⟩

theorem uncaptured_sublist_of_extends (hext : h.Extends h')
    (chain completed : List ℕ) :
    (uncaptured h' chain completed).Sublist (uncaptured h chain completed) := by
  refine List.monotone_filter_right completed ?_
  intro i hi
  simp only [decide_eq_true_eq] at hi ⊢
  exact ⟨hi.1, fun hc => hi.2 (hext.captured i hc)⟩

variable {s t : State} {call : Call}

section

variable (hs : Ordered s h)

include hs

theorem Ordered.settle {c : ℕ} (hext : h.Extends h')
    (hchains : h'.chains = h.chains)
    (hfilters : ∀ i ∈ t.filters.ids, i ∈ h'.captured)
    (hcalls : t.calls = s.calls) (hreceived : t.received = s.received)
    (hcall : ∀ queue ∈ call.phase.queue?, HoldsPart h' call.entry queue)
    (horder : ∀ chain ∈ h.chains,
      (uncaptured h chain t.completed).Sublist chain) :
    Ordered (t.settle c call) h' := by
  refine ⟨by simpa using hfilters, ?_, hchains ▸ hs.disjoint, ?_, ?_⟩
  · rw [hchains, State.settle_received, hreceived]
    exact hs.chains_lt
  · intro c' call' hlookup
    rcases State.lookup_settle hlookup with ⟨-, rfl⟩ | ⟨-, hold⟩
    · exact hcall
    · rw [hcalls] at hold
      exact fun queue hqueue => (hs.calls c' call' hold queue hqueue).mono hext
  · intro chain hchain
    rw [hchains] at hchain
    rw [State.settle_completed]
    exact (uncaptured_sublist_of_extends hext chain _).trans
      (horder chain hchain)

theorem Ordered.recorded (hext : h.Extends h') (hchains : h'.chains = h.chains)
    (hfilters : ∀ i ∈ t.filters.ids, i ∈ h'.captured)
    (hcalls : t.calls = s.calls) (hreceived : t.received = s.received)
    (hcompleted : t.completed = s.completed) : Ordered t h' := by
  refine ⟨hfilters, ?_, hchains ▸ hs.disjoint, ?_, ?_⟩
  · rw [hchains, hreceived]
    exact hs.chains_lt
  · intro c call hcall queue hqueue
    rw [hcalls] at hcall
    exact (hs.calls c call hcall queue hqueue).mono hext
  · intro chain hchain
    rw [hchains] at hchain
    rw [hcompleted]
    exact (uncaptured_sublist_of_extends hext chain _).trans
      (hs.order chain hchain)

theorem Ordered.handBack (hc : Contained s) {c : ℕ}
    (hcall : s.calls.lookup c = some call)
    (hqueue : call.phase.queue? = some queue) (hchain : chain ∈ h.chains) :
    (uncaptured h chain
      (s.completed ++ queue.chain.map NetBufferList.id)).Sublist chain := by
  have hpart := hs.calls c call hcall queue hqueue
  have hold := hs.order chain hchain
  have hsymm : Std.Symm (@List.Disjoint ℕ) := ⟨fun _ _ hd => hd.symm⟩
  rw [uncaptured_append]
  by_cases hentry : call.entry = .transfer
  · obtain ⟨own, hown, hsublist, hall⟩ := hpart.part hentry
    by_cases heq : chain = own
    · subst heq
      rw [uncaptured_eq_nil (l := s.completed), List.nil_append]
      · exact List.filter_sublist.trans hsublist
      · intro i hi hmem
        by_contra hnot
        have hin : i ∈ s.callIds := State.mem_callIds.mpr
          ⟨c, call, hcall, by
            rw [Phase.mem_ids_of_queue? hqueue]
            exact hall i hmem hnot⟩
        exact Multiset.disjoint_left.mp (Multiset.nodup_add.mp hc.nodup).2.2
          (Multiset.mem_add.mpr (Or.inr hin)) (Multiset.mem_coe.mpr hi)
    · have hdisjoint := hs.disjoint.forall hchain hown heq
      rw [uncaptured_eq_nil (l := queue.chain.map NetBufferList.id),
        List.append_nil]
      · exact hold
      · intro i hi hmem
        exact absurd (hsublist.subset hi) (hdisjoint hmem)
  · rw [uncaptured_eq_nil (l := queue.chain.map NetBufferList.id),
      List.append_nil]
    · exact hold
    · intro i hi _
      exact hpart.flushed hentry i hi

theorem Ordered.arrive {label : Label} (hc : Contained s)
    (nbls : List NetBufferList)
    (harrivals : arrivals s label = [List.range' s.received nbls.length])
    (hcalls : t.calls = s.calls) (hcompleted : t.completed = s.completed)
    (hreceived : t.received = s.received + nbls.length) (c : ℕ)
    (hentry : call.entry = .transfer)
    (hqueue : call.phase.queue? = some (arriving s nbls)) :
    Ordered (t.settle c call) (record s label (t.settle c call) h) := by
  have hext := extends_record s label (t.settle c call) h
  have hchains : (record s label (t.settle c call) h).chains =
      h.chains ++ [List.range' s.received nbls.length] := by
    rw [record, harrivals]
  refine ⟨?_, ?_, ?_, ?_, ?_⟩
  · intro i hi
    exact Multiset.mem_union.mpr (Or.inr hi)
  · intro chain hchain i hi
    rw [State.settle_received, hreceived]
    rw [hchains, List.mem_append, List.mem_singleton] at hchain
    rcases hchain with hold | rfl
    · exact (hs.chains_lt chain hold i hi).trans_le (Nat.le_add_right _ _)
    · exact (List.mem_range'_1.mp hi).2
  · rw [hchains, List.pairwise_append]
    refine ⟨hs.disjoint, List.pairwise_singleton _ _, ?_⟩
    intro chain hold chain' hnew i hi hi'
    rw [List.mem_singleton.mp hnew] at hi'
    have hlt := hs.chains_lt chain hold i hi
    have hge := (List.mem_range'_1.mp hi').1
    omega
  · intro c' call' hlookup queue hin
    rcases State.lookup_settle hlookup with ⟨-, rfl⟩ | ⟨-, hold⟩
    · rw [hqueue] at hin
      cases hin
      refine ⟨fun hne => absurd hentry hne, fun _ => ?_⟩
      refine ⟨_, hchains ▸ List.mem_append_right _ (List.mem_singleton_self _),
        (map_id_arriving s nbls).symm ▸ List.Sublist.refl _, ?_⟩
      intro i hi _
      rw [NblCountedQueue.ids, map_id_arriving]
      exact Multiset.mem_coe.mpr hi
    · rw [hcalls] at hold
      exact (hs.calls c' call' hold queue hin).mono hext
  · intro chain hchain
    rw [State.settle_completed, hcompleted]
    rw [hchains, List.mem_append, List.mem_singleton] at hchain
    refine (uncaptured_sublist_of_extends hext chain _).trans ?_
    rcases hchain with hold | rfl
    · exact hs.order chain hold
    · rw [uncaptured_eq_nil]
      · exact List.nil_sublist _
      · intro i hi hmem
        have hge := (List.mem_range'_1.mp hmem).1
        have hlt : i ∈ Multiset.range s.received := by
          rw [hc.partition]
          exact Multiset.mem_add.mpr (Or.inr (Multiset.mem_coe.mpr hi))
        rw [Multiset.mem_range] at hlt
        omega

end

/-! ## Steps -/

theorem filterNbls_queue_sublist (env : CaptureEnv)
    (nbls : List NetBufferList) (s : Sweep) :
    ((FilterList.filterNbls env nbls s).queue.chain.map
      NetBufferList.id).Sublist
        (s.queue.chain.map NetBufferList.id ++ nbls.map NetBufferList.id) := by
  induction nbls generalizing s with
  | nil => simp [FilterList.filterNbls]
  | cons nbl rest ih =>
    unfold FilterList.filterNbls
    refine (ih _).trans ?_
    simp only [List.map_cons]
    split
    · exact (List.sublist_cons_self _ _).append_left _
    · simp [NblCountedQueue.appendSingleNbl]

theorem capture_queue {fl : FilterList} (hfl : fl.WellLinked)
    (env : CaptureEnv) (chain : NblCountedQueue) :
    ((fl.capture env chain).queue.chain.map NetBufferList.id).Sublist
        (chain.chain.map NetBufferList.id) ∧
      ∀ i ∈ chain.ids, i ∉ (fl.capture env chain).filters.ids →
        i ∈ (fl.capture env chain).queue.ids := by
  have hids := (FilterList.filterNbls_spec env chain.chain
    (s := .start fl) hfl).2
  refine ⟨filterNbls_queue_sublist env chain.chain (.start fl), ?_⟩
  intro i hi hnot
  have hmem : i ∈ (FilterList.filterNbls env chain.chain (.start fl)).ids := by
    rw [hids]
    exact Multiset.mem_add.mpr (Or.inr hi)
  exact (Multiset.mem_add.mp hmem).resolve_left hnot

theorem queue?_afterSection {queue' : NblCountedQueue}
    (h : (afterSection queue).queue? = some queue') : queue' = queue := by
  unfold afterSection at h
  split at h <;> cases h
  rfl

theorem Ordered.step {d : Driver} {label : Label} (hc : Contained s)
    (hs : Ordered s h) (ht : Transition d s label t) :
    Ordered t (record s label t h) := by
  have hext := extends_record s label t h
  have hfilters : ∀ i ∈ t.filters.ids,
      i ∈ (record s label t h).captured := fun i hi =>
    Multiset.mem_union.mpr (Or.inr hi)
  cases ht with
  | @refused c declared nbls | @accepted c declared nbls =>
    refine hs.arrive hc nbls ?_ ?_ ?_ ?_ c ?_ ?_ <;> rfl
  | @transferLocked c env call chain hcall hentry hphase =>
    obtain ⟨own, hown, hsublist, hall⟩ :=
      (hs.calls c call hcall chain (by rw [hphase]; rfl)).part hentry
    obtain ⟨hqueue, hrest⟩ := capture_queue hc.linked env chain
    refine hs.settle hext (List.append_nil _)
      (by simpa [CapturePath.transferLocked] using hfilters) rfl rfl ?_
      hs.order
    intro queue hin
    have heq : queue = (s.filters.capture env chain).queue := by
      simp only at hin
      split at hin
      · cases hin
        rfl
      · exact queue?_afterSection hin
    subst heq
    refine ⟨fun hne => absurd rfl hne, fun _ => ?_⟩
    refine ⟨own, hext.chains own hown, hqueue.trans hsublist, ?_⟩
    intro i hi hnot
    refine hrest i (hall i hi fun hi' => hnot (hext.captured i hi')) ?_
    intro hin
    exact hnot (hfilters i (by simpa [CapturePath.transferLocked] using hin))
  | @locked c sec hstart =>
    obtain ⟨-, hin, -, -, -, -⟩ := mayStart_spec hstart
    unfold CapturePath.locked at hext hfilters ⊢
    refine hs.settle hext (List.append_nil _) (by simpa using hfilters)
      rfl rfl ?_ hs.order
    intro queue hqueue
    obtain rfl := queue?_afterSection hqueue
    refine ⟨fun _ i hi => hext.captured i (hs.captured i ?_), ?_⟩
    · have hmem := mem_of_apply hc.linked sec (hc.fresh hstart) (Or.inr hi)
      simpa [hin] using hmem
    · intro hentry
      cases sec with
      | capture env chain => simp [mayStart] at hstart
      | _ => cases hentry
  | @completing c call queue hcall hphase
  | @passing c call queue hcall hphase =>
    refine hs.settle hext (List.append_nil _) (by simpa using hfilters) rfl rfl
      (by rintro _ ⟨⟩) fun chain hchain =>
        hs.handBack hc hcall (by rw [hphase]; rfl) hchain
  | @completed c call count hcall hphase =>
    exact hs.settle hext (List.append_nil _) (by simpa using hfilters) rfl rfl
      (by rintro _ ⟨⟩) hs.order
  | @releasing c call queue hcall hphase =>
    refine hs.settle hext (List.append_nil _) (by simpa using hfilters) rfl rfl
      ?_ hs.order
    intro queue' hqueue'
    have heq : queue' = queue := by
      simp only at hqueue'
      split at hqueue' <;> cases hqueue'
      rfl
    subst heq
    exact (hs.calls c call hcall queue' (by rw [hphase]; rfl)).mono hext
  | pause | restart =>
    exact hs.recorded hext (List.append_nil _) hfilters rfl rfl rfl

theorem uncaptured_sublist {d : Driver} {G : State → Label → Prop}
    {p : State × History} (hp : (observed d).ReachableWithin (fun p => G p.1) p)
    (hchain : chain ∈ p.2.chains) :
    (uncaptured p.2 chain p.1.completed).Sublist chain := by
  refine (Machine.ReachableWithin.observe_invariant (I := Ordered)
    ordered_init ?_ hp).order chain hchain
  intro s label t h hs ih _ hstep
  exact ih.step (invariant_of_reachable hs).contained (transition_of_step hstep)

end CapturePath

end WinNetTest.Fnio
