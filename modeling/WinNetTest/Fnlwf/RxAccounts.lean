import WinNetTest.Fnio.CaptureOrder
import WinNetTest.Fnlwf.Rx

/-!
# The accounts of FNLWF's receive path

Every NBL that NDIS indicates to the filter module is in one place at any
moment, uncaptured NBLs of a chain are indicated in their order, and the
references of the receive path are those of the NBLs that filters hold and of
the calls still running.
-/

namespace WinNetTest.Fnlwf

open Support Fnio Fnio.CapturePath Fnmp

/-! ## Conditions on runs -/

/-- NDIS declares the length of each chain, as a `ULONG`. -/
def DeclaredExact (_ : State) : Label → Prop
  | .receive _ declared nbls => declared = nbls.length ∧ declared < 2 ^ 32
  | _ => True

instance (s : State) (label : Label) : Decidable (DeclaredExact s label) :=
  match label with
  | .receive _ declared nbls =>
    inferInstanceAs (Decidable (declared = nbls.length ∧ declared < 2 ^ 32))
  | .transferLocked _ _ => isTrue trivial
  | .locked _ _ => isTrue trivial
  | .complete _ => isTrue trivial
  | .release _ => isTrue trivial
  | .pause => isTrue trivial
  | .restart => isTrue trivial

/-- No call gives back `2 ^ 32` or more captured NBLs at once. -/
def FlushesFit (s : State) : Label → Prop
  | .complete c => ∀ call, s.calls.lookup c = some call →
      ∀ queue, call.phase = .completing queue → queue.nblCount < 2 ^ 32
  | _ => True

/-! ## Counts that fit -/

structure CountsFit (s : State) : Prop where
  fit : s.countsFit = true
  accepted : ∀ c call, s.calls.lookup c = some call →
    ∀ chain, call.phase = .accepted chain → chain.nblCount < 2 ^ 32
  releasing : ∀ c call, s.calls.lookup c = some call →
    ∀ queue, call.phase = .releasing queue → queue.nblCount < 2 ^ 32

theorem CountsFit.settle {s t : State} {c : ℕ} {call : Call}
    (hs : CountsFit s) (hcalls : t.calls = s.calls)
    (hfit : t.countsFit = true)
    (haccepted : ∀ chain, call.phase = .accepted chain →
      chain.nblCount < 2 ^ 32)
    (hreleasing : ∀ queue, call.phase = .releasing queue →
      queue.nblCount < 2 ^ 32) : CountsFit (t.settle c call) := by
  refine ⟨by simpa using hfit, ?_, ?_⟩
  · intro c' call' hlookup
    rcases State.lookup_settle hlookup with ⟨-, rfl⟩ | ⟨-, hold⟩
    · exact haccepted
    · exact hs.accepted c' call' (hcalls ▸ hold)
  · intro c' call' hlookup
    rcases State.lookup_settle hlookup with ⟨-, rfl⟩ | ⟨-, hold⟩
    · exact hreleasing
    · exact hs.releasing c' call' (hcalls ▸ hold)

variable {n : ℕ}

theorem ulong_of_lt (h : n < 2 ^ 32) : ulong n = n :=
  Nat.mod_eq_of_lt h

theorem afterSection_cases (queue : NblCountedQueue) :
    afterSection queue = .finished ∨ afterSection queue = .completing queue := by
  unfold afterSection
  split
  · exact Or.inl rfl
  · exact Or.inr rfl

theorem CountsFit.step {s t : State} {label : Label} (hs : CountsFit s)
    (hexact : DeclaredExact s label) (hflushes : FlushesFit s label)
    (ht : Transition rxDriver s label t) : CountsFit t := by
  cases ht with
  | refused | passing | completed =>
    exact hs.settle rfl hs.fit (by rintro _ ⟨⟩) (by rintro _ ⟨⟩)
  | @accepted c declared nbls rundown hfree hcount =>
    have hlength : (arriving s nbls).nblCount = declared := by
      rw [(arriving s nbls).counted, ← List.length_map, map_id_arriving,
        List.length_range', hexact.1]
    refine hs.settle rfl ?_ ?_ (by rintro _ ⟨⟩)
    · simp [hs.fit, rxDriver, hlength]
    · rintro chain ⟨⟩
      exact hlength ▸ hexact.2
  | @transferLocked c env call chain hcall hentry hphase =>
    have hsmall := hs.accepted c call hcall chain hphase
    have hle := filterNbls_queue_sublist env chain.chain (.start s.filters)
    have hlength := hle.length_le
    refine hs.settle rfl hs.fit (by rintro _ ⟨⟩) ?_
    rintro queue ⟨⟩
    rw [NblCountedQueue.counted] at hsmall ⊢
    simp only [List.length_map, List.length_append, Sweep.start,
      NblCountedQueue.empty, List.length_nil, zero_add] at hlength
    exact hlength.trans_lt hsmall
  | @locked c sec hstart =>
    refine hs.settle rfl hs.fit ?_ ?_ <;>
      rcases afterSection_cases (sec.apply s.filters).2.queue with h | h <;>
      simp [h]
  | @completing c call queue hcall hphase =>
    have hsmall := hflushes call hcall queue hphase
    refine hs.settle rfl ?_ (by rintro _ ⟨⟩) (by rintro _ ⟨⟩)
    simp [State.converted, State.handBack, hs.fit, ulong_of_lt hsmall]
  | @releasing c call queue hcall hphase =>
    have hsmall := hs.releasing c call hcall queue hphase
    refine hs.settle rfl ?_ ?_ ?_
    · simp [State.converted, State.releaseCount, hs.fit, ulong_of_lt hsmall]
    · intro chain hchain
      simp only at hchain
      split at hchain <;> cases hchain
    · intro chain hchain
      simp only at hchain
      split at hchain <;> cases hchain
  | pause | restart => exact ⟨hs.fit, hs.accepted, hs.releasing⟩

variable {s : State}

theorem countsFit_of_reachableWithin
    (hs : rxMachine.ReachableWithin
      (fun s label => DeclaredExact s label ∧ FlushesFit s label) s) :
    s.countsFit = true := by
  have hfit : CountsFit s := by
    refine Machine.ReachableWithin.invariant ?_ ?_ hs
    · exact ⟨rfl, by simp [rxMachine, machine, init],
        by simp [rxMachine, machine, init]⟩
    · intro s label t ih hG hstep
      exact ih.step hG.1 hG.2 (transition_of_step hstep)
  exact hfit.fit

/-! ## The accounts -/

structure ReceivePathConserved (s : State) (h : History) : Prop where
  /-- Every NBL received is in the chain of one transfer, in one queue of one
  filter, in the private queue of one call, or has been indicated. -/
  onePlace : ∀ i < s.received, ∃! p, s.At i p
  /-- No NBL is indicated twice. -/
  indicatedOnce : s.completed.Nodup
  /-- The uncaptured NBLs of a chain are indicated in their order. -/
  order : ∀ chain ∈ h.chains, (uncaptured h chain s.completed).Sublist chain
  /-- The references outstanding, as long as no flush is too long, are those of
  the NBLs held by filters and of the running calls. -/
  references : rxMachine.ReachableWithin
      (fun s label => DeclaredExact s label ∧ FlushesFit s label) s →
    s.rundown.count = Multiset.card s.filters.ids + s.sum Phase.references
  /-- When no call is running they are those of the NBLs held by filters. -/
  idle : rxMachine.ReachableWithin
      (fun s label => DeclaredExact s label ∧ FlushesFit s label) s →
    s.calls = ∅ → s.rundown.count = Multiset.card s.filters.ids

/-- The accounts are right in every state of every interleaving in which NDIS
declares the lengths of its chains. -/
theorem receivePath_conserved (p : State × History)
    (hp : (observed rxDriver).ReachableWithin (fun p => DeclaredExact p.1) p) :
    ReceivePathConserved p.1 p.2 := by
  have hinv := invariant_of_reachable hp.of_observe.reachable
  have hreferences : rxMachine.ReachableWithin
      (fun s label => DeclaredExact s label ∧ FlushesFit s label) p.1 →
      p.1.rundown.count =
        Multiset.card p.1.filters.ids + p.1.sum Phase.references := fun hs =>
    hinv.counted (countsFit_of_reachableWithin hs)
  refine
    { onePlace := fun i hi => hinv.contained.existsUnique_place hi
      indicatedOnce := ?_
      order := fun chain hchain => uncaptured_sublist hp hchain
      references := hreferences
      idle := ?_ }
  · exact Multiset.coe_nodup.mp
      (Multiset.nodup_add.mp hinv.contained.nodup).2.1
  · intro hs hcalls
    rw [hreferences hs, State.sum, hcalls, Table.total_empty, add_zero]

/-- A packet that `matchRequest` does not match. -/
def otherPacket : NetBufferList :=
  { onePacket with firstNb := ⟨[], [⟨[0xcd]⟩], 0, 1⟩ }

/-- A chain of three packets, the second of which is captured; the other two
are indicated. -/
theorem receivePath_conserved_middleCaptured :
    ∃ p, (observed rxDriver).ReachableWithin (fun p => DeclaredExact p.1) p ∧
      (p.1.completed = [0, 2] ∧ p.2.captured = {1} ∧ p.1.rundown.count = 1) ∧
      ReceivePathConserved p.1 p.2 :=
  (Machine.exists_reachableWithin_of_run _
      [.restart, .locked 0 (.create 0), .locked 0 (.filter 0 matchRequest),
      .receive 0 3 [otherPacket, onePacket, otherPacket],
      .transferLocked 0 captureAtZero, .release 0, .complete 0]
      (by decide +kernel)).imp fun p ⟨hp, hfacts⟩ =>
      ⟨hp, hfacts, receivePath_conserved p hp⟩

/-! ## A filter that captures too much -/

/-- The runs of this section: exact declarations, no watchdog. -/
def Plain (s : State) (label : Label) : Prop :=
  DeclaredExact s label ∧ OneExpiry s label

instance (s : State) (label : Label) : Decidable (Plain s label) :=
  inferInstanceAs (Decidable (_ ∧ _))

/-- The only filter is that of handle 0, which matches `onePacket`; it holds `n`
NBLs, which have the only references, and no call is running. -/
structure Holding (s : State) (n : ℕ) : Prop where
  reachable : rxMachine.ReachableWithin Plain s
  calls : s.calls = ∅
  rundown : s.rundown = ⟨n, true⟩
  links : s.filters.links = [0]
  matching : ∃ filter, s.filters.filter? 0 = some filter ∧
    fnIoFilterNb filter onePacket.firstNb = true
  held : Multiset.card s.filters.ids = n

theorem not_stopped (hs : rxMachine.ReachableWithin Plain s) :
    s.filters.stopped = false := by
  have hsafe := contextsSafe_of_reachableWithin
    (hs.mono fun _ _ hplain => hplain.2)
  have hlinked := (invariant_of_reachable hs.reachable).contained.linked
  simp [FilterList.stopped, hsafe.noFault, hlinked.not_null]

theorem filterNbls_all (nbls : List NetBufferList) {s : Sweep}
    {filter : DataFilter} (hlinks : s.filters.links = [0])
    (hfilter : s.filters.filter? 0 = some filter)
    (hmatch : ∀ nbl ∈ nbls, nbl.firstNb = onePacket.firstNb)
    (hpacket : fnIoFilterNb filter onePacket.firstNb = true) :
    (FilterList.filterNbls captureAtZero nbls s).queue = s.queue ∧
      (FilterList.filterNbls captureAtZero nbls s).filters.links = [0] ∧
      ∃ filter',
        (FilterList.filterNbls captureAtZero nbls s).filters.filter? 0 =
          some filter' ∧
        fnIoFilterNb filter' onePacket.firstNb = true := by
  induction nbls generalizing s filter with
  | nil => exact ⟨rfl, hlinks, filter, hfilter, hpacket⟩
  | cons nbl rest ih =>
    have hany : nbl.netBuffers.any (fnIoFilterNb filter) = true := by
      simp [NetBufferList.netBuffers, hmatch nbl List.mem_cons_self, hpacket]
    obtain ⟨context, hcaptured⟩ : ∃ context,
        s.filters.filterNbl captureAtZero nbl =
          (true, s.filters.setFilter 0 (some (filter.capture nbl context))
            { s.filters.pool with
              allocated := s.filters.pool.allocated + 1 }) := by
      refine ⟨⟨s.filters.pool.allocated, ⟨0, 0⟩, 0⟩, ?_⟩
      simp [FilterList.filterNbl, hlinks, FilterList.filterNblLoop, hfilter,
        fnIoFilterNbl, hany, captureAtZero]
    unfold FilterList.filterNbls
    simp only [hcaptured, if_true]
    exact ih hlinks (FilterList.filter?_setFilter_self _ _ _ _)
      (fun nbl hnbl => hmatch nbl (List.mem_cons_of_mem _ hnbl)) hpacket

theorem firstNb_of_mem_numbered {start k : ℕ} {nbl : NetBufferList}
    (h : nbl ∈ numbered start (List.replicate k onePacket)) :
    nbl.firstNb = onePacket.firstNb := by
  induction k generalizing start with
  | zero => cases h
  | succ k ih =>
    rw [List.replicate_succ, numbered, List.mem_cons] at h
    rcases h with rfl | hrest
    · rfl
    · exact ih hrest

theorem Holding.capture (hs : Holding s n) (k : ℕ) :
    let sweep := s.filters.capture captureAtZero
      (arriving s (List.replicate k onePacket))
    sweep.queue = .empty ∧ sweep.filters.links = [0] ∧
      (∃ filter, sweep.filters.filter? 0 = some filter ∧
        fnIoFilterNb filter onePacket.firstNb = true) ∧
      Multiset.card sweep.filters.ids = n + k := by
  intro sweep
  have hlinked := (invariant_of_reachable
    hs.reachable.reachable).contained.linked
  obtain ⟨filter, hfilter, hpacket⟩ := hs.matching
  obtain ⟨hqueue, hlinks, hmatching⟩ := filterNbls_all
    (arriving s (List.replicate k onePacket)).chain
    (s := .start s.filters) hs.links hfilter
    (fun nbl hnbl => firstNb_of_mem_numbered hnbl) hpacket
  have hids := congrArg Multiset.card (FilterList.filterNbls_spec captureAtZero
    (arriving s (List.replicate k onePacket)).chain
    (s := .start s.filters) hlinked).2
  rw [Sweep.ids_start, Sweep.ids, hqueue, map_id_arriving] at hids
  simp only [Sweep.start, NblCountedQueue.ids_empty,
    Multiset.card_add, Multiset.coe_card, List.length_range',
    List.length_replicate, hs.held, add_zero] at hids
  exact ⟨hqueue, hlinks, hmatching, hids⟩

theorem Holding.grow {n k : ℕ} (hs : Holding s n) (hk : k < 2 ^ 32) :
    ∃ t, Holding t (n + k) := by
  obtain ⟨hqueue, hlinks, hmatching, hheld⟩ := hs.capture k
  have hlength : k = (List.replicate k onePacket).length := by simp
  generalize List.replicate k onePacket = nbls at *
  let s₁ := receive rxDriver s 0 k nbls
  let s₂ := transferLocked rxDriver s₁ 0 captureAtZero (arriving s nbls)
  let s₃ := State.settle ((s₂.releaseCount 0).converted 0) 0
    ⟨.transfer, .success, [], .finished⟩
  have hcalls₁ : s₁.calls = s.calls.insert 0
      ⟨.transfer, .success, [], .accepted (arriving s nbls)⟩ := by
    simp only [s₁, CapturePath.receive, hs.rundown, Rundown.acquire, rxDriver,
      if_true]
    rfl
  have hfilters₁ : s₁.filters = s.filters := by
    simp only [s₁, CapturePath.receive, hs.rundown, Rundown.acquire, rxDriver,
      if_true]
    rfl
  have hrundown₁ : s₁.rundown = ⟨n + k, true⟩ := by
    simp only [s₁, CapturePath.receive, hs.rundown, Rundown.acquire, rxDriver,
      if_true]
    rfl
  have hcalls₂ : s₂.calls = s₁.calls.insert 0
      ⟨.transfer, .success, [], .releasing .empty⟩ := by
    simp only [s₂, CapturePath.transferLocked, hfilters₁, hqueue, rxDriver,
      if_true]
    rfl
  have hr₁ : rxMachine.ReachableWithin Plain s₁ := by
    refine hs.reachable.step (a := .receive 0 k nbls)
      ⟨⟨hlength, hk⟩, by simp [OneExpiry, expiries]⟩ ?_
    simp [rxMachine, machine, step, not_stopped hs.reachable, hs.calls, s₁]
  have hr₂ : rxMachine.ReachableWithin Plain s₂ := by
    refine hr₁.step (a := .transferLocked 0 captureAtZero)
      ⟨trivial, by simp [OneExpiry, expiries]⟩ ?_
    simp [rxMachine, machine, step, not_stopped hr₁, hcalls₁, s₂]
  have hr₃ : rxMachine.ReachableWithin Plain s₃ := by
    refine hr₂.step (a := .release 0)
      ⟨trivial, by simp [OneExpiry, expiries]⟩ ?_
    simp only [rxMachine, machine, step, not_stopped hr₂, hcalls₂,
      AList.lookup_insert, release]
    rfl
  have hfilters₃ : s₃.filters =
      (s.filters.capture captureAtZero (arriving s nbls)).filters := by
    simp [s₃, s₂, State.converted, State.releaseCount,
      CapturePath.transferLocked, hfilters₁]
  have hcalls₃ : s₃.calls = ∅ := by
    have herase : s₃.calls = s₂.calls.erase 0 := rfl
    rw [herase, hcalls₂, hcalls₁, hs.calls]
    rfl
  refine ⟨s₃, hr₃, hcalls₃, ?_, ?_, ?_, ?_⟩
  · simp [s₃, s₂, State.converted, State.releaseCount, Rundown.release,
      CapturePath.transferLocked, hrundown₁]
  · rw [hfilters₃, hlinks]
  · rw [hfilters₃]
    exact hmatching
  · rw [hfilters₃, hheld]

def clearRequest : FilterRequest :=
  { matchRequest with length := 0 }

theorem Holding.clear (hs : Holding s n) :
    let sweep := s.filters.irpFilter 0 none
    sweep.filters.ids = 0 ∧ sweep.queue.nblCount = n := by
  intro sweep
  have hlinked := (invariant_of_reachable
    hs.reachable.reachable).contained.linked
  obtain ⟨hlinked', hids⟩ := Section.apply_spec hlinked
    (.filter 0 clearRequest) trivial
  have hempty : sweep.filters.links = [] := by
    have hlinks := Sweep.clearFilter_links (.start s.filters) 0
    simpa [sweep, FilterList.irpFilter, Sweep.start, hs.links] using hlinks
  have hzero : sweep.filters.ids = 0 := by
    refine Multiset.eq_zero_of_forall_notMem fun i hi => ?_
    obtain ⟨_, hstub, -⟩ := Multiset.mem_map.mp hi
    obtain ⟨h, filter, hfilter, -⟩ := FilterList.mem_stubs.mp hstub
    have hmem := (hlinked'.mem_links h).mpr (by
      rw [Option.isSome_iff_exists]
      exact ⟨filter, hfilter⟩)
    change h ∈ sweep.filters.links at hmem
    rw [hempty] at hmem
    cases hmem
  refine ⟨hzero, ?_⟩
  have hcard := congrArg Multiset.card hids
  change Multiset.card (sweep.filters.ids + sweep.queue.ids) =
    Multiset.card (s.filters.ids + 0) at hcard
  rw [hzero, zero_add, add_zero, NblCountedQueue.card_ids, hs.held] at hcard
  exact hcard

theorem Holding.release (hs : Holding s (n + 1)) :
    ∃ t, rxMachine.ReachableWithin Plain t ∧ t.calls = ∅ ∧
      Multiset.card t.filters.ids = 0 ∧
      t.rundown.count = n + 1 - ulong (n + 1) := by
  obtain ⟨hzero, hcount⟩ := hs.clear
  have hnotEmpty : (s.filters.irpFilter 0 none).queue.isEmpty = false := by
    by_contra hempty
    have hids := ids_eq_zero_of_isEmpty (Bool.not_eq_false _ ▸ hempty)
    have hcard := NblCountedQueue.card_ids (s.filters.irpFilter 0 none).queue
    rw [hids, hcount] at hcard
    cases hcard
  generalize hsweep : s.filters.irpFilter 0 none = sweep at *
  let s₁ := locked s 0 (.filter 0 clearRequest)
  let s₂ := ((s₁.handBack sweep.queue).converted sweep.queue.nblCount).settle 0
    ⟨.filter 0, .success, sweep.cleared,
      .completed (ulong sweep.queue.nblCount)⟩
  let s₃ := (s₂.releaseCount (ulong sweep.queue.nblCount)).settle 0
    ⟨.filter 0, .success, sweep.cleared, .finished⟩
  have hs₁ : s₁ = State.settle { s with filters := sweep.filters } 0
      ⟨.filter 0, .success, sweep.cleared, .completing sweep.queue⟩ := by
    have hafter : afterSection sweep.queue = .completing sweep.queue := by
      simp [afterSection, hnotEmpty]
    have happly : Section.apply s.filters (.filter 0 clearRequest) =
        (.success, sweep) := by
      rw [← hsweep]
      rfl
    simp only [s₁, CapturePath.locked, happly, hafter, handlesOpened, add_zero,
      Entry.ofSection]
  have hopen : s.filters.isOpen 0 = true := by
    obtain ⟨_, hfilter, -⟩ := hs.matching
    simp [FilterList.isOpen, FilterList.lookup_of_filter? hfilter]
  have hr₁ : rxMachine.ReachableWithin Plain s₁ := by
    refine hs.reachable.step (a := .locked 0 (.filter 0 clearRequest))
      ⟨trivial, by simp [OneExpiry, expiries]⟩ ?_
    simp [rxMachine, machine, step, not_stopped hs.reachable, mayStart,
      hs.calls, hopen, s₁]
  have hlookup₁ : s₁.calls.lookup 0 = some
      ⟨.filter 0, .success, sweep.cleared, .completing sweep.queue⟩ := by
    rw [hs₁]
    exact State.lookup_settle_self _ 0 (by simp)
  have hr₂ : rxMachine.ReachableWithin Plain s₂ := by
    refine hr₁.step (a := .complete 0)
      ⟨trivial, by simp [OneExpiry, expiries]⟩ ?_
    simp only [rxMachine, machine, step, not_stopped hr₁, hlookup₁, complete]
    rfl
  have hr₃ : rxMachine.ReachableWithin Plain s₃ := by
    refine hr₂.step (a := .release 0)
      ⟨trivial, by simp [OneExpiry, expiries]⟩ ?_
    have hlookup₂ : s₂.calls.lookup 0 = some
        ⟨.filter 0, .success, sweep.cleared,
          .completed (ulong sweep.queue.nblCount)⟩ :=
      State.lookup_settle_self _ 0 (by simp)
    simp only [rxMachine, machine, step, not_stopped hr₂, hlookup₂]
    rfl
  refine ⟨s₃, hr₃, ?_, ?_, ?_⟩
  · have herase : s₃.calls = ((s₁.calls.insert 0
        ⟨.filter 0, .success, sweep.cleared,
          .completed (ulong sweep.queue.nblCount)⟩).erase 0) := rfl
    have hcalls₁ : s₁.calls = s.calls.insert 0
        ⟨.filter 0, .success, sweep.cleared, .completing sweep.queue⟩ := by
      rw [hs₁]
      rfl
    rw [herase, hcalls₁, hs.calls]
    rfl
  · simp [s₃, s₂, hs₁, State.releaseCount, State.converted, State.handBack,
      hzero]
  · simp [s₃, s₂, hs₁, State.releaseCount, State.converted, State.handBack,
      Rundown.release, hs.rundown, hcount]

theorem exists_holding_zero : ∃ s, Holding s 0 := by
  obtain ⟨s, hs, hcalls, hrundown, hlinks, hmatching, hheld⟩ :=
    Machine.exists_reachableWithin_of_run (M := rxMachine) Plain
      (P := fun s => s.calls.keys = [] ∧ s.rundown = ⟨0, true⟩ ∧
        s.filters.links = [0] ∧
        (s.filters.filter? 0).any
          (fun filter => fnIoFilterNb filter onePacket.firstNb) = true ∧
        Multiset.card s.filters.ids = 0)
      [.restart, .locked 0 (.create 0), .locked 0 (.filter 0 matchRequest)]
      (by decide +kernel)
  refine ⟨s, hs, ?_, hrundown, hlinks, (Option.any_eq_true _ _).mp hmatching,
    hheld⟩
  exact AList.ext (List.map_eq_nil_iff.mp hcalls)

/-- A filter captures `2 ^ 32` NBLs of two chains and is cleared: no call is
running, no filter holds an NBL, and `2 ^ 32` references are outstanding. -/
theorem references_lost :
    ∃ s, rxMachine.ReachableWithin DeclaredExact s ∧ s.calls = ∅ ∧
      Multiset.card s.filters.ids = 0 ∧ s.rundown.count = 2 ^ 32 := by
  obtain ⟨s, hs⟩ := exists_holding_zero
  obtain ⟨t, ht⟩ := hs.grow (show 2 ^ 32 - 1 < 2 ^ 32 by decide)
  obtain ⟨u, hu⟩ := ht.grow (show 1 < 2 ^ 32 by decide)
  obtain ⟨v, hv, hcalls, hheld, hcount⟩ := hu.release
  refine ⟨v, hv.mono fun _ _ hplain => hplain.1, hcalls, hheld, ?_⟩
  rw [hcount]
  decide

end WinNetTest.Fnlwf
