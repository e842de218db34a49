import WinNetTest.Fnio.CapturePath
import WinNetTest.Fnio.Captured
import Mathlib.Data.Multiset.Range
import Mathlib.Data.Multiset.Filter

/-!
# Safety of the capture path

The invariant of the capture path and its proof.  One inversion lemma lists
what a step can do; each part of the invariant is then a case analysis over
that list.
-/

namespace WinNetTest.Fnio

open Support

namespace CapturePath

/-! ## Where NBLs and references are -/

namespace Phase

def ids : Phase → Multiset ℕ
  | accepted chain => chain.ids
  | completing queue => queue.ids
  | releasing queue => queue.ids
  | passing queue => queue.ids
  | completed _ => 0
  | finished => 0

def referenced : Phase → Multiset ℕ
  | passing _ => 0
  | phase => phase.ids

/-- Those of them that hold none, or give theirs up before they are handed
back. -/
def surrendered : Phase → Multiset ℕ
  | releasing queue => queue.ids
  | passing queue => queue.ids
  | _ => 0

def pendingRelease : Phase → ℕ
  | completed count => count
  | _ => 0

def references (phase : Phase) : ℕ :=
  Multiset.card phase.referenced + phase.pendingRelease

@[simp] theorem ids_accepted (chain : NblCountedQueue) :
    (accepted chain).ids = chain.ids := rfl

variable (queue : NblCountedQueue)

@[simp] theorem ids_completing :
    (completing queue).ids = queue.ids := rfl

@[simp] theorem ids_releasing :
    (releasing queue).ids = queue.ids := rfl

@[simp] theorem ids_passing :
    (passing queue).ids = queue.ids := rfl

@[simp] theorem ids_completed (count : ℕ) : (completed count).ids = 0 := rfl

@[simp] theorem ids_finished : finished.ids = 0 := rfl

theorem mem_ids {phase : Phase} {i : ℕ} :
    i ∈ phase.ids ↔ i ∈ phase.referenced ∨ i ∈ phase.surrendered := by
  cases phase <;> simp [referenced, surrendered]

@[simp] theorem references_accepted (chain : NblCountedQueue) :
    (accepted chain).references = chain.nblCount := by
  simp [references, referenced, pendingRelease, NblCountedQueue.card_ids]

@[simp] theorem references_completing :
    (completing queue).references = queue.nblCount := by
  simp [references, referenced, pendingRelease, NblCountedQueue.card_ids]

@[simp] theorem references_releasing :
    (releasing queue).references = queue.nblCount := by
  simp [references, referenced, pendingRelease, NblCountedQueue.card_ids]

@[simp] theorem references_passing : (passing queue).references = 0 := by
  simp [references, referenced, pendingRelease]

@[simp] theorem references_completed (count : ℕ) :
    (completed count).references = count := by
  simp [references, referenced, pendingRelease]

@[simp] theorem references_finished : finished.references = 0 := by
  simp [references, referenced, pendingRelease]

end Phase

namespace State

def sum {M : Type*} [AddCommMonoid M] (g : Phase → M) (s : State) : M :=
  Table.total (fun _ call => g call.phase) s.calls

/-- The same sum without the call `c`. -/
def sumExcept {M : Type*} [AddCommMonoid M] (g : Phase → M) (s : State)
    (c : ℕ) : M :=
  Table.total (fun _ call => g call.phase) (s.calls.erase c)

def callIds (s : State) : Multiset ℕ := s.sum Phase.ids

def referencedIds (s : State) : Multiset ℕ := s.sum Phase.referenced

def pendingRelease (s : State) : ℕ := s.sum Phase.pendingRelease

@[simp] theorem settle_filters (s : State) (c : ℕ) (call : Call) :
    (s.settle c call).filters = s.filters := by
  unfold settle; split <;> rfl

@[simp] theorem settle_rundown (s : State) (c : ℕ) (call : Call) :
    (s.settle c call).rundown = s.rundown := by
  unfold settle; split <;> rfl

@[simp] theorem settle_received (s : State) (c : ℕ) (call : Call) :
    (s.settle c call).received = s.received := by
  unfold settle; split <;> rfl

@[simp] theorem settle_accepted (s : State) (c : ℕ) (call : Call) :
    (s.settle c call).accepted = s.accepted := by
  unfold settle; split <;> rfl

@[simp] theorem settle_completed (s : State) (c : ℕ) (call : Call) :
    (s.settle c call).completed = s.completed := by
  unfold settle; split <;> rfl

@[simp] theorem settle_nextHandle (s : State) (c : ℕ) (call : Call) :
    (s.settle c call).nextHandle = s.nextHandle := by
  unfold settle; split <;> rfl

@[simp] theorem settle_countsFit (s : State) (c : ℕ) (call : Call) :
    (s.settle c call).countsFit = s.countsFit := by
  unfold settle; split <;> rfl

variable {s : State} {c c' i : ℕ}

theorem lookup_settle {call call' : Call}
    (h : (s.settle c call).calls.lookup c' = some call') :
    (c' = c ∧ call' = call) ∨ (c' ≠ c ∧ s.calls.lookup c' = some call') := by
  unfold settle at h
  by_cases hc : c' = c
  · subst hc
    split at h
    · simp at h
    · simp only [AList.lookup_insert, Option.some.injEq] at h
      exact Or.inl ⟨rfl, h.symm⟩
  · right
    refine ⟨hc, ?_⟩
    split at h
    · rwa [AList.lookup_erase_ne hc] at h
    · rwa [AList.lookup_insert_ne hc] at h

theorem lookup_settle_ne (s : State) (call : Call) (hne : c' ≠ c) :
    (s.settle c call).calls.lookup c' = s.calls.lookup c' := by
  unfold settle
  split
  · exact AList.lookup_erase_ne hne
  · exact AList.lookup_insert_ne hne

theorem lookup_settle_self
    (s : State) (c : ℕ) {call : Call} (hphase : call.phase ≠ .finished) :
    (s.settle c call).calls.lookup c = some call := by
  simp [settle, hphase]

theorem mem_returned_settle {call call' : Call}
    (h : call' ∈ (s.settle c call).returned) :
    call' ∈ s.returned ∨ call' = call ∧ call.phase = .finished := by
  unfold settle at h
  split at h
  · rename_i hphase
    rcases List.mem_append.mp h with hold | hnew
    · exact Or.inl hold
    · exact Or.inr ⟨List.mem_singleton.mp hnew, hphase⟩
  · exact Or.inl h

section Sums

variable {M : Type*} [AddCommMonoid M] (g : Phase → M)

theorem sum_settle (hg : g .finished = 0)
    (s : State) (c : ℕ) (call : Call) :
    (s.settle c call).sum g = g call.phase + s.sumExcept g c := by
  unfold settle
  split
  · rename_i hphase
    simp [hphase, hg, sum, sumExcept]
  · exact Table.total_insert _ _ _ _

theorem sum_of_lookup {c : ℕ} {call : Call}
    (hcall : s.calls.lookup c = some call) :
    s.sum g = g call.phase + s.sumExcept g c :=
  Table.total_eq_of_lookup _ hcall

theorem sum_of_free {c : ℕ} (hfree : s.calls.lookup c = none) :
    s.sum g = s.sumExcept g c := by
  rw [sum, sumExcept, Table.erase_eq_of_lookup_none hfree]

end Sums

theorem mem_callIds :
    i ∈ s.callIds ↔
      ∃ c call, s.calls.lookup c = some call ∧ i ∈ call.phase.ids := by
  unfold callIds sum
  exact Table.mem_total

theorem mem_referencedIds :
    i ∈ s.referencedIds ↔
      ∃ c call, s.calls.lookup c = some call ∧ i ∈ call.phase.referenced := by
  unfold referencedIds sum
  exact Table.mem_total

end State

/-! ## What a step can do -/

def arriving (s : State) (nbls : List NetBufferList) : NblCountedQueue :=
  NblCountedQueue.empty.appendNblChain (numbered s.received nbls)

inductive Transition (d : Driver) (s : State) : Label → State → Prop
  | refused {c declared : ℕ} {nbls : List NetBufferList}
      (hfree : s.calls.lookup c = none) :
      Transition d s (.receive c declared nbls)
        (State.settle { s with received := s.received + nbls.length } c
          ⟨.transfer, .success, [], .passing (arriving s nbls)⟩)
  | accepted {c declared : ℕ} {nbls : List NetBufferList} {rundown : Rundown}
      (hfree : s.calls.lookup c = none)
      (hcount : rundown.count =
        s.rundown.count + d.acquired (arriving s nbls).nblCount declared) :
      Transition d s (.receive c declared nbls)
        (State.settle
          { s with
            received := s.received + nbls.length
            rundown := rundown
            accepted :=
              s.accepted ++ (arriving s nbls).chain.map NetBufferList.id
            countsFit :=
              s.countsFit &&
                d.acquired (arriving s nbls).nblCount declared ==
                  (arriving s nbls).nblCount }
          c ⟨.transfer, .success, [], .accepted (arriving s nbls)⟩)
  | transferLocked {c : ℕ} {env : CaptureEnv} {call : Call}
      {chain : NblCountedQueue}
      (hcall : s.calls.lookup c = some call)
      (hentry : call.entry = .transfer)
      (hphase : call.phase = .accepted chain) :
      Transition d s (.transferLocked c env) (transferLocked d s c env chain)
  | locked {c : ℕ} {sec : Section} (hstart : mayStart d s c sec = true) :
      Transition d s (.locked c sec) (locked s c sec)
  | completing {c : ℕ} {call : Call} {queue : NblCountedQueue}
      (hcall : s.calls.lookup c = some call)
      (hphase : call.phase = .completing queue) :
      Transition d s (.complete c)
        (((s.handBack queue).converted queue.nblCount).settle c
          { call with phase := .completed (ulong queue.nblCount) })
  | passing {c : ℕ} {call : Call} {queue : NblCountedQueue}
      (hcall : s.calls.lookup c = some call)
      (hphase : call.phase = .passing queue) :
      Transition d s (.complete c)
        ((s.handBack queue).settle c { call with phase := .finished })
  | completed {c : ℕ} {call : Call} {count : ℕ}
      (hcall : s.calls.lookup c = some call)
      (hphase : call.phase = .completed count) :
      Transition d s (.release c)
        ((s.releaseCount count).settle c { call with phase := .finished })
  | releasing {c : ℕ} {call : Call} {queue : NblCountedQueue}
      (hcall : s.calls.lookup c = some call)
      (hphase : call.phase = .releasing queue) :
      Transition d s (.release c)
        (((s.releaseCount (ulong queue.nblCount)).converted
          queue.nblCount).settle c
          { call with
            phase := if queue.isEmpty then .finished else .passing queue })
  | pause : Transition d s .pause { s with rundown := s.rundown.beginWait }
  | restart (hcount : s.rundown.count = 0) :
      Transition d s .restart { s with rundown := .initialized }

variable {s t : State} {d : Driver} {label : Label}

theorem transition_of_step (h : step d s label = some t) :
    Transition d s label t := by
  unfold step at h
  split at h
  · cases h
  · cases label with
    | receive c declared nbls =>
      simp only at h
      split at h
      · rename_i hfree
        have hfree : s.calls.lookup c = none := by simpa using hfree
        simp only [receive] at h
        split at h
        · cases h
          exact .refused hfree
        · rename_i rundown hacquire
          cases h
          exact .accepted hfree (Rundown.acquire_count hacquire)
      · cases h
    | transferLocked c env =>
      simp only at h
      split at h
      · rename_i hcall
        cases h
        exact .transferLocked hcall rfl rfl
      · cases h
    | locked c sec =>
      simp only at h
      split at h
      · rename_i hstart
        cases h
        exact .locked hstart
      · cases h
    | complete c =>
      simp only at h
      split at h
      · rename_i call hcall
        unfold complete at h
        split at h
        · rename_i hphase
          cases h
          exact .completing hcall hphase
        · rename_i hphase
          cases h
          exact .passing hcall hphase
        · cases h
      · cases h
    | release c =>
      simp only at h
      split at h
      · rename_i call hcall
        unfold release at h
        split at h
        · rename_i hphase
          cases h
          exact .completed hcall hphase
        · rename_i hphase
          cases h
          exact .releasing hcall hphase
        · cases h
      · cases h
    | pause =>
      cases h
      exact .pause
    | restart =>
      simp only at h
      split at h
      · rename_i hguard
        cases h
        refine .restart ?_
        simp only [Rundown.released, Bool.and_eq_true, beq_iff_eq] at hguard
        exact hguard.1
      · cases h

/-! ## The invariant: containers -/

theorem map_id_numbered (start : ℕ) (nbls : List NetBufferList) :
    (numbered start nbls).map NetBufferList.id =
      List.range' start nbls.length := by
  induction nbls generalizing start with
  | nil => rfl
  | cons nbl rest ih => simp [numbered, ih, List.range'_succ]

theorem map_id_arriving (s : State) (nbls : List NetBufferList) :
    (arriving s nbls).chain.map NetBufferList.id =
      List.range' s.received nbls.length := by
  simp [arriving, NblCountedQueue.appendNblChain, map_id_numbered]

theorem range_add_arriving (s : State) (nbls : List NetBufferList) :
    Multiset.range (s.received + nbls.length) =
      Multiset.range s.received + (arriving s nbls).ids := by
  simp only [NblCountedQueue.ids, map_id_arriving, Multiset.range,
    Multiset.coe_add]
  rw [List.range_add, List.range'_eq_map_range]

variable {c : ℕ}

theorem mayStart_spec {sec : Section} (h : mayStart d s c sec = true) :
    s.calls.lookup c = none ∧ sec.incoming = 0 ∧ sec.OnOpenHandle s.filters ∧
      (∀ k, sec = .create k → k = s.nextHandle) ∧
      (∀ k, sec = .flush k → s.filters.isOpen k = true) ∧
      (∀ k, sec = .cleanup k → s.filters.isOpen k = true ∧
        ∀ c' call, s.calls.lookup c' = some call →
          call.entry.handle? ≠ some k) := by
  unfold mayStart at h
  rw [Bool.and_eq_true] at h
  obtain ⟨hfree, hsec⟩ := h
  refine ⟨by simpa using hfree, ?_⟩
  cases sec with
  | cleanup k =>
    rw [Bool.and_eq_true] at hsec
    obtain ⟨hopen, hidle⟩ := hsec
    refine ⟨rfl, trivial, by simp, by simp, ?_⟩
    intro k' hk
    cases hk
    refine ⟨hopen, ?_⟩
    intro c' call hcall
    have hall := List.all_eq_true.mp hidle ⟨c', call⟩
      (AList.mem_lookup_iff.mp hcall)
    simpa using hall
  | create | filter | getFrame | setFrame | dequeueFrame | flush | watchdog =>
    simp_all [Section.incoming, Section.OnOpenHandle]
  | capture env chain => simp at hsec

/-- The link list is in order, handles are numbered as they were opened, and
every NBL received is in exactly one container. -/
structure Contained (s : State) : Prop where
  linked : s.filters.WellLinked
  handle_lt : ∀ h, s.filters.isOpen h = true → h < s.nextHandle
  partition : Multiset.range s.received =
    s.filters.ids + s.callIds + (s.completed : Multiset ℕ)

theorem contained_init : Contained init := by
  refine ⟨⟨List.nodup_nil, ?_, rfl⟩, ?_, rfl⟩
  · intro h
    simp [init, FilterList.empty, FilterList.filter?]
  · intro h hopen
    simp [init, FilterList.empty, FilterList.isOpen] at hopen

theorem Contained.fresh (hs : Contained s) {sec : Section}
    (hstart : mayStart d s c sec = true) : sec.Fresh s.filters := by
  cases sec with
  | create h =>
    have hnext := (mayStart_spec hstart).2.2.2.1 h rfl
    by_contra hopen
    have hlt := hs.handle_lt h (by simpa [Section.Fresh] using hopen)
    omega
  | _ => trivial

theorem ids_eq_zero_of_isEmpty
    {queue : NblCountedQueue} (h : queue.isEmpty = true) : queue.ids = 0 := by
  have hnil : queue.chain = [] := by
    simpa [NblCountedQueue.isEmpty] using h
  simp [NblCountedQueue.ids, hnil]

@[simp] theorem ids_afterSection (queue : NblCountedQueue) :
    (afterSection queue).ids = queue.ids := by
  unfold afterSection
  split
  · rename_i hempty
    simp [ids_eq_zero_of_isEmpty hempty]
  · rfl

theorem Contained.settle {call : Call} {m : Multiset ℕ} (hs : Contained s)
    (hcalls : t.calls = s.calls) (hlinked : t.filters.WellLinked)
    (hlt : ∀ h, t.filters.isOpen h = true → h < t.nextHandle)
    (hold : s.sum Phase.ids = m + s.sumExcept Phase.ids c)
    (hbalance :
      Multiset.range t.received + (s.filters.ids + m +
        (s.completed : Multiset ℕ)) =
      Multiset.range s.received + (t.filters.ids + call.phase.ids +
        (t.completed : Multiset ℕ))) : Contained (t.settle c call) := by
  refine ⟨by simpa using hlinked, by simpa using hlt, ?_⟩
  have hrest : t.sumExcept Phase.ids c = s.sumExcept Phase.ids c := by
    simp only [State.sumExcept, hcalls]
  have hpart := hs.partition
  simp only [State.callIds, hold] at hpart
  simp only [State.settle_received, State.settle_filters,
    State.settle_completed, State.callIds,
    State.sum_settle Phase.ids Phase.ids_finished, hrest]
  rw [hpart] at hbalance
  apply add_right_cancel (b := s.filters.ids + m + (s.completed : Multiset ℕ))
  rw [hbalance]
  abel

theorem Contained.step (hs : Contained s) (ht : Transition d s label t) :
    Contained t := by
  cases ht with
  | @refused c declared nbls hfree =>
    refine hs.settle (m := 0) rfl hs.linked hs.handle_lt ?_ ?_
    · rw [zero_add, State.sum_of_free Phase.ids hfree]
    · rw [range_add_arriving, Phase.ids_passing]
      abel
  | @accepted c declared nbls rundown hfree hcount =>
    refine hs.settle rfl hs.linked hs.handle_lt (m := 0) ?_ ?_
    · rw [zero_add, State.sum_of_free Phase.ids hfree]
    · rw [range_add_arriving, Phase.ids_accepted]
      abel
  | @transferLocked c env call chain hcall hentry hphase =>
    obtain ⟨hlinked, hids⟩ := Section.apply_spec hs.linked
      (.capture env chain) trivial
    have hopen := Section.apply_isOpen hs.linked
      (.capture env chain) trivial
    simp only [Section.apply, Sweep.ids, Section.incoming]
      at hlinked hids hopen
    refine hs.settle (m := chain.ids) rfl hlinked ?_ ?_ ?_
    · intro h hh
      rw [hopen] at hh
      exact hs.handle_lt h hh
    · rw [State.sum_of_lookup Phase.ids hcall, hphase, Phase.ids_accepted]
    · have hnext : (if d.releaseFirst = true then
          Phase.releasing (s.filters.capture env chain).queue
          else afterSection (s.filters.capture env chain).queue).ids =
            (s.filters.capture env chain).queue.ids := by
        split
        · rfl
        · exact ids_afterSection _
      rw [hnext, hids]
  | @locked c sec hstart =>
    obtain ⟨hfree, hin, honopen, hcreate, -, -⟩ := mayStart_spec hstart
    obtain ⟨hlinked, hids⟩ := Section.apply_spec hs.linked sec
      (hs.fresh hstart)
    have hopen := Section.apply_isOpen hs.linked sec honopen
    unfold CapturePath.locked
    refine hs.settle (m := 0) rfl hlinked ?_ ?_ ?_
    · intro h hh
      simp only [hopen] at hh
      cases sec with
      | create k =>
        have hk := hcreate k rfl
        simp only [Section.openAfter, Bool.or_eq_true, beq_iff_eq] at hh
        simp only [handlesOpened]
        rcases hh with heq | hold
        · omega
        · have hlt := hs.handle_lt h hold
          omega
      | cleanup k =>
        simp only [Section.openAfter, Bool.and_eq_true] at hh
        exact hs.handle_lt h hh.2
      | _ => exact hs.handle_lt h hh
    · rw [zero_add, State.sum_of_free Phase.ids hfree]
    · rw [hin, add_zero, Sweep.ids] at hids
      rw [ids_afterSection, ← hids, add_zero]
  | @completing c call queue hcall hphase =>
    refine hs.settle (m := queue.ids) rfl hs.linked hs.handle_lt ?_ ?_
    · rw [State.sum_of_lookup Phase.ids hcall, hphase, Phase.ids_completing]
    · simp only [State.converted, State.handBack, ← Multiset.coe_add,
        Phase.ids_completed, NblCountedQueue.ids]
      abel
  | @passing c call queue hcall hphase =>
    refine hs.settle (m := queue.ids) rfl hs.linked hs.handle_lt ?_ ?_
    · rw [State.sum_of_lookup Phase.ids hcall, hphase, Phase.ids_passing]
    · simp only [State.handBack, ← Multiset.coe_add,
        Phase.ids_finished, NblCountedQueue.ids]
      abel
  | @completed c call count hcall hphase =>
    refine hs.settle (m := 0) rfl hs.linked hs.handle_lt ?_ rfl
    rw [State.sum_of_lookup Phase.ids hcall, hphase, Phase.ids_completed]
  | @releasing c call queue hcall hphase =>
    refine hs.settle (m := queue.ids) rfl hs.linked hs.handle_lt ?_ ?_
    · rw [State.sum_of_lookup Phase.ids hcall, hphase, Phase.ids_releasing]
    · have hnext : (if queue.isEmpty = true then Phase.finished
          else .passing queue).ids = queue.ids := by
        split
        · rename_i hempty
          rw [ids_eq_zero_of_isEmpty hempty, Phase.ids_finished]
        · rfl
      rw [hnext]
      rfl
  | pause | restart => exact ⟨hs.linked, hs.handle_lt, hs.partition⟩

/-! ## The invariant: references -/

/-- As long as no count has been cut short, the references outstanding are
those of the captured NBLs and of the running calls. -/
def Counted (s : State) : Prop :=
  s.countsFit = true → s.rundown.count =
      Multiset.card s.filters.ids + s.sum Phase.references

@[simp] theorem references_afterSection (queue : NblCountedQueue) :
    (afterSection queue).references = queue.nblCount := by
  unfold afterSection
  split
  · rename_i hempty
    rw [← NblCountedQueue.card_ids, ids_eq_zero_of_isEmpty hempty]
    simp
  · simp

theorem Counted.settle {call : Call} {m : ℕ} (hs : Counted s)
    (hcalls : t.calls = s.calls)
    (hm : s.sum Phase.references = m + s.sumExcept Phase.references c)
    (hfit : t.countsFit = true → s.countsFit = true)
    (hbalance : t.countsFit = true → m ≤ s.rundown.count →
      t.rundown.count + (Multiset.card s.filters.ids + m) = s.rundown.count +
          (Multiset.card t.filters.ids + call.phase.references)) :
    Counted (t.settle c call) := by
  intro ht
  rw [State.settle_countsFit] at ht
  have hcount := hs (hfit ht)
  have hrest : t.sumExcept Phase.references c =
      s.sumExcept Phase.references c := by
    simp only [State.sumExcept, hcalls]
  rw [hm] at hcount
  have hbalance := hbalance ht (by omega)
  simp only [State.settle_rundown, State.settle_filters,
    State.sum_settle Phase.references Phase.references_finished, hrest]
  omega

theorem Counted.step (hc : Contained s) (hs : Counted s)
    (ht : Transition d s label t) : Counted t := by
  cases ht with
  | @refused c declared nbls hfree =>
    refine hs.settle (m := 0) rfl ?_ id ?_
    · rw [zero_add, State.sum_of_free Phase.references hfree]
    · simp
  | @accepted c declared nbls rundown hfree hcount =>
    refine hs.settle (m := 0) rfl ?_ ?_ ?_
    · rw [zero_add, State.sum_of_free Phase.references hfree]
    · intro hfit
      exact (Bool.and_eq_true _ _ ▸ hfit).1
    · intro hfit _
      have hexact := (Bool.and_eq_true _ _ ▸ hfit).2
      rw [beq_iff_eq] at hexact
      rw [Phase.references_accepted]
      dsimp only
      omega
  | @transferLocked c env call chain hcall hentry hphase =>
    obtain ⟨-, hids⟩ := Section.apply_spec hc.linked
      (.capture env chain) trivial
    have hcard := congrArg Multiset.card hids
    simp only [Section.apply, Sweep.ids, Section.incoming,
      Multiset.card_add, NblCountedQueue.card_ids] at hcard
    refine hs.settle (m := chain.nblCount) rfl ?_ id ?_
    · rw [State.sum_of_lookup Phase.references hcall, hphase,
        Phase.references_accepted]
    · intro _ _
      have hnext : (if d.releaseFirst = true then
          Phase.releasing (s.filters.capture env chain).queue
          else afterSection
            (s.filters.capture env chain).queue).references =
            (s.filters.capture env chain).queue.nblCount := by
        split <;> simp
      rw [hnext]
      dsimp only
      omega
  | @locked c sec hstart =>
    obtain ⟨hfree, hin, -, -, -, -⟩ := mayStart_spec hstart
    obtain ⟨-, hids⟩ := Section.apply_spec hc.linked sec (hc.fresh hstart)
    have hcard := congrArg Multiset.card hids
    simp only [hin, Sweep.ids, add_zero, Multiset.card_add,
      NblCountedQueue.card_ids] at hcard
    unfold CapturePath.locked
    refine hs.settle (m := 0) rfl ?_ id ?_
    · rw [zero_add, State.sum_of_free Phase.references hfree]
    · intro _ _
      rw [references_afterSection]
      dsimp only
      omega
  | @completing c call queue hcall hphase =>
    refine hs.settle (m := queue.nblCount) rfl ?_ ?_ ?_
    · rw [State.sum_of_lookup Phase.references hcall, hphase,
        Phase.references_completing]
    · intro hfit
      exact (Bool.and_eq_true _ _ ▸ hfit).1
    · intro hfit _
      have hexact := (Bool.and_eq_true _ _ ▸ hfit).2
      rw [beq_iff_eq] at hexact
      rw [Phase.references_completed, hexact]
      rfl
  | @passing c call queue hcall hphase =>
    refine hs.settle (m := 0) rfl ?_ id ?_
    · rw [State.sum_of_lookup Phase.references hcall, hphase,
        Phase.references_passing]
    · intro _ _
      rfl
  | @completed c call count hcall hphase =>
    refine hs.settle (m := count) rfl ?_ id ?_
    · rw [State.sum_of_lookup Phase.references hcall, hphase,
        Phase.references_completed]
    · intro _ hle
      simp only [State.releaseCount, Rundown.release, Phase.references_finished]
      omega
  | @releasing c call queue hcall hphase =>
    refine hs.settle (m := queue.nblCount) rfl ?_ ?_ ?_
    · rw [State.sum_of_lookup Phase.references hcall, hphase,
        Phase.references_releasing]
    · intro hfit
      exact (Bool.and_eq_true _ _ ▸ hfit).1
    · intro hfit hle
      have hexact := (Bool.and_eq_true _ _ ▸ hfit).2
      rw [beq_iff_eq] at hexact
      have hnext : (if queue.isEmpty = true then Phase.finished
          else .passing queue).references = 0 := by
        split <;> simp
      simp only [State.converted, State.releaseCount, Rundown.release,
        hexact, hnext]
      omega
  | pause => exact hs
  | restart hcount =>
    intro hfit
    have hold := hs hfit
    rw [hcount] at hold
    exact hold

end CapturePath

end WinNetTest.Fnio
