import WinNetTest.Fnio.CaptureRule
import WinNetTest.Support.TailQueue

/-!
# Frames by index

The queues of a filter are singly linked lists of NBLs.  A lookup follows the
links from the first NBL on, while a dequeue takes the whole queue apart and
rebuilds it.  This module models both on the links, shows that they refine the
filter with its queues as lists, and compares the positions they refer to.

NDIS is assumed to end the link of an NBL that is taken off a queue.
-/

namespace WinNetTest.Fnio

open Support

/-! ## Positions under a 32-bit counter -/

section Positions

variable {α β : Type*}

/-- The elements that a loop with a 32-bit counter meets at `index`. -/
def picked (index : ℕ) : (counter : ℕ) → List α → List α
  | _, [] => []
  | counter, x :: xs =>
    if counter = index then x :: picked index ((counter + 1) % 2 ^ 32) xs
    else picked index ((counter + 1) % 2 ^ 32) xs

/-- The elements that a loop with a 32-bit counter does not meet at `index`. -/
def kept (index : ℕ) : (counter : ℕ) → List α → List α
  | _, [] => []
  | counter, x :: xs =>
    if counter = index then kept index ((counter + 1) % 2 ^ 32) xs
    else x :: kept index ((counter + 1) % 2 ^ 32) xs

theorem map_picked (f : α → β) (index counter : ℕ) (xs : List α) :
    (picked index counter xs).map f = picked index counter (xs.map f) := by
  induction xs generalizing counter with
  | nil => rfl
  | cons x xs ih =>
    simp only [picked, List.map_cons]
    split <;> simp [ih]

theorem map_kept (f : α → β) (index counter : ℕ) (xs : List α) :
    (kept index counter xs).map f = kept index counter (xs.map f) := by
  induction xs generalizing counter with
  | nil => rfl
  | cons x xs ih =>
    simp only [kept, List.map_cons]
    split <;> simp [ih]

theorem picked_append_kept_perm (index counter : ℕ) (xs : List α) :
    (picked index counter xs ++ kept index counter xs).Perm xs := by
  induction xs generalizing counter with
  | nil => rfl
  | cons x xs ih =>
    simp only [picked, kept]
    split
    · exact (ih _).cons x
    · exact List.perm_middle.trans ((ih _).cons x)

variable {index : ℕ} {counter distance : ℕ}

/-- The counter gets to the index after a number of rounds. -/
structure Meets (index counter distance : ℕ) : Prop where
  counter_lt : counter < 2 ^ 32
  distance_lt : distance < 2 ^ 32
  meets : (counter + distance) % 2 ^ 32 = index

theorem Meets.next (h : Meets index counter distance)
    (hne : counter ≠ index) :
    Meets index ((counter + 1) % 2 ^ 32) (distance - 1) ∧ 0 < distance := by
  obtain ⟨hcounter, hdistance, hmeets⟩ := h
  exact ⟨⟨Nat.mod_lt _ (by decide), by omega, by omega⟩, by omega⟩

theorem Meets.again (h : Meets index index distance) :
    Meets index ((index + 1) % 2 ^ 32) (2 ^ 32 - 1) ∧ distance = 0 := by
  obtain ⟨hcounter, hdistance, hmeets⟩ := h
  exact ⟨⟨Nat.mod_lt _ (by decide), by omega, by omega⟩, by omega⟩

theorem picked_eq_nil (xs : List α) (h : Meets index counter distance)
    (hlength : xs.length ≤ distance) :
    picked index counter xs = [] ∧ kept index counter xs = xs := by
  induction xs generalizing counter distance with
  | nil => exact ⟨rfl, rfl⟩
  | cons x xs ih =>
    rw [List.length_cons] at hlength
    have hne : counter ≠ index := by
      rintro rfl
      have hzero := h.again.2
      omega
    obtain ⟨hpicked, hkept⟩ := ih (h.next hne).1 (by omega)
    rw [picked, kept, if_neg hne, if_neg hne, hpicked, hkept]
    exact ⟨rfl, rfl⟩

theorem picked_eq_getElem? {xs : List α} (h : Meets index counter distance)
    (hlength : xs.length ≤ distance + 2 ^ 32) :
    picked index counter xs = xs[distance]?.toList ∧
      kept index counter xs = xs.eraseIdx distance := by
  induction xs generalizing counter distance with
  | nil => exact ⟨rfl, rfl⟩
  | cons x xs ih =>
    rw [List.length_cons] at hlength
    rw [picked, kept]
    split
    · subst counter
      obtain ⟨hnext, rfl⟩ := h.again
      obtain ⟨hpicked, hkept⟩ := picked_eq_nil xs hnext (by omega)
      rw [hpicked, hkept]
      exact ⟨rfl, rfl⟩
    · rename_i hne
      obtain ⟨hnext, hpos⟩ := h.next hne
      obtain ⟨distance, rfl⟩ := Nat.exists_eq_add_of_lt hpos
      rw [zero_add, Nat.add_sub_cancel] at hnext
      obtain ⟨hpicked, hkept⟩ := ih hnext (by omega)
      rw [hpicked, hkept, zero_add]
      exact ⟨rfl, rfl⟩

theorem picked_ne_nil (xs : List α) (h : Meets index counter distance)
    (hlength : distance < xs.length) : picked index counter xs ≠ [] := by
  induction xs generalizing counter distance with
  | nil => simp at hlength
  | cons x xs ih =>
    rw [List.length_cons] at hlength
    rw [picked]
    split
    · exact List.cons_ne_nil _ _
    · rename_i hne
      obtain ⟨hnext, hpos⟩ := h.next hne
      exact ih hnext (by omega)

theorem two_le_length_picked {xs : List α} (h : Meets index counter distance)
    (hlength : distance + 2 ^ 32 < xs.length) :
    2 ≤ (picked index counter xs).length := by
  induction xs generalizing counter distance with
  | nil => simp at hlength
  | cons x xs ih =>
    rw [List.length_cons] at hlength
    rw [picked]
    split
    · subst counter
      have hrest := List.length_pos_iff.mpr
        (picked_ne_nil xs h.again.1 (by omega))
      rw [List.length_cons]
      omega
    · rename_i hne
      obtain ⟨hnext, hpos⟩ := h.next hne
      exact ih hnext (by omega)

end Positions

theorem dequeueLoop_eq
    (index nblIndex : ℕ) (nbls : List NetBufferList) (status : NtStatus)
    (nblReturn nblChain : NblCountedQueue) :
    let result := dequeueLoop index nblIndex nbls (status, nblReturn, nblChain)
    result.1 = (if picked index nblIndex nbls = [] then status else .success) ∧
      result.2.1.chain = nblReturn.chain ++ picked index nblIndex nbls ∧
      result.2.2.chain = nblChain.chain ++ kept index nblIndex nbls := by
  induction nbls generalizing nblIndex status nblReturn nblChain with
  | nil => simp [dequeueLoop, picked, kept]
  | cons nbl rest ih =>
    simp only [dequeueLoop, picked, kept]
    split
    · obtain ⟨hstatus, hreturn, hchain⟩ := ih ((nblIndex + 1) % 2 ^ 32)
        .success (nblReturn.appendSingleNbl nbl) nblChain
      refine ⟨hstatus.trans (by simp), hreturn.trans ?_, hchain⟩
      simp [NblCountedQueue.appendSingleNbl]
    · obtain ⟨hstatus, hreturn, hchain⟩ := ih ((nblIndex + 1) % 2 ^ 32)
        status nblReturn (nblChain.appendSingleNbl nbl)
      refine ⟨hstatus, hreturn, hchain.trans ?_⟩
      simp [NblCountedQueue.appendSingleNbl]

theorem fnIoDequeueFilteredFrame_eq (filter : DataFilter) (index : ℕ) :
    let result := fnIoDequeueFilteredFrame filter index
    result.1 = (if picked index 0 filter.nblQueue.chain = [] then .notFound
      else .success) ∧
      result.2.params = filter.params ∧
      result.2.nblReturn.chain =
        filter.nblReturn.chain ++ picked index 0 filter.nblQueue.chain ∧
      result.2.nblQueue.chain = kept index 0 filter.nblQueue.chain := by
  obtain ⟨hstatus, hreturn, hchain⟩ := dequeueLoop_eq index 0
    filter.nblQueue.chain .notFound filter.nblReturn .empty
  exact ⟨hstatus, rfl, hreturn, by
    simpa [fnIoDequeueFilteredFrame, NblCountedQueue.appendQueue] using hchain⟩

theorem nthMatchingNb_eq (filter : DataFilter) (subIndex : ℕ)
    (netBuffers : List NetBuffer) :
    nthMatchingNb filter subIndex netBuffers =
      (netBuffers.filter (fnIoFilterNb filter))[subIndex]? := by
  induction netBuffers generalizing subIndex with
  | nil => rfl
  | cons netBuffer rest ih =>
    unfold nthMatchingNb
    rw [List.filter_cons]
    split
    · cases subIndex with
      | zero => rfl
      | succ subIndex => exact ih subIndex
    · exact ih subIndex

/-! ## The filter with its links -/

/-- A `DATA_FILTER` in memory: pattern and mask, the heads of its queues, and
the links and contents of the NBLs by address. -/
structure LinkedFilter where
  params : FilterParams
  nblQueue : TailQueue ℕ
  nblReturn : TailQueue ℕ
  next : ℕ → Option ℕ
  nbl : ℕ → NetBufferList

namespace LinkedFilter

/-- What `FnIoFilterNb` reads of the filter. -/
def matcher (m : LinkedFilter) : DataFilter :=
  ⟨m.params, .empty, .empty, []⟩

/-- `FnIoCreateFilter` with the given pattern and mask. -/
def create (params : FilterParams) (next : ℕ → Option ℕ)
    (nbl : ℕ → NetBufferList) : LinkedFilter :=
  ⟨params, .empty, .empty, next, nbl⟩

/-- `FnIoFilterNbl` on a match: an NBL that has been taken off the chain it
came in is appended to the queue. -/
def capture (m : LinkedFilter) (node : ℕ) (nbl : NetBufferList) :
    LinkedFilter :=
  let (next, nblQueue) :=
    m.nblQueue.append (Function.update m.next node none) node
  { m with
    nblQueue := nblQueue
    next := next
    nbl := Function.update m.nbl node nbl }

def fnIoGetFilteredFrameNb (m : LinkedFilter) (index subIndex : ℕ) :
    Option (ℕ × NetBuffer) :=
  match TailQueue.walk m.next index m.nblQueue.first with
  | none => none
  | some node =>
    match nthMatchingNb m.matcher subIndex (m.nbl node).netBuffers with
    | none => none
    | some netBuffer => some (node, netBuffer)

def fnIoSetFilteredFrame (m : LinkedFilter) (index subIndex : ℕ)
    (frame : FrameInput) : NtStatus × LinkedFilter :=
  if frame.bufferCount > 0 then (.notSupported, m)
  else
    match m.fnIoGetFilteredFrameNb index subIndex with
    | none => (.notFound, m)
    | some (node, _) =>
      if frame.rssHashQueueId.isSome then (.notSupported, m)
      else
        let (status, info) := updateInfo frame (m.nbl node).info
        (status, { m with
            nbl := Function.update m.nbl node
              { m.nbl node with info := info } })

/-- The loop of `FnIoDequeueFilteredFrame`; the fuel bounds the number of
rounds. -/
def dequeueLoop (index : ℕ) :
    (fuel nblIndex : ℕ) → NtStatus → LinkedFilter → TailQueue ℕ →
      Option (NtStatus × LinkedFilter × TailQueue ℕ)
  | 0, _, _, _, _ => none
  | fuel + 1, nblIndex, status, m, nblChain =>
    match m.nblQueue.popFirst m.next with
    | none => some (status, m, nblChain)
    | some (node, next, nblQueue) =>
      if nblIndex = index then
        let (next, nblReturn) := m.nblReturn.append next node
        dequeueLoop index fuel ((nblIndex + 1) % 2 ^ 32) .success
          { m with
            next := next
            nblQueue := nblQueue
            nblReturn := nblReturn } nblChain
      else
        let (next, nblChain) := nblChain.append next node
        dequeueLoop index fuel ((nblIndex + 1) % 2 ^ 32) status
          { m with next := next, nblQueue := nblQueue } nblChain

/-- `FnIoDequeueFilteredFrame`; `none` for a loop that has not ended after as
many rounds as the queue has NBLs. -/
def fnIoDequeueFilteredFrame (m : LinkedFilter) (index : ℕ) :
    Option (NtStatus × LinkedFilter) :=
  match dequeueLoop index (m.nblQueue.count + 1) 0 .notFound m .empty with
  | none => none
  | some (status, m, nblChain) =>
    let (next, nblQueue, _) := m.nblQueue.appendQueue m.next nblChain
    some (status, { m with next := next, nblQueue := nblQueue })

/-- `FnIoFlushDequeuedFrames` on the links: the return queue goes to the end of
the flush queue. -/
def fnIoFlushDequeuedFrames (m : LinkedFilter) (flushQueue : TailQueue ℕ) :
    LinkedFilter × TailQueue ℕ :=
  let (next, flushQueue, nblReturn) :=
    flushQueue.appendQueue m.next m.nblReturn
  ({ m with next := next, nblReturn := nblReturn }, flushQueue)

/-! ## The NBLs of the queues -/

/-- The queues have the given NBLs, and `First`, `Last` and `NblCount` are
consistent with them. -/
structure Holds (m : LinkedFilter) (queue returned : List ℕ) : Prop where
  nblQueue : m.nblQueue.IsQueue m.next queue
  nblReturn : m.nblReturn.IsQueue m.next returned
  disjoint : queue.Disjoint returned

variable {m : LinkedFilter} {queue returned : List ℕ}

theorem holds_create (params : FilterParams) (next : ℕ → Option ℕ)
    (nbl : ℕ → NetBufferList) : (create params next nbl).Holds [] [] :=
  ⟨TailQueue.isQueue_empty _, TailQueue.isQueue_empty _, by simp⟩

variable {node index : ℕ}

theorem Holds.capture (h : m.Holds queue returned) (hqueue : node ∉ queue)
    (hreturned : node ∉ returned) (nbl : NetBufferList) :
    (m.capture node nbl).Holds (queue ++ [node]) returned := by
  have hend : ∀ x, x ≠ node → Function.update m.next node none x = m.next x :=
    fun x hx => Function.update_of_ne hx _ _
  have hq := h.nblQueue.congr fun x hx =>
    hend x fun heq => hqueue (heq ▸ hx)
  have hr := h.nblReturn.congr fun x hx =>
    hend x fun heq => hreturned (heq ▸ hx)
  obtain ⟨happend, hkept⟩ := hq.append hqueue (Function.update_self _ _ _)
  refine ⟨happend, hr.congr fun x hx => hkept x fun hmem => ?_, ?_⟩
  · exact h.disjoint hmem hx
  · simp only [List.disjoint_append_left, List.singleton_disjoint]
    exact ⟨h.disjoint, hreturned⟩

theorem dequeueLoop_holds {fuel : ℕ} (index nblIndex : ℕ) (status : NtStatus)
    {nblChain : TailQueue ℕ} {chain : List ℕ}
    (h : m.Holds queue returned) (hchain : nblChain.IsQueue m.next chain)
    (hqueue : queue.Disjoint chain) (hreturned : returned.Disjoint chain)
    (hfuel : queue.length < fuel) :
    ∃ m' nblChain', dequeueLoop index fuel nblIndex status m nblChain =
        some (if picked index nblIndex queue = [] then status else .success,
          m', nblChain') ∧
      m'.params = m.params ∧ m'.nbl = m.nbl ∧
      m'.Holds [] (returned ++ picked index nblIndex queue) ∧
      nblChain'.IsQueue m'.next (chain ++ kept index nblIndex queue) := by
  induction queue generalizing fuel nblIndex status m nblChain returned chain with
  | nil =>
    obtain ⟨fuel, rfl⟩ := Nat.exists_eq_succ_of_ne_zero (by omega : fuel ≠ 0)
    exact ⟨m, nblChain, by simp [dequeueLoop, h.nblQueue.popFirst_nil, picked],
      rfl, rfl, by simpa [picked] using h, by simpa [kept] using hchain⟩
  | cons node rest ih =>
    obtain ⟨fuel, rfl⟩ := Nat.exists_eq_succ_of_ne_zero (by omega : fuel ≠ 0)
    have hlt : rest.length < fuel := Nat.lt_of_succ_lt_succ hfuel
    rw [List.disjoint_cons_left] at hqueue
    have hdisjoint := List.disjoint_cons_left.mp h.disjoint
    have hnode := (List.nodup_cons.mp h.nblQueue.nodup).1
    obtain ⟨next, nblQueue, hpop, hrest, hend, hnext⟩ := h.nblQueue.popFirst
    have hreturn := h.nblReturn.congr fun x hx =>
      hnext x fun heq => hdisjoint.1 (heq ▸ hx)
    have hchain := hchain.congr fun x hx =>
      hnext x fun heq => hqueue.1 (heq ▸ hx)
    simp only [dequeueLoop, hpop, picked, kept]
    split
    · obtain ⟨happend, hkept⟩ := hreturn.append hdisjoint.1 hend
      have hholds : LinkedFilter.Holds
          { m with
            next := (m.nblReturn.append next node).1
            nblQueue := nblQueue
            nblReturn := (m.nblReturn.append next node).2 }
          rest (returned ++ [node]) := by
        refine ⟨hrest.congr fun x hx => hkept x fun hmem => ?_, happend, ?_⟩
        · exact hdisjoint.2 hx hmem
        · simp only [List.disjoint_append_right, List.disjoint_singleton]
          exact ⟨hdisjoint.2, hnode⟩
      obtain ⟨m', nblChain', heq, hparams, hnbl, hm', hnblChain'⟩ :=
        ih ((nblIndex + 1) % 2 ^ 32) .success hholds
          (hchain.congr fun x hx => hkept x fun hmem => hreturned hmem hx)
          hqueue.2
          (by simpa [List.disjoint_append_left] using ⟨hreturned, hqueue.1⟩)
          hlt
      refine ⟨m', nblChain', heq.trans (by simp), hparams, hnbl, ?_, hnblChain'⟩
      simpa using hm'
    · obtain ⟨happend, hkept⟩ := hchain.append hqueue.1 hend
      have hholds : LinkedFilter.Holds
          { m with
            next := (nblChain.append next node).1
            nblQueue := nblQueue } rest returned := by
        refine ⟨hrest.congr fun x hx => hkept x fun hmem => ?_,
          hreturn.congr fun x hx => hkept x fun hmem => ?_, hdisjoint.2⟩
        · exact hqueue.2 hx hmem
        · exact hreturned hx hmem
      obtain ⟨m', nblChain', heq, hparams, hnbl, hm', hnblChain'⟩ :=
        ih ((nblIndex + 1) % 2 ^ 32) status hholds happend
          (by simpa [List.disjoint_append_right] using ⟨hqueue.2, hnode⟩)
          (by simpa [List.disjoint_append_right] using
            ⟨hreturned, hdisjoint.1⟩) hlt
      exact ⟨m', nblChain', heq, hparams, hnbl, hm', by
        simpa using hnblChain'⟩

theorem Holds.dequeue (h : m.Holds queue returned) (index : ℕ) :
    ∃ m', m.fnIoDequeueFilteredFrame index =
        some (if picked index 0 queue = [] then .notFound else .success, m') ∧
      m'.params = m.params ∧ m'.nbl = m.nbl ∧
      m'.Holds (kept index 0 queue) (returned ++ picked index 0 queue) := by
  have hfuel : queue.length < m.nblQueue.count + 1 := by
    rw [h.nblQueue.count]
    exact Nat.lt_succ_self _
  obtain ⟨m', _, heq, hparams, hnbl, hm', hchain⟩ :=
    dequeueLoop_holds index 0 .notFound h (TailQueue.isQueue_empty _)
      (List.disjoint_nil_right _) (List.disjoint_nil_right _) hfuel
  rw [List.nil_append] at hchain
  obtain ⟨next, nblQueue, _, happend, hqueue, -, hnext⟩ :=
    hm'.nblQueue.appendQueue hchain (List.disjoint_nil_left _)
  have hperm := picked_append_kept_perm index 0 queue
  have hdisjoint : (kept index 0 queue).Disjoint
      (returned ++ picked index 0 queue) := by
    have hnodup := hperm.nodup_iff.mpr h.nblQueue.nodup
    intro x hkept hx
    rcases List.mem_append.mp hx with hreturned | hpicked
    · exact h.disjoint (hperm.subset (List.mem_append_right _ hkept)) hreturned
    · exact (List.nodup_append.mp hnodup).2.2 x hpicked x hkept rfl
  refine ⟨{ m' with next := next, nblQueue := nblQueue },
    by simp [fnIoDequeueFilteredFrame, heq, happend], hparams, hnbl, hqueue,
    hm'.nblReturn.congr fun x _ => hnext x (by simp), hdisjoint⟩

theorem Holds.flush (h : m.Holds queue returned) {flushQueue : TailQueue ℕ}
    {flushed : List ℕ} (hflushed : flushQueue.IsQueue m.next flushed)
    (hqueue : queue.Disjoint flushed) (hreturned : returned.Disjoint flushed) :
    (m.fnIoFlushDequeuedFrames flushQueue).2.IsQueue
        (m.fnIoFlushDequeuedFrames flushQueue).1.next (flushed ++ returned) ∧
      (m.fnIoFlushDequeuedFrames flushQueue).1.Holds queue [] := by
  obtain ⟨_, _, _, happend, hall, hempty, hnext⟩ :=
    hflushed.appendQueue h.nblReturn hreturned.symm
  simp only [fnIoFlushDequeuedFrames, happend]
  exact ⟨hall, h.nblQueue.congr fun x hx => hnext x fun hmem => hqueue hx hmem,
    hempty, List.disjoint_nil_right _⟩

theorem Holds.getFilteredFrameNb (h : m.Holds queue returned)
    (index subIndex : ℕ) :
    m.fnIoGetFilteredFrameNb index subIndex = queue[index]?.bind fun node =>
        ((m.nbl node).netBuffers.filter (fnIoFilterNb m.matcher))[subIndex]?.map
          fun netBuffer => (node, netBuffer) := by
  rw [fnIoGetFilteredFrameNb, h.nblQueue.chain.walk]
  cases queue[index]? with
  | none => rfl
  | some node =>
    simp only [Option.bind_some, nthMatchingNb_eq]
    cases ((m.nbl node).netBuffers.filter
      (fnIoFilterNb m.matcher))[subIndex]? <;> rfl

theorem Holds.set (h : m.Holds queue returned) (index subIndex : ℕ)
    (frame : FrameInput) :
    (m.fnIoSetFilteredFrame index subIndex frame).2.Holds queue returned := by
  unfold fnIoSetFilteredFrame
  split
  · exact h
  · split
    · exact h
    · split
      · exact h
      · exact ⟨h.nblQueue, h.nblReturn, h.disjoint⟩

/-! ## The filter with its queues as lists -/

/-- The filter in memory has the pattern, the mask and the NBLs of the given
one. -/
structure Represents (m : LinkedFilter) (queue returned : List ℕ)
    (filter : DataFilter) : Prop where
  holds : m.Holds queue returned
  params : m.params = filter.params
  nblQueue : filter.nblQueue.chain = queue.map m.nbl
  nblReturn : filter.nblReturn.chain = returned.map m.nbl

variable {filter : DataFilter} {nodes : List ℕ}

theorem map_update_of_notMem (h : node ∉ nodes) (nbl : ℕ → NetBufferList)
    (value : NetBufferList) :
    nodes.map (Function.update nbl node value) = nodes.map nbl :=
  List.map_congr_left fun _ hx =>
    Function.update_of_ne (ne_of_mem_of_not_mem hx h) _ _

theorem map_update_eq_modify (hnodup : nodes.Nodup)
    (hindex : nodes[index]? = some node) (nbl : ℕ → NetBufferList)
    (f : NetBufferList → NetBufferList) :
    nodes.map (Function.update nbl node (f (nbl node))) =
      (nodes.map nbl).modify index f := by
  induction nodes generalizing index with
  | nil => cases hindex
  | cons x xs ih =>
    obtain ⟨hnotMem, hnodup⟩ := List.nodup_cons.mp hnodup
    cases index with
    | zero =>
      cases hindex
      simp [map_update_of_notMem hnotMem]
    | succ index =>
      rw [List.getElem?_cons_succ] at hindex
      have hne : x ≠ node :=
        (ne_of_mem_of_not_mem (List.mem_of_getElem? hindex) hnotMem).symm
      simp [Function.update_of_ne hne, ih hnodup hindex]

section

variable (h : m.Represents queue returned filter)

include h

theorem Represents.capture (hqueue : node ∉ queue) (hreturned : node ∉ returned)
    (nbl : NetBufferList) (context : FilterNblContext) :
    (m.capture node (nbl.fnIoFilterNblSetContext (some context))).Represents
      (queue ++ [node]) returned (filter.capture nbl context) := by
  refine ⟨h.holds.capture hqueue hreturned _, h.params, ?_, ?_⟩
  · simp [LinkedFilter.capture, DataFilter.capture,
      NblCountedQueue.appendSingleNbl, h.nblQueue, map_update_of_notMem hqueue]
  · simp only [LinkedFilter.capture, DataFilter.capture, h.nblReturn]
    exact (map_update_of_notMem hreturned _ _).symm

theorem Represents.dequeue (index : ℕ) :
    ∃ m', m.fnIoDequeueFilteredFrame index =
        some ((Fnio.fnIoDequeueFilteredFrame filter index).1, m') ∧
      m'.Represents (kept index 0 queue) (returned ++ picked index 0 queue)
        (Fnio.fnIoDequeueFilteredFrame filter index).2 := by
  obtain ⟨m', heq, hparams, hnbl, hm'⟩ := h.holds.dequeue index
  obtain ⟨hstatus, hparams', hreturn, hqueue⟩ :=
    fnIoDequeueFilteredFrame_eq filter index
  refine ⟨m', ?_, hm', (hparams.trans h.params).trans hparams'.symm, ?_, ?_⟩
  · rw [heq, hstatus, h.nblQueue, ← map_picked]
    simp only [List.map_eq_nil_iff]
  · rw [hqueue, hnbl, h.nblQueue, map_kept]
  · rw [hreturn, hnbl, h.nblReturn, h.nblQueue, List.map_append, map_picked]

theorem Represents.fnIoFilterNb_matcher :
    fnIoFilterNb m.matcher = fnIoFilterNb filter := by
  funext netBuffer
  simp only [fnIoFilterNb, matcher, h.params]

theorem Represents.lookup (index subIndex : ℕ) :
    Fnio.fnIoGetFilteredFrameNb filter index subIndex =
      (m.fnIoGetFilteredFrameNb index subIndex).map fun found =>
        (m.nbl found.1, found.2) := by
  rw [h.holds.getFilteredFrameNb, Fnio.fnIoGetFilteredFrameNb, h.nblQueue,
    List.getElem?_map, h.fnIoFilterNb_matcher]
  cases queue[index]? with
  | none => rfl
  | some node =>
    simp only [Option.map_some, Option.bind_some, nthMatchingNb_eq]
    cases ((m.nbl node).netBuffers.filter (fnIoFilterNb filter))[subIndex]? <;>
      rfl

theorem Represents.set (index subIndex : ℕ) (frame : FrameInput) :
    (m.fnIoSetFilteredFrame index subIndex frame).1 =
        (Fnio.fnIoSetFilteredFrame filter index subIndex frame).1 ∧
      (m.fnIoSetFilteredFrame index subIndex frame).2.Represents queue returned
        (Fnio.fnIoSetFilteredFrame filter index subIndex frame).2 := by
  have hholds := h.holds.set index subIndex frame
  have hlookup := h.lookup index subIndex
  have hlinked := h.holds.getFilteredFrameNb index subIndex
  unfold fnIoSetFilteredFrame at hholds ⊢
  unfold Fnio.fnIoSetFilteredFrame
  split
  · exact ⟨rfl, h⟩
  · cases hfound : m.fnIoGetFilteredFrameNb index subIndex with
    | none =>
      rw [hfound] at hlookup
      simp only [hlookup, Option.map_none]
      exact ⟨trivial, h⟩
    | some found =>
      rw [hfound] at hlookup hlinked
      simp only [hlookup, Option.map_some]
      split
      · exact ⟨rfl, h⟩
      · next hnone =>
          have hindex : queue[index]? = some found.1 := by
            cases hqueue : queue[index]? with
            | none => simp [hqueue] at hlinked
            | some node =>
              simp only [hqueue, Option.bind_some] at hlinked
              obtain ⟨_, -, rfl⟩ :=
                Option.map_eq_some_iff.mp hlinked.symm
              rfl
          have hnotMem : found.1 ∉ returned :=
            h.holds.disjoint (List.mem_of_getElem? hindex)
          refine ⟨rfl, ⟨h.holds.nblQueue, h.holds.nblReturn,
            h.holds.disjoint⟩, h.params, ?_, ?_⟩
          · simp only [NblCountedQueue.modify, h.nblQueue]
            exact (map_update_eq_modify h.holds.nblQueue.nodup hindex m.nbl
              fun nbl => { nbl with info := (updateInfo frame nbl.info).2 }
              ).symm
          · exact h.nblReturn.trans
              (map_update_of_notMem hnotMem m.nbl _).symm

theorem Represents.flush (pool : ContextPool) :
    (m.fnIoFlushDequeuedFrames .empty).1.Represents queue []
      (Fnio.fnIoFlushDequeuedFrames pool filter .empty).2.1 := by
  obtain ⟨-, hholds⟩ := h.holds.flush (TailQueue.isQueue_empty _)
    (List.disjoint_nil_right _) (List.disjoint_nil_right _)
  exact ⟨hholds, h.params, h.nblQueue, rfl⟩

end

/-! ## Runs -/

/-- The calls on a filter, in memory and with its queues as lists.  A captured
NBL was in none of the queues. -/
inductive Run (params : FilterParams) : LinkedFilter → DataFilter → Prop where
  | create (next : ℕ → Option ℕ) (nbl : ℕ → NetBufferList) :
      Run params (create params next nbl) ⟨params, .empty, .empty, []⟩
  | capture {m : LinkedFilter} {filter : DataFilter} (hrun : Run params m filter)
      {node : ℕ} {nbl : NetBufferList} (context : FilterNblContext)
      (hqueue : ∀ n, TailQueue.walk m.next n m.nblQueue.first ≠ some node)
      (hreturn : ∀ n, TailQueue.walk m.next n m.nblReturn.first ≠ some node)
      (hmatch : nbl.netBuffers.any (fnIoFilterNb filter) = true) :
      Run params (m.capture node (nbl.fnIoFilterNblSetContext (some context)))
        (filter.capture nbl context)
  | set {m : LinkedFilter} {filter : DataFilter} (hrun : Run params m filter)
      (index subIndex : ℕ) (frame : FrameInput) :
      Run params (m.fnIoSetFilteredFrame index subIndex frame).2
        (Fnio.fnIoSetFilteredFrame filter index subIndex frame).2
  | dequeue {m m' : LinkedFilter} {filter : DataFilter}
      (hrun : Run params m filter) {index : ℕ} {status : NtStatus}
      (hdequeue : m.fnIoDequeueFilteredFrame index = some (status, m')) :
      Run params m' (Fnio.fnIoDequeueFilteredFrame filter index).2
  | flush {m : LinkedFilter} {filter : DataFilter} (hrun : Run params m filter)
      (pool : ContextPool) :
      Run params (m.fnIoFlushDequeuedFrames .empty).1
        (Fnio.fnIoFlushDequeuedFrames pool filter .empty).2.1

variable {params : FilterParams}

theorem notMem_of_walk {q : TailQueue ℕ} {next : ℕ → Option ℕ}
    (hq : q.IsQueue next nodes)
    (h : ∀ n, TailQueue.walk next n q.first ≠ some node) : node ∉ nodes := by
  intro hmem
  obtain ⟨n, hn⟩ := List.mem_iff_getElem?.mp hmem
  exact h n ((hq.chain.walk n).trans hn)

theorem Run.represents (hrun : Run params m filter) :
    ∃ queue returned, m.Represents queue returned filter := by
  induction hrun with
  | create next nbl => exact ⟨[], [], holds_create _ _ _, rfl, rfl, rfl⟩
  | capture hrun context hqueue hreturn hmatch ih =>
    obtain ⟨queue, returned, h⟩ := ih
    exact ⟨_, _, h.capture (notMem_of_walk h.holds.nblQueue hqueue)
      (notMem_of_walk h.holds.nblReturn hreturn) _ _⟩
  | set hrun index subIndex frame ih =>
    obtain ⟨queue, returned, h⟩ := ih
    exact ⟨queue, returned, (h.set index subIndex frame).2⟩
  | @dequeue m m' filter hrun index status hdequeue ih =>
    obtain ⟨queue, returned, h⟩ := ih
    obtain ⟨m'', heq, hm''⟩ := h.dequeue index
    rw [hdequeue] at heq
    cases heq
    exact ⟨_, _, hm''⟩
  | flush hrun pool ih =>
    obtain ⟨queue, returned, h⟩ := ih
    exact ⟨queue, [], h.flush pool⟩

theorem Run.matches (hrun : Run params m filter) :
    ∀ netBuffers ∈ filter.nblQueue.chain.map NetBufferList.netBuffers,
      netBuffers.any (fnIoFilterNb filter) = true := by
  induction hrun with
  | create next nbl => simp
  | capture hrun context hqueue hreturn hmatch ih =>
    intro netBuffers hmem
    simp only [DataFilter.capture, NblCountedQueue.appendSingleNbl,
      List.map_append, List.map_cons, List.map_nil, List.mem_append,
      List.mem_singleton] at hmem
    rcases hmem with hold | rfl
    · exact ih netBuffers hold
    · exact hmatch
  | @set m filter hrun index subIndex frame ih =>
    rw [fnIoSetFilteredFrame_map fun _ _ => rfl]
    rcases fnIoSetFilteredFrame_cases filter index subIndex frame with
      ⟨status, -, heq⟩ | ⟨nbl, nb, -, -, -, heq⟩
    · rw [heq]
      exact ih
    · rw [heq]
      exact ih
  | @dequeue m m' filter hrun index status hdequeue ih =>
    intro netBuffers hmem
    have hsublist := fnIoDequeueFilteredFrame_order filter index
    exact ih netBuffers ((hsublist.map _).subset hmem)
  | flush hrun pool ih => exact ih

/-! ## Agreement of the operations -/

/-- The operations agree on the frame at an index: the lookup finds the NBL
there and its matching packets by number, the dequeue moves this NBL, and a
flush hands over the return queue in order. -/
structure IndexingAgrees (m : LinkedFilter) (queue returned : List ℕ)
    (index : ℕ) : Prop where
  lookup : ∀ subIndex, m.fnIoGetFilteredFrameNb index subIndex =
    queue[index]?.bind fun node =>
      ((m.nbl node).netBuffers.filter (fnIoFilterNb m.matcher))[subIndex]?.map
        fun netBuffer => (node, netBuffer)
  found_iff : ∀ subIndex,
    (m.fnIoGetFilteredFrameNb index subIndex).isSome = true ↔
      ∃ h : index < queue.length,
        subIndex < (m.nbl queue[index]).netBuffers.countP
          (fnIoFilterNb m.matcher)
  first_found : index < queue.length →
    (m.fnIoGetFilteredFrameNb index 0).isSome = true
  dequeued : ∀ h : index < queue.length, ∃ m',
    m.fnIoDequeueFilteredFrame index = some (.success, m') ∧ m'.nbl = m.nbl ∧
      m'.Holds (queue.eraseIdx index) (returned ++ [queue[index]])
  not_dequeued : queue.length ≤ index → ∃ m',
    m.fnIoDequeueFilteredFrame index = some (.notFound, m') ∧
      m'.nbl = m.nbl ∧ m'.Holds queue returned
  flushed : ∀ flushQueue nodes, flushQueue.IsQueue m.next nodes →
    queue.Disjoint nodes → returned.Disjoint nodes →
      (m.fnIoFlushDequeuedFrames flushQueue).2.IsQueue
          (m.fnIoFlushDequeuedFrames flushQueue).1.next (nodes ++ returned) ∧
        (m.fnIoFlushDequeuedFrames flushQueue).1.Holds queue []

theorem Holds.found_iff (h : m.Holds queue returned) (index subIndex : ℕ) :
    (m.fnIoGetFilteredFrameNb index subIndex).isSome = true ↔
      ∃ h : index < queue.length,
        subIndex < (m.nbl queue[index]).netBuffers.countP
          (fnIoFilterNb m.matcher) := by
  rw [h.getFilteredFrameNb]
  by_cases hlt : index < queue.length
  · simp [hlt, List.countP_eq_length_filter]
  · simp [hlt]

theorem picked_of_length_le (hindex : index < 2 ^ 32)
    (hlength : queue.length ≤ index + 2 ^ 32) :
    picked index 0 queue = queue[index]?.toList ∧
      kept index 0 queue = queue.eraseIdx index :=
  picked_eq_getElem? ⟨by decide, hindex, by omega⟩ hlength

theorem Represents.indexingAgrees (h : m.Represents queue returned filter)
    (hmatches : ∀ netBuffers ∈
      filter.nblQueue.chain.map NetBufferList.netBuffers,
        netBuffers.any (fnIoFilterNb filter) = true) (hindex : index < 2 ^ 32)
    (hlength : queue.length ≤ index + 2 ^ 32) :
    m.IndexingAgrees queue returned index := by
  obtain ⟨m', hdequeue, -, hnbl, hm'⟩ := h.holds.dequeue index
  obtain ⟨hpicked, hkept⟩ := picked_of_length_le hindex hlength
  rw [hpicked, hkept] at hm'
  rw [hpicked] at hdequeue
  refine ⟨h.holds.getFilteredFrameNb index, h.holds.found_iff index, ?_, ?_, ?_,
    fun _ _ => h.holds.flush⟩
  · intro hlt
    refine (h.holds.found_iff index 0).mpr ⟨hlt, ?_⟩
    rw [h.fnIoFilterNb_matcher, List.countP_pos_iff]
    have hmem : (m.nbl queue[index]).netBuffers ∈
        filter.nblQueue.chain.map NetBufferList.netBuffers := by
      rw [h.nblQueue, List.map_map]
      exact List.mem_map_of_mem (List.getElem_mem hlt)
    simpa using hmatches _ hmem
  · intro hlt
    rw [List.getElem?_eq_getElem hlt] at hdequeue hm'
    exact ⟨m', by simpa using hdequeue, hnbl, hm'⟩
  · intro hge
    rw [List.getElem?_eq_none hge] at hdequeue hm'
    rw [List.eraseIdx_of_length_le hge] at hm'
    exact ⟨m', by simpa using hdequeue, hnbl, by simpa using hm'⟩

theorem Holds.dequeue_twice (h : m.Holds queue returned) (index : ℕ)
    (hindex : index < 2 ^ 32) (hlength : index + 2 ^ 32 < queue.length) :
    ∃ m', m.fnIoDequeueFilteredFrame index = some (.success, m') ∧
      returned.length + 2 ≤ m'.nblReturn.count := by
  obtain ⟨m', hdequeue, -, -, hm'⟩ := h.dequeue index
  have htwo : 2 ≤ (picked index 0 queue).length :=
    two_le_length_picked ⟨by decide, hindex, by omega⟩ hlength
  have hne : picked index 0 queue ≠ [] := List.length_pos_iff.mp (by omega)
  rw [if_neg hne] at hdequeue
  refine ⟨m', hdequeue, ?_⟩
  rw [hm'.nblReturn.count, List.length_append]
  omega

/-- The heads of the queues are always consistent.  Lookup, dequeue and flush
agree on an index if and only if the queue is not longer than the index and `2 ^
32`. -/
theorem indexing_agrees_iff (hrun : Run params m filter) (index : UInt32) :
    ∃ queue returned, m.Represents queue returned filter ∧
      (m.IndexingAgrees queue returned index.toNat ↔
        queue.length ≤ index.toNat + 2 ^ 32) := by
  obtain ⟨queue, returned, h⟩ := hrun.represents
  have hindex : index.toNat < 2 ^ 32 := index.toNat_lt
  refine ⟨queue, returned, h, ?_, h.indexingAgrees hrun.matches hindex⟩
  intro hagrees
  by_contra hlength
  obtain ⟨m', hdequeue, hcount⟩ :=
    h.holds.dequeue_twice _ hindex (Nat.lt_of_not_le hlength)
  obtain ⟨m'', hdequeue', -, hm''⟩ := hagrees.dequeued (by omega)
  rw [hdequeue] at hdequeue'
  cases hdequeue'
  have hone := hm''.nblReturn.count
  rw [List.length_append, List.length_singleton] at hone
  omega

def oneByteParams : FilterParams := .ofPairs (0, 0xFF) []

/-- An NBL with a packet of one byte, zero. -/
def zeroNbl : NetBufferList :=
  ⟨0, ⟨[], [⟨[0]⟩], 0, 1⟩, [], ⟨0, 0, 0, 0, 0, 0⟩, none⟩

theorem exists_run (n : ℕ) :
    ∃ m filter, Run oneByteParams m filter ∧ m.Holds (List.range n) [] ∧
      filter.params = oneByteParams := by
  induction n with
  | zero =>
    exact ⟨_, _, .create (fun _ => none) (fun _ => zeroNbl),
      holds_create _ _ _, rfl⟩
  | succ n ih =>
    obtain ⟨m, filter, hrun, hm, hparams⟩ := ih
    refine ⟨m.capture n (zeroNbl.fnIoFilterNblSetContext
        (some ⟨n, ⟨0, 0⟩, 0⟩)),
      filter.capture zeroNbl ⟨n, ⟨0, 0⟩, 0⟩, hrun.capture _ ?_ ?_ ?_, ?_,
      hparams⟩
    · intro k
      rw [hm.nblQueue.chain.walk]
      exact fun hk => by simpa using List.mem_of_getElem? hk
    · intro k
      rw [hm.nblReturn.chain.walk]
      simp
    · simp only [zeroNbl, NetBufferList.netBuffers, List.any_cons,
        List.any_nil, fnIoFilterNb, hparams]
      decide
    · rw [List.range_succ]
      exact hm.capture (by simp) (by simp) _

/-- Three NBLs have been captured, and the operations agree on the second. -/
theorem indexing_agrees_iff_second :
    ∃ m filter, Run oneByteParams m filter ∧ m.nblQueue.count = 3 ∧
      ∃ queue returned, m.Represents queue returned filter ∧
        queue.length = 3 ∧ m.IndexingAgrees queue returned 1 := by
  obtain ⟨m, filter, hrun, hm, -⟩ := exists_run 3
  obtain ⟨queue, returned, h, hiff⟩ := indexing_agrees_iff hrun 1
  have hcount : m.nblQueue.count = 3 := hm.nblQueue.count
  have hlength : queue.length = 3 := by
    rw [← h.holds.nblQueue.count, hcount]
  refine ⟨m, filter, hrun, hcount, queue, returned, h, hlength, hiff.mpr ?_⟩
  rw [hlength]
  decide

/-- With `2 ^ 32 + 1` captured NBLs the dequeue of the first one takes another
one off as well. -/
theorem dequeue_takes_two : ∃ m filter m', Run oneByteParams m filter ∧
      m.nblQueue.count = 2 ^ 32 + 1 ∧ m.nblReturn.count = 0 ∧
      m.fnIoDequeueFilteredFrame 0 = some (.success, m') ∧
      2 ≤ m'.nblReturn.count := by
  obtain ⟨m, filter, hrun, hm, -⟩ := exists_run (2 ^ 32 + 1)
  have hlength : (List.range (2 ^ 32 + 1)).length = 2 ^ 32 + 1 :=
    List.length_range
  obtain ⟨m', hdequeue, hcount⟩ :=
    hm.dequeue_twice 0 (by decide) (by rw [hlength]; omega)
  exact ⟨m, filter, m', hrun, hm.nblQueue.count.trans hlength,
    hm.nblReturn.count, hdequeue, by simpa using hcount⟩

end LinkedFilter

end WinNetTest.Fnio
