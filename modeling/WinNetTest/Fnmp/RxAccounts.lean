import WinNetTest.Fnmp.RxInject
import Mathlib.Data.Multiset.Range

/-!
# The accounts of receive injection

In every interleaving of the calls on any number of handles, each NBL is in
exactly one place, the references that flushes hold are those of the NBLs that
NDIS has, up to calls still running, and what has been taken from the queue of
a handle is, with what is still queued, what was enqueued, in order.
-/

namespace WinNetTest.Fnmp.RxInject

open Support Fnio

/-! ## Places and references -/

def Call.ids : Call → Multiset ℕ
  | .enqueuing _ nbl => {nbl.id}
  | .discarding nbl => {nbl.id}
  | .flushing _ _ nbls => nbls.ids
  | .referenced _ _ nbls => nbls.ids
  | .indicating nbls => nbls.ids
  | .handedBack nbls => nbls.ids
  | .freeing nbls => nbls.ids
  | .returning nbls => nbls
  | .releasing _ => 0

def Call.discarded : Call → Multiset ℕ
  | .discarding nbl => {nbl.id}
  | _ => 0

def Call.references : Call → ℕ
  | .referenced _ _ nbls => nbls.nblCount
  | .indicating nbls => nbls.nblCount
  | .handedBack nbls => nbls.nblCount
  | .returning nbls => nbls.length
  | .releasing count => count
  | _ => 0

def Shared.queuedIds (x : Shared) : Multiset ℕ :=
  x.handles.total fun _ => NblCountedQueue.ids

def placed (s : Pool Shared Call) : Multiset ℕ :=
  s.shared.freed + s.shared.queuedIds + s.shared.ndis +
    s.calls.total fun _ => Call.ids

/-! ## Order -/

def chainsOf (h : ℕ) (log : List (ℕ × List ℕ)) : List ℕ :=
  log.flatMap fun entry => if entry.1 = h then entry.2 else []

def idsOf (h : ℕ) (log : List (ℕ × ℕ)) : List ℕ :=
  log.flatMap fun entry => if entry.1 = h then [entry.2] else []

def Shared.queueOf (x : Shared) (h : ℕ) : List ℕ :=
  (x.handles.lookup h).elim [] queueIds

/-- The handle and the chain of a flush that has taken the chain and neither
indicated nor freed it. -/
def Call.pending : Call → Option (ℕ × List ℕ)
  | .flushing h _ nbls => some (h, queueIds nbls)
  | .referenced h _ nbls => some (h, queueIds nbls)
  | _ => none

def Call.pendingHandle (call : Call) : Multiset ℕ :=
  call.pending.elim 0 fun entry => {entry.1}

/-- No two flushes of one handle are between taking a chain and disposing of
it. -/
def FlushesApart (s : Pool Shared Call) : Prop :=
  (s.calls.total fun _ => Call.pendingHandle).Nodup

instance (s : Pool Shared Call) : Decidable (FlushesApart s) :=
  inferInstanceAs (Decidable (Multiset.Nodup _))

/-! ## Bounds of the counters -/

/-- A queue never outgrows the `UINT32` that its count is cast to. -/
def Bounded (queue : NblCountedQueue) : Prop :=
  queue.nblCount < 2 ^ 32

def Call.Bounded : Call → Prop
  | .flushing _ _ nbls => RxInject.Bounded nbls
  | .referenced _ _ nbls => RxInject.Bounded nbls
  | .indicating nbls => RxInject.Bounded nbls
  | .handedBack nbls => RxInject.Bounded nbls
  | _ => True

/-- Queues and chains are bounded; handles are numbered in order. -/
def QueuesBounded : Pool Shared Call → Prop :=
  Program.Annotated
    (fun _ x =>
      ∀ h queue, x.handles.lookup h = some queue →
        h < x.nextHandle ∧ Bounded queue)
    (fun _ _ => Call.Bounded)

variable {queue : NblCountedQueue} {x y : Shared} {h n c : ℕ}
    {s : Pool Shared Call} {rss : RssQueues} {before after : Option Call}

theorem queues_bounded_of_insert
    (hx : ∀ h queue, x.handles.lookup h = some queue →
      h < x.nextHandle ∧ Bounded queue) (hle : x.nextHandle ≤ n) (hlt : h < n)
    (hqueue : Bounded queue) (h' : ℕ) (queue' : NblCountedQueue)
    (hlookup : (x.handles.insert h queue).lookup h' = some queue') :
    h' < n ∧ Bounded queue' := by
  by_cases heq : h' = h
  · subst heq
    rw [AList.lookup_insert] at hlookup
    cases hlookup
    exact ⟨hlt, hqueue⟩
  · rw [AList.lookup_insert_ne heq] at hlookup
    exact ⟨(hx h' queue' hlookup).1.trans_le hle, (hx h' queue' hlookup).2⟩

theorem bounded_empty : Bounded .empty := by
  simp [Bounded, NblCountedQueue.empty]

theorem queuesBounded (hs : (machine rss).Reachable s) : QueuesBounded s := by
  refine Program.invariant ?_ ?_ hs
  · exact ⟨by simp [program, Program.machine, Shared.initial],
      by simp [Program.machine]⟩
  · intro s c before n y after hs ih hbefore hturn
    have hcall : ∀ call, before = some call → call.Bounded := by
      intro call hc
      exact ih.calls c call (hbefore.trans hc)
    refine Program.Annotated.turn ?_ ?_ fun c' call _ hlookup =>
      ih.calls c' call hlookup
    · cases Action.of_turn hturn with
      | opened =>
        exact queues_bounded_of_insert ih.shared (Nat.le_succ _)
          (Nat.lt_succ_self _) bounded_empty
      | @closed h queue hqueue =>
        intro h' queue' hlookup
        by_cases heq : h' = h
        · subst heq
          rw [AList.lookup_erase] at hlookup
          cases hlookup
        · rw [AList.lookup_erase_ne heq] at hlookup
          exact ih.shared h' queue' hlookup
      | took hqueue =>
        exact queues_bounded_of_insert ih.shared le_rfl
          (ih.shared _ _ hqueue).1 bounded_empty
      | @appended h nbl queue hqueue hroom =>
        have hnext : Bounded (queue.appendSingleNbl nbl) := by
          simp only [Bounded, NblCountedQueue.appendSingleNbl]
          omega
        exact queues_bounded_of_insert ih.shared le_rfl
          (ih.shared _ _ hqueue).1 hnext
      | _ => exact ih.shared
    · intro call hafter
      cases Action.of_turn hturn with
      | took hqueue =>
        cases hafter
        exact (ih.shared _ _ hqueue).2
      | acquired hacquire =>
        cases hafter
        exact hcall (.flushing _ _ _) rfl
      | lent =>
        cases hafter
        exact hcall (.referenced _ _ _) rfl
      | handedBack =>
        cases hafter
        exact hcall (.indicating _) rfl
      | _ =>
        cases hafter <;> trivial

/-! ## Every NBL is in one place -/

theorem queuedIds_insert (hqueue : x.handles.lookup h = some queue)
    (next : NblCountedQueue) :
    Table.total (fun _ => NblCountedQueue.ids) (x.handles.insert h next) +
        queue.ids =
      x.queuedIds + next.ids :=
  Table.total_update (fun _ => NblCountedQueue.ids) next hqueue

theorem queuedIds_erase (hqueue : x.handles.lookup h = some queue) :
    x.queuedIds = queue.ids +
        Table.total (fun _ => NblCountedQueue.ids) (x.handles.erase h) :=
  Table.total_eq_of_lookup (fun _ => NblCountedQueue.ids) hqueue

theorem coe_queueIds (queue : NblCountedQueue) :
    (queueIds queue : Multiset ℕ) = queue.ids := rfl

def Shared.settled (x : Shared) : Multiset ℕ :=
  x.freed + x.queuedIds + x.ndis

theorem Action.places (h : Action x before y after)
    (hfresh : x.handles.lookup x.nextHandle = none) :
    Multiset.range y.nextNbl + (before.elim 0 Call.ids + x.settled) =
      Multiset.range x.nextNbl + (after.elim 0 Call.ids + y.settled) := by
  cases h with
  | opened =>
    have hqueues : Table.total (fun _ => NblCountedQueue.ids)
        (x.handles.insert x.nextHandle .empty) = x.queuedIds := by
      rw [Table.total_insert_of_lookup_none _ _ hfresh]
      simp [Shared.queuedIds]
    simp only [Shared.settled, Shared.queuedIds, hqueues, Option.elim]
  | closed hqueue =>
    have hqueues := queuedIds_erase hqueue
    simp only [Shared.settled, Option.elim, hqueues, ← Multiset.coe_add,
      coe_queueIds]
    simp only [Shared.queuedIds]
    abel
  | prepared hid =>
    simp only [Shared.settled, Shared.queuedIds, Option.elim, Call.ids, hid,
      Multiset.range_succ, ← Multiset.singleton_add]
    abel
  | rejected =>
    simp only [Shared.settled, Shared.queuedIds, Option.elim,
      Multiset.range_succ, ← Multiset.singleton_add, ← Multiset.coe_add,
      Multiset.coe_singleton]
    abel
  | took hqueue =>
    have hqueues := queuedIds_insert hqueue .empty
    rw [NblCountedQueue.ids_empty, add_zero] at hqueues
    simp only [Shared.settled, Option.elim, Call.ids, ← hqueues]
    simp only [Shared.queuedIds]
    abel
  | @returned nbls hle =>
    have hndis := Multiset.sub_add_cancel hle
    generalize x.ndis - (nbls : Multiset ℕ) = rest at hndis
    simp only [Shared.settled, Shared.queuedIds, Option.elim, Call.ids, ← hndis]
    abel
  | @appended h nbl queue hqueue hroom =>
    have hqueues := queuedIds_insert hqueue (queue.appendSingleNbl nbl)
    rw [NblCountedQueue.ids_appendSingleNbl,
      add_comm queue.ids, ← add_assoc] at hqueues
    have hgrown := add_right_cancel hqueues
    simp only [Shared.settled, Option.elim, Call.ids]
    simp only [Shared.queuedIds] at hgrown ⊢
    rw [hgrown]
    abel
  | discarded =>
    simp only [Shared.settled, Shared.queuedIds, Shared.cleanupNblChain,
      Option.elim, Call.ids, ← Multiset.coe_add, Multiset.coe_singleton]
    abel
  | indicated =>
    simp only [Shared.settled, Shared.queuedIds, Option.elim, Call.ids,
      coe_queueIds]
    abel
  | freed =>
    simp only [Shared.settled, Shared.queuedIds, Shared.cleanupNblChain,
      Option.elim, Call.ids, ← Multiset.coe_add, coe_queueIds]
    abel
  | cleaned =>
    simp only [Shared.settled, Shared.queuedIds, Shared.cleanupNblChain,
      Option.elim, Call.ids, ← Multiset.coe_add]
    abel
  | _ => rfl

theorem lookup_nextHandle (hs : (machine rss).Reachable s) :
    s.shared.handles.lookup s.shared.nextHandle = none := by
  by_contra hne
  obtain ⟨_, hqueue⟩ := Option.ne_none_iff_exists'.mp hne
  exact Nat.lt_irrefl _ ((queuesBounded hs).shared _ _ hqueue).1

theorem placed_eq (hs : (machine rss).Reachable s) :
    placed s = Multiset.range s.shared.nextNbl := by
  have hconserved := Program.conserved
    (fun _ => Call.ids) (fun x => Multiset.range x.nextNbl) Shared.settled
    rfl (fun s c before n y after hs _ _ hturn =>
      (Action.of_turn hturn).places (lookup_nextHandle hs)) hs
  rw [hconserved, placed, Shared.settled]
  exact add_comm _ _

/-! ## References -/

theorem mod_of_bounded (h : Bounded queue) :
    queue.nblCount % 2 ^ 32 = queue.nblCount :=
  Nat.mod_eq_of_lt h

/-- The references whose NBLs NDIS has, and those that a wrapped count did not
release. -/
def Shared.lent (x : Shared) : ℕ :=
  Multiset.card x.ndis + x.uncounted

theorem Action.references (h : Action x before y after)
    (hbounded : ∀ call ∈ before, call.Bounded)
    (hheld : before.elim 0 Call.references ≤ x.flushReferences) :
    y.flushReferences + (before.elim 0 Call.references + x.lent) =
      x.flushReferences + (after.elim 0 Call.references + y.lent) := by
  cases h with
  | returned hle =>
    have hcard := Multiset.card_sub hle
    have hcardle := Multiset.card_le_card hle
    rw [Multiset.coe_card] at hcard hcardle
    simp only [Option.elim, Call.references, Shared.lent]
    omega
  | acquired hacquire =>
    have hcount := mod_of_bounded (hbounded (.flushing _ _ _) rfl)
    simp only [Option.elim, Call.references, Shared.lent]
    omega
  | @indicated h nbls =>
    have hcard : (queueIds nbls).length = nbls.nblCount := by
      simp [queueIds, nbls.counted]
    simp only [Option.elim, Call.references, Shared.lent,
      Multiset.card_add, Multiset.coe_card]
    omega
  | released =>
    have hcount := mod_of_bounded (hbounded (.handedBack _) rfl)
    simp only [Option.elim, Call.references] at hheld
    simp only [Option.elim, Call.references, Shared.lent,
      Shared.releaseReferences]
    omega
  | @cleaned nbls =>
    have hle := Nat.mod_le nbls.length (2 ^ 32)
    simp only [Option.elim, Call.references, Shared.lent,
      Shared.cleanupNblChain]
    omega
  | counted =>
    simp only [Option.elim, Call.references] at hheld
    simp only [Option.elim, Call.references, Shared.lent,
      Shared.releaseReferences]
    omega
  | _ => rfl

theorem references_le_total (hbefore : s.calls.lookup c = before) :
    before.elim 0 Call.references ≤ s.calls.total fun _ => Call.references := by
  cases before with
  | none => exact Nat.zero_le _
  | some call =>
    rw [Table.total_eq_of_lookup (fun _ => Call.references) hbefore]
    exact Nat.le_add_right _ _

section

variable (hs : (machine rss).Reachable s)

include hs

theorem flushReferences_eq :
    s.shared.flushReferences =
      s.calls.total (fun _ => Call.references) + s.shared.lent := by
  refine Program.conserved (fun _ => Call.references)
    Shared.flushReferences Shared.lent rfl ?_ hs
  intro s c before n y after hs ih hbefore hturn
  refine (Action.of_turn hturn).references ?_ ?_
  · intro call hc
    exact (queuesBounded hs).calls c call (hbefore.trans hc)
  · exact (references_le_total hbefore).trans (ih ▸ Nat.le_add_right _ _)

theorem references_held (hbefore : s.calls.lookup c = before) :
    before.elim 0 Call.references ≤ s.shared.flushReferences :=
  (references_le_total hbefore).trans
    (flushReferences_eq hs ▸ Nat.le_add_right _ _)

theorem rundown_count :
    s.shared.rundown.count =
      s.shared.flushReferences + s.shared.sendReferences := by
  refine Program.invariant
    (I := fun s => s.shared.rundown.count =
      s.shared.flushReferences + s.shared.sendReferences) rfl ?_ hs
  intro s c before n y after hs ih hbefore hturn
  have hheld := references_held hs hbefore
  have hbounded : ∀ call, before = some call → call.Bounded := fun call hc =>
    (queuesBounded hs).calls c call (hbefore.trans hc)
  cases Action.of_turn hturn with
  | sent hacquire | acquired hacquire =>
    have hcount := Rundown.acquire_count hacquire
    simp only at ih ⊢
    omega
  | sendCompleted hle =>
    simp only [Rundown.release] at ih ⊢
    omega
  | restarted hreleased =>
    simp only [Rundown.initialized] at ih ⊢
    omega
  | released =>
    have hcount := mod_of_bounded (hbounded (.handedBack _) rfl)
    simp only [Option.elim, Call.references] at hheld
    simp only [Shared.releaseReferences, Rundown.release] at ih ⊢
    omega
  | counted =>
    simp only [Option.elim, Call.references] at hheld
    simp only [Shared.releaseReferences, Rundown.release] at ih ⊢
    omega
  | _ => exact ih

end

/-! ## Failed enqueues -/

def Call.undecided : Call → Multiset ℕ
  | .enqueuing _ nbl => {nbl.id}
  | _ => 0

def Shared.decided (x : Shared) : Multiset ℕ :=
  (x.enqueued.map Prod.snd : Multiset ℕ) + x.failed

theorem Action.decides (h : Action x before y after) :
    Multiset.range y.nextNbl + (before.elim 0 Call.undecided + x.decided) =
      Multiset.range x.nextNbl + (after.elim 0 Call.undecided + y.decided) := by
  cases h with
  | prepared hid =>
    simp only [Shared.decided, Option.elim, Call.undecided, hid,
      Multiset.range_succ, ← Multiset.singleton_add]
    abel
  | rejected =>
    simp only [Shared.decided, Option.elim, Multiset.range_succ,
      ← Multiset.singleton_add, ← Multiset.coe_add, Multiset.coe_singleton]
    abel
  | appended hqueue hroom =>
    simp only [Shared.decided, Option.elim, Call.undecided, List.map_append,
      List.map_cons, List.map_nil, ← Multiset.coe_add, Multiset.coe_singleton]
    abel
  | overflowed =>
    simp only [Shared.decided, Option.elim, Call.undecided,
      ← Multiset.coe_add, Multiset.coe_singleton]
    abel
  | _ => rfl

theorem decided_le (hs : (machine rss).Reachable s) :
    s.shared.decided ≤ Multiset.range s.shared.nextNbl := by
  have hconserved := Program.conserved
    (fun _ => Call.undecided) (fun x => Multiset.range x.nextNbl)
    Shared.decided rfl
    (fun s c before n y after _ _ _ hturn => (Action.of_turn hturn).decides) hs
  rw [hconserved]
  exact Multiset.le_add_left _ _

theorem not_enqueued_of_failed (hs : (machine rss).Reachable s)
    (hn : n ∈ s.shared.failed) :
    n ∉ s.shared.enqueued.map Prod.snd := by
  have hnodup := Multiset.nodup_of_le (decided_le hs) (Multiset.nodup_range _)
  intro hmem
  exact Multiset.disjoint_left.mp (Multiset.nodup_add.mp hnodup).2.2
    (Multiset.mem_coe.mpr hmem) (Multiset.mem_coe.mpr hn)

theorem discarded_le_ids (call : Call) : call.discarded ≤ call.ids := by
  cases call with
  | discarding nbl => exact le_rfl
  | _ => exact Multiset.zero_le _

theorem freed_or_discarded (hs : (machine rss).Reachable s) :
    ∀ n ∈ s.shared.failed,
      n ∈ s.shared.freed ∨ n ∈ s.calls.total fun _ => Call.discarded := by
  refine Program.invariant
    (I := fun s => ∀ n ∈ s.shared.failed,
      n ∈ s.shared.freed ∨ n ∈ s.calls.total fun _ => Call.discarded)
    (by simp [program, Program.machine, Shared.initial]) ?_ hs
  intro s c before n y after hs ih hbefore hturn i hi
  have hfreed : i ∈ s.shared.freed → i ∈ y.freed := by
    cases Action.of_turn hturn <;>
      simp +contextual [Shared.cleanupNblChain, Shared.releaseReferences]
  have hnew : i ∈ s.shared.failed ∨ i ∈ y.freed ∨
      i ∈ after.elim 0 Call.discarded := by
    cases Action.of_turn hturn with
    | rejected =>
      simp only [List.mem_append] at hi ⊢
      tauto
    | overflowed =>
      simp only [List.mem_append, List.mem_singleton] at hi
      simpa [Call.discarded] using hi.imp_right Or.inr
    | _ => exact Or.inl hi
  have hdone : i ∈ before.elim 0 Call.discarded → i ∈ y.freed := by
    cases Action.of_turn hturn with
    | discarded => simp +contextual [Call.discarded, Shared.cleanupNblChain]
    | _ => simp [Call.discarded]
  have hput := s.calls.total_put (fun _ => Call.discarded) c after
  rw [hbefore] at hput
  have hcase : i ∈ y.freed ∨ i ∈ s.calls.total (fun _ => Call.discarded) +
        after.elim 0 Call.discarded := by
    rw [Multiset.mem_add]
    rcases hnew with hold | hnew
    · exact (ih i hold).imp hfreed Or.inl
    · exact hnew.imp_right Or.inr
  rcases hcase with hfree | hmem
  · exact Or.inl hfree
  · rw [← hput, Multiset.mem_add] at hmem
    exact hmem.symm.imp_left hdone

/-! ## Order -/

theorem chainsOf_concat (h h' : ℕ) (log : List (ℕ × List ℕ)) (ids : List ℕ) :
    chainsOf h (log ++ [(h', ids)]) =
      chainsOf h log ++ if h' = h then ids else [] := by
  simp [chainsOf]

theorem idsOf_concat (h h' n : ℕ) (log : List (ℕ × ℕ)) :
    idsOf h (log ++ [(h', n)]) = idsOf h log ++ if h' = h then [n] else [] := by
  simp [idsOf]

theorem queueOf_insert (x : Shared) (h h' : ℕ) (queue : NblCountedQueue) :
    ((x.handles.insert h queue).lookup h').elim [] queueIds =
      if h' = h then queueIds queue else x.queueOf h' := by
  by_cases heq : h' = h
  · subst heq
    simp
  · simp [heq, Shared.queueOf]

theorem queueOf_of_lookup (hqueue : x.handles.lookup h = some queue) :
    x.queueOf h = queueIds queue := by
  simp [Shared.queueOf, hqueue]

theorem Action.order (hact : Action x before y after)
    (hfresh : x.handles.lookup x.nextHandle = none)
    (hx : chainsOf h x.taken ++ x.queueOf h = idsOf h x.enqueued) :
    chainsOf h y.taken ++ y.queueOf h = idsOf h y.enqueued := by
  cases hact with
  | opened =>
    rw [← hx, Shared.queueOf, queueOf_insert]
    split
    · rename_i heq
      rw [Shared.queueOf, heq, hfresh]
      rfl
    · rfl
  | @closed h' queue hqueue =>
    rw [← hx, chainsOf_concat, Shared.queueOf]
    by_cases heq : h = h'
    · subst heq
      simp [queueOf_of_lookup hqueue]
    · simp [heq, Ne.symm heq, Shared.queueOf]
  | @took h' lowResources queue hqueue =>
    rw [← hx, chainsOf_concat, Shared.queueOf, queueOf_insert]
    by_cases heq : h = h'
    · subst heq
      simp [queueOf_of_lookup hqueue, queueIds, NblCountedQueue.empty]
    · simp [heq, Ne.symm heq]
  | @appended h' nbl queue hqueue hroom =>
    rw [idsOf_concat, ← hx, Shared.queueOf, queueOf_insert]
    by_cases heq : h = h'
    · subst heq
      simp [queueOf_of_lookup hqueue, queueIds, NblCountedQueue.appendSingleNbl]
    · simp [heq, Ne.symm heq]
  | _ => exact hx

theorem taken_append_queue (hs : (machine rss).Reachable s) (h : ℕ) :
    chainsOf h s.shared.taken ++ s.shared.queueOf h =
      idsOf h s.shared.enqueued := by
  refine Program.invariant
    (I := fun s => chainsOf h s.shared.taken ++ s.shared.queueOf h =
      idsOf h s.shared.enqueued) rfl ?_ hs
  intro s c before n y after hs ih hbefore hturn
  exact (Action.of_turn hturn).order (lookup_nextHandle hs) ih

/-- What an action adds to the two logs: nothing, a chain it takes, or the
chain that the call has taken before. -/
inductive Logs (x : Shared) (before : Option Call) (y : Shared)
    (after : Option Call) : Prop
  | quiet (htaken : y.taken = x.taken) (hindicated : y.indicated = x.indicated)
      (hpending : ∀ entry ∈ after.bind Call.pending,
        entry ∈ before.bind Call.pending)
  | takes (entry : ℕ × List ℕ) (htaken : y.taken = x.taken ++ [entry])
      (hindicated : y.indicated = x.indicated)
      (hpending : ∀ e ∈ after.bind Call.pending, e = entry)
  | indicates (entry : ℕ × List ℕ) (htaken : y.taken = x.taken)
      (hindicated : y.indicated = x.indicated ++ [entry])
      (hbefore : before.bind Call.pending = some entry)
      (hafter : after.bind Call.pending = none)

theorem Action.logs (h : Action x before y after) : Logs x before y after := by
  cases h with
  | closed hqueue => exact .takes _ rfl rfl (by simp)
  | took hqueue => exact .takes _ rfl rfl (by simp [Call.pending])
  | lent | indicated => exact .indicates _ rfl rfl rfl rfl
  | _ => exact .quiet rfl rfl (by simp [Call.pending])

theorem FlushesApart.ne (hs : FlushesApart s) {c' : ℕ} {call call' : Call}
    (hc : c' ≠ c) (hcall : s.calls.lookup c = some call)
    (hcall' : s.calls.lookup c' = some call') {entry entry' : ℕ × List ℕ}
    (hentry : call.pending = some entry)
    (hentry' : call'.pending = some entry') : entry'.1 ≠ entry.1 := by
  intro heq
  have hrest : (s.calls.erase c).lookup c' = some call' := by
    rw [AList.lookup_erase_ne hc]
    exact hcall'
  unfold FlushesApart at hs
  rw [Table.total_eq_of_lookup (fun _ => Call.pendingHandle) hcall,
    Multiset.nodup_add] at hs
  refine Multiset.disjoint_left.mp hs.2.2 (show entry.1 ∈ _ from ?_) ?_
  · simp [Call.pendingHandle, hentry]
  · exact Table.mem_total.mpr
      ⟨c', call', hrest, by simp [Call.pendingHandle, hentry', heq]⟩

/-- The chains indicated so far, followed by the chain that a flush is about
to indicate, are chains taken, in the same order. -/
def InOrder : Pool Shared Call → Prop :=
  Program.Annotated
    (fun _ x => ∀ h, (chainsOf h x.indicated).Sublist (chainsOf h x.taken))
    (fun x _ call => ∀ entry ∈ call.pending,
      (chainsOf entry.1 x.indicated ++ entry.2).Sublist
        (chainsOf entry.1 x.taken))

theorem sublist_chainsOf_concat {l : List ℕ} {log : List (ℕ × List ℕ)}
    (hl : l.Sublist (chainsOf h log)) (entry : ℕ × List ℕ) :
    l.Sublist (chainsOf h (log ++ [entry])) := by
  rw [chainsOf_concat]
  exact hl.trans (List.sublist_append_left _ _)

theorem inOrder_turn (hapart : FlushesApart s) (hs : InOrder s)
    (hbefore : s.calls.lookup c = before)
    (hturn : (program rss).Turn s c before n y after) :
    InOrder ⟨y, s.calls.put c after, n⟩ := by
  have hown : ∀ entry ∈ before.bind Call.pending,
      (chainsOf entry.1 s.shared.indicated ++ entry.2).Sublist
        (chainsOf entry.1 s.shared.taken) := by
    intro entry hentry
    obtain ⟨call, hcall, hpending⟩ := Option.bind_eq_some_iff.mp hentry
    exact hs.calls c call (hbefore.trans hcall) entry hpending
  have hmem : ∀ call ∈ after, ∀ entry ∈ call.pending,
      entry ∈ after.bind Call.pending := by
    intro call hcall entry hentry
    rw [hcall]
    exact hentry
  cases (Action.of_turn hturn).logs with
  | quiet htaken hindicated hpending =>
    refine Program.Annotated.turn ?_ ?_ ?_
    · rw [htaken, hindicated]
      exact hs.shared
    · intro call hcall entry hentry
      rw [htaken, hindicated]
      exact hown entry (hpending entry (hmem call hcall entry hentry))
    · intro c' call hc hcall
      rw [htaken, hindicated]
      exact hs.calls c' call hcall
  | takes entry htaken hindicated hpending =>
    refine Program.Annotated.turn ?_ ?_ ?_
    · intro h
      rw [htaken, hindicated]
      exact sublist_chainsOf_concat (hs.shared h) entry
    · intro call hcall entry' hentry'
      obtain rfl := hpending entry' (hmem call hcall entry' hentry')
      rw [htaken, hindicated, chainsOf_concat, if_pos rfl]
      exact (hs.shared entry'.1).append_right entry'.2
    · intro c' call hc hcall entry' hentry'
      rw [htaken, hindicated]
      exact sublist_chainsOf_concat (hs.calls c' call hcall entry' hentry')
        entry
  | indicates entry htaken hindicated hpending hafter =>
    refine Program.Annotated.turn ?_ ?_ ?_
    · intro h
      rw [htaken, hindicated, chainsOf_concat]
      split
      · rename_i heq
        exact heq ▸ hown entry hpending
      · rw [List.append_nil]
        exact hs.shared h
    · intro call hcall entry' hentry'
      have hsome := hmem call hcall entry' hentry'
      rw [hafter] at hsome
      cases hsome
    · intro c' call hc hcall entry' hentry'
      obtain ⟨own, hcallOwn, hpendingOwn⟩ :=
        Option.bind_eq_some_iff.mp hpending
      have hne := hapart.ne hc (hbefore.trans hcallOwn) hcall hpendingOwn
        hentry'
      rw [htaken, hindicated, chainsOf_concat, if_neg hne.symm, List.append_nil]
      exact hs.calls c' call hcall entry' hentry'

theorem indicated_sublist
    (hs : (machine rss).ReachableWithin (fun s _ => FlushesApart s) s) (h : ℕ) :
    (chainsOf h s.shared.indicated).Sublist (idsOf h s.shared.enqueued) := by
  have horder : InOrder s := by
    refine Program.invariant_along ?_ ?_ hs
    · exact ⟨by simp [program, Program.machine, Shared.initial],
        by simp [Program.machine]⟩
    · intro s c before n y after _ hapart ih hbefore hturn
      exact inOrder_turn hapart ih hbefore hturn
  rw [← taken_append_queue hs.reachable h]
  exact (horder.shared h).trans (List.sublist_append_left _ _)

theorem taken_of_indicated (hs : (machine rss).Reachable s) :
    ∀ entry ∈ s.shared.indicated, entry ∈ s.shared.taken := by
  have htaken : Program.Annotated
      (fun _ x => ∀ entry ∈ x.indicated, entry ∈ x.taken)
      (fun x _ call => ∀ entry ∈ call.pending, entry ∈ x.taken) s := by
    refine Program.invariant
      ?_ ?_ hs
    · exact ⟨by simp [program, Program.machine, Shared.initial],
        by simp [Program.machine]⟩
    · intro s c before n y after hs ih hbefore hturn
      have hown : ∀ entry ∈ before.bind Call.pending,
          entry ∈ s.shared.taken := by
        intro entry hentry
        obtain ⟨call, hcall, hpending⟩ := Option.bind_eq_some_iff.mp hentry
        exact ih.calls c call (hbefore.trans hcall) entry hpending
      have hgrows : ∀ entry ∈ s.shared.taken, entry ∈ y.taken := by
        intro entry hentry
        cases (Action.of_turn hturn).logs with
        | quiet htaken | indicates _ htaken => exact htaken ▸ hentry
        | takes _ htaken _ _ =>
          exact htaken ▸ List.mem_append_left _ hentry
      refine Program.Annotated.turn ?_ ?_ fun c' call _ hcall entry hentry =>
        hgrows entry (ih.calls c' call hcall entry hentry)
      · intro entry hentry
        cases (Action.of_turn hturn).logs with
        | quiet _ hindicated | takes _ _ hindicated =>
          exact hgrows entry (ih.shared entry (hindicated ▸ hentry))
        | indicates entry' _ hindicated hpending _ =>
          rw [hindicated, List.mem_append, List.mem_singleton] at hentry
          rcases hentry with hold | rfl
          · exact hgrows entry (ih.shared entry hold)
          · exact hgrows entry (hown entry hpending)
      · intro call hcall entry hentry
        have hmem : entry ∈ after.bind Call.pending := by
          rw [hcall]
          exact hentry
        cases (Action.of_turn hturn).logs with
        | quiet _ _ hpending =>
          exact hgrows entry (hown entry (hpending entry hmem))
        | takes entry' htaken _ hpending =>
          rw [htaken, hpending entry hmem]
          exact List.mem_append_right _ (List.mem_singleton_self _)
        | indicates _ _ _ _ hafter =>
          rw [hafter] at hmem
          cases hmem
  exact htaken.shared

/-! ## The accounts -/

/-- The moves of `SharedIrpRxEnqueue`. -/
def Enqueues (s : Pool Shared Call) : Move Input → Prop
  | .start input => ∃ h request, input = .enqueue h request
  | .advance c => ∃ h nbl, s.calls.lookup c = some (.enqueuing h nbl) ∨
      s.calls.lookup c = some (.discarding nbl)

theorem beginEnqueue_handles (rss : RssQueues) (x : Shared) (h : ℕ)
    (request : EnqueueInput) :
    (beginEnqueue rss x h request).1.handles = x.handles := by
  unfold beginEnqueue
  split <;> rfl

theorem handles_of_not_enqueued {t : Pool Shared Call} {m : Move Input}
    (hstep : (machine rss).step s m = some t) (hm : Enqueues s m)
    (hsame : t.shared.enqueued = s.shared.enqueued) :
    t.shared.handles = s.shared.handles := by
  cases m with
  | start input =>
    obtain ⟨h, request, rfl⟩ := hm
    obtain ⟨_, hnext, rfl⟩ := Option.map_eq_some_iff.mp hstep
    obtain ⟨_, -, rfl⟩ := Option.map_eq_some_iff.mp hnext
    exact beginEnqueue_handles rss s.shared h request
  | advance c =>
    obtain ⟨_, hcall, hmap⟩ := Option.bind_eq_some_iff.mp hstep
    obtain ⟨⟨y, _⟩, hadvance, rfl⟩ := Option.map_eq_some_iff.mp hmap
    have haction := Action.of_advance hadvance
    obtain ⟨h, nbl, hc | hc⟩ := hm
    · cases hc.symm.trans hcall
      cases haction with
      | appended hqueue hroom => simp at hsame
      | overflowed => rfl
    · cases hc.symm.trans hcall
      cases haction with
      | discarded => rfl

theorem count_placed (hs : (machine rss).Reachable s)
    (hn : n ∈ s.shared.decided) : (placed s).count n = 1 := by
  rw [placed_eq hs]
  exact Multiset.count_eq_one_of_mem (Multiset.nodup_range _)
    (Multiset.mem_of_le (decided_le hs) hn)

theorem count_failed (hs : (machine rss).Reachable s)
    (hn : n ∈ s.shared.failed) :
    s.shared.freed.count n +
      (s.calls.total fun _ => Call.discarded).count n = 1 := by
  have hone := count_placed hs (n := n)
    (Multiset.mem_add.mpr (Or.inr (Multiset.mem_coe.mpr hn)))
  have hle := Multiset.count_le_of_le n
    (Table.total_le_total (fun _ => discarded_le_ids) s.calls)
  have hpos : 0 < s.shared.freed.count n +
      (s.calls.total fun _ => Call.discarded).count n := by
    rcases freed_or_discarded hs n hn with hmem | hmem
    · exact Nat.add_pos_left (List.count_pos_iff.mpr hmem) _
    · exact Nat.add_pos_right _ (Multiset.count_pos.mpr hmem)
  simp only [placed, Multiset.count_add, Multiset.coe_count] at hone
  omega

/-- In every interleaving, every NBL queued is in one place: freed, queued, with
NDIS, or with a running call.  A failed enqueue changes no queue.  While flushes
of one handle do not overlap, its frames are indicated in enqueue order.  The
references of flushes are those of the NBLs with NDIS, of the running calls, and
the multiples of `2 ^ 32` that counts of returned chains lost. -/
theorem receive_injection_accounted (rss : RssQueues) {s : Pool Shared Call}
    (hs : (machine rss).Reachable s) :
    (∀ n ∈ s.shared.enqueued.map Prod.snd, (placed s).count n = 1) ∧
    (∀ n ∈ s.shared.failed, n ∉ s.shared.enqueued.map Prod.snd ∧
      s.shared.freed.count n +
        (s.calls.total fun _ => Call.discarded).count n = 1) ∧
    (∀ m t, (machine rss).step s m = some t → Enqueues s m →
      t.shared.enqueued = s.shared.enqueued →
      t.shared.handles = s.shared.handles) ∧
    (∀ h, chainsOf h s.shared.taken ++ s.shared.queueOf h =
      idsOf h s.shared.enqueued) ∧
    (∀ entry ∈ s.shared.indicated, entry ∈ s.shared.taken) ∧
    ((machine rss).ReachableWithin (fun s _ => FlushesApart s) s → ∀ h,
      (chainsOf h s.shared.indicated).Sublist
        (idsOf h s.shared.enqueued)) ∧
    s.shared.rundown.count =
      s.shared.flushReferences + s.shared.sendReferences ∧
    s.shared.flushReferences = s.calls.total (fun _ => Call.references) +
        (Multiset.card s.shared.ndis + s.shared.uncounted) ∧
    (s.calls = ∅ → s.shared.flushReferences =
      Multiset.card s.shared.ndis + s.shared.uncounted) := by
  refine ⟨?_, ?_, ?_, taken_append_queue hs, taken_of_indicated hs,
    fun hapart => indicated_sublist hapart, rundown_count hs,
    flushReferences_eq hs, ?_⟩
  · intro n hn
    exact count_placed hs
      (Multiset.mem_add.mpr (Or.inl (Multiset.mem_coe.mpr hn)))
  · intro n hn
    exact ⟨not_enqueued_of_failed hs hn, count_failed hs hn⟩
  · intro m t hstep hm hsame
    exact handles_of_not_enqueued hstep hm hsame
  · intro hcalls
    rw [flushReferences_eq hs, hcalls, Table.total_empty, zero_add]
    rfl

/-! ## Runs -/

def fourQueues : RssQueues := ⟨4, id⟩

def oneByteInput : EnqueueInput where
  frame := .granted 1 fun _ => ⟨⟨true, some fun _ => 7⟩, 0, 1, 1⟩
  rssHashQueueId := 0xFFFFFFFF
  checksum := 0
  rsc := 0
  coalescedSegCount := 0
  timestamp := 0

def plainFlush : FlushInput := ⟨8, none, false⟩

/-- Two frames are enqueued and flushed, NDIS returns the second, a third is
rejected for its RSS queue, and a fourth stays queued. -/
theorem receive_injection_accounted_flushReturn :
    ∃ s, (machine fourQueues).Reachable s ∧
      (s.shared.rundown.count = 1 ∧ s.shared.freed = [1, 2] ∧
        s.shared.enqueued = [(0, 0), (0, 1), (0, 3)]) ∧
      ∀ n ∈ s.shared.enqueued.map Prod.snd, (placed s).count n = 1 :=
  (Machine.exists_reachable_of_run
    [.start .restart, .start .open, .start (.enqueue 0 oneByteInput),
      .advance 2, .start (.enqueue 0 oneByteInput), .advance 3,
      .start (.flush 0 plainFlush), .advance 4, .advance 4,
      .start (.returnNbls [1]), .advance 5, .advance 5,
      .start (.enqueue 0 { oneByteInput with rssHashQueueId := 4 }),
      .start (.enqueue 0 oneByteInput), .advance 7] (by decide +kernel)).imp
    fun s ⟨hs, hP⟩ => ⟨hs, hP, (receive_injection_accounted fourQueues hs).1⟩

/-- A flush takes the first frame; before it indicates it, a second frame is
enqueued, taken and indicated by another flush. -/
theorem overlapping_flushes_reorder : ∃ s, (machine fourQueues).Reachable s ∧
      idsOf 0 s.shared.enqueued = [0, 1] ∧
      chainsOf 0 s.shared.indicated = [1, 0] :=
  Machine.exists_reachable_of_run
    [.start .restart, .start .open, .start (.enqueue 0 oneByteInput),
      .advance 2, .start (.flush 0 plainFlush),
      .start (.enqueue 0 oneByteInput), .advance 4,
      .start (.flush 0 plainFlush), .advance 5, .advance 5, .advance 3,
      .advance 3] (by decide +kernel)

end WinNetTest.Fnmp.RxInject
