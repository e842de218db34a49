import WinNetTest.Fnlwf.Tx
import Mathlib.Data.Multiset.Filter
import Mathlib.Data.Multiset.Range

/-!
# The accounts of the send path of FNLWF

In every interleaving of the calls on any number of handles, each NBL of the
filter is in exactly one place, so it is freed at most once.  The references
that flushes have taken are those of the filter's NBLs below it, up to calls
still running.  An enqueue queues its NBL or fails, once.
-/

namespace WinNetTest.Fnlwf.Tx

open Support Fnio

variable {ndisFilterHandle : ℕ}

/-! ## Places and references -/

def own (ndisFilterHandle : ℕ) (nbls : Multiset NblKey) : Multiset NblKey :=
  nbls.filter fun nbl => nbl.sourceHandle = ndisFilterHandle

/-- The NBLs that a call has in hand, but for those it has set aside to pass
up. -/
def Call.nbls : Call → List NblKey
  | .enqueuing _ nbl => [nbl.key]
  | .cleaning nbls _ _ => nbls
  | .flushing _ nbls => keys nbls
  | .referenced _ nbls => keys nbls
  | .returning _ _ => []
  | .completing nblQueue _ => keys nblQueue
  | .releasing nblQueue _ => keys nblQueue

def Call.own (ndisFilterHandle : ℕ) (call : Call) : Multiset NblKey :=
  Tx.own ndisFilterHandle call.nbls

def Call.references (ndisFilterHandle : ℕ) : Call → ℕ
  | .referenced _ nbls => nbls.length
  | .completing nblQueue _ =>
    Multiset.card (Tx.own ndisFilterHandle (keys nblQueue))
  | .releasing nblQueue _ =>
    Multiset.card (Tx.own ndisFilterHandle (keys nblQueue)) + 1
  | _ => 0

/-- A call of `TxIrpEnqueue` or `TxCleanup`, or an IOCTL that only has to
return: neither a flush with NBLs in hand nor a completion. -/
def Call.idle : Call → Bool
  | .enqueuing _ _ => true
  | .cleaning _ _ _ => true
  | .returning _ _ => true
  | _ => false

/-- The NBL that an event passes to `FnIoEnqueueFrameReturn`. -/
def Event.releasedNbl : Event → Option NblKey
  | .released nbl _ => some nbl
  | _ => none

/-- The NBLs that have been passed to `FnIoEnqueueFrameReturn`. -/
def releasedNbls (events : List Event) : List NblKey :=
  events.filterMap Event.releasedNbl

def Shared.queued (ndisFilterHandle : ℕ) (x : Shared) : Multiset NblKey :=
  x.handles.total fun _ queue => own ndisFilterHandle (keys queue)

def Shared.settled (ndisFilterHandle : ℕ) (x : Shared) : Multiset NblKey :=
  own ndisFilterHandle (releasedNbls x.events) + x.queued ndisFilterHandle +
    own ndisFilterHandle x.ndis

/-- The filter's own NBLs, by where they are: passed to
`FnIoEnqueueFrameReturn`, queued, below the filter, or in a call's hands. -/
def placed (ndisFilterHandle : ℕ) (s : Pool Shared Call) : Multiset NblKey :=
  s.shared.settled ndisFilterHandle +
    s.calls.total fun _ => Call.own ndisFilterHandle

def Shared.allocated (ndisFilterHandle : ℕ) (x : Shared) : Multiset NblKey :=
  (Multiset.range x.nextNbl).map (NblKey.mk ndisFilterHandle)

@[simp] theorem own_add (a b : Multiset NblKey) : own ndisFilterHandle (a + b) =
      own ndisFilterHandle a + own ndisFilterHandle b :=
  Multiset.filter_add _ _ _

@[simp] theorem own_zero : own ndisFilterHandle 0 = 0 := rfl

theorem keys_concat (queue : List SendNbl) (nbl : SendNbl) :
    keys (queue ++ [nbl]) = keys queue ++ [nbl.key] := by
  simp [keys]

theorem own_cons (nbl : NblKey) (nbls : List NblKey) :
    own ndisFilterHandle (nbl :: nbls : List NblKey) =
      own ndisFilterHandle {nbl} + own ndisFilterHandle nbls := by
  rw [← own_add, Multiset.singleton_add, Multiset.cons_coe]

theorem own_append (a b : List NblKey) :
    own ndisFilterHandle (a ++ b : List NblKey) =
      own ndisFilterHandle a + own ndisFilterHandle b := by
  rw [← own_add, Multiset.coe_add]

variable {nbl : NblKey}

theorem own_singleton_of_eq (h : nbl.sourceHandle = ndisFilterHandle) :
    own ndisFilterHandle {nbl} = {nbl} := by
  simp [own, Multiset.filter_singleton, h]

theorem own_singleton_of_ne (h : nbl.sourceHandle ≠ ndisFilterHandle) :
    own ndisFilterHandle {nbl} = 0 := by
  simp [own, Multiset.filter_singleton, h]

variable {nbls : Multiset NblKey}

theorem own_keys_eq_zero {nbls : List SendNbl}
    (h : ∀ nbl ∈ nbls, nbl.key.sourceHandle ≠ ndisFilterHandle) :
    own ndisFilterHandle (keys nbls) = 0 := by
  refine Multiset.filter_eq_nil.mpr fun key hkey => ?_
  obtain ⟨nbl, hnbl, rfl⟩ := List.mem_map.mp hkey
  exact h nbl hnbl

theorem own_eq_self (h : ∀ nbl ∈ nbls, nbl.sourceHandle = ndisFilterHandle) :
    own ndisFilterHandle nbls = nbls :=
  Multiset.filter_eq_self.mpr h

theorem releasedNbls_cons_released (nbl : NblKey) (cause : Cause)
    (events : List Event) :
    releasedNbls (.released nbl cause :: events) =
      nbl :: releasedNbls events := rfl

theorem allocated_succ (x : Shared) :
    (Multiset.range (x.nextNbl + 1)).map (NblKey.mk ndisFilterHandle) =
      {⟨ndisFilterHandle, x.nextNbl⟩} + x.allocated ndisFilterHandle := by
  rw [Multiset.range_succ, Multiset.map_cons, Shared.allocated,
    Multiset.singleton_add]

/-! ## The queues hold NBLs of the filter -/

/-- The NBLs of a queue are the filter's own, and their count fits the
`UINT32` it is cast to. -/
structure OwnQueue (ndisFilterHandle : ℕ) (queue : List SendNbl) : Prop where
  bounded : queue.length < 2 ^ 32
  owned : ∀ nbl ∈ keys queue, nbl.sourceHandle = ndisFilterHandle

def Call.Owned (ndisFilterHandle : ℕ) : Call → Prop
  | .enqueuing _ nbl => nbl.key.sourceHandle = ndisFilterHandle
  | .cleaning nbls _ _ => ∀ nbl ∈ nbls, nbl.sourceHandle = ndisFilterHandle
  | .flushing _ nbls => OwnQueue ndisFilterHandle nbls
  | .referenced _ nbls => OwnQueue ndisFilterHandle nbls
  | _ => True

def HandlesOwned (ndisFilterHandle n : ℕ)
    (handles : Table ℕ (List SendNbl)) : Prop :=
  ∀ h queue, handles.lookup h = some queue →
    h < n ∧ OwnQueue ndisFilterHandle queue

/-- The queues and the calls hold NBLs of the filter, and only such NBLs have
been freed. -/
def Owned (ndisFilterHandle : ℕ) : Pool Shared Call → Prop :=
  Program.Annotated
    (fun n x => HandlesOwned ndisFilterHandle n x.handles ∧
      ∀ nbl ∈ releasedNbls x.events, nbl.sourceHandle = ndisFilterHandle)
    (fun _ _ => Call.Owned ndisFilterHandle)

theorem OwnQueue.nil : OwnQueue ndisFilterHandle [] :=
  ⟨by simp, by simp [keys]⟩

variable {queue : List SendNbl} {handles : Table ℕ (List SendNbl)} {n h c : ℕ}
    {s : Pool Shared Call} {before after : Option Call}

theorem OwnQueue.concat {nbl : SendNbl}
    (hqueue : OwnQueue ndisFilterHandle queue)
    (hnbl : nbl.key.sourceHandle = ndisFilterHandle)
    (hroom : queue.length < 0xFFFFFFFF) :
    OwnQueue ndisFilterHandle (queue ++ [nbl]) := by
  refine ⟨?_, ?_⟩
  · rw [List.length_append, List.length_singleton]
    omega
  · intro key hkey
    rw [keys_concat, List.mem_append, List.mem_singleton] at hkey
    rcases hkey with hkey | rfl
    · exact hqueue.owned key hkey
    · exact hnbl

section

variable (hhandles : HandlesOwned ndisFilterHandle n handles)

include hhandles

theorem HandlesOwned.mono {m : ℕ} (hle : n ≤ m) :
    HandlesOwned ndisFilterHandle m handles := by
  intro h queue hqueue
  exact ⟨(hhandles h queue hqueue).1.trans_le hle, (hhandles h queue hqueue).2⟩

theorem HandlesOwned.insert (hlt : h < n)
    (hqueue : OwnQueue ndisFilterHandle queue) :
    HandlesOwned ndisFilterHandle n (handles.insert h queue) := by
  intro h' queue' hlookup
  by_cases heq : h' = h
  · subst heq
    rw [AList.lookup_insert] at hlookup
    cases hlookup
    exact ⟨hlt, hqueue⟩
  · rw [AList.lookup_insert_ne heq] at hlookup
    exact hhandles h' queue' hlookup

theorem HandlesOwned.erase (h : ℕ) :
    HandlesOwned ndisFilterHandle n (handles.erase h) := by
  intro h' queue' hlookup
  by_cases heq : h' = h
  · subst heq
    rw [AList.lookup_erase] at hlookup
    cases hlookup
  · rw [AList.lookup_erase_ne heq] at hlookup
    exact hhandles h' queue' hlookup

end

section Step

variable {x y : Shared} {c : ℕ} {before after : Option Call}

section

variable (hact : Action ndisFilterHandle x c before y after)

include hact

theorem Action.handlesOwned {n : ℕ} (hlt : c < n)
    (hx : HandlesOwned ndisFilterHandle n x.handles)
    (hcall : ∀ call ∈ before, call.Owned ndisFilterHandle) :
    HandlesOwned ndisFilterHandle n y.handles := by
  cases hact with
  | opened => exact hx.insert hlt .nil
  | closed hqueue => exact hx.erase _
  | took hqueue => exact hx.insert (hx _ _ hqueue).1 .nil
  | appended hqueue hroom =>
    exact hx.insert (hx _ _ hqueue).1
      ((hx _ _ hqueue).2.concat (hcall _ rfl) hroom)
  | _ => exact hx

theorem Action.callOwned {n : ℕ}
    (hx : HandlesOwned ndisFilterHandle n x.handles)
    (hcall : ∀ call ∈ before, call.Owned ndisFilterHandle) :
    ∀ call ∈ after, call.Owned ndisFilterHandle := by
  intro call hafter
  cases hact with
  | closed hqueue =>
    cases hafter
    exact (hx _ _ hqueue).2.owned
  | prepared hkey =>
    cases hafter
    simp only [Call.Owned, hkey]
  | spoiled =>
    cases hafter
    simp [Call.Owned]
  | took hqueue =>
    cases hafter
    exact (hx _ _ hqueue).2
  | @overflowed h nbl =>
    cases hafter
    have hown := hcall _ rfl
    simpa [Call.Owned] using hown
  | cleaned =>
    cases hafter
    exact fun nbl hnbl => hcall _ rfl nbl (List.mem_cons_of_mem _ hnbl)
  | @cleanedAll cause answer =>
    cases answer with
    | none => cases hafter
    | some answer =>
      cases hafter
      trivial
  | refused =>
    cases hafter
    exact (hcall _ rfl : OwnQueue _ _).owned
  | @acquired h nbls rundown hacquire =>
    cases hafter
    exact hcall (.flushing h nbls) rfl
  | _ =>
    cases hafter <;> trivial

theorem Action.releasedOwned
    (hx : ∀ nbl ∈ releasedNbls x.events, nbl.sourceHandle = ndisFilterHandle)
    (hcall : ∀ call ∈ before, call.Owned ndisFilterHandle) :
    ∀ nbl ∈ releasedNbls y.events, nbl.sourceHandle = ndisFilterHandle := by
  cases hact with
  | cleaned =>
    intro nbl hnbl
    rcases List.mem_cons.mp hnbl with rfl | hnbl
    · exact hcall _ rfl nbl List.mem_cons_self
    · exact hx nbl hnbl
  | freed hown =>
    intro nbl hnbl
    rcases List.mem_cons.mp hnbl with rfl | hnbl
    · exact hown
    · exact hx nbl hnbl
  | _ => exact hx

end

end Step

theorem owned_of_reachable (hs : (machine ndisFilterHandle).Reachable s) :
    Owned ndisFilterHandle s := by
  refine Program.invariant ?_ ?_ hs
  · exact ⟨⟨by simp [HandlesOwned, program, Program.machine, Shared.initial],
      by simp [releasedNbls, program, Program.machine, Shared.initial]⟩,
      by simp [Program.machine]⟩
  · intro s c before n y after hs ih hbefore hturn
    have hact := Action.of_turn hturn
    have hcall : ∀ call ∈ before, call.Owned ndisFilterHandle :=
      fun call hc => ih.calls c call (hbefore.trans hc)
    have hhandles := ih.shared.1.mono hturn.nextCall_le
    exact Program.Annotated.turn
      ⟨hact.handlesOwned hturn.lt hhandles hcall,
        hact.releasedOwned ih.shared.2 hcall⟩
      (hact.callOwned hhandles hcall)
      fun c' call _ hlookup => ih.calls c' call hlookup

/-! ## Every NBL of the filter is in one place -/

variable {x y : Shared}

theorem queued_insert (ndisFilterHandle : ℕ)
    (hqueue : x.handles.lookup h = some queue) (next : List SendNbl) :
    Table.total (fun _ queue => own ndisFilterHandle (keys queue))
        (x.handles.insert h next) + own ndisFilterHandle (keys queue) =
      x.queued ndisFilterHandle + own ndisFilterHandle (keys next) :=
  Table.total_update (fun _ queue => own ndisFilterHandle (keys queue)) next
    hqueue

theorem Action.places (hact : Action ndisFilterHandle x c before y after)
    (hfresh : before = none → x.handles.lookup c = none) :
    y.allocated ndisFilterHandle + (before.elim 0 (Call.own ndisFilterHandle) +
          x.settled ndisFilterHandle) =
      x.allocated ndisFilterHandle + (after.elim 0 (Call.own ndisFilterHandle) +
          y.settled ndisFilterHandle) := by
  cases hact with
  | opened =>
    have hqueues : Table.total
        (fun _ queue => own ndisFilterHandle (keys queue))
        (x.handles.insert c []) = x.queued ndisFilterHandle := by
      rw [Table.total_insert_of_lookup_none _ _ (hfresh rfl)]
      exact zero_add _
    simp only [Shared.settled, Shared.queued, hqueues, Option.elim]
    rfl
  | closed hqueue =>
    have hqueues := Table.total_eq_of_lookup
      (fun _ queue => own ndisFilterHandle (keys queue)) hqueue
    simp only [Shared.settled, Shared.queued, Option.elim, Call.own,
      Call.nbls, hqueues]
    simp only [Shared.allocated]
    abel
  | prepared hkey =>
    have hown : own ndisFilterHandle {⟨ndisFilterHandle, x.nextNbl⟩} = _ :=
      own_singleton_of_eq rfl
    simp only [Shared.settled, Shared.queued, Option.elim, Call.own,
      Call.nbls, hkey, Multiset.coe_singleton, hown]
    rw [Shared.allocated, allocated_succ]
    abel
  | spoiled =>
    have hown : own ndisFilterHandle {⟨ndisFilterHandle, x.nextNbl⟩} = _ :=
      own_singleton_of_eq rfl
    simp only [Shared.settled, Shared.queued, Option.elim, Call.own,
      Call.nbls, Multiset.coe_singleton, hown]
    rw [Shared.allocated, allocated_succ]
    abel
  | took hqueue =>
    have hqueues := queued_insert ndisFilterHandle hqueue []
    have hmoved : x.queued ndisFilterHandle = _ :=
      (add_zero _).symm.trans hqueues.symm
    simp only [Shared.settled, Option.elim, Call.own, Call.nbls, hmoved]
    simp only [Shared.queued, Shared.allocated]
    abel
  | @forwarded nbls hforeign =>
    simp only [Shared.settled, Shared.queued, Shared.ndisFSendNetBufferLists,
      Shared.record, own_add, own_keys_eq_zero hforeign, add_zero]
    rfl
  | @completed nbls hle =>
    have hndis := congrArg (own ndisFilterHandle)
      (Multiset.sub_add_cancel hle)
    rw [own_add] at hndis
    simp only [Shared.settled, Shared.queued, Shared.record, Option.elim,
      Call.own, Call.nbls, ← hndis]
    simp only [Shared.allocated, releasedNbls, List.filterMap_cons,
      Event.releasedNbl]
    abel
  | @appended h nbl queue hqueue hroom =>
    have hqueues := queued_insert ndisFilterHandle hqueue (queue ++ [nbl])
    rw [keys_concat, own_append,
      add_comm (own ndisFilterHandle (keys queue)), ← add_assoc] at hqueues
    have hgrown := add_right_cancel hqueues
    simp only [Shared.settled, Shared.record, Option.elim, Call.own, Call.nbls]
    simp only [Shared.queued, Shared.allocated] at hgrown ⊢
    rw [hgrown]
    simp only [releasedNbls, List.filterMap_cons, Event.releasedNbl,
      Multiset.coe_nil, own_zero]
    abel
  | cleaned =>
    simp only [Shared.settled, Shared.queued, Shared.record, Option.elim,
      Call.own, Call.nbls, releasedNbls_cons_released, own_cons]
    simp only [Shared.allocated]
    abel
  | @cleanedAll cause answer =>
    cases answer <;> rfl
  | sent =>
    simp only [Shared.settled, Shared.queued, Shared.ndisFSendNetBufferLists,
      Shared.record, own_add, Option.elim, Call.own, Call.nbls]
    simp only [Shared.allocated, releasedNbls, List.filterMap_cons,
      Event.releasedNbl, Multiset.coe_nil, own_zero]
    abel
  | freed hown =>
    simp only [Shared.settled, Shared.queued, Shared.record, Option.elim,
      Call.own, Call.nbls, keys, List.map_cons, releasedNbls_cons_released,
      own_cons]
    simp only [Shared.allocated]
    abel
  | @kept nbl rest passList hforeign =>
    have hnone : own ndisFilterHandle {nbl.key} = 0 :=
      own_singleton_of_ne hforeign
    simp only [Option.elim, Call.own, Call.nbls, keys, List.map_cons,
      own_cons, hnone, zero_add]
  | _ => rfl

theorem lookup_of_beginning (hs : (machine ndisFilterHandle).Reachable s)
    (hturn : (program ndisFilterHandle).Turn s c before n y after)
    (hnone : before = none) : s.shared.handles.lookup c = none := by
  subst hnone
  obtain ⟨rfl, -⟩ := hturn.of_none
  by_contra hne
  obtain ⟨_, hqueue⟩ := Option.ne_none_iff_exists'.mp hne
  exact Nat.lt_irrefl _ ((owned_of_reachable hs).shared.1 _ _ hqueue).1

theorem placed_eq (hs : (machine ndisFilterHandle).Reachable s) :
    placed ndisFilterHandle s = s.shared.allocated ndisFilterHandle := by
  have hconserved := Program.conserved
    (fun _ => Call.own ndisFilterHandle) (Shared.allocated ndisFilterHandle)
    (Shared.settled ndisFilterHandle) rfl
    (fun s c before n y after hs _ _ hturn =>
      (Action.of_turn hturn).places (lookup_of_beginning hs hturn)) hs
  rw [hconserved, placed]
  exact add_comm _ _

theorem count_placed (hs : (machine ndisFilterHandle).Reachable s)
    (hn : n < s.shared.nextNbl) :
    (placed ndisFilterHandle s).count ⟨ndisFilterHandle, n⟩ = 1 := by
  rw [placed_eq hs]
  refine Multiset.count_eq_one_of_mem ?_ ?_
  · refine Multiset.Nodup.map ?_ (Multiset.nodup_range _)
    intro a b hab
    exact (NblKey.mk.inj hab).2
  · exact Multiset.mem_map_of_mem _ (Multiset.mem_range.mpr hn)

/-! ## References -/

theorem card_own_keys (hqueue : OwnQueue ndisFilterHandle queue) :
    Multiset.card (own ndisFilterHandle (keys queue)) = queue.length := by
  rw [own_eq_self hqueue.owned, Multiset.coe_card, keys, List.length_map]

theorem OwnQueue.mod (hqueue : OwnQueue ndisFilterHandle queue) :
    queue.length % 2 ^ 32 = queue.length :=
  Nat.mod_eq_of_lt hqueue.bounded

def Shared.outstanding (ndisFilterHandle : ℕ) (x : Shared) : ℕ :=
  Multiset.card (own ndisFilterHandle x.ndis)

theorem Action.references (hact : Action ndisFilterHandle x c before y after)
    (hcall : ∀ call ∈ before, call.Owned ndisFilterHandle)
    (hheld : before.elim 0 (Call.references ndisFilterHandle) ≤
      x.flushReferences) :
    y.flushReferences + (before.elim 0 (Call.references ndisFilterHandle) +
          x.outstanding ndisFilterHandle) =
      x.flushReferences + (after.elim 0 (Call.references ndisFilterHandle) +
          y.outstanding ndisFilterHandle) := by
  cases hact with
  | @forwarded nbls hforeign =>
    simp only [Shared.outstanding, Shared.ndisFSendNetBufferLists,
      Shared.record, own_add, own_keys_eq_zero hforeign, add_zero]
  | @completed nbls hle =>
    have hndis := congrArg (fun nbls => Multiset.card (own ndisFilterHandle nbls))
      (Multiset.sub_add_cancel hle)
    simp only [own_add, Multiset.card_add] at hndis
    simp only [Option.elim, Call.references, Shared.outstanding, Shared.record]
    omega
  | @cleanedAll cause answer =>
    cases answer <;> rfl
  | @acquired h nbls rundown hacquire =>
    have hcount := (hcall (.flushing h nbls) rfl : OwnQueue _ _).mod
    simp only [Option.elim, Call.references, Shared.outstanding]
    omega
  | @sent h nbls =>
    have hcard := card_own_keys (hcall (.referenced h nbls) rfl)
    simp only [Option.elim, Call.references, Shared.outstanding,
      Shared.ndisFSendNetBufferLists, Shared.record, own_add, Multiset.card_add]
    omega
  | @freed nbl rest passList hown =>
    have hone : own ndisFilterHandle {nbl.key} = {nbl.key} :=
      own_singleton_of_eq hown
    simp only [Option.elim, Call.references, Shared.outstanding,
      Shared.record, keys, List.map_cons, own_cons, hone,
      Multiset.card_add, Multiset.card_singleton]
    omega
  | released =>
    simp only [Option.elim, Call.references] at hheld
    simp only [Option.elim, Call.references, Shared.outstanding,
      Shared.releaseReference]
    omega
  | @kept nbl rest passList hforeign =>
    have hnone : own ndisFilterHandle {nbl.key} = 0 :=
      own_singleton_of_ne hforeign
    simp only [Option.elim, Call.references, keys, List.map_cons, own_cons,
      hnone, zero_add]
  | _ => rfl

theorem references_le_total (hbefore : s.calls.lookup c = before) :
    before.elim 0 (Call.references ndisFilterHandle) ≤
      s.calls.total fun _ => Call.references ndisFilterHandle := by
  rw [Table.total_eq_erase (fun _ => Call.references ndisFilterHandle) s.calls c,
    hbefore]
  exact Nat.le_add_right _ _

theorem flushReferences_eq (hs : (machine ndisFilterHandle).Reachable s) :
    s.shared.flushReferences =
      s.calls.total (fun _ => Call.references ndisFilterHandle) +
        s.shared.outstanding ndisFilterHandle := by
  refine Program.conserved
    (fun _ => Call.references ndisFilterHandle) Shared.flushReferences
    (Shared.outstanding ndisFilterHandle) rfl ?_ hs
  intro s c before n y after hs ih hbefore hturn
  refine (Action.of_turn hturn).references ?_ ?_
  · intro call hc
    exact (owned_of_reachable hs).calls c call (hbefore.trans hc)
  · exact (references_le_total hbefore).trans (ih ▸ Nat.le_add_right _ _)

theorem rundown_count (hs : (machine ndisFilterHandle).Reachable s) :
    s.shared.rundown.count =
      s.shared.flushReferences + s.shared.receiveReferences := by
  refine Program.invariant
    (I := fun s => s.shared.rundown.count =
      s.shared.flushReferences + s.shared.receiveReferences) rfl ?_ hs
  intro s c before n y after hs ih hbefore hturn
  have hheld : before.elim 0 (Call.references ndisFilterHandle) ≤
      s.shared.flushReferences :=
    (references_le_total hbefore).trans
      (flushReferences_eq hs ▸ Nat.le_add_right _ _)
  cases Action.of_turn hturn with
  | received hacquire | acquired hacquire =>
    have hcount := Rundown.acquire_count hacquire
    simp only at ih ⊢
    omega
  | receivedBack hle =>
    simp only [Rundown.release] at ih ⊢
    omega
  | restarted hreleased =>
    simp only [Rundown.initialized] at ih ⊢
    omega
  | released =>
    simp only [Option.elim, Call.references] at hheld
    simp only [Shared.releaseReference, Rundown.release] at ih ⊢
    omega
  | _ => exact ih

theorem references_of_idle {call : Call} (h : call.idle = true) :
    call.references ndisFilterHandle = 0 := by
  cases call with
  | enqueuing | cleaning | returning => rfl
  | _ => cases h

/-! ## Failed enqueues -/

/-- The NBL of an enqueue that has not reached the lock, or that has failed and
is about to free it. -/
def Call.undecided : Call → Multiset ℕ
  | .enqueuing _ nbl => {nbl.nbl.id}
  | .cleaning nbls .failed _ => (nbls.map NblKey.id : List ℕ)
  | _ => 0

def Event.decidedNbl : Event → Option ℕ
  | .accepted _ n => some n
  | .released nbl .failed => some nbl.id
  | _ => none

def Shared.decided (x : Shared) : Multiset ℕ :=
  (x.events.filterMap Event.decidedNbl : List ℕ)

theorem decided_record_some (x : Shared) {event : Event}
    (h : event.decidedNbl = some n) :
    (x.record event).decided = {n} + x.decided := by
  simp [Shared.decided, Shared.record, h]

theorem Action.decides (hact : Action ndisFilterHandle x c before y after) :
    Multiset.range y.nextNbl + (before.elim 0 Call.undecided + x.decided) =
      Multiset.range x.nextNbl + (after.elim 0 Call.undecided + y.decided) := by
  cases hact with
  | @prepared h nbl hkey =>
    have hid : nbl.nbl.id = x.nextNbl := congrArg NblKey.id hkey
    simp only [Shared.decided, Option.elim, Call.undecided, hid,
      Multiset.range_succ, ← Multiset.singleton_add]
    abel
  | spoiled =>
    simp only [Shared.decided, Option.elim, Call.undecided, List.map_cons,
      List.map_nil, Multiset.coe_singleton, Multiset.range_succ,
      ← Multiset.singleton_add]
    abel
  | appended hqueue hroom =>
    rw [decided_record_some _ rfl]
    simp only [Option.elim, Call.undecided, zero_add]
    rfl
  | overflowed => rfl
  | @cleaned nbl rest cause answer =>
    cases cause with
    | failed =>
      rw [decided_record_some _ rfl]
      simp only [Option.elim, Call.undecided, List.map_cons,
        ← Multiset.cons_coe, ← Multiset.singleton_add, Shared.record]
      abel
    | _ => rfl
  | @cleanedAll cause answer =>
    cases cause <;> cases answer <;> rfl
  | _ => rfl

section

variable (hs : (machine ndisFilterHandle).Reachable s)

include hs

theorem decided_le : s.shared.decided ≤ Multiset.range s.shared.nextNbl := by
  have hconserved := Program.conserved
    (fun _ => Call.undecided) (fun x => Multiset.range x.nextNbl)
    Shared.decided rfl
    (fun s c before n y after _ _ _ hturn => (Action.of_turn hturn).decides) hs
  rw [hconserved]
  exact Multiset.le_add_left _ _

theorem lt_nextNbl_of_accepted (hn : .accepted h n ∈ s.shared.events) :
    n < s.shared.nextNbl := by
  have hmem : n ∈ s.shared.decided :=
    List.mem_filterMap.mpr ⟨_, hn, rfl⟩
  exact Multiset.mem_range.mp (Multiset.mem_of_le (decided_le hs) hmem)

theorem not_failed_of_accepted (hn : .accepted h n ∈ s.shared.events)
    (source : ℕ) : .released ⟨source, n⟩ .failed ∉ s.shared.events := by
  intro hreleased
  have hnodup : (s.shared.events.filterMap Event.decidedNbl).Nodup :=
    Multiset.coe_nodup.mp
      (Multiset.nodup_of_le (decided_le hs) (Multiset.nodup_range _))
  have hpair := List.pairwise_filterMap.mp hnodup
  have hsymm : Std.Symm fun a b : Event => ∀ m, a.decidedNbl = some m →
      ∀ k, b.decidedNbl = some k → m ≠ k :=
    ⟨fun a b hab m hm k hk => (hab k hk m hm).symm⟩
  exact hpair.forall hn hreleased nofun n rfl n rfl rfl

end

end WinNetTest.Fnlwf.Tx
