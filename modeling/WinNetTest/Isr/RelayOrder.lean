import WinNetTest.Isr.RelayCancel
import WinNetTest.Isr.RelayWakeup

/-!
# Unusual orders of the service's calls

The service interface is written for a service that waits with a GET, answers
with a POST and waits again.  A POST with no request outstanding dereferences a
`NULL` pointer; a notification that is overtaken by a GET, a POST and another
GET finds the second GET waiting and the queue empty; and a GET that is being
cancelled when a notification takes it is no longer the pending one when its
cancel routine runs.  In all other orders the interface holds what its
assertions say.
-/

namespace WinNetTest.Isr

open Support

/-- A notification that has not yet popped its request. -/
def Call.unheard : Call → Bool
  | .notifying .acquire | .notifying .pop => true
  | _ => false

/-- The next action of a call is in order: a POST has a request outstanding, a
GET that finds the queue empty overtakes no notification, and a cancellation and
a notification do not take the same GET. -/
def orderly (s : Pool Shared Call) : Call → Prop
  | .posting (.acquire _ _) => s.shared.pendingRequest ≠ none
  | .getting .pop =>
    s.shared.queue = [] → ∀ e ∈ s.calls.entries, e.2.unheard = false
  | .cancelling irp .exchange =>
    s.shared.hasRoutine irp = true → s.shared.pendingIrp = some irp
  | .notifying (.took _) =>
    ∀ e ∈ s.calls.entries, ∀ irp ∈ s.shared.pendingIrp,
      e.2 ≠ .cancelling irp .routine
  | _ => True

instance (s : Pool Shared Call) (call : Call) : Decidable (orderly s call) := by
  cases call with
  | posting call | getting call | cancelling _ call | notifying call =>
    cases call <;> dsimp only [orderly] <;> infer_instance
  | _ => exact inferInstanceAs (Decidable True)

def Orderly (s : Pool Shared Call) (m : Move Input) : Prop :=
  Program.Meets (fun _ _ call => orderly s call) s m

instance (s : Pool Shared Call) (m : Move Input) : Decidable (Orderly s m) :=
  inferInstanceAs (Decidable (Program.Meets _ s m))

/-- What a service may rely on: no `NULL` pointer is dereferenced, a POST with
the `Id` of no outstanding request is answered with `STATUS_NOT_FOUND` and
changes nothing, and the assertions of `ServiceRequestAvailable` and
`ServiceCancelGet` hold. -/
structure Tolerant (s : Pool Shared Call) : Prop where
  fault : s.shared.fault = false
  missed : ∀ c id result t,
    s.calls.lookup c = some (.posting (.acquire id result)) →
    (∀ request ∈ s.shared.pendingRequest, id ≠ request.id) →
    Orderly s (.advance c) → relay.machine.step s (.advance c) = some t →
    t = { s with calls := s.calls.insert c (.returning .notFound) }
  popped : ∀ c, s.calls.lookup c = some (.notifying .pop) → s.shared.queue ≠ []
  cancelled : ∀ c irp, s.calls.lookup c = some (.cancelling irp .routine) →
    s.shared.pendingIrp = some irp

/-! ## Notifications -/

def Call.unheardCount (call : Call) : ℕ := if call.unheard then 1 else 0

def unheardCount (s : Pool Shared Call) : ℕ :=
  s.calls.total fun _ => Call.unheardCount

variable {x y : Shared} {c irp : ℕ} {before after : Option Call}
  {s : Pool Shared Call}

theorem Action.unheard (h : Action x c before y after) {others : Prop}
    (hothers : others → ∃ c' ≠ c, x.lock = some c')
    (hsection : ∀ call ∈ before, call.locks = true →
      x.lock = some c ∧ Section x c call) {n m : ℕ}
    (hcount : m + before.elim 0 Call.unheardCount =
      n + after.elim 0 Call.unheardCount)
    (hguard : before = some (.getting .pop) → x.queue = [] → n = 0)
    (hn : x.pendingIrp ≠ none ∨ before = some (.getting .pend) ∨ others →
      n ≤ 1 ∧ n ≤ x.queue.length)
    (hwaiting : y.pendingIrp ≠ none ∨ after = some (.getting .pend) ∨ others) :
    m ≤ 1 ∧ m ≤ y.queue.length := by
  have halone : x.lock = some c → ¬others := by
    intro hlock hother
    obtain ⟨c', hc, hlock'⟩ := hothers hother
    exact hc (Option.some.inj (hlock'.symm.trans hlock))
  cases h with
  | session h =>
    have hcalls : after ≠ some (.getting .pend) ∧ m = n := by
      cases h <;> simpa [Call.unheardCount, Call.unheard] using hcount
    obtain ⟨_, service, _, _, rfl⟩ := h.frame
    rw [hcalls.2]
    exact hn (hwaiting.imp id fun h => Or.inr (h.resolve_left hcalls.1))
  | push _ command service =>
    split at hcount
    · rename_i hempty
      have h := hn (hwaiting.imp id fun h => Or.inr
        (h.resolve_left (by simp [hempty])))
      simp [Call.unheardCount, Call.unheard, hempty] at hcount h ⊢
      omega
    · rename_i hqueue
      have h := hn (hwaiting.imp id fun h => Or.inr
        (h.resolve_left (by simp [hqueue])))
      simp [Call.unheardCount, Call.unheard] at hcount h ⊢
      omega
  | notifyPop request rest hqueue =>
    have h := hn (Or.inl (hsection _ rfl rfl).2.2.1)
    simp [Call.unheardCount, Call.unheard] at hcount
    omega
  | notifyStore | getUncancel =>
    have hnone := halone (hsection _ rfl rfl).1
    simp [hnone] at hwaiting
  | getPop request rest =>
    obtain ⟨hlock, -, hirp, -⟩ := hsection _ rfl rfl
    have hnone := halone hlock
    simp [hirp, hnone] at hwaiting
  | getEmpty hqueue =>
    have h := hguard rfl hqueue
    simp [Call.unheardCount, Call.unheard] at hcount
    omega
  | getPend i =>
    have h := hn (Or.inr (Or.inl rfl))
    simp [Call.unheardCount, Call.unheard] at hcount
    exact hcount ▸ h
  | cancelRoutine irp =>
    have h := hn (hwaiting.imp (fun hirp hnone => by simp [hnone] at hirp)
      fun h => Or.inr (h.resolve_left (by simp)))
    simp [Call.unheardCount, Call.unheard] at hcount
    exact hcount ▸ h
  | _ =>
    have h := hn (hwaiting.imp id fun h => Or.inr (h.resolve_left (by simp)))
    have hle : m ≤ n := by
      simp [Call.unheardCount, Call.unheard] at hcount
      omega
    exact ⟨hle.trans h.1, hle.trans h.2⟩

/-! ## Cancellations -/

theorem Action.pendingIrp_kept (h : Action x c before y after)
    (hsection : ∀ call ∈ before, call.locks = true → Section x c call)
    (hirp : x.pendingIrp = some irp) :
    y.pendingIrp = some irp ∨
      (∃ request, before = some (.notifying (.took request))) ∨
      (irp = c ∧ x.hasRoutine c = true) ∨
      before = some (.cancelling irp .routine) := by
  cases h with
  | session h =>
    cases h <;> exact Or.inl hirp
  | notifyStore request => exact Or.inr (Or.inl ⟨request, rfl⟩)
  | getPend i =>
    have hnone := (hsection _ rfl rfl).2.1
    cases hirp.symm.trans hnone
  | getUncancel i hi hset =>
    have hself := (hsection _ rfl rfl).2.1
    refine Or.inr (Or.inr (Or.inl ⟨?_, ?_⟩))
    · exact Option.some.inj (hirp.symm.trans hself)
    · simp [Shared.hasRoutine, hi, hset]
  | cancelRoutine irp' =>
    by_cases heq : irp = irp'
    · exact Or.inr (Or.inr (Or.inr (by rw [heq])))
    · refine Or.inl ?_
      dsimp only
      rw [if_neg]
      · exact hirp
      · exact fun h => heq (Option.some.inj (hirp.symm.trans h))
  | _ => exact Or.inl hirp

theorem Action.routine_cases (h : Action x c before y after)
    (hafter : after = some (.cancelling irp .routine)) :
    before = some (.cancelling irp .exchange) ∧ x.hasRoutine irp = true ∧
      y.pendingIrp = x.pendingIrp := by
  cases h with
  | session h => cases h <;> cases hafter
  | push => split at hafter <;> cases hafter
  | cancelClaim irp' i hi hset =>
    cases hafter
    exact ⟨rfl, by simp [Shared.hasRoutine, hi, hset], rfl⟩
  | _ => cases hafter

theorem Action.fault_cases (h : Action x c before y after)
    (hsection : ∀ call ∈ before, call.locks = true → Section x c call)
    (hfault : y.fault = true) :
    x.fault = true ∨ ∃ id result,
      before = some (.posting (.acquire id result)) ∧
        x.pendingRequest = none := by
  cases h with
  | session h =>
    cases h <;> exact Or.inl hfault
  | notifyFault request hirp => exact absurd hirp (hsection _ rfl rfl).2.1
  | postFault id result _ hrequest => exact Or.inr ⟨id, result, rfl, hrequest⟩
  | _ => exact Or.inl hfault

/-! ## Runs in order -/

structure Ordered (s : Pool Shared Call) : Prop where
  fault : s.shared.fault = false
  unheard : Waiting s →
    unheardCount s ≤ 1 ∧ unheardCount s ≤ s.shared.queue.length
  routine : ∀ c irp, s.calls.lookup c = some (.cancelling irp .routine) →
    s.shared.pendingIrp = some irp

theorem ordered_of_reachableWithin
    (hs : relay.machine.ReachableWithin Orderly s) : Ordered s := by
  refine Program.invariant_guarded ?_ ?_ hs
  · refine ⟨rfl, fun _ => ?_, by rintro c irp ⟨⟩⟩
    exact ⟨Nat.zero_le _, Nat.zero_le _⟩
  · intro s m c before n y after hs ih hm hmeets hbefore hturn
    have hact := (action_of_turn hturn).1
    have hlocked := locked_of_reachable hs
    have hsection : ∀ call ∈ before, call.locks = true →
        s.shared.lock = some c ∧ Section s.shared c call :=
      fun call hcall => hlocked.calls c call (hbefore.trans hcall)
    have horderly := hmeets _ hm
    refine ⟨?_, ?_, ?_⟩
    · by_contra hfault
      rcases hact.fault_cases (fun call hcall h => (hsection call hcall h).2)
        (Bool.not_eq_false _ ▸ hfault) with hold | ⟨id, result, rfl, hnone⟩
      · exact absurd (ih.fault.symm.trans hold) (by decide)
      · exact horderly _ rfl hnone
    · intro hwaiting
      have hcount := s.calls.total_put (fun _ => Call.unheardCount) c after
      rw [hbefore] at hcount
      refine hact.unheard (locked_of_pend hs) hsection hcount ?_
        (fun h => ih.unheard (waiting_of_cases hbefore h)) hwaiting.of_put
      rintro rfl hqueue
      refine Table.total_eq_zero fun c' call hcall => if_neg ?_
      rw [horderly _ rfl hqueue _ (AList.mem_lookup_iff.mp hcall)]
      exact Bool.false_ne_true
    · intro c' irp hcall
      rw [Table.lookup_put] at hcall
      split at hcall
      · obtain ⟨rfl, hset, hpending⟩ := hact.routine_cases hcall
        exact hpending.trans (horderly _ rfl hset)
      · rename_i hc
        have hacc := accounted_of_reachable hs
        have hmem : irp ∈ (Call.cancelling irp .routine).irps c' :=
          Multiset.mem_singleton_self irp
        rcases hact.pendingIrp_kept
          (fun call hcall h => (hsection call hcall h).2)
          (ih.routine c' irp hcall) with
          hkept | ⟨request, rfl⟩ | ⟨rfl, hset⟩ | rfl
        · exact hkept
        · exact absurd rfl (horderly _ rfl _ (AList.mem_lookup_iff.mp hcall)
            irp (ih.routine c' irp hcall))
        · refine absurd ?_ (hacc.notMem_settledIrps hcall hmem)
          exact Multiset.mem_add.mpr (Or.inl (mem_cancelable.mpr hset))
        · exact absurd (hacc.eq_of_mem hcall hmem hbefore
            (Multiset.mem_singleton_self irp)) hc

/-- In every run whose actions are in order the interface is tolerant. -/
theorem tolerant_of_orderly {s : Pool Shared Call}
    (hs : relay.machine.ReachableWithin Orderly s) : Tolerant s := by
  have hordered := ordered_of_reachableWithin hs
  refine ⟨hordered.fault, ?_, ?_, hordered.routine⟩
  · intro c id result t hcall hid horderly hstep
    obtain ⟨request, hrequest⟩ :=
      Option.ne_none_iff_exists'.mp (horderly _ hcall)
    simp only [Program.machine, hcall, Option.bind_some, relay, hordered.fault,
      advance, serviceIrpPost, hrequest, if_neg (hid request hrequest)] at hstep
    by_cases hlock : s.shared.lock = none
    · simpa [hlock, Table.put] using hstep.symm
    · simp [hlock] at hstep
  · intro c hcall hqueue
    have hirp := ((locked_of_reachable hs.reachable).calls c _ hcall rfl).2.2.1
    have hcount := Table.total_eq_of_lookup (fun _ => Call.unheardCount) hcall
    have h := (hordered.unheard (Or.inl hirp)).2
    rw [unheardCount, hcount, hqueue] at h
    simp [Call.unheardCount, Call.unheard] at h

/-- A GET waits, a submit is notified of it, a POST with another `Id` misses and
one with the right `Id` completes the submit. -/
theorem tolerant_of_orderly_posts :
    ∃ s, relay.machine.ReachableWithin Orderly s ∧
      s.shared.completions.map (·.status) =
        [.success, .notFound, .success, .success] ∧ Tolerant s :=
  (Machine.exists_reachableWithin_of_run _
      (getWaits ++ [submitDir] ++ List.replicate 8 (.advance 3) ++
      [.start (.ioctl 0 (.post 16 7 0))] ++
      List.replicate 2 (.advance 4) ++ [.start (.ioctl 0 (.post 16 1 0))] ++
      List.replicate 5 (.advance 5)) (by decide +kernel)).imp
      fun s ⟨hs, hrun⟩ => ⟨hs, hrun, tolerant_of_orderly hs⟩

/-- A POST before any GET; a notification overtaken by a GET, a POST and another
GET; a GET cancelled after a notification has taken it. -/
theorem service_interface_intolerant :
    (∃ s, relay.machine.Reachable s ∧ s.shared.fault = true) ∧
    (∃ s, relay.machine.Reachable s ∧
      s.calls.lookup 2 = some (.notifying .pop) ∧ s.shared.queue = []) ∧
    ∃ s, relay.machine.Reachable s ∧
      s.calls.lookup 4 = some (.cancelling 2 .routine) ∧
      s.shared.pendingIrp = none := by
  refine ⟨?_, ?_, ?_⟩
  · exact Machine.exists_reachable_of_run
      (handlesOpen ++ [.start (.ioctl 0 (.post 16 7 0)), .advance 2])
      (by decide +kernel)
  · exact Machine.exists_reachable_of_run
      (handlesOpen ++ [submitDir, .advance 2, .start (.ioctl 0 (.get 1032))] ++
        List.replicate 5 (.advance 3) ++ [.start (.ioctl 0 (.post 16 1 0))] ++
        List.replicate 5 (.advance 4) ++ [.start (.ioctl 0 (.get 1032))] ++
        List.replicate 6 (.advance 5) ++ [.advance 2]) (by decide +kernel)
  · exact Machine.exists_reachable_of_run
      (getWaits ++ [submitDir] ++ List.replicate 4 (.advance 3) ++
        [.start (.cancel 2), .advance 4]) (by decide +kernel)

end WinNetTest.Isr
