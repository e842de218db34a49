import WinNetTest.Isr.RelayAgreement

/-!
# Wakeups of a waiting GET

A push tells the service about a request only when it finds the queue empty,
and it learns this under the queue lock; whether a GET waits is known under
the service lock.  Nevertheless no wakeup is lost: while a GET waits, or is
about to, and the queue is not empty, a push that found it empty is still on
its way to the GET.
-/

namespace WinNetTest.Isr

open Support

/-- A push that found the queue empty and has not yet taken the waiting GET. -/
def Call.awake : Call → Bool
  | .notifying .acquire | .notifying .pop | .notifying (.took _) => true
  | _ => false

/-- A call inside `RqClientPushRequest`. -/
def Call.pushing : Call → Bool
  | .submitting _ _ | .notifying _ | .pushed => true
  | _ => false

def Waiting (s : Pool Shared Call) : Prop :=
  s.shared.pendingIrp ≠ none ∨ ∃ c, s.calls.lookup c = some (.getting .pend)

/-- If a GET waits beside a non-empty queue, somebody is awake. -/
def Awake (s : Pool Shared Call) : Prop :=
  s.shared.queue ≠ [] → Waiting s →
    ∃ c call, s.calls.lookup c = some call ∧ call.awake = true

theorem Action.awake {x y : Shared} {c : ℕ} {before after : Option Call}
    (h : Action x c before y after) {others : Prop}
    (hothers : others → ∃ c' ≠ c, x.lock = some c')
    (hsection : ∀ call ∈ before, call.locks = true →
      x.lock = some c ∧ Section x c call)
    (hqueue : y.queue ≠ [])
    (hwaiting : y.pendingIrp ≠ none ∨ after = some (.getting .pend) ∨ others) :
    (∃ call ∈ after, call.awake = true) ∨ (x.queue ≠ [] ∧ (x.pendingIrp ≠ none ∨
          before = some (.getting .pend) ∨ others) ∧
        ∀ call ∈ before, call.awake = false) := by
  have halone : x.lock = none ∨ x.lock = some c → ¬others := by
    intro hlock hother
    obtain ⟨c', hc, hlock'⟩ := hothers hother
    simp_all
  cases h with
  | session h =>
    have hcalls : after ≠ some (.getting .pend) ∧
        ∀ call ∈ before, call.awake = false := by
      cases h <;> simp [Call.awake]
    obtain ⟨_, service, _, _, rfl⟩ := h.frame
    exact Or.inr ⟨hqueue, hwaiting.imp id (fun hor => Or.inr
      (hor.resolve_left hcalls.1)), hcalls.2⟩
  | push id command service =>
    by_cases hempty : x.queue = []
    · rw [if_pos hempty]
      exact Or.inl ⟨_, rfl, rfl⟩
    · rw [if_neg hempty] at hwaiting
      exact Or.inr ⟨hempty, by simpa using hwaiting, by simp [Call.awake]⟩
  | notifySkip hlock hirp =>
    have hnone := halone (Or.inl hlock)
    simp [hirp, hnone] at hwaiting
  | notifyLock | notifyPop | notifyFault => exact Or.inl ⟨_, rfl, rfl⟩
  | notifyEmpty hempty | getEmpty hempty => exact absurd hempty hqueue
  | notifyStore | getUncancel =>
    have hnone := halone (Or.inr (hsection _ rfl rfl).1)
    simp [hnone] at hwaiting
  | getPop request rest =>
    obtain ⟨hlock, -, hirp, -⟩ := hsection _ rfl rfl
    have hnone := halone (Or.inr hlock)
    simp [hirp, hnone] at hwaiting
  | getPend i =>
    exact Or.inr ⟨hqueue, Or.inr (Or.inl rfl), by simp [Call.awake]⟩
  | cancelRoutine irp =>
    refine Or.inr ⟨hqueue, ?_, by simp [Call.awake]⟩
    rcases hwaiting with hirp | hcall | hother
    · refine Or.inl ?_
      intro hnone
      simp [hnone] at hirp
    · cases hcall
    · exact Or.inr (Or.inr hother)
  | _ =>
    exact Or.inr ⟨hqueue, hwaiting.imp id (fun hor => Or.inr
      (hor.resolve_left (by simp))), by simp [Call.awake]⟩

variable {s : Pool Shared Call} {c : ℕ} {before after : Option Call}

theorem Waiting.of_put {y : Shared} {n : ℕ}
    (h : Waiting ⟨y, s.calls.put c after, n⟩) :
    y.pendingIrp ≠ none ∨ after = some (.getting .pend) ∨
      ∃ c' ≠ c, s.calls.lookup c' = some (.getting .pend) := by
  refine h.imp id ?_
  rintro ⟨c', hcall⟩
  rw [Table.lookup_put] at hcall
  split at hcall
  · exact Or.inl hcall
  · rename_i hc
    exact Or.inr ⟨c', hc, hcall⟩

theorem waiting_of_cases (hbefore : s.calls.lookup c = before)
    (h : s.shared.pendingIrp ≠ none ∨ before = some (.getting .pend) ∨
      ∃ c' ≠ c, s.calls.lookup c' = some (.getting .pend)) : Waiting s := by
  refine h.imp id ?_
  rintro (hpend | ⟨c', -, hcall⟩)
  · exact ⟨c, hbefore.trans hpend⟩
  · exact ⟨c', hcall⟩

theorem locked_of_pend (hs : relay.machine.Reachable s) :
    (∃ c' ≠ c, s.calls.lookup c' = some (.getting .pend)) →
      ∃ c' ≠ c, s.shared.lock = some c' := by
  rintro ⟨c', hc, hcall⟩
  exact ⟨c', hc, ((locked_of_reachable hs).calls c' _ hcall rfl).1⟩

theorem awake_of_reachable (hs : relay.machine.Reachable s) : Awake s := by
  refine Program.invariant (P := relay) ?_ ?_ hs
  · intro hqueue
    exact absurd rfl hqueue
  · intro s c before n y after hs ih hbefore hturn hqueue hwaiting
    rcases (action_of_turn hturn).1.awake (locked_of_pend hs)
      (fun call hcall =>
        (locked_of_reachable hs).calls c call (hbefore.trans hcall))
      hqueue hwaiting.of_put with
      ⟨call, hcall, hawake⟩ | ⟨hqueue', hwaits', hasleep⟩
    · exact ⟨c, call, by rw [Table.lookup_put, if_pos rfl]; exact hcall, hawake⟩
    · obtain ⟨c', call, hcall, hawake⟩ :=
        ih hqueue' (waiting_of_cases hbefore hwaits')
      refine ⟨c', call, ?_, hawake⟩
      rw [Table.lookup_put, if_neg]
      · exact hcall
      · rintro rfl
        rw [hasleep call (hbefore.symm.trans hcall)] at hawake
        cases hawake

/-- In every interleaving, while a GET waits beside a non-empty queue, some
push that found the queue empty has inserted its request and has not finished
`ServiceRequestAvailable`; so with no push under way a GET does not wait
beside a non-empty queue. -/
theorem no_lost_wakeup {s : Pool Shared Call}
    (hs : relay.machine.Reachable s) :
    (s.shared.pendingIrp ≠ none → s.shared.queue ≠ [] →
      ∃ c position, s.calls.lookup c = some (.notifying position) ∧
        c ∈ s.shared.inserted.map (·.clientContext)) ∧
    ((∀ c call, s.calls.lookup c = some call → call.pushing = false) →
      s.shared.pendingIrp = none ∨ s.shared.queue = []) := by
  have hnotifying : s.shared.pendingIrp ≠ none → s.shared.queue ≠ [] →
      ∃ c position, s.calls.lookup c = some (.notifying position) ∧
        c ∈ s.shared.inserted.map (·.clientContext) := by
    intro hirp hqueue
    obtain ⟨c, call, hcall, hawake⟩ :=
      awake_of_reachable hs hqueue (Or.inl hirp)
    cases call with
    | notifying position =>
      exact ⟨c, position, hcall, (identified_of_reachable hs).calls c _ hcall⟩
    | _ => cases hawake
  refine ⟨hnotifying, ?_⟩
  intro hidle
  by_contra hne
  obtain ⟨hirp, hqueue⟩ := not_or.mp hne
  obtain ⟨c, position, hcall, -⟩ := hnotifying hirp hqueue
  cases hidle c _ hcall

/-- A GET waits while a submit has inserted its request and is about to call
`ServiceRequestAvailable`. -/
theorem no_lost_wakeup_pushed : ∃ s, relay.machine.Reachable s ∧
      (s.shared.pendingIrp = some 2 ∧ s.shared.queue.length = 1) ∧
      ∃ c position, s.calls.lookup c = some (.notifying position) ∧
        c ∈ s.shared.inserted.map (·.clientContext) := by
  refine (Machine.exists_reachable_of_run
      (getWaits ++ [submitDir, .advance 3]) (by decide +kernel)).imp
      fun s ⟨hs, hrun⟩ => ⟨hs, hrun, (no_lost_wakeup hs).1 ?_ ?_⟩
  · simp [hrun.1]
  · rintro hnil
    simp [hnil] at hrun

end WinNetTest.Isr
