import WinNetTest.Isr.RelayCancel

/-!
# Requests the relay loses

A pending request is lost when the service never learns of it.
`ServiceRequestAvailable` stores the request before it clears the cancel
routine of the waiting GET: if the GET is being cancelled already, it is left
to `ServiceCancelGet`, which completes it with `STATUS_CANCELLED`.  The
request stays pending, and every later GET is refused.
-/

namespace WinNetTest.Isr

open Support

/-! ## Telling the service -/

/-- A GET was completed with `STATUS_SUCCESS`, the `Id` and the command of a
request. -/
def Told (x : Shared) (r : Request) (irp : ℕ) : Prop :=
  Completion.mk irp .success (some (.request r.id r.command)) ∈ x.completions

/-- A GET holds the `Id` and the command of a request, and a call is going to
complete it with `STATUS_SUCCESS`. -/
def Telling (s : Pool Shared Call) (r : Request) (irp : ℕ) : Prop :=
  s.shared.output irp = some (r.id, r.command) ∧
    ∃ c call, s.calls.lookup c = some call ∧ call.tells c irp

/-- The service has been told about the pending request, or is going to be. -/
def Delivered (s : Pool Shared Call) : Prop :=
  ∀ r, s.shared.pendingRequest = some r → ∃ irp, (r, irp) ∈ s.shared.handed ∧
      (Told s.shared r irp ∨ Telling s r irp)

variable {before after : Option Call} {c irp : ℕ} {r : Request}

theorem Action.pendingRequest_kept {x y : Shared}
    (h : Action x c before y after) (hhanded : y.handed = x.handed)
    (hr : y.pendingRequest = some r) : x.pendingRequest = some r := by
  cases h with
  | session h =>
    obtain ⟨_, _, _, _, rfl⟩ := h.frame
    exact hr
  | notifyStore | getStore => simp at hhanded
  | postTake request result => cases hr
  | _ => exact hr

theorem Action.tells {x y : Shared} (h : Action x c before y after)
    {call : Call} (hcall : call ∈ before) (htells : call.tells c irp)
    (htime : inTime x c call = true) :
    (∃ call' ∈ after, call'.tells c irp) ∨
      y.completions = x.completions ++ [⟨irp, .success,
        (x.output irp).map fun output => .request output.1 output.2⟩] := by
  cases h with
  | session h => cases h <;> cases hcall <;> cases htells
  | notifyUncancel | notifyUnlockIrp =>
    cases hcall
    cases htells
    exact Or.inl ⟨_, rfl, rfl⟩
  | notifyClaimed irp' hclaimed =>
    cases hcall
    obtain ⟨i, hi, hset⟩ := (Option.any_eq_true _ _).mp htime
    rw [hclaimed i hi] at hset
    cases hset
  | notifyComplete irp' =>
    cases hcall
    cases htells
    exact Or.inr rfl
  | getUnlock status =>
    cases hcall
    exact Or.inl ⟨_, rfl, htells⟩
  | return_ status =>
    cases hcall
    obtain ⟨rfl, rfl⟩ := htells
    exact Or.inr rfl
  | returnPending =>
    cases hcall
    cases htells.1
  | _ => cases hcall <;> cases htells

variable {s : Pool Shared Call}

theorem delivered_of_reachableWithin
    (hs : relay.machine.ReachableWithin
      (Program.Meets fun x c call => inTime x c call = true) s) :
    Delivered s := by
  refine Program.invariant_within ?_ ?_ hs
  · rintro r ⟨⟩
  · intro s c before n y after hs ih hbefore hturn htime r hr
    have hact := (action_of_turn hturn).1
    rcases hact.handed_cases with
      hsame | ⟨r', irp, hnew, hr', houtput, -, hstore⟩
    · obtain ⟨irp, hhanded, hcase⟩ :=
        ih r (hact.pendingRequest_kept hsame hr)
      refine ⟨irp, hsame ▸ hhanded, ?_⟩
      rcases hcase with htold | ⟨houtput, c', call, hcall, htells⟩
      · exact Or.inl (hact.completions_subset htold)
      · have hkept : y.output irp = some (r.id, r.command) := by
          obtain ⟨i, hi, hio⟩ := Option.bind_eq_some_iff.mp houtput
          obtain ⟨i', hi', -, -, hor⟩ :=
            hact.irp_kept (irp_fresh hs hturn) hi
          rcases hor with heq | ⟨r', hne⟩
          · rw [Shared.output, hi', Option.bind_some, heq, hio]
          · simp [hsame] at hne
        by_cases hc : c' = c
        · subst hc
          have hbefore' := hbefore.symm.trans hcall
          rcases hact.tells hbefore' htells (htime call hbefore') with
            ⟨call', hcall', htells'⟩ | hcompletions
          · refine Or.inr ⟨hkept, c', call', ?_, htells'⟩
            rw [Table.lookup_put, if_pos rfl]
            exact hcall'
          · refine Or.inl ?_
            rw [houtput] at hcompletions
            unfold Told
            rw [hcompletions]
            exact List.mem_append_right _ (List.mem_singleton_self _)
        · refine Or.inr ⟨hkept, c', call, ?_, htells⟩
          rw [Table.lookup_put, if_neg hc]
          exact hcall
    · rw [hr'] at hr
      cases hr
      refine ⟨irp, hnew ▸ List.mem_append_right _ (List.mem_singleton_self _),
        Or.inr ⟨houtput, c, ?_⟩⟩
      rcases hstore with ⟨-, -, rfl⟩ | ⟨-, rfl, rfl⟩
      · exact ⟨.notifying (.uncancel irp),
          by rw [Table.lookup_put, if_pos rfl], rfl⟩
      · exact ⟨.getting (.release .success),
          by rw [Table.lookup_put, if_pos rfl], rfl, rfl⟩

theorem pendingRequest_eq_none_of_fault (hs : relay.machine.Reachable s)
    (hfault : s.shared.fault = true) : s.shared.pendingRequest = none := by
  refine Program.invariant
    (I := fun s => s.shared.fault = true → s.shared.pendingRequest = none)
    ?_ ?_ hs hfault
  · rintro ⟨⟩
  · intro s c before n y after hs _ hbefore hturn hfault
    obtain ⟨hact, hno⟩ := action_of_turn hturn
    cases hact with
    | session h =>
      obtain ⟨_, _, _, _, rfl⟩ := h.frame
      exact absurd hfault (by simp [hno])
    | notifyFault request hirp =>
      exact absurd hirp (section_before hs hbefore _ rfl rfl).2.1
    | postFault id result hlock hrequest => exact hrequest
    | _ => exact absurd hfault (by simp_all [Shared.newIrp,
        Shared.ioCompleteRequest, clientRequestComplete])

theorem Telling.step (hs : relay.machine.Reachable s) (h : Telling s r irp)
    (hlock : s.shared.lock = none) (hr : s.shared.pendingRequest = some r) :
    ∃ c t, relay.machine.step s (.advance c) = some t ∧
      Told t.shared r irp := by
  obtain ⟨houtput, c, call, hcall, htells⟩ := h
  have hfault : s.shared.fault = false := by
    by_contra hne
    have hnone := pendingRequest_eq_none_of_fault hs (by simpa using hne)
    rw [hr] at hnone
    cases hnone
  have hunlocked : call.locks = false := by
    by_contra hne
    have hheld := ((locked_of_reachable hs).calls c call hcall
      (by simpa using hne)).1
    rw [hlock] at hheld
    cases hheld
  have hstep : ∀ {after}, relay.advance s.shared c call =
      some (s.shared.ioCompleteRequest irp .success, after) →
      ∃ c t, relay.machine.step s (.advance c) = some t ∧
        Told t.shared r irp := by
    intro after hadvance
    refine ⟨c, ⟨s.shared.ioCompleteRequest irp .success,
      s.calls.put c after, s.nextCall⟩, ?_, ?_⟩
    · simp [Program.machine, hcall, hadvance]
    · unfold Told Shared.ioCompleteRequest
      rw [Shared.output] at houtput
      rw [houtput]
      exact List.mem_append_right _ (List.mem_singleton_self _)
  cases call with
  | notifying position =>
    cases position with
    | complete irp' =>
      cases htells
      exact hstep (by simp [relay, hfault, advance,
        serviceRequestAvailable]; rfl)
    | acquire => cases htells
    | _ => cases hunlocked
  | getting position =>
    cases position with
    | acquire => cases htells
    | _ => cases hunlocked
  | returning status =>
    obtain ⟨rfl, rfl⟩ := htells
    exact hstep (by simp [relay, hfault, advance]; rfl)
  | _ => cases htells

/-! ## No loss -/

structure NoLoss (s : Pool Shared Call) : Prop where
  /-- A request that was accepted and whose IRP is not completed is on the
  queue, in the hands of the call that popped it, pending, or in the hands of
  the POST that is completing it. -/
  kept : ∀ r ∈ s.shared.inserted, r.clientContext ∉ s.shared.completedIrps →
    r ∈ s.shared.queue ∨
      (∃ c call, s.calls.lookup c = some call ∧ r ∈ call.taken) ∨
      s.shared.pendingRequest = some r ∨
      ∃ c call, s.calls.lookup c = some call ∧ r ∈ call.answering
  /-- Outside the sections of the service lock, the GET that took the pending
  request was completed with `STATUS_SUCCESS`, its `Id` and its command, or
  the next action of some call does so. -/
  told : ∀ r, s.shared.lock = none → s.shared.pendingRequest = some r →
    ∃ irp, (r, irp) ∈ s.shared.handed ∧ (Told s.shared r irp ∨
        ∃ c t, relay.machine.step s (.advance c) = some t ∧ Told t.shared r irp)
  /-- A GET that ended with `STATUS_CANCELLED` was handed no request. -/
  cancelled : ∀ completion ∈ s.shared.completions,
    completion.status = .cancelled →
    ∀ r, (r, completion.irp) ∉ s.shared.handed

/-- In every run in which `ServiceRequestAvailable` finds the cancel routine
of the waiting GET in place, no request is lost. -/
theorem noLoss_of_inTime {s : Pool Shared Call}
    (hs : relay.machine.ReachableWithin
      (Program.Meets fun x c call => inTime x c call = true) s) :
    NoLoss s := by
  have hreachable := hs.reachable
  refine ⟨fun r hr hirp => request_kept hreachable hr hirp, ?_, ?_⟩
  · intro r hlock hr
    obtain ⟨irp, hhanded, hcase⟩ := delivered_of_reachableWithin hs r hr
    refine ⟨irp, hhanded, hcase.imp id ?_⟩
    intro htelling
    exact htelling.step hreachable hlock hr
  · intro completion hmem hstatus r hhanded
    exact (untouched_of_reachableWithin hs).cancelled completion hmem hstatus
      (List.mem_map_of_mem hhanded)

/-- A GET waits and is cancelled, a second one waits and gets the request of
a submit. -/
theorem noLoss_of_inTime_secondGet : ∃ s, relay.machine.ReachableWithin
        (Program.Meets fun x c call => inTime x c call = true) s ∧
      (s.shared.completions = [⟨2, .cancelled, none⟩,
          ⟨4, .success, some (.request 1 [100, 105, 114])⟩] ∧
        s.shared.pendingRequest = some ⟨1, 5, [100, 105, 114]⟩) ∧
      NoLoss s :=
  (Machine.exists_reachableWithin_of_run _
      (getWaits ++ [.start (.cancel 2)] ++ List.replicate 3 (.advance 3) ++
      [.start (.ioctl 0 (.get 1032))] ++ List.replicate 6 (.advance 4) ++
      [submitDir] ++ List.replicate 8 (.advance 5)) (by decide +kernel)).imp
      fun s ⟨hs, hrun⟩ => ⟨hs, hrun, noLoss_of_inTime hs⟩

/-- A submit finds the waiting GET and stores its request, the GET is
cancelled, and only then does `ServiceRequestAvailable` look at the cancel
routine: the GET ends with `STATUS_CANCELLED`, the request is pending, no call
is left, and the next GET is refused. -/
theorem cancelled_get_loses_request : ∃ s, relay.machine.Reachable s ∧
      (s.shared.completions =
          [⟨2, .cancelled, some (.request 1 [100, 105, 114])⟩,
            ⟨5, .notSupported, none⟩] ∧
        s.shared.handed = [(⟨1, 3, [100, 105, 114]⟩, 2)] ∧
        s.shared.pendingRequest = some ⟨1, 3, [100, 105, 114]⟩ ∧
        s.shared.lock = none ∧ s.calls.keys = []) ∧
      ¬NoLoss s := by
  refine (Machine.exists_reachable_of_run
      (getWaits ++ [submitDir] ++ List.replicate 4 (.advance 3) ++
      [.start (.cancel 2), .advance 4] ++
      List.replicate 3 (.advance 3) ++ List.replicate 2 (.advance 4) ++
      [.start (.ioctl 0 (.get 1032))] ++ List.replicate 2 (.advance 5))
      (by decide +kernel)).imp fun s ⟨hs, hrun⟩ => ⟨hs, hrun, ?_⟩
  obtain ⟨hcompletions, hhanded, hpending, hlock, hkeys⟩ := hrun
  intro hno
  obtain ⟨irp, hirp, htold | ⟨c, t, hstep, -⟩⟩ := hno.told _ hlock hpending
  · rw [hhanded] at hirp
    cases List.mem_singleton.mp hirp
    simp [Told, hcompletions] at htold
  · have hnone : s.calls.lookup c = none := by
      rw [AList.lookup_eq_none, AList.mem_keys, hkeys]
      exact List.not_mem_nil
    simp [Program.machine, hnone] at hstep

end WinNetTest.Isr
