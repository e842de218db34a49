import WinNetTest.Isr.RelaySessions

/-!
# Cancellation of a waiting GET

A request that was accepted is on the queue, in the hands of a call, or
pending until its client IRP is completed.  The GET that waits for one can be
completed by whoever takes its cancel routine: `ServiceRequestAvailable`, the
GET itself, or a cancellation.  In the runs in which
`ServiceRequestAvailable` always finds the cancel routine in place, nothing is
handed to a GET that is cancelled.
-/

namespace WinNetTest.Isr

open Support

/-! ## Where the requests are -/

def Call.taken : Call → Multiset Request
  | .notifying (.took request) | .getting (.took request) => {request}
  | _ => 0

variable {before after : Option Call} {x y : Shared} {c irp : ℕ}
    {s : Pool Shared Call}

theorem Action.taken (h : Action x c before y after) :
    (y.popped : Multiset Request) +
        (before.elim 0 Call.taken + (x.handed.map Prod.fst : List Request)) =
      x.popped +
        (after.elim 0 Call.taken + (y.handed.map Prod.fst : List Request)) := by
  cases h with
  | session h =>
    have hnone : before.elim 0 Call.taken = 0 ∧
        after.elim 0 Call.taken = 0 := by
      cases h <;> exact ⟨rfl, rfl⟩
    obtain ⟨_, service, _, _, rfl⟩ := h.frame
    rw [hnone.1, hnone.2]
  | push id command service => split <;> rfl
  | notifyPop | getPop =>
    simp only [Option.elim, Call.taken, ← Multiset.coe_add,
      Multiset.coe_singleton]
    abel
  | notifyStore | getStore =>
    simp only [Option.elim, Call.taken, List.map_append, List.map_cons,
      List.map_nil, ← Multiset.coe_add, Multiset.coe_singleton]
    abel
  | _ => rfl

section

variable (hs : relay.machine.Reachable s)

include hs

theorem popped_of_reachable :
    (s.shared.popped : Multiset Request) = s.calls.total (fun _ => Call.taken) +
        (s.shared.handed.map Prod.fst : List Request) :=
  Program.conserved (fun _ => Call.taken)
    (fun x => (x.popped : Multiset Request))
    (fun x => ((x.handed.map Prod.fst : List Request) : Multiset Request)) rfl
    (fun _ _ _ _ _ _ _ _ _ hturn => (action_of_turn hturn).1.taken) hs

variable {r : Request}

theorem completed_of_finished (hr : r ∈ s.shared.finished) :
    r.clientContext ∈ s.shared.completedIrps := by
  refine Program.invariant
    (I := fun s => ∀ r ∈ s.shared.finished,
      r.clientContext ∈ s.shared.completedIrps) ?_ ?_ hs r hr
  · rintro r ⟨⟩
  · intro s c before n y after _ ih _ hturn r hr
    have hact := (action_of_turn hturn).1
    have hold : r ∈ s.shared.finished → r.clientContext ∈ y.completedIrps :=
      fun hr => hact.completedIrps_subset (ih r hr)
    cases hact with
    | session h =>
      cases h <;> exact hold hr
    | postCallback request result =>
      rcases List.mem_append.mp hr with hr | hr
      · exact hold hr
      · rw [List.mem_singleton.mp hr]
        simp [Shared.completedIrps, clientRequestComplete]
    | _ => exact hold hr

theorem request_placed (hr : r ∈ s.shared.inserted) :
    r ∈ s.shared.queue ∨
      (∃ c call, s.calls.lookup c = some call ∧ r ∈ call.taken) ∨
      s.shared.pendingRequest = some r ∨
      (∃ c call, s.calls.lookup c = some call ∧ r ∈ call.answering) ∨
      r ∈ s.shared.finished := by
  rw [(inOrder_of_reachable hs).inserted, List.mem_append] at hr
  rcases hr with hpopped | hqueue
  · rw [← Multiset.mem_coe, popped_of_reachable hs, Multiset.mem_add,
      Table.mem_total] at hpopped
    rcases hpopped with htaken | hhanded
    · exact Or.inr (Or.inl htaken)
    · rw [handed_of_reachable hs, Multiset.mem_add, Table.mem_total,
        Shared.settledRequests, dropped_eq_nil hs] at hhanded
      rcases hhanded with hanswering | hsettled
      · exact Or.inr (Or.inr (Or.inr (Or.inl hanswering)))
      · simp only [Multiset.mem_add, Multiset.mem_coe, Option.mem_toList,
          List.not_mem_nil, or_false] at hsettled
        rcases hsettled with hpending | hfinished
        · exact Or.inr (Or.inr (Or.inl hpending))
        · exact Or.inr (Or.inr (Or.inr (Or.inr hfinished)))
  · exact Or.inl hqueue

theorem request_kept (hr : r ∈ s.shared.inserted)
    (hirp : r.clientContext ∉ s.shared.completedIrps) :
    r ∈ s.shared.queue ∨
      (∃ c call, s.calls.lookup c = some call ∧ r ∈ call.taken) ∨
      s.shared.pendingRequest = some r ∨
      ∃ c call, s.calls.lookup c = some call ∧ r ∈ call.answering := by
  rcases request_placed hs hr with
    hqueue | htaken | hpending | hanswering | hfinished
  · exact Or.inl hqueue
  · exact Or.inr (Or.inl htaken)
  · exact Or.inr (Or.inr (Or.inl hpending))
  · exact Or.inr (Or.inr (Or.inr hanswering))
  · exact absurd (completed_of_finished hs hfinished) hirp

end

/-! ## The waiting GET -/

def Shared.hasRoutine (x : Shared) (irp : ℕ) : Bool :=
  (x.irps.lookup irp).any (·.cancelRoutine)

theorem any_lookup_insert (irps : Table ℕ Irp) (irp' irp : ℕ) (w : Irp) :
    ((irps.insert irp' w).lookup irp).any (·.cancelRoutine) =
      if irp = irp' then w.cancelRoutine
      else (irps.lookup irp).any (·.cancelRoutine) := by
  by_cases hirp : irp = irp'
  · subst hirp
    simp
  · simp [hirp]

theorem mem_cancelable {irps : Table ℕ Irp} : irp ∈ cancelable irps ↔
      (irps.lookup irp).any (·.cancelRoutine) = true := by
  rw [cancelable, Table.mem_total]
  constructor
  · rintro ⟨c, i, hi, hmem⟩
    split at hmem
    · rename_i hset
      cases Multiset.mem_singleton.mp hmem
      simp [hi, hset]
    · cases hmem
  · intro hany
    obtain ⟨i, hi, hset⟩ := (Option.any_eq_true _ _).mp hany
    exact ⟨irp, i, hi, by simp [hset]⟩

theorem Action.hasRoutine_cases (h : Action x c before y after)
    (hirp : y.hasRoutine irp = true) :
    x.hasRoutine irp = true ∨
      (before = some (.getting .pend) ∧ irp = c ∧ y.handed = x.handed) := by
  unfold Shared.hasRoutine at hirp ⊢
  have hupdate : ∀ {irp' i w}, x.irps.lookup irp' = some i →
      ((x.irps.insert irp' w).lookup irp).any (·.cancelRoutine) = true →
      (w.cancelRoutine = true → i.cancelRoutine = true) →
      (x.irps.lookup irp).any (·.cancelRoutine) = true := by
    intro irp' i w hi hany hw
    rw [any_lookup_insert] at hany
    split at hany
    · rename_i heq
      subst heq
      simpa [hi] using hw hany
    · exact hany
  have hnew : ∀ {file type},
      ((x.irps.insert c ⟨file, type, false, false, none⟩).lookup irp).any
        (·.cancelRoutine) = true →
      (x.irps.lookup irp).any (·.cancelRoutine) = true := by
    intro file type hany
    rw [any_lookup_insert] at hany
    split at hany
    · cases hany
    · exact hany
  cases h with
  | session h =>
    cases h <;> exact Or.inl hirp
  | refuse | noMemory | submit | get | post => exact Or.inl (hnew hirp)
  | notifyStore request irp' i _ hi | getStore request i hi
  | cancel irp' i hi => exact Or.inl (hupdate hi hirp id)
  | notifyUncancel irp' i hi | getUncancel i hi | cancelClaim irp' i hi =>
    exact Or.inl (hupdate hi hirp nofun)
  | getPend i hi =>
    rw [any_lookup_insert] at hirp
    split at hirp
    · rename_i heq
      exact Or.inr ⟨rfl, heq, rfl⟩
    · exact Or.inl hirp
  | _ => exact Or.inl hirp

theorem Action.hasRoutine_kept (h : Action x c before y after)
    (hfresh : before = none → x.irps.lookup c = none)
    (hirp : x.hasRoutine irp = true) :
    y.hasRoutine irp = true ∨ before = some (.notifying (.uncancel irp)) ∨
      y.pendingIrp = none ∨ after = some (.cancelling irp .routine) := by
  unfold Shared.hasRoutine at hirp ⊢
  have hupdate : ∀ {irp' i} (w : Irp), x.irps.lookup irp' = some i →
      ((x.irps.insert irp' w).lookup irp).any (·.cancelRoutine) = true ∨
        (irp = irp' ∧ w.cancelRoutine ≠ i.cancelRoutine) := by
    intro irp' i w hi
    rw [any_lookup_insert]
    split
    · rename_i heq
      subst heq
      rw [hi] at hirp
      have hset : i.cancelRoutine = true := hirp
      by_cases hw : w.cancelRoutine = true
      · exact Or.inl hw
      · exact Or.inr ⟨rfl, fun heq => hw (heq.trans hset)⟩
    · exact Or.inl hirp
  have hnew : ∀ w, before = none →
      ((x.irps.insert c w).lookup irp).any (·.cancelRoutine) = true := by
    intro w hbefore
    rw [any_lookup_insert, if_neg]
    · exact hirp
    · rintro rfl
      simp [hfresh hbefore] at hirp
  cases h with
  | session h =>
    cases h <;> exact Or.inl hirp
  | refuse | noMemory | submit | get | post => exact Or.inl (hnew _ rfl)
  | notifyStore request irp' i _ hi | getStore request i hi
  | cancel irp' i hi =>
    exact Or.inl ((hupdate _ hi).resolve_right fun hne => hne.2 rfl)
  | notifyUncancel irp' i hi =>
    rcases hupdate { i with cancelRoutine := false } hi with
      hkept | ⟨rfl, -⟩
    · exact Or.inl hkept
    · exact Or.inr (Or.inl rfl)
  | getUncancel i hi => exact Or.inr (Or.inr (Or.inl rfl))
  | cancelClaim irp' i hi =>
    rcases hupdate { i with cancelRoutine := false } hi with
      hkept | ⟨rfl, -⟩
    · exact Or.inl hkept
    · exact Or.inr (Or.inr (Or.inr rfl))
  | getPend i hi =>
    rw [any_lookup_insert]
    split
    · exact Or.inl rfl
    · exact Or.inl hirp
  | _ => exact Or.inl hirp

/-- The cancel routine of an IRP is set, or is about to run. -/
def Claimable (s : Pool Shared Call) (irp : ℕ) : Prop :=
  s.shared.hasRoutine irp = true ∨
    ∃ c, s.calls.lookup c = some (.cancelling irp .routine)

theorem Claimable.not_completed (hs : relay.machine.Reachable s)
    (h : Claimable s irp) :
    irp ∉ s.shared.completedIrps := by
  intro hcompleted
  have hacc := accounted_of_reachable hs
  rcases h with hset | ⟨c, hcall⟩
  · have hcount := Multiset.nodup_iff_count_le_one.mp
      (nodup_allIrps s.shared.irps) irp
    have hpos := Multiset.count_pos.mpr (mem_cancelable.mpr hset)
    have hpos' := Multiset.count_pos.mpr (Multiset.mem_coe.mpr hcompleted)
    rw [hacc, Shared.settledIrps] at hcount
    simp only [Multiset.count_add] at hcount
    omega
  · refine hacc.notMem_settledIrps hcall (Multiset.mem_singleton_self irp) ?_
    simp [Shared.settledIrps, hcompleted]

variable {call : Call}

theorem Claimable.eq_routine (hs : relay.machine.Reachable s)
    (h : Claimable s irp) (hcall : s.calls.lookup c = some call)
    (hirp : irp ∈ call.irps c) : call = .cancelling irp .routine := by
  have hacc := accounted_of_reachable hs
  rcases h with hset | ⟨c', hcall'⟩
  · refine absurd ?_ (hacc.notMem_settledIrps hcall hirp)
    exact Multiset.mem_add.mpr (Or.inl (mem_cancelable.mpr hset))
  · have hc := hacc.eq_of_mem hcall hirp hcall' (Multiset.mem_singleton_self irp)
    subst hc
    exact Option.some.inj (hcall.symm.trans hcall')

theorem Action.pendingIrp_cases (h : Action x c before y after)
    (hirp : y.pendingIrp = some irp) :
    (x.pendingIrp = some irp ∧ before ≠ some (.cancelling irp .routine)) ∨
      (y.hasRoutine irp = true ∧ before = some (.getting .pend) ∧ irp = c) := by
  cases h with
  | session h =>
    have hbefore : before ≠ some (.cancelling irp .routine) := by
      rintro rfl
      cases h
    cases h <;> exact Or.inl ⟨hirp, hbefore⟩
  | notifyStore | getUncancel => cases hirp
  | getPend i hi =>
    cases hirp
    refine Or.inr ⟨?_, rfl, rfl⟩
    unfold Shared.hasRoutine
    rw [any_lookup_insert, if_pos rfl]
  | cancelRoutine irp' hlock =>
    dsimp only at hirp
    split at hirp
    · cases hirp
    · rename_i hne
      refine Or.inl ⟨hirp, ?_⟩
      rintro ⟨⟩
      exact hne hirp
  | _ => exact Or.inl ⟨hirp, by simp⟩

theorem claimable_of_pending (hs : relay.machine.Reachable s)
    (hirp : s.shared.pendingIrp = some irp) : Claimable s irp := by
  refine Program.invariant
    (I := fun s => ∀ irp, s.shared.pendingIrp = some irp → Claimable s irp)
    ?_ ?_ hs irp hirp
  · rintro irp ⟨⟩
  · intro s c before n y after hs ih hbefore hturn irp hirp
    have hact := (action_of_turn hturn).1
    rcases hact.pendingIrp_cases hirp with ⟨hold, hne⟩ | ⟨hset, -, -⟩
    · rcases ih irp hold with hset | ⟨c', hcall⟩
      · rcases hact.hasRoutine_kept (irp_fresh hs hturn) hset with
          hset | hnotifier | hnone | hclaim
        · exact Or.inl hset
        · obtain ⟨-, hnone⟩ := section_before hs hbefore _ hnotifier rfl
          rw [hnone] at hold
          cases hold
        · rw [hirp] at hnone
          cases hnone
        · exact Or.inr ⟨c, by rw [Table.lookup_put, if_pos rfl, hclaim]⟩
      · refine Or.inr ⟨c', ?_⟩
        rw [Table.lookup_put, if_neg]
        · exact hcall
        · rintro rfl
          exact hne (hbefore.symm.trans hcall)
    · exact Or.inl hset

/-! ## Handing on a request -/

/-- A call is going to complete a GET with `STATUS_SUCCESS`. -/
def Call.tells (c irp : ℕ) : Call → Prop
  | .notifying (.uncancel irp') | .notifying (.release (some irp'))
  | .notifying (.complete irp') => irp' = irp
  | .getting (.release status) | .returning status =>
    status = .success ∧ c = irp
  | _ => False

def Shared.handedIrps (x : Shared) : List ℕ :=
  x.handed.map Prod.snd

def Shared.output (x : Shared) (irp : ℕ) : Option (UInt64 × List UInt8) :=
  (x.irps.lookup irp).bind (·.output)

/-- The call puts the request into the output of the GET. -/
def Stores (x : Shared) (c : ℕ) (r : Request) (irp : ℕ)
    (before after : Option Call) : Prop :=
  (before = some (.notifying (.took r)) ∧ x.pendingIrp = some irp ∧
    after = some (.notifying (.uncancel irp))) ∨
  (before = some (.getting (.took r)) ∧ irp = c ∧
    after = some (.getting (.release .success)))

theorem Action.handed_cases (h : Action x c before y after) :
    y.handed = x.handed ∨
    ∃ r irp, y.handed = x.handed ++ [(r, irp)] ∧
      y.pendingRequest = some r ∧ y.output irp = some (r.id, r.command) ∧
      (∃ i, x.irps.lookup irp = some i) ∧
      Stores x c r irp before after := by
  cases h with
  | session h =>
    cases h <;> exact Or.inl rfl
  | notifyStore request irp i hirp hi =>
    refine Or.inr ⟨request, irp, rfl, rfl, ?_, ⟨i, hi⟩, Or.inl ⟨rfl, hirp, rfl⟩⟩
    simp [Shared.output]
  | getStore request i hi =>
    refine Or.inr ⟨request, c, rfl, rfl, ?_, ⟨i, hi⟩, Or.inr ⟨rfl, rfl, rfl⟩⟩
    simp [Shared.output]
  | _ => exact Or.inl rfl

theorem handed_exclusive (hs : relay.machine.Reachable s) {r : Request}
    (hbefore : s.calls.lookup c = before)
    (hstore : Stores s.shared c r irp before after) :
    s.shared.lock = some c ∧ irp ∉ s.shared.completedIrps ∧
      (∀ c' call, c' ≠ c → s.calls.lookup c' = some call →
        irp ∈ call.irps c' → call = .cancelling irp .routine) ∧
      (after = some (.notifying (.uncancel irp)) ∨ ¬Claimable s irp) := by
  have hacc := accounted_of_reachable hs
  rcases hstore with ⟨hcall, hirp, hafter⟩ | ⟨hcall, rfl, -⟩
  · have hclaim := claimable_of_pending hs hirp
    exact ⟨((locked_of_reachable hs).calls c _ (hbefore.trans hcall) rfl).1,
      hclaim.not_completed hs, fun c' call _ => hclaim.eq_routine hs,
      Or.inl hafter⟩
  · have hown := hbefore.trans hcall
    have hhand : irp ∈ Call.irps irp (.getting (.took r)) :=
      Multiset.mem_add.mpr (Or.inl (Multiset.mem_singleton_self irp))
    refine ⟨((locked_of_reachable hs).calls irp _ hown rfl).1, ?_, ?_, ?_⟩
    · intro hcompleted
      refine hacc.notMem_settledIrps hown hhand ?_
      simp [Shared.settledIrps, hcompleted]
    · intro c' call hc hcall' hirp
      exact absurd (hacc.eq_of_mem hcall' hirp hown hhand) hc
    · refine Or.inr ?_
      intro hclaim
      cases hclaim.eq_routine hs hown hhand

theorem handedIrps_lt (hs : relay.machine.Reachable s)
    (hirp : irp ∈ s.shared.handedIrps) : irp < s.nextCall := by
  refine Program.invariant
    (I := fun s => ∀ irp ∈ s.shared.handedIrps, irp < s.nextCall)
    ?_ ?_ hs irp hirp
  · rintro irp ⟨⟩
  · intro s c before n y after hs ih _ hturn irp hirp
    rw [Shared.handedIrps] at hirp
    rcases (action_of_turn hturn).1.handed_cases with
      hsame | ⟨r, irp', hnew, -, -, ⟨i, hi⟩, -⟩
    · rw [hsame] at hirp
      exact (ih irp hirp).trans_le hturn.nextCall_le
    · rw [hnew, List.map_append, List.mem_append] at hirp
      rcases hirp with hirp | hirp
      · exact (ih irp hirp).trans_le hturn.nextCall_le
      · rw [List.mem_singleton.mp hirp]
        exact (irp_lt_nextCall hs hi).trans_le hturn.nextCall_le

/-! ## Cancelled GETs take no request -/

/-- The condition on a run: `ServiceRequestAvailable` clears the cancel
routine of the GET before a cancellation takes it. -/
def inTime (x : Shared) (_ : ℕ) : Call → Bool
  | .notifying (.uncancel irp) => x.hasRoutine irp
  | _ => true

/-- The GET that a call is working on and that nothing has been handed to:
that of a GET which is not successful, and that of a cancellation which is
past the lock section. -/
def Call.spared (c : ℕ) : Call → Option ℕ
  | .getting (.release status) | .returning status =>
    if status = .cancelled then some c else none
  | .getting _ => some c
  | .cancelling irp .complete => some irp
  | _ => none

theorem Call.spared_cases (h : call.spared c = some irp) :
    call.locks = true ∨
      (irp ∈ call.irps c ∧ call ≠ .cancelling irp .routine) := by
  cases call with
  | getting position =>
    cases position with
    | acquire =>
      cases h
      exact Or.inr ⟨Multiset.mem_singleton_self _, by simp⟩
    | _ => exact Or.inl rfl
  | returning status =>
    simp only [spared] at h
    split at h
    · rename_i hstatus
      subst hstatus
      cases h
      exact Or.inr ⟨Multiset.mem_singleton_self _, by simp⟩
    · cases h
  | cancelling irp' position =>
    cases position with
    | complete =>
      cases h
      exact Or.inr ⟨Multiset.mem_singleton_self _, by simp⟩
    | _ => cases h
  | _ => cases h

theorem Action.spared (h : Action x c before y after) (hcall : call ∈ after)
    (hspared : call.spared c = some irp) :
    y.handed = x.handed ∧ ((before = none ∧ irp = c) ∨
        (∃ call' ∈ before, call'.spared c = some irp) ∨
        (x.lock = none ∧ before = some (.cancelling irp .routine))) := by
  cases h with
  | session h => cases h <;> cases hcall <;> cases hspared
  | push id command service =>
    split at hcall <;> cases hcall <;> cases hspared
  | refuse file type status =>
    cases hcall
    simp only [Call.spared] at hspared
    split at hspared
    · cases hspared
      exact ⟨rfl, Or.inl ⟨rfl, rfl⟩⟩
    · cases hspared
  | get file =>
    cases hcall
    cases hspared
    exact ⟨rfl, Or.inl ⟨rfl, rfl⟩⟩
  | getUnlock status =>
    cases hcall
    exact ⟨rfl, Or.inr (Or.inl ⟨_, rfl, hspared⟩)⟩
  | cancelRoutine irp' hlock =>
    cases hcall
    cases hspared
    exact ⟨rfl, Or.inr (Or.inr ⟨hlock, rfl⟩)⟩
  | _ =>
    cases hcall <;> cases hspared <;> exact ⟨rfl, Or.inr (Or.inl ⟨_, rfl, rfl⟩)⟩

theorem Action.cancelled_cases (h : Action x c before y after)
    {completion : Completion} (hmem : completion ∈ y.completions)
    (hstatus : completion.status = .cancelled) :
    completion ∈ x.completions ∨ (y.handed = x.handed ∧
        ∃ call ∈ before, call.spared c = some completion.irp) := by
  have hcomplete : ∀ {irp status},
      completion ∈ (x.ioCompleteRequest irp status).completions →
      completion ∈ x.completions ∨
        (status = .cancelled ∧ completion.irp = irp) := by
    intro irp status hmem
    rcases List.mem_append.mp hmem with hmem | hmem
    · exact Or.inl hmem
    · cases List.mem_singleton.mp hmem
      exact Or.inr ⟨hstatus, rfl⟩
  cases h with
  | session h =>
    cases h <;> exact Or.inl hmem
  | return_ status =>
    rcases hcomplete hmem with hmem | ⟨rfl, hirp⟩
    · exact Or.inl hmem
    · exact Or.inr ⟨rfl, _, rfl, hirp ▸ rfl⟩
  | notifyComplete irp =>
    rcases hcomplete hmem with hmem | ⟨hne, -⟩
    · exact Or.inl hmem
    · cases hne
  | cancelComplete irp =>
    rcases hcomplete hmem with hmem | ⟨-, hirp⟩
    · exact Or.inl hmem
    · exact Or.inr ⟨rfl, _, rfl, hirp ▸ rfl⟩
  | postCallback request result =>
    rcases List.mem_append.mp hmem with hmem | hmem
    · exact Or.inl hmem
    · rw [List.mem_singleton.mp hmem] at hstatus
      cases hstatus
  | _ => exact Or.inl hmem

theorem Claimable.of_turn {n : ℕ} (hact : Action s.shared c before y after)
    (h : Claimable ⟨y, s.calls.put c after, n⟩ irp) :
    Claimable s irp ∨ (before = some (.getting .pend) ∧ irp = c ∧
        y.handed = s.shared.handed) := by
  rcases h with hset | ⟨c', hcall⟩
  · exact (hact.hasRoutine_cases hset).imp Or.inl id
  · rw [Table.lookup_put] at hcall
    split at hcall
    · cases hact with
      | session h => cases h <;> cases hcall
      | push id command service => split at hcall <;> cases hcall
      | cancelClaim irp' i hi hset =>
        cases hcall
        refine Or.inl (Or.inl ?_)
        simp [Shared.hasRoutine, hi, hset]
      | _ => cases hcall
    · exact Or.inl (Or.inr ⟨c', hcall⟩)

/-- Nothing is handed to a GET that is spared or was cancelled, and a GET that
was handed a request and can still be cancelled is in the hands of
`ServiceRequestAvailable`. -/
structure Untouched (s : Pool Shared Call) : Prop where
  spared : ∀ c call irp, s.calls.lookup c = some call →
    call.spared c = some irp → irp ∉ s.shared.handedIrps
  notified : ∀ irp ∈ s.shared.handedIrps, Claimable s irp →
    ∃ c, s.calls.lookup c = some (.notifying (.uncancel irp))
  cancelled : ∀ completion ∈ s.shared.completions,
    completion.status = .cancelled → completion.irp ∉ s.shared.handedIrps

section

variable {s : Pool Shared Call} {c n : ℕ} {before after : Option Call}
  {y : Shared}

theorem notMem_handedIrps (hs : relay.machine.Reachable s)
    (hbefore : s.calls.lookup c = before)
    (hact : Action s.shared c before y after) {irp : ℕ}
    (hold : irp ∉ s.shared.handedIrps)
    (hother : irp ∈ s.shared.completedIrps ∨
      ∃ c' call, c' ≠ c ∧ s.calls.lookup c' = some call ∧
        call.spared c' = some irp) : irp ∉ y.handedIrps := by
  intro hirp
  rcases hact.handed_cases with hsame | ⟨r, irp', hnew, -, -, -, hstore⟩
  · rw [Shared.handedIrps, hsame] at hirp
    exact hold hirp
  · rw [Shared.handedIrps, hnew, List.map_append, List.mem_append] at hirp
    rcases hirp with hirp | hirp
    · exact hold hirp
    · cases List.mem_singleton.mp hirp
      obtain ⟨hlock, hcompleted, honly, -⟩ :=
        handed_exclusive hs hbefore hstore
      rcases hother with hdone | ⟨c', call, hc, hcall, hspared⟩
      · exact hcompleted hdone
      · rcases Call.spared_cases hspared with hlocks | ⟨hhand, hne⟩
        · have hlock' :=
            ((locked_of_reachable hs).calls c' call hcall hlocks).1
          exact hc (Option.some.inj (hlock'.symm.trans hlock))
        · exact hne (honly c' call hc hcall hhand)

theorem Untouched.spared_turn (h : Untouched s)
    (hs : relay.machine.Reachable s) (hbefore : s.calls.lookup c = before)
    (hturn : relay.Turn s c before n y after) :
    ∀ c' call irp, (s.calls.put c after).lookup c' = some call →
      call.spared c' = some irp → irp ∉ y.handedIrps := by
  have hact := (action_of_turn hturn).1
  intro c' call irp hcall hspared
  rw [Table.lookup_put] at hcall
  split at hcall
  · rename_i hc
    subst hc
    obtain ⟨hsame, hcase⟩ := hact.spared hcall hspared
    rw [Shared.handedIrps, hsame]
    rcases hcase with ⟨rfl, rfl⟩ | ⟨call', hcall', hspared'⟩ | ⟨hlock, rfl⟩
    · intro hirp
      have hlt := handedIrps_lt hs hirp
      rw [← hturn.of_none.1] at hlt
      exact Nat.lt_irrefl _ hlt
    · exact h.spared c' call' irp (hbefore.trans hcall') hspared'
    · intro hirp
      obtain ⟨c'', hnotifier⟩ := h.notified irp hirp (Or.inr ⟨c', hbefore⟩)
      have hlock' := ((locked_of_reachable hs).calls c'' _ hnotifier rfl).1
      rw [hlock] at hlock'
      cases hlock'
  · rename_i hc
    exact notMem_handedIrps hs hbefore hact (h.spared c' call irp hcall hspared)
      (Or.inr ⟨c', call, hc, hcall, hspared⟩)

theorem not_claimable_of_uncancel (hs : relay.machine.Reachable s) {irp : ℕ}
    (hset : s.shared.hasRoutine irp = true)
    (hact : Action s.shared c (some (.notifying (.uncancel irp))) y after) :
    ¬Claimable ⟨y, s.calls.put c after, n⟩ irp := by
  have hnobody : ∀ c', s.calls.lookup c' ≠ some (.cancelling irp .routine) := by
    intro c' hcall'
    refine (accounted_of_reachable hs).notMem_settledIrps hcall'
      (Multiset.mem_singleton_self irp) ?_
    exact Multiset.mem_add.mpr (Or.inl (mem_cancelable.mpr hset))
  rintro (hset' | ⟨c', hcall'⟩)
  · cases hact with
    | session h => cases h
    | notifyUncancel _ i hi =>
      rw [Shared.hasRoutine, any_lookup_insert, if_pos rfl] at hset'
      cases hset'
    | notifyClaimed _ hclaimed =>
      obtain ⟨i, hi, hroutine⟩ := (Option.any_eq_true _ _).mp hset
      rw [hclaimed i hi] at hroutine
      cases hroutine
  · rw [Table.lookup_put] at hcall'
    split at hcall'
    · cases hact with
      | session h => cases h
      | notifyUncancel | notifyClaimed => cases hcall'
    · exact hnobody c' hcall'

theorem Untouched.notified_turn (h : Untouched s)
    (hs : relay.machine.Reachable s) (hbefore : s.calls.lookup c = before)
    (hturn : relay.Turn s c before n y after)
    (htime : ∀ call ∈ before, inTime s.shared c call = true) :
    ∀ irp ∈ y.handedIrps, Claimable ⟨y, s.calls.put c after, n⟩ irp →
      ∃ c', (s.calls.put c after).lookup c' =
        some (.notifying (.uncancel irp)) := by
  have hact := (action_of_turn hturn).1
  intro irp hirp hclaim
  have hkept : irp ∈ s.shared.handedIrps → Claimable s irp →
      ∃ c', (s.calls.put c after).lookup c' =
        some (.notifying (.uncancel irp)) := by
    intro hold hclaim'
    obtain ⟨c', hcall⟩ := h.notified irp hold hclaim'
    refine ⟨c', ?_⟩
    rw [Table.lookup_put, if_neg]
    · exact hcall
    · rintro rfl
      have hsame := hbefore.symm.trans hcall
      subst hsame
      exact not_claimable_of_uncancel hs (htime _ rfl) hact hclaim
  rcases hclaim.of_turn hact with hclaim' | ⟨hpend, rfl, hsame⟩
  · rcases hact.handed_cases with hsame | ⟨r, irp', hnew, -, -, -, hstore⟩
    · rw [Shared.handedIrps, hsame] at hirp
      exact hkept hirp hclaim'
    · rw [Shared.handedIrps, hnew, List.map_append, List.mem_append] at hirp
      rcases hirp with hirp | hirp
      · exact hkept hirp hclaim'
      · cases List.mem_singleton.mp hirp
        rcases (handed_exclusive hs hbefore hstore).2.2.2 with hafter | hnot
        · exact ⟨c, by rw [Table.lookup_put, if_pos rfl, hafter]⟩
        · exact absurd hclaim' hnot
  · rw [Shared.handedIrps, hsame] at hirp
    exact absurd hirp (h.spared irp _ irp (hbefore.trans hpend) rfl)

theorem Untouched.cancelled_turn (h : Untouched s)
    (hs : relay.machine.Reachable s) (hbefore : s.calls.lookup c = before)
    (hturn : relay.Turn s c before n y after) :
    ∀ completion ∈ y.completions, completion.status = .cancelled →
      completion.irp ∉ y.handedIrps := by
  have hact := (action_of_turn hturn).1
  intro completion hmem hstatus
  rcases hact.cancelled_cases hmem hstatus with
    hold | ⟨hsame, call, hcall, hspared⟩
  · exact notMem_handedIrps hs hbefore hact
      (h.cancelled completion hold hstatus)
      (Or.inl (List.mem_map_of_mem hold))
  · rw [Shared.handedIrps, hsame]
    exact h.spared c call _ (hbefore.trans hcall) hspared

end

theorem untouched_of_reachableWithin (hs : relay.machine.ReachableWithin
      (Program.Meets fun x c call => inTime x c call = true) s) :
    Untouched s := by
  refine Program.invariant_within ?_ ?_ hs
  · refine ⟨?_, ?_, ?_⟩
    · rintro c call irp ⟨⟩
    · rintro irp ⟨⟩
    · rintro completion ⟨⟩
  · intro s c before n y after hs ih hbefore hturn htime
    exact ⟨ih.spared_turn hs hbefore hturn,
      ih.notified_turn hs hbefore hturn htime,
      ih.cancelled_turn hs hbefore hturn⟩

end WinNetTest.Isr
