import WinNetTest.Isr.RelayCancel
import WinNetTest.Isr.RelayWakeup

/-!
# What the service can still complete

From every state of the relay in which a handle of the service is open, the
service can complete every request that was accepted, with nothing but GETs
and POSTs on its handle and the calls under way.  The call that holds the
service lock is executed to the end of its section; then, as long as the
request is on the queue, the head of the queue is fetched, by a GET of the
service or by the push that is about to tell a waiting one, and posted.
-/

namespace WinNetTest.Isr

open Support

/-! ## Continuing one call -/

/-- The call is a push that has to tell the service, a GET or a POST. -/
def Call.serves : Call → Bool
  | .notifying _ | .getting _ | .posting _ => true
  | _ => false

/-- The allowed moves are enough to serve on a handle: from the states of an
invariant they are the actions of the pushes, GETs and POSTs under way, a GET,
and a POST for the pending request. -/
structure Serves (file : ℕ) (I : Pool Shared Call → Prop)
    (A : Pool Shared Call → Move Input → Prop) : Prop where
  reachable : ∀ s, I s → relay.machine.Reachable s
  step : ∀ s m t, I s → A s m → relay.machine.step s m = some t → I t
  advance : ∀ s c call, I s → s.calls.lookup c = some call →
    call.serves = true → A s (.advance c)
  get : ∀ s, I s → A s (.start (.ioctl file (.get getOutputSize)))
  post : ∀ s r, I s → s.shared.files.lookup file = some .service →
    s.shared.pendingRequest = some r →
    A s (.start (.ioctl file (.post postInputSize r.id 0)))

inductive Executes (c : ℕ) : Shared → Option Call → Shared → Option Call → Prop
  | refl (x : Shared) (call : Option Call) : Executes c x call x call
  | step {x y z : Shared} {call : Call} {mid after : Option Call}
      (hfault : x.fault = false) (hserves : call.serves = true)
      (hadvance : advance x c call = some (y, mid))
      (hrest : Executes c y mid z after) : Executes c x (some call) z after

variable {s : Pool Shared Call} {c file : ℕ} {I : Pool Shared Call → Prop}
  {A : Pool Shared Call → Move Input → Prop}

variable {before after : Option Call}

theorem Serves.advances {y : Shared} {call : Call} (h : Serves file I A)
    (hs : I s) (hcall : s.calls.lookup c = some call)
    (hcalls : call.serves = true) (hfault : s.shared.fault = false)
    (hadvance : Isr.advance s.shared c call = some (y, after)) :
    I ⟨y, s.calls.put c after, s.nextCall⟩ ∧
      ∀ {t}, relay.machine.Leads A ⟨y, s.calls.put c after, s.nextCall⟩ t →
        relay.machine.Leads A s t := by
  have hrelay : relay.advance s.shared c call = some (y, after) := by
    simp only [relay, hfault, Bool.false_eq_true, if_false, hadvance]
  have hstep := Program.step_advance hcall hrelay
  have hallowed := h.advance s c call hs hcall hcalls
  exact ⟨h.step _ _ _ hs hallowed hstep,
    Relation.ReflTransGen.head ⟨.advance c, hallowed, hstep⟩⟩

theorem Executes.leads {x z : Shared} (h : Executes c x before z after)
    (hserves : Serves file I A) (hs : I s) (hx : s.shared = x)
    (hcall : s.calls.lookup c = before) :
    ∃ t, relay.machine.Leads A s t ∧ I t ∧ t.shared = z := by
  induction h generalizing s with
  | refl x call => exact ⟨s, .refl, hs, hx⟩
  | @step x y z call mid after hfault hcalls hadvance hrest ih =>
    subst hx
    obtain ⟨ht, hcontinue⟩ :=
      hserves.advances hs hcall hcalls hfault hadvance
    obtain ⟨t, hleads, ht, hz⟩ := ih ht rfl
      (by rw [Table.lookup_put, if_pos rfl])
    exact ⟨t, hcontinue hleads, ht, hz⟩

/-! ## The section that is under way -/

/-- A bound on the actions of a call in a section of the service lock. -/
def Call.remaining : Call → ℕ
  | .getting .pop => 5
  | .notifying .pop | .getting .pend => 4
  | .notifying (.took _) | .getting .check => 3
  | .notifying (.uncancel _) | .getting (.took _) | .getting .uncancel => 2
  | _ => 1

/-- What an action of a call in its section does: the section ends, or fewer
actions remain. -/
structure Proceeds (x : Shared) (call : Call) (y : Shared)
    (after : Option Call) : Prop where
  fault : y.fault = false
  files : y.files = x.files
  inserted : y.inserted = x.inserted
  lock : y.lock = none ∨ ∃ call', after = some call' ∧ call'.locks = true ∧
    call'.remaining < call.remaining

theorem Action.lock_cases {x y : Shared} (h : Action x c before y after) :
    (y.lock = x.lock ∧ ∀ call ∈ before, call.locks = true →
        ∃ call' ∈ after, call'.locks = true) ∨
      (y.lock = some c ∧ ∃ call' ∈ after, call'.locks = true) ∨
      y.lock = none := by
  cases h with
  | session h =>
    have hbefore : ∀ call ∈ before, call.locks = false := by
      cases h <;> simp [Call.locks]
    obtain ⟨_, _, _, _, rfl⟩ := h.frame
    refine Or.inl ⟨rfl, ?_⟩
    intro call hcall hlocks
    rw [hbefore call hcall] at hlocks
    cases hlocks
  | notifyLock | getLock => exact Or.inr (Or.inl ⟨rfl, _, rfl, rfl⟩)
  | notifyUnlock | notifyUnlockIrp | getUnlock => exact Or.inr (Or.inr rfl)
  | _ => exact Or.inl ⟨rfl, by simp [Call.locks]⟩

section

variable (hs : relay.machine.Reachable s)

include hs

theorem holder_of_reachable (hlock : s.shared.lock = some c) :
    ∃ call, s.calls.lookup c = some call ∧ call.locks = true := by
  refine Program.invariant (P := relay)
    (I := fun s => ∀ c, s.shared.lock = some c →
      ∃ call, s.calls.lookup c = some call ∧ call.locks = true) ?_ ?_ hs c hlock
  · rintro c ⟨⟩
  · intro s c before n y after _ ih hbefore hturn c' hlock
    rw [Table.lookup_put]
    rcases (action_of_turn hturn).1.lock_cases with
      ⟨hsame, hkeep⟩ | ⟨htaken, call', hafter, hlocks⟩ | hnone
    · obtain ⟨call, hcall, hlocks⟩ := ih c' (hsame ▸ hlock)
      split
      · rename_i hc
        subst hc
        obtain ⟨call', hafter, hlocks'⟩ :=
          hkeep call (hbefore.symm.trans hcall) hlocks
        exact ⟨call', hafter, hlocks'⟩
      · exact ⟨call, hcall, hlocks⟩
    · cases htaken.symm.trans hlock
      rw [if_pos rfl]
      exact ⟨call', hafter, hlocks⟩
    · rw [hnone] at hlock
      cases hlock

theorem irp_of_hand {c irp : ℕ} {call : Call}
    (hcall : s.calls.lookup c = some call) (hirp : irp ∈ call.irps c) :
    ∃ i, s.shared.irps.lookup irp = some i := by
  have hmem : irp ∈ allIrps s.shared.irps := by
    rw [accounted_of_reachable hs, Multiset.mem_add]
    exact Or.inl (Table.mem_total.mpr ⟨c, call, hcall, hirp⟩)
  obtain ⟨_, i, hi, hself⟩ := Table.mem_total.mp hmem
  rw [Multiset.mem_singleton.mp hself]
  exact ⟨i, hi⟩

theorem irp_of_pendingIrp {irp : ℕ} (hirp : s.shared.pendingIrp = some irp) :
    ∃ i, s.shared.irps.lookup irp = some i := by
  rcases claimable_of_pending hs hirp with hset | ⟨c, hcall⟩
  · obtain ⟨i, hi, -⟩ := (Option.any_eq_true _ _).mp hset
    exact ⟨i, hi⟩
  · exact irp_of_hand hs hcall (Multiset.mem_singleton_self irp)

theorem exists_advance_of_locks {call : Call}
    (hcall : s.calls.lookup c = some call) (hlocks : call.locks = true) :
    ∃ y after, advance s.shared c call = some (y, after) := by
  cases call with
  | notifying position =>
    cases position with
    | took request =>
      cases hirp : s.shared.pendingIrp with
      | none => simp [advance, serviceRequestAvailable, hirp]
      | some irp =>
        obtain ⟨i, hi⟩ := irp_of_pendingIrp hs hirp
        simp [advance, serviceRequestAvailable, hirp, storeRequest, hi]
    | pop | uncancel | release =>
      simp only [advance, serviceRequestAvailable]
      split <;> exact ⟨_, _, rfl⟩
    | acquire | complete => cases hlocks
  | getting position =>
    have hirp : c ∈ Call.irps c (.getting position) →
        ∃ i, s.shared.irps.lookup c = some i := irp_of_hand hs hcall
    cases position with
    | took | pend =>
      obtain ⟨i, hi⟩ := hirp (by simp [Call.irps])
      simp [advance, serviceIrpGet, storeRequest, hi]
    | pop | check | uncancel =>
      simp only [advance, serviceIrpGet]
      split <;> exact ⟨_, _, rfl⟩
    | release status => exact ⟨_, _, rfl⟩
    | acquire => cases hlocks
  | _ => cases hlocks

theorem proceeds_of_locks (hfault : s.shared.fault = false) {call : Call}
    (hcall : s.calls.lookup c = some call) (hlocks : call.locks = true) :
    ∃ y after, advance s.shared c call = some (y, after) ∧
      Proceeds s.shared call y after := by
  have hsection := section_before hs hcall call rfl hlocks
  obtain ⟨y, after, hadvance⟩ := exists_advance_of_locks hs hcall hlocks
  refine ⟨y, after, hadvance, ?_⟩
  cases action_of_advance hadvance with
  | session h => cases h <;> cases hlocks
  | notifyFault request hirp => exact absurd hirp hsection.2.1
  | notifyUnlock | notifyUnlockIrp | getUnlock =>
    exact ⟨hfault, rfl, rfl, Or.inl rfl⟩
  | notifyEmpty | notifyPop | notifyStore | notifyUncancel | notifyClaimed
  | getEmpty | getPop | getStore | getPend | getCheck | getPended | getUncancel
  | getClaimed =>
    exact ⟨hfault, rfl, rfl, Or.inr ⟨_, rfl, rfl, by simp [Call.remaining]⟩⟩
  | _ => cases hlocks

end

/-! ## Fetching and posting -/

/-- A state of the invariant outside the sections of the service lock in which
a handle of the service is open. -/
structure Serving (file : ℕ) (I : Pool Shared Call → Prop)
    (s : Pool Shared Call) : Prop where
  inv : I s
  fault : s.shared.fault = false
  file : s.shared.files.lookup file = some .service
  lock : s.shared.lock = none

section Serve

variable {s : Pool Shared Call} {r : Request} (hserves : Serves file I A)

include hserves

theorem leads_serving (hs : I s) (hfault : s.shared.fault = false)
    (hfile : s.shared.files.lookup file = some .service) :
    ∃ t, relay.machine.Leads A s t ∧ Serving file I t ∧
      t.shared.inserted = s.shared.inserted := by
  cases hlock : s.shared.lock with
  | none => exact ⟨s, .refl, ⟨hs, hfault, hfile, hlock⟩, rfl⟩
  | some c =>
    obtain ⟨call, hcall, hlocks⟩ :=
      holder_of_reachable (hserves.reachable s hs) hlock
    clear hlock
    induction hbound : call.remaining using Nat.strong_induction_on
      generalizing s call with
    | _ bound ih =>
      obtain ⟨y, after, hadvance, hproceeds⟩ :=
        proceeds_of_locks (hserves.reachable s hs) hfault hcall hlocks
      have hcalls : call.serves = true := by
        cases call <;> first | rfl | cases hlocks
      obtain ⟨ht, hcontinue⟩ :=
        hserves.advances hs hcall hcalls hfault hadvance
      have hopen := hproceeds.files ▸ hfile
      rcases hproceeds.lock with hlock | ⟨call', rfl, hlocks', hless⟩
      · exact ⟨_, hcontinue .refl, ⟨ht, hproceeds.fault, hopen, hlock⟩,
          hproceeds.inserted⟩
      · obtain ⟨t, hleads, hserving, hsame⟩ := ih _ (hbound ▸ hless) ht
          hproceeds.fault hopen call' (by rw [Table.lookup_put, if_pos rfl])
          hlocks' rfl
        exact ⟨t, hcontinue hleads, hserving,
          hsame.trans hproceeds.inserted⟩

variable {x : Shared}

theorem Serving.executes (h : Serving file I s) (ioctl : Ioctl) {z : Shared}
    {call : Call} {after : Option Call}
    (hallowed : A s (.start (.ioctl file ioctl)))
    (hioctl : isrIrpIoctl (s.shared.newIrp s.nextCall file .service) s.nextCall
      .service ioctl = (x, some call))
    (hexec : Executes s.nextCall x (some call) z after) :
    ∃ t, relay.machine.Leads A s t ∧ I t ∧ t.shared = z := by
  have hstart : relay.machine.step s (.start (.ioctl file ioctl)) =
      some ⟨x, s.calls.put s.nextCall (some call), s.nextCall + 1⟩ := by
    simp only [Program.machine, relay, h.fault, Bool.false_eq_true, if_false,
      start, h.file, hioctl, Option.map_some]
  obtain ⟨t, hleads, ht, hz⟩ := hexec.leads hserves
    (hserves.step _ _ _ h.inv hallowed hstart) rfl
    (by rw [Table.lookup_put, if_pos rfl])
  exact ⟨t, Relation.ReflTransGen.head ⟨_, hallowed, hstart⟩ hleads, ht, hz⟩

omit hserves in
theorem waiting_not_completed (hs : relay.machine.Reachable s)
    (hr : r ∈ s.shared.queue ++ s.shared.pendingRequest.toList) :
    r.clientContext ∉ s.shared.completedIrps := by
  intro hcompleted
  have hcount := Multiset.nodup_iff_count_le_one.mp
    (nodup_allIrps s.shared.irps) r.clientContext
  have hmem : r.clientContext ∈
      contexts (s.shared.queue ++ s.shared.pendingRequest.toList) :=
    Multiset.mem_coe.mpr (List.mem_map_of_mem hr)
  have hpos := Multiset.count_pos.mpr hmem
  have hpos' := Multiset.count_pos.mpr (Multiset.mem_coe.mpr hcompleted)
  rw [accounted_of_reachable hs, Shared.settledIrps] at hcount
  simp only [contexts_append, Multiset.count_add] at hcount hpos
  omega

omit hserves in
theorem executes_post {client : Party} (hfault : x.fault = false)
    (hlock : x.lock = none) (hr : x.pendingRequest = some r)
    (hclient : x.client.acquire = some client) (c : ℕ) (result : Int32) :
    Executes c x (some (.posting (.acquire r.id result)))
      (clientRequestComplete
        { x with lock := none, pendingRequest := none, client := client } r
        result)
      (some (.posting .release)) := by
  apply Executes.step hfault rfl
  · simp only [advance, serviceIrpPost, hlock, hr, if_true]
    rfl
  apply Executes.step
  · exact hfault
  · rfl
  · simp only [advance, serviceIrpPost, hclient]
    rfl
  exact Executes.step hfault rfl rfl (Executes.refl _ _)

theorem Serving.post (h : Serving file I s)
    (hr : s.shared.pendingRequest = some r) :
    ∃ t, relay.machine.Leads A s t ∧ Serving file I t ∧
      r ∈ t.shared.finished ∧ t.shared.pendingRequest = none ∧
      t.shared.queue = s.shared.queue ∧
      t.shared.inserted = s.shared.inserted := by
  have hs := hserves.reachable s h.inv
  obtain ⟨_, hclient⟩ := Option.ne_none_iff_exists'.mp
    (client_acquire_ne_none hs (pendingRequest_mem_inserted hs hr)
      (waiting_not_completed hs (by simp [hr])))
  obtain ⟨t, hleads, hinv, ht⟩ := h.executes hserves
    (.post postInputSize r.id 0) (hserves.post s r h.inv h.file hr) rfl
    (executes_post (x := { s.shared.newIrp s.nextCall file .service with
      posts := s.shared.posts ++ [(r.id, 0)] }) h.fault h.lock hr hclient _ 0)
  refine ⟨t, hleads, ⟨hinv, ?_, ?_, ?_⟩, ?_⟩
  · rw [ht]
    exact h.fault
  · rw [ht]
    exact h.file
  · rw [ht]
    rfl
  · rw [ht]
    exact ⟨List.mem_append_right _ (List.mem_singleton_self r), rfl, rfl, rfl⟩

structure Fetched (r : Request) (rest : List Request) (x y : Shared) : Prop where
  fault : y.fault = x.fault
  files : y.files = x.files
  lock : y.lock = none
  inserted : y.inserted = x.inserted
  queue : y.queue = rest
  pendingRequest : y.pendingRequest = some r

variable {rest : List Request}

omit hserves in
theorem executes_get {i : Irp} (hfault : x.fault = false)
    (hlock : x.lock = none) (hirp : x.pendingIrp = none)
    (hrequest : x.pendingRequest = none) (hqueue : x.queue = r :: rest)
    (hi : x.irps.lookup c = some i) :
    ∃ y, Executes c x (some (.getting .acquire)) y
        (some (.returning .success)) ∧ Fetched r rest x y := by
  refine ⟨{ x with
      lock := none
      pendingIrp := none
      queue := rest
      popped := x.popped ++ [r]
      irps := x.irps.insert c { i with output := some (r.id, r.command) }
      pendingRequest := some r
      handed := x.handed ++ [(r, c)] }, ?_, ⟨rfl, rfl, rfl, rfl, rfl, rfl⟩⟩
  apply Executes.step hfault rfl
  · simp only [advance, serviceIrpGet, hlock, hirp, hrequest, if_true]
    rfl
  apply Executes.step
  · exact hfault
  · rfl
  · simp only [advance, serviceIrpGet, rqServicePopRequest, hqueue]
    rfl
  apply Executes.step
  · exact hfault
  · rfl
  · simp only [advance, serviceIrpGet, storeRequest, hi, Option.map_some]
    rfl
  exact Executes.step hfault rfl rfl (Executes.refl _ _)

omit hserves in
theorem executes_notify {c irp : ℕ} {i : Irp} (hfault : x.fault = false)
    (hlock : x.lock = none) (hirp : x.pendingIrp = some irp)
    (hi : x.irps.lookup irp = some i) (hqueue : x.queue = r :: rest) :
    ∃ y after, Executes c x (some (.notifying .acquire)) y after ∧
      Fetched r rest x y := by
  have huncancel : ∀ z : Shared, z.fault = false → ∃ irps after,
      Executes c z (some (.notifying (.uncancel irp)))
        { z with irps := irps, lock := none } after := by
    intro z hz
    rcases clearCancelRoutine_cases z irp with
      ⟨i', -, -, hclear⟩ | ⟨-, hclear⟩
    · refine ⟨z.irps.insert irp { i' with cancelRoutine := false },
        some (.notifying (.complete irp)), ?_⟩
      apply Executes.step hz rfl
      · simp only [advance, serviceRequestAvailable, hclear]
        rfl
      exact Executes.step hz rfl rfl (Executes.refl _ _)
    · refine ⟨z.irps, some .pushed, ?_⟩
      apply Executes.step hz rfl
      · simp only [advance, serviceRequestAvailable, hclear]
        rfl
      exact Executes.step hz rfl rfl (Executes.refl _ _)
  let z : Shared := { x with
    lock := some c
    queue := rest
    popped := x.popped ++ [r]
    pendingIrp := none
    irps := x.irps.insert irp { i with output := some (r.id, r.command) }
    pendingRequest := some r
    handed := x.handed ++ [(r, irp)] }
  obtain ⟨irps, after, hexec⟩ := huncancel z hfault
  refine ⟨{ z with irps := irps, lock := none }, after, ?_,
    ⟨rfl, rfl, rfl, rfl, rfl, rfl⟩⟩
  apply Executes.step hfault rfl
  · simp only [advance, serviceRequestAvailable, hlock, hirp, if_true,
      reduceCtorEq, if_false]
    rfl
  apply Executes.step
  · exact hfault
  · rfl
  · simp only [advance, serviceRequestAvailable, rqServicePopRequest, hqueue]
    rfl
  apply Executes.step
  · exact hfault
  · rfl
  · simp only [advance, serviceRequestAvailable, storeRequest, hi,
      Option.map_some]
    rfl
  exact hexec

theorem Serving.fetch (h : Serving file I s)
    (hrequest : s.shared.pendingRequest = none)
    (hqueue : s.shared.queue = r :: rest) :
    ∃ t, relay.machine.Leads A s t ∧ Serving file I t ∧
      Fetched r rest s.shared t.shared := by
  have hs := hserves.reachable s h.inv
  cases hirp : s.shared.pendingIrp with
  | none =>
    obtain ⟨y, hexec, hfetched⟩ := executes_get
      (x := s.shared.newIrp s.nextCall file .service) h.fault h.lock hirp
      hrequest hqueue (AList.lookup_insert s.shared.irps)
    obtain ⟨t, hleads, ht, rfl⟩ := h.executes hserves (.get getOutputSize)
      (hserves.get s h.inv) rfl hexec
    exact ⟨t, hleads, ⟨ht, hfetched.fault.trans h.fault,
      hfetched.files ▸ h.file, hfetched.lock⟩, { hfetched with }⟩
  | some irp =>
    obtain ⟨c, call, hcall, hawake⟩ := awake_of_reachable hs
      (by simp [hqueue]) (Or.inl (by simp [hirp]))
    have hposition : call = .notifying .acquire := by
      have hunlocked : call.locks = false := by
        by_contra hlocks
        have hheld := ((locked_of_reachable hs).calls c call hcall
          (by simpa using hlocks)).1
        rw [h.lock] at hheld
        cases hheld
      cases call with
      | notifying position =>
        cases position with
        | acquire => rfl
        | complete irp => cases hawake
        | _ => cases hunlocked
      | _ => cases hawake
    subst hposition
    obtain ⟨i, hi⟩ := irp_of_pendingIrp hs hirp
    obtain ⟨y, _, hexec, hfetched⟩ :=
      executes_notify (c := c) h.fault h.lock hirp hi hqueue
    obtain ⟨t, hleads, ht, rfl⟩ := hexec.leads hserves h.inv rfl hcall
    exact ⟨t, hleads, ⟨ht, hfetched.fault.trans h.fault,
      hfetched.files ▸ h.file, hfetched.lock⟩, hfetched⟩

/-! ## Completing a request -/

theorem Serving.completes_pending (h : Serving file I s)
    (hr : s.shared.pendingRequest = some r) :
    ∃ t, relay.machine.Leads A s t ∧ r ∈ t.shared.finished := by
  obtain ⟨t, hleads, -, hfinished, -⟩ := h.post hserves hr
  exact ⟨t, hleads, hfinished⟩

theorem Serving.completes_queued (k : ℕ) :
    ∀ {s : Pool Shared Call}, Serving file I s →
      ∀ {front back : List Request},
      s.shared.queue = front ++ r :: back → front.length = k →
      ∃ t, relay.machine.Leads A s t ∧
        r ∈ t.shared.finished := by
  have hempty : ∀ {s : Pool Shared Call}, Serving file I s →
      ∃ t, relay.machine.Leads A s t ∧ Serving file I t ∧
        t.shared.pendingRequest = none ∧ t.shared.queue = s.shared.queue := by
    intro s h
    cases hrequest : s.shared.pendingRequest with
    | none => exact ⟨s, .refl, h, hrequest, rfl⟩
    | some r' =>
      obtain ⟨t, hleads, ht, -, hnone, hqueue, -⟩ := h.post hserves hrequest
      exact ⟨t, hleads, ht, hnone, hqueue⟩
  induction k with
  | zero =>
    intro s h front back hqueue hfront
    cases List.eq_nil_of_length_eq_zero hfront
    obtain ⟨t, hleads, ht, hnone, hsame⟩ := hempty h
    obtain ⟨u, hleads', hu, hfetched⟩ :=
      ht.fetch hserves hnone (hsame.trans hqueue)
    obtain ⟨v, hleads'', hfinished⟩ :=
      hu.completes_pending hserves hfetched.pendingRequest
    exact ⟨v, (hleads.trans hleads').trans hleads'', hfinished⟩
  | succ k ih =>
    intro s h front back hqueue hfront
    obtain ⟨r', _, rfl⟩ :=
      List.exists_cons_of_length_eq_add_one hfront
    obtain ⟨t, hleads, ht, hnone, hsame⟩ := hempty h
    obtain ⟨u, hleads', hu, hfetched⟩ :=
      ht.fetch hserves hnone (hsame.trans hqueue)
    obtain ⟨v, hleads'', hfinished⟩ := ih hu hfetched.queue
      (by simpa using hfront)
    exact ⟨v, (hleads.trans hleads').trans hleads'', hfinished⟩

theorem Serving.completes_answering (h : Serving file I s) {call : Call}
    (hcall : s.calls.lookup c = some call) (hr : r ∈ call.answering) :
    ∃ t, relay.machine.Leads A s t ∧ r ∈ t.shared.finished := by
  have hcallback : ∀ {x : Shared} {request : Request} {result : Int32},
      r = request → x.fault = false → ∃ y after,
        Executes c x (some (.posting (.callback request result))) y after ∧
          r ∈ y.finished := by
    rintro x request result rfl hfault
    exact ⟨_, _, .step hfault rfl rfl (.refl _ _),
      List.mem_append_right _ (List.mem_singleton_self r)⟩
  have hs := hserves.reachable s h.inv
  cases call with
  | posting position =>
    cases position with
    | took request result =>
      cases Multiset.mem_singleton.mp hr
      obtain ⟨hinserted, -⟩ :=
        (answered_of_reachable hs).calls c _ hcall
      have hhand : r.clientContext ∈ Call.irps c (.posting (.took r result)) :=
        Multiset.mem_add.mpr (Or.inr (Multiset.mem_singleton_self _))
      have hopen : r.clientContext ∉ s.shared.completedIrps := by
        intro hcompleted
        refine (accounted_of_reachable hs).notMem_settledIrps
          hcall hhand ?_
        simp [Shared.settledIrps, hcompleted]
      obtain ⟨client, hclient⟩ := Option.ne_none_iff_exists'.mp
        (client_acquire_ne_none hs hinserted hopen)
      obtain ⟨y, after, hexec, hfinished⟩ :=
        hcallback (x := { s.shared with client := client }) rfl h.fault
      have hadvance : advance s.shared c (.posting (.took r result)) =
          some ({ s.shared with client := client },
            some (.posting (.callback r result))) := by
        simp only [advance, serviceIrpPost, hclient]
      obtain ⟨t, hleads, -, rfl⟩ :=
        (Executes.step h.fault rfl hadvance hexec).leads hserves h.inv rfl hcall
      exact ⟨t, hleads, hfinished⟩
    | callback request result =>
      obtain ⟨y, after, hexec, hfinished⟩ :=
        hcallback (x := s.shared) (Multiset.mem_singleton.mp hr) h.fault
      obtain ⟨t, hleads, -, rfl⟩ := hexec.leads hserves h.inv rfl hcall
      exact ⟨t, hleads, hfinished⟩
    | acquire | release => cases hr
  | _ => cases hr

theorem exists_completion (hs : I s)
    (hfault : s.shared.fault = false)
    (hfile : s.shared.files.lookup file = some .service)
    (hr : r ∈ s.shared.inserted) :
    ∃ t, relay.machine.Leads A s t ∧ r ∈ t.shared.finished := by
  obtain ⟨t, hleads, ht, hinserted⟩ := leads_serving hserves hs hfault hfile
  have hcomplete : ∃ u, relay.machine.Leads A t u ∧
      r ∈ u.shared.finished := by
    rcases request_placed (hserves.reachable t ht.inv) (hinserted ▸ hr) with
      hqueue | ⟨c, call, hcall, htaken⟩ | hpending |
        ⟨c, call, hcall, hanswering⟩ | hfinished
    · obtain ⟨_, _, hsplit⟩ := List.append_of_mem hqueue
      exact Serving.completes_queued hserves _ ht hsplit rfl
    · have hlocks : call.locks = true := by
        cases call with
        | notifying position | getting position =>
          cases position <;> first | rfl | cases htaken
        | _ => cases htaken
      have hheld := ((locked_of_reachable (hserves.reachable t ht.inv)).calls c
        call hcall hlocks).1
      rw [ht.lock] at hheld
      cases hheld
    · exact ht.completes_pending hserves hpending
    · exact ht.completes_answering hserves hcall hanswering
    · exact ⟨t, .refl, hfinished⟩
  obtain ⟨u, hleads', hfinished⟩ := hcomplete
  exact ⟨u, hleads.trans hleads', hfinished⟩

end Serve

end WinNetTest.Isr
