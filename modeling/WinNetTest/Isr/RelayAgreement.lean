import WinNetTest.Isr.RelaySafety

/-!
# Agreement of client and service

The requests of the relay are handed to the service in the order of their
insertion, each at most once, and a client IRP gets the result that the
service posted for it.
-/

namespace WinNetTest.Isr

open Support

/-! ## The records -/

/-- What the records of one state have in common with those of a later one. -/
structure Extends (x y : Shared) : Prop where
  assigned : x.assigned ⊆ y.assigned
  inserted : x.inserted ⊆ y.inserted
  posts : x.posts ⊆ y.posts

variable {before after : Option Call} {x y : Shared} {c n : ℕ}
    {s : Pool Shared Call}

theorem Action.extends (h : Action x c before y after) : Extends x y := by
  cases h with
  | session h =>
    obtain ⟨_, service, _, _, rfl⟩ := h.frame
    exact ⟨List.Subset.refl _, List.Subset.refl _, List.Subset.refl _⟩
  | noMemory | submit =>
    exact ⟨List.subset_append_left _ _, List.Subset.refl _, List.Subset.refl _⟩
  | post file id result =>
    exact ⟨List.Subset.refl _, List.Subset.refl _, List.subset_append_left _ _⟩
  | push id command service =>
    exact ⟨List.Subset.refl _, List.subset_append_left _ _, List.Subset.refl _⟩
  | _ => exact ⟨List.Subset.refl _, List.Subset.refl _, List.Subset.refl _⟩

/-! ## The order of the requests -/

/-- The requests inserted are those popped and those still queued, in this
order, and those handed to the service are the first of the popped ones. -/
structure InOrder (x : Shared) : Prop where
  inserted : x.inserted = x.popped ++ x.queue
  handed : x.handed.map Prod.fst <+: x.popped

theorem Action.inOrder (h : Action x c before y after) (hx : InOrder x)
    (hsection : ∀ call ∈ before, call.locks = true → Section x c call) :
    InOrder y := by
  cases h with
  | session h =>
    obtain ⟨_, service, _, _, rfl⟩ := h.frame
    exact ⟨hx.inserted, hx.handed⟩
  | push id command service =>
    exact ⟨by simp [hx.inserted], hx.handed⟩
  | notifyPop request rest hqueue | getPop request rest hqueue =>
    exact ⟨by simp [hx.inserted, hqueue],
      hx.handed.trans (List.prefix_append _ _)⟩
  | notifyStore | getStore =>
    obtain ⟨hpopped, -⟩ := hsection _ rfl rfl
    exact ⟨hx.inserted, by simp [hpopped]⟩
  | _ => exact ⟨hx.inserted, hx.handed⟩

theorem inOrder_of_reachable (hs : relay.machine.Reachable s) :
    InOrder s.shared := by
  refine Program.invariant (P := relay) (I := fun s => InOrder s.shared)
    ⟨rfl, List.nil_prefix⟩ ?_ hs
  intro s c before n y after hs ih hbefore hturn
  exact (action_of_turn hturn).1.inOrder ih (section_before hs hbefore)

def Call.answering : Call → Multiset Request
  | .posting (.took request _) | .posting (.callback request _) => {request}
  | _ => 0

def Shared.settledRequests (x : Shared) : Multiset Request :=
  (x.pendingRequest.toList : Multiset Request) +
    ((x.finished : Multiset Request) + (x.dropped : Multiset Request))

theorem Action.requests (h : Action x c before y after)
    (hsection : ∀ call ∈ before, call.locks = true → Section x c call) :
    (y.handed.map Prod.fst : Multiset Request) +
        (before.elim 0 Call.answering + x.settledRequests) =
      x.handed.map Prod.fst +
        (after.elim 0 Call.answering + y.settledRequests) := by
  cases h with
  | session h =>
    have hnone : before.elim 0 Call.answering = 0 ∧
        after.elim 0 Call.answering = 0 := by
      cases h <;> exact ⟨rfl, rfl⟩
    obtain ⟨_, service, _, _, rfl⟩ := h.frame
    rw [hnone.1, hnone.2]
    rfl
  | push id command service =>
    split <;> rfl
  | notifyStore | getStore =>
    obtain ⟨-, -, hrequest⟩ := hsection _ rfl rfl
    simp only [Shared.settledRequests, hrequest, Option.elim, Call.answering,
      List.map_append, List.map_cons, List.map_nil, ← Multiset.coe_add,
      Option.toList, Multiset.coe_nil]
    abel
  | postTake request result hlock hrequest =>
    simp only [Shared.settledRequests, hrequest, Option.elim, Call.answering,
      Option.toList, Multiset.coe_nil, Multiset.coe_singleton]
    abel
  | postDrop request result =>
    simp only [Shared.settledRequests, Option.elim, Call.answering,
      ← Multiset.coe_add, Multiset.coe_singleton]
    abel
  | postCallback request result =>
    simp only [Shared.settledRequests, clientRequestComplete, Option.elim,
      Call.answering, ← Multiset.coe_add, Multiset.coe_singleton]
    abel
  | _ => rfl

theorem handed_of_reachable (hs : relay.machine.Reachable s) :
    (s.shared.handed.map Prod.fst : Multiset Request) =
      s.calls.total (fun _ => Call.answering) + s.shared.settledRequests := by
  refine Program.conserved (fun _ => Call.answering)
    (fun x => (x.handed.map Prod.fst : Multiset Request))
    Shared.settledRequests rfl ?_ hs
  intro s c before n y after hs _ hbefore hturn
  exact (action_of_turn hturn).1.requests (section_before hs hbefore)

theorem pendingRequest_mem_inserted (hs : relay.machine.Reachable s)
    {request : Request} (hrequest : s.shared.pendingRequest = some request) :
    request ∈ s.shared.inserted := by
  have hhanded : request ∈
      (s.shared.handed.map Prod.fst : Multiset Request) := by
    rw [handed_of_reachable hs, Shared.settledRequests, hrequest]
    simp
  have horder := inOrder_of_reachable hs
  rw [horder.inserted]
  exact List.mem_append_left _ (horder.handed.subset hhanded)

/-! ## The Ids -/

/-- The `Id` of each submit is the number of submits that were given one,
modulo the width of the counter, and every request on the queue was inserted
by the submit that its client context names. -/
structure Identified (n : ℕ) (x : Shared) : Prop where
  uniqueId : x.uniqueId = UInt64.ofNat x.assigned.length
  ids : x.assigned.map Prod.snd =
    (List.range x.assigned.length).map fun k => UInt64.ofNat (k + 1)
  submits : (x.assigned.map Prod.fst).Nodup
  lt : ∀ a ∈ x.assigned, a.1 < n
  contexts : (x.inserted.map (·.clientContext)).Nodup
  inserted : ∀ r ∈ x.inserted, (r.clientContext, r.id) ∈ x.assigned

/-- A submit that is not accepted yet has its `Id`; one that was accepted has
its request among the inserted ones. -/
def Submitted (x : Shared) (c : ℕ) : Call → Prop
  | .submitting id _ =>
    (c, id) ∈ x.assigned ∧ c ∉ x.inserted.map (·.clientContext)
  | .notifying _ | .pushed => c ∈ x.inserted.map (·.clientContext)
  | _ => True

theorem Identified.mono {n' : ℕ} (h : Identified n x) (hn : n ≤ n') :
    Identified n' x :=
  { h with lt := fun a ha => (h.lt a ha).trans_le hn }

theorem Identified.assign (h : Identified n x)
    (huniqueId : y.uniqueId = x.uniqueId + 1)
    (hassigned : y.assigned = x.assigned ++ [(n, x.uniqueId + 1)])
    (hinserted : y.inserted = x.inserted) : Identified (n + 1) y := by
  have hnext : UInt64.ofNat (x.assigned.length + 1) = x.uniqueId + 1 := by
    rw [h.uniqueId, UInt64.ofNat_add]
    rfl
  refine ⟨?_, ?_, ?_, ?_, ?_, ?_⟩
  · rw [huniqueId, hassigned, List.length_append, ← hnext]
    rfl
  · simp [hassigned, h.ids, List.range_succ, h.uniqueId]
  · rw [hassigned, List.map_append]
    refine h.submits.append (List.nodup_singleton _) ?_
    intro c hc hnew
    obtain ⟨a, ha, rfl⟩ := List.mem_map.mp hc
    have hlt := h.lt a ha
    simp at hnew
    omega
  · intro a ha
    rw [hassigned, List.mem_append, List.mem_singleton] at ha
    rcases ha with ha | rfl
    · exact Nat.lt_succ_of_lt (h.lt a ha)
    · exact Nat.lt_succ_self _
  · rw [hinserted]
    exact h.contexts
  · intro r hr
    rw [hassigned]
    rw [hinserted] at hr
    exact List.mem_append_left _ (h.inserted r hr)

section

variable (h : Action x c before y after)

include h

theorem Action.identified {n' : ℕ} (hx : Identified n x) (hn : n ≤ n')
    (hnew : before = none → c = n ∧ n' = n + 1)
    (hbefore : ∀ call ∈ before, Submitted x c call) : Identified n' y := by
  have hlater := hx.mono hn
  cases h with
  | session h =>
    obtain ⟨_, service, _, _, rfl⟩ := h.frame
    exact { hlater with }
  | noMemory | submit =>
    obtain ⟨rfl, rfl⟩ := hnew rfl
    exact hx.assign rfl rfl rfl
  | push id command service =>
    obtain ⟨hassigned, hinserted⟩ := hbefore _ rfl
    refine ⟨hx.uniqueId, hx.ids, hx.submits, hlater.lt, ?_, ?_⟩
    · rw [List.map_append]
      refine hx.contexts.append (List.nodup_singleton _) ?_
      simpa using hinserted
    · intro r hr
      rcases List.mem_append.mp hr with hr | hr
      · exact hx.inserted r hr
      · rw [List.mem_singleton.mp hr]
        exact hassigned
  | _ => exact { hlater with }

theorem Action.submitted (hx : Identified n x) (hnew : before = none → c = n)
    (hbefore : ∀ call ∈ before, Submitted x c call) :
    ∀ call ∈ after, Submitted y c call := by
  cases h with
  | session h => cases h <;> simp [Submitted]
  | submit file command =>
    rintro _ ⟨⟩
    refine ⟨List.mem_append_right _ (List.mem_singleton_self _), ?_⟩
    intro hc
    obtain ⟨r, hr, rfl⟩ := List.mem_map.mp hc
    have hlt := hx.lt _ (hx.inserted r hr)
    have hself := hnew rfl
    simp at hlt
    omega
  | push id command service =>
    have hmem : c ∈ (x.inserted ++ [Request.mk id c command]).map
        (·.clientContext) := by
      simp
    split
    · rintro _ ⟨⟩
      exact hmem
    · rintro _ ⟨⟩
      exact hmem
  | _ =>
    rintro _ ⟨⟩ <;> first
      | exact trivial
      | (have hown := hbefore _ rfl; exact hown)

theorem Action.inserted_cases :
    y.inserted = x.inserted ∨
      ∃ id command, before = some (.submitting id command) ∧
        y.inserted = x.inserted ++ [⟨id, c, command⟩] := by
  cases h with
  | session h =>
    obtain ⟨_, service, _, _, rfl⟩ := h.frame
    exact Or.inl rfl
  | push id command service => exact Or.inr ⟨id, command, rfl, rfl⟩
  | _ => exact Or.inl rfl

end

theorem Submitted.of_action {c' : ℕ} {call : Call} (hcall : Submitted x c' call)
    (h : Action x c before y after) (hc : c' ≠ c) : Submitted y c' call := by
  have hmem : c' ∈ y.inserted.map (·.clientContext) ↔
      c' ∈ x.inserted.map (·.clientContext) := by
    rcases h.inserted_cases with hsame | ⟨id, command, -, hpush⟩
    · rw [hsame]
    · simp [hpush, hc]
  unfold Submitted at hcall ⊢
  split at hcall
  · exact ⟨h.extends.assigned hcall.1, fun hin => hcall.2 (hmem.mp hin)⟩
  · exact hmem.mpr hcall
  · exact hmem.mpr hcall
  · trivial

theorem identified_of_reachable (hs : relay.machine.Reachable s) :
    Program.Annotated Identified Submitted s := by
  refine Program.invariant ?_ ?_ hs
  · exact ⟨⟨rfl, rfl, List.nodup_nil, by simp [relay, Program.machine,
      Shared.initial], List.nodup_nil, by simp [relay, Program.machine,
      Shared.initial]⟩, by rintro c call ⟨⟩⟩
  · intro s c before n y after hs ih hbefore hturn
    have hact := (action_of_turn hturn).1
    have hown : ∀ call ∈ before, Submitted s.shared c call := by
      intro call hcall
      exact ih.calls c call (hbefore.trans hcall)
    refine Program.Annotated.turn ?_ ?_ ?_
    · refine hact.identified ih.shared hturn.nextCall_le ?_ hown
      rintro rfl
      exact hturn.of_none
    · refine hact.submitted ih.shared ?_ hown
      rintro rfl
      exact hturn.of_none.1
    · intro c' call hc hcall
      exact (ih.calls c' call hcall).of_action hact hc

/-! ## The results -/

/-- A completion that carries a result answers an inserted request with what
was posted for its `Id`. -/
def Answered (x : Shared) : Prop :=
  ∀ completion ∈ x.completions, ∀ result,
    completion.output = some (.result result) →
    ∃ r ∈ x.inserted, r.clientContext = completion.irp ∧
      (r.id, result) ∈ x.posts

/-- A POST holds an inserted request, and the result posted for its `Id`. -/
def Posted (x : Shared) : Call → Prop
  | .posting (.acquire id result) => (id, result) ∈ x.posts
  | .posting (.took request result) | .posting (.callback request result) =>
    request ∈ x.inserted ∧ (request.id, result) ∈ x.posts
  | _ => True

theorem Action.completions_cases (h : Action x c before y after) :
    y.completions = x.completions ∨
    (∃ irp status, y = x.ioCompleteRequest irp status) ∨
    ∃ request result, before = some (.posting (.callback request result)) ∧
      y.completions = x.completions ++
        [⟨request.clientContext, .success, some (.result result)⟩] := by
  cases h with
  | session h =>
    cases h <;> exact Or.inl rfl
  | return_ | notifyComplete | cancelComplete =>
    exact Or.inr (Or.inl ⟨_, _, rfl⟩)
  | postCallback request result =>
    exact Or.inr (Or.inr ⟨request, result, rfl, rfl⟩)
  | _ => exact Or.inl rfl

theorem Answered.of_action (hx : Answered x) (h : Action x c before y after)
    (hbefore : ∀ call ∈ before, Posted x call) :
    Answered y := by
  have hold : ∀ completion ∈ x.completions, ∀ result,
      completion.output = some (.result result) →
      ∃ r ∈ y.inserted, r.clientContext = completion.irp ∧
        (r.id, result) ∈ y.posts := by
    intro completion hmem result houtput
    obtain ⟨r, hr, hirp, hpost⟩ := hx completion hmem result houtput
    exact ⟨r, h.extends.inserted hr, hirp, h.extends.posts hpost⟩
  intro completion hmem result houtput
  rcases h.completions_cases with
    hsame | ⟨irp, status, rfl⟩ | ⟨request, posted, rfl, hnew⟩
  · rw [hsame] at hmem
    exact hold completion hmem result houtput
  · rcases List.mem_append.mp hmem with hmem | hmem
    · exact hold completion hmem result houtput
    · rw [List.mem_singleton.mp hmem] at houtput
      obtain ⟨_, -, heq⟩ := Option.map_eq_some_iff.mp houtput
      cases heq
  · rw [hnew, List.mem_append, List.mem_singleton] at hmem
    rcases hmem with hmem | rfl
    · exact hold completion hmem result houtput
    · cases houtput
      obtain ⟨hinserted, hpost⟩ := hbefore _ rfl
      exact ⟨request, h.extends.inserted hinserted, rfl, h.extends.posts hpost⟩

theorem Posted.of_extends {call : Call} (hcall : Posted x call)
    (h : Extends x y) : Posted y call := by
  unfold Posted at hcall ⊢
  split at hcall
  · exact h.posts hcall
  · exact ⟨h.inserted hcall.1, h.posts hcall.2⟩
  · exact ⟨h.inserted hcall.1, h.posts hcall.2⟩
  · trivial

theorem Action.posted (h : Action x c before y after)
    (hpending : ∀ r, x.pendingRequest = some r → r ∈ x.inserted)
    (hbefore : ∀ call ∈ before, Posted x call) :
    ∀ call ∈ after, Posted y call := by
  cases h with
  | session h => cases h <;> simp [Posted]
  | push id command service => split <;> simp [Posted]
  | post file id result =>
    rintro _ ⟨⟩
    exact List.mem_append_right _ (List.mem_singleton_self _)
  | postFault id result =>
    rintro _ ⟨⟩
    exact hbefore (.posting (.acquire id result)) rfl
  | postTake request result hlock hrequest =>
    rintro _ ⟨⟩
    exact ⟨hpending request hrequest,
      hbefore (.posting (.acquire request.id result)) rfl⟩
  | postAcquire request result client =>
    rintro _ ⟨⟩
    exact hbefore (.posting (.took request result)) rfl
  | _ => simp [Posted]

theorem answered_of_reachable (hs : relay.machine.Reachable s) :
    Program.Annotated (fun _ => Answered) (fun x _ => Posted x) s := by
  refine Program.invariant ?_ ?_ hs
  · exact ⟨by rintro completion ⟨⟩, by rintro c call ⟨⟩⟩
  · intro s c before n y after hs ih hbefore hturn
    have hact := (action_of_turn hturn).1
    have hown : ∀ call ∈ before, Posted s.shared call := by
      intro call hcall
      exact ih.calls c call (hbefore.trans hcall)
    refine Program.Annotated.turn (ih.shared.of_action hact hown)
      (hact.posted (fun r => pendingRequest_mem_inserted hs) hown) ?_
    intro c' call _ hcall
    exact (ih.calls c' call hcall).of_extends hact.extends

/-! ## Agreement -/

structure Agreement (x : Shared) : Prop where
  /-- A client IRP whose request was accepted is completed at most once. -/
  completedOnce : ∀ request ∈ x.inserted,
    x.completedIrps.count request.clientContext ≤ 1
  /-- An accepted request carries the `Id` its submit was given, and a submit
  is given one `Id`. -/
  acceptedId : ∀ request ∈ x.inserted, ∀ id,
    (request.clientContext, id) ∈ x.assigned ↔ id = request.id
  /-- A result that was written to an IRP was posted for the `Id` of the
  request that was accepted from this IRP. -/
  answered : ∀ completion ∈ x.completions, ∀ result,
    completion.output = some (.result result) →
    ∃ request ∈ x.inserted, request.clientContext = completion.irp ∧
      (request.id, result) ∈ x.posts
  /-- The requests are popped in the order of their insertion. -/
  popped : x.popped <+: x.inserted
  /-- No request is popped twice. -/
  poppedOnce : x.popped.Nodup
  /-- The requests are handed to the service in the order of their
  insertion. -/
  handed : x.handed.map Prod.fst <+: x.inserted
  /-- As long as the counter has not wrapped, no `Id` is given twice. -/
  distinctIds : x.assigned.length ≤ 2 ^ 64 → (x.assigned.map Prod.snd).Nodup

theorem Identified.nodup_ids (h : Identified n x)
    (hlength : x.assigned.length ≤ 2 ^ 64) :
    (x.assigned.map Prod.snd).Nodup := by
  rw [h.ids]
  refine List.Nodup.map_on ?_ List.nodup_range
  intro a ha b hb heq
  rw [List.mem_range] at ha hb
  have hmod := congrArg UInt64.toNat heq
  simp only [UInt64.toNat_ofNat'] at hmod
  omega

theorem Identified.id_eq (h : Identified n x) {request : Request}
    (hrequest : request ∈ x.inserted) {id : UInt64} :
    (request.clientContext, id) ∈ x.assigned ↔ id = request.id := by
  constructor
  · intro hid
    have heq := List.inj_on_of_nodup_map h.submits hid
      (h.inserted request hrequest) rfl
    exact (Prod.mk.inj heq).2
  · rintro rfl
    exact h.inserted request hrequest

theorem completedIrps_nodup (hs : relay.machine.Reachable s) :
    s.shared.completedIrps.Nodup := by
  have hle : (s.shared.completedIrps : Multiset ℕ) ≤ allIrps s.shared.irps := by
    rw [accounted_of_reachable hs, Shared.settledIrps]
    refine le_trans ?_ (Multiset.le_add_left _ _)
    refine le_trans ?_ (Multiset.le_add_left _ _)
    refine le_trans ?_ (Multiset.le_add_left _ _)
    refine le_trans ?_ (Multiset.le_add_left _ _)
    exact Multiset.le_add_left _ _
  exact Multiset.coe_nodup.mp
    (Multiset.nodup_of_le hle (nodup_allIrps s.shared.irps))

/-- In every interleaving of submits, GETs, POSTs, cancellations, creates and
closes, client and service agree. -/
theorem relay_agreement {s : Pool Shared Call}
    (hs : relay.machine.Reachable s) : Agreement s.shared := by
  have hids := (identified_of_reachable hs).shared
  have horder := inOrder_of_reachable hs
  have hpopped : s.shared.popped <+: s.shared.inserted :=
    ⟨s.shared.queue, horder.inserted.symm⟩
  exact
    { completedOnce := fun request _ =>
        List.nodup_iff_count_le_one.mp (completedIrps_nodup hs) _
      acceptedId := fun request hrequest id => hids.id_eq hrequest
      answered := (answered_of_reachable hs).shared
      popped := hpopped
      poppedOnce := hids.contexts.of_map _ |>.sublist hpopped.sublist
      handed := horder.handed.trans hpopped
      distinctIds := hids.nodup_ids }

def handlesOpen : List (Move Input) :=
  [.start (.create .service true), .advance 0, .advance 0,
    .start (.create .client true), .advance 1, .advance 1]

def getWaits : List (Move Input) :=
  handlesOpen ++ .start (.ioctl 0 (.get 1032)) :: List.replicate 6 (.advance 2)

def submitDir : Move Input :=
  .start (.ioctl 1 (.submit ⟨4, 4, [100, 105, 114, 0], 0⟩ true))

/-- A service and a client are opened, a GET waits, a command is submitted and
answered: the GET returns the command, and the submit the result that was
posted. -/
theorem relay_agreement_roundTrip : ∃ s, relay.machine.Reachable s ∧
      (s.shared.completions = [⟨2, .success, some (.request 1 [100, 105, 114])⟩,
            ⟨3, .success, some (.result 7)⟩, ⟨4, .success, none⟩] ∧
        s.shared.posts = [(1, 7)]) ∧
      Agreement s.shared :=
  (Machine.exists_reachable_of_run
      (getWaits ++ [submitDir] ++ List.replicate 8 (.advance 3) ++
      [.start (.ioctl 0 (.post 16 1 7))] ++ List.replicate 5 (.advance 4))
      (by decide +kernel)).imp fun s ⟨hs, hrun⟩ =>
      ⟨hs, hrun, relay_agreement hs⟩

end WinNetTest.Isr
