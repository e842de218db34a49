import WinNetTest.Isr.RelayLoss
import WinNetTest.Isr.RelayProgress

/-!
# Restarts of the service

A service that is closed and opened again should find the relay as it was
left by the requests of the clients only.  But `PendingRequest` belongs to no
handle and `ServiceIrpClose` does not look at it: if the service closes its
handle between a GET and the POST, the request stays pending, and the GETs of
the next handle are refused because of a request that only the closed handle
has been told about.
-/

namespace WinNetTest.Isr

open Support

/-! ## The IRPs of the GETs -/

def IsServiceIrp (x : Shared) (irp : ℕ) : Prop :=
  ∃ i, x.irps.lookup irp = some i ∧ i.objectType = .service

variable {before after : Option Call} {x y : Shared}

theorem IsServiceIrp.of_action {c irp : ℕ} (hirp : IsServiceIrp x irp)
    (h : Action x c before y after)
    (hfresh : before = none → x.irps.lookup c = none) : IsServiceIrp y irp := by
  obtain ⟨i, hi, htype⟩ := hirp
  obtain ⟨i', hi', -, htype', -⟩ := h.irp_kept hfresh hi
  exact ⟨i', hi', htype'.trans htype⟩

variable {c : ℕ}

/-- The call is a GET or a POST in the service module. -/
def Call.ofService : Call → Bool
  | .getting _ | .posting _ => true
  | _ => false

theorem Action.ofService_cases (h : Action x c before y after) {call : Call}
    (hafter : after = some call) (hservice : call.ofService = true) :
    (∃ call' ∈ before, call'.ofService = true) ∨ IsServiceIrp y c := by
  cases h with
  | session h => cases h <;> cases hafter <;> cases hservice
  | get | post => exact Or.inr ⟨_, AList.lookup_insert _, rfl⟩
  | push => split at hafter <;> cases hafter <;> cases hservice
  | _ => first
    | exact Or.inl ⟨_, rfl, rfl⟩
    | (cases hafter <;> cases hservice)

variable {s : Pool Shared Call}

theorem serviceIrp_of_reachable (hs : relay.machine.Reachable s) :
    Program.Annotated
      (fun _ x => ∀ irp, x.pendingIrp = some irp → IsServiceIrp x irp)
      (fun x c call => call.ofService = true → IsServiceIrp x c) s := by
  refine Program.invariant ?_ ?_ hs
  · exact ⟨by rintro irp ⟨⟩, by rintro c call ⟨⟩⟩
  · intro s c before n y after hs ih hbefore hturn
    have hact := (action_of_turn hturn).1
    have hfresh := irp_fresh hs hturn
    refine Program.Annotated.turn ?_ ?_ ?_
    · intro irp hirp
      rcases hact.pendingIrp_cases hirp with ⟨hold, -⟩ | ⟨-, rfl, rfl⟩
      · exact (ih.shared irp hold).of_action hact hfresh
      · exact (ih.calls irp _ hbefore rfl).of_action hact hfresh
    · intro call hcall hservice
      rcases hact.ofService_cases hcall hservice with
        ⟨call', hcall', hservice'⟩ | hnew
      · exact (ih.calls c call' (hbefore.trans hcall') hservice').of_action hact
          hfresh
      · exact hnew
    · intro c' call _ hcall hservice
      exact (ih.calls c' call hcall hservice).of_action hact hfresh

/-! ## The handle a pending request was fetched through -/

/-- The condition on a run: a handle of the service is closed while no request
is pending. -/
def closesIdle (x : Shared) (_ : ℕ) : Call → Bool
  | .closing .service _ .wait => x.pendingRequest.isNone
  | _ => true

theorem open_or_closing (hs : relay.machine.Reachable s)
    (hbefore : s.calls.lookup c = before)
    (hact : Action s.shared c before y after) {type : FileType} {file : ℕ}
    (hopen : s.shared.files.lookup file = some type) :
    y.files.lookup file = some type ∨
      after = some (.closing type file .wait) := by
  rcases hact.session_cases with hsession | ⟨hsame, -, -⟩
  · cases hsession with
    | register type' file' =>
      have hne : file ≠ file' := by
        rintro rfl
        rw [(sessions_of_reachable hs).not_open (distinct_of_reachable hs)
          hbefore (Multiset.mem_singleton_self (type', file))] at hopen
        cases hopen
      exact Or.inl ((AList.lookup_insert_ne hne).trans hopen)
    | close type' file' hfile hirps =>
      by_cases heq : file = file'
      · subst heq
        cases hfile.symm.trans hopen
        exact Or.inr rfl
      · exact Or.inl ((AList.lookup_erase_ne heq).trans hopen)
    | _ => exact Or.inl hopen
  · exact Or.inl (hsame.files ▸ hopen)

theorem handed_open (hs : relay.machine.Reachable s) {c irp : ℕ} {r : Request}
    (hbefore : s.calls.lookup c = before)
    (hstore : Stores s.shared c r irp before after) :
    ∃ i, s.shared.irps.lookup irp = some i ∧
      s.shared.files.lookup i.file = some .service := by
  have hservice : IsServiceIrp s.shared irp := by
    rcases hstore with ⟨-, hirp, -⟩ | ⟨hcall, rfl, -⟩
    · exact (serviceIrp_of_reachable hs).shared irp hirp
    · exact (serviceIrp_of_reachable hs).calls irp _ (hbefore.trans hcall) rfl
  obtain ⟨i, hi, htype⟩ := hservice
  have hopen := open_of_not_completed hs hi
    (handed_exclusive hs hbefore hstore).2.1
  rw [htype] at hopen
  exact ⟨i, hi, hopen⟩

/-- The pending request was fetched through a handle that is open, or whose
close has not got to the deregistration. -/
def FetchedHere (s : Pool Shared Call) : Prop :=
  ∀ r, s.shared.pendingRequest = some r → ∃ irp i,
    (r, irp) ∈ s.shared.handed ∧ s.shared.irps.lookup irp = some i ∧
      (s.shared.files.lookup i.file = some .service ∨
        ∃ c, s.calls.lookup c = some (.closing .service i.file .wait))

theorem fetchedHere_of_reachableWithin
    (hs : relay.machine.ReachableWithin
      (Program.Meets fun x c call => closesIdle x c call = true) s) :
    FetchedHere s := by
  refine Program.invariant_within ?_ ?_ hs
  · rintro r ⟨⟩
  · intro s c before n y after hs ih hbefore hturn hidle r hr
    have hact := (action_of_turn hturn).1
    have hstays : ∀ {file : ℕ}, s.shared.files.lookup file = some .service →
        y.files.lookup file = some .service ∨
          ∃ c', (s.calls.put c after).lookup c' =
            some (.closing .service file .wait) := by
      intro file hopen
      rcases open_or_closing hs hbefore hact hopen with hopen | hclosing
      · exact Or.inl hopen
      · exact Or.inr ⟨c, by rw [Table.lookup_put, if_pos rfl, hclosing]⟩
    rcases hact.handed_cases with hsame | ⟨r', irp, hnew, hr', -, -, hstore⟩
    · have hold := hact.pendingRequest_kept hsame hr
      obtain ⟨irp, i, hhanded, hi, hfile⟩ := ih r hold
      obtain ⟨i', hi', hfile', -, -⟩ := hact.irp_kept (irp_fresh hs hturn) hi
      refine ⟨irp, i', hsame ▸ hhanded, hi', ?_⟩
      rw [hfile']
      rcases hfile with hopen | ⟨c', hclosing⟩
      · exact hstays hopen
      · have hc : c' ≠ c := by
          rintro rfl
          have hnone := hidle _ (hbefore.symm.trans hclosing)
          simp [closesIdle, hold] at hnone
        exact Or.inr ⟨c', by rw [Table.lookup_put, if_neg hc, hclosing]⟩
    · rw [hr'] at hr
      cases hr
      obtain ⟨i, hi, hopen⟩ := handed_open hs hbefore hstore
      obtain ⟨i', hi', hfile', -, -⟩ := hact.irp_kept (irp_fresh hs hturn) hi
      refine ⟨irp, i', ?_, hi', ?_⟩
      · rw [hnew]
        exact List.mem_append_right _ (List.mem_singleton_self _)
      · rw [hfile']
        exact hstays hopen

/-! ## The service after a restart -/

section Restart

variable {s : Pool Shared Call}

section

variable (hs : relay.machine.Reachable s)

include hs

theorem open_unique {type : FileType} {file file' : ℕ}
    (hfile : s.shared.files.lookup file = some type)
    (hfile' : s.shared.files.lookup file' = some type) : file = file' := by
  have hslot : ∀ {file}, s.shared.files.lookup file = some type →
      (s.shared.party type).userContext = some file := by
    intro file hfile
    rw [← mem_slots, sessions_of_reachable hs, Multiset.mem_add]
    exact Or.inr (mem_openFiles.mpr hfile)
  exact Option.some.inj ((hslot hfile).symm.trans (hslot hfile'))

theorem handed_unique {r : Request} {irp irp' : ℕ}
    (h : (r, irp) ∈ s.shared.handed) (h' : (r, irp') ∈ s.shared.handed) :
    irp = irp' := by
  have hinserted : s.shared.inserted.Nodup :=
    List.Nodup.of_map _ (identified_of_reachable hs).shared.contexts
  have horder := inOrder_of_reachable hs
  rw [horder.inserted] at hinserted
  have hhanded : (s.shared.handed.map Prod.fst).Nodup :=
    hinserted.of_append_left.sublist horder.handed.sublist
  exact congrArg Prod.snd (List.inj_on_of_nodup_map hhanded h h' rfl)

theorem FetchedHere.file_eq (h : FetchedHere s) {r : Request} {file : ℕ}
    (hr : s.shared.pendingRequest = some r)
    (hfile : s.shared.files.lookup file = some .service) :
    ∃ irp i, (r, irp) ∈ s.shared.handed ∧
      s.shared.irps.lookup irp = some i ∧ i.file = file := by
  obtain ⟨irp, i, hhanded, hi, hopen | ⟨c, hclosing⟩⟩ := h r hr
  · exact ⟨irp, i, hhanded, hi, open_unique hs hopen hfile⟩
  · exact absurd rfl ((sessions_of_reachable hs).ne_of_open hclosing
      (Multiset.mem_singleton_self _) hfile)

theorem handle_open {call : Call} (hcall : s.calls.lookup c = some call)
    (hservice : call.ofService = true) (hirp : c ∈ call.irps c) :
    ∃ i, s.shared.irps.lookup c = some i ∧
      s.shared.files.lookup i.file = some .service := by
  have hcompleted : c ∉ s.shared.completedIrps := by
    intro hmem
    refine (accounted_of_reachable hs).notMem_settledIrps hcall hirp ?_
    simp [Shared.settledIrps, hmem]
  obtain ⟨i, hi, htype⟩ := (serviceIrp_of_reachable hs).calls c _ hcall hservice
  exact ⟨i, hi, htype ▸ open_of_not_completed hs hi hcompleted⟩

end

theorem refused_cases {t : Pool Shared Call}
    (hcall : s.calls.lookup c = some (.getting .acquire))
    (hstep : relay.machine.step s (.advance c) = some t)
    (ht : t.calls.lookup c = some (.returning .notSupported)) :
    s.shared.lock = none ∧
      (s.shared.pendingIrp ≠ none ∨ s.shared.pendingRequest ≠ none) := by
  simp only [Program.machine, hcall, Option.bind_some] at hstep
  obtain ⟨_, hnext, rfl⟩ := Option.map_eq_some_iff.mp hstep
  simp only [Table.lookup_put, if_true] at ht
  simp only [relay, advance, serviceIrpGet] at hnext
  split_ifs at hnext with hfault hlock hbusy
  · exact ⟨hlock, hbusy⟩
  · cases hnext
    cases ht

/-- The actions of the pushes, GETs and POSTs under way, the GETs on a handle,
and the POSTs on it of an `Id` that was handed to one of its GETs. -/
def byService (file : ℕ) (s : Pool Shared Call) : Move Input → Prop
  | .advance c => (s.calls.lookup c).any Call.serves
  | .start (.ioctl file' (.get _)) => file' = file
  | .start (.ioctl file' (.post _ id _)) => file' = file ∧ ∃ r irp i,
    (r, irp) ∈ s.shared.handed ∧ s.shared.irps.lookup irp = some i ∧
      i.file = file ∧ r.id = id
  | _ => False

theorem serves_byService (file : ℕ) : Serves file
    (relay.machine.ReachableWithin
      (Program.Meets fun x c call => closesIdle x c call = true))
    (byService file) where
  reachable _ hs := hs.reachable
  step s m t hs hm hstep := by
    refine hs.step ?_ hstep
    cases m with
    | start => exact trivial
    | advance c =>
      intro call (hcall : s.calls.lookup c = some call)
      have hcalls : call.serves = true := by simpa [byService, hcall] using hm
      cases call <;> first | rfl | cases hcalls
  advance s c call _ hcall hcalls := by simp [byService, hcall, hcalls]
  get _ _ := rfl
  post s r hs hfile hr := by
    obtain ⟨irp, i, hhanded, hi, hopen⟩ :=
      (fetchedHere_of_reachableWithin hs).file_eq hs.reachable hr hfile
    exact ⟨rfl, r, irp, i, hhanded, hi, hopen, rfl⟩

structure Recovered (s : Pool Shared Call) : Prop where
  /-- A GET is refused only if its own handle has a GET pending, or has a
  request that it fetched and did not post: the GET that took the request was
  completed with `STATUS_SUCCESS` and its `Id`, or the next action of some
  call does so. -/
  refused : ∀ c i t, s.calls.lookup c = some (.getting .acquire) →
    s.shared.irps.lookup c = some i →
    relay.machine.step s (.advance c) = some t →
    t.calls.lookup c = some (.returning .notSupported) →
    (∃ irp i', s.shared.pendingIrp = some irp ∧
        s.shared.irps.lookup irp = some i' ∧ i'.file = i.file ∧
        irp ∉ s.shared.completedIrps) ∨
      ∃ r irp i', s.shared.pendingRequest = some r ∧
        (r, irp) ∈ s.shared.handed ∧ s.shared.irps.lookup irp = some i' ∧
        i'.file = i.file ∧
        (Told s.shared r irp ∨ ∃ c' t',
          relay.machine.step s (.advance c') = some t' ∧ Told t'.shared r irp)
  /-- The pending request was fetched through the handle that is open. -/
  fetched : ∀ file r, s.shared.files.lookup file = some .service →
    s.shared.pendingRequest = some r → ∃ irp i,
      (r, irp) ∈ s.shared.handed ∧ s.shared.irps.lookup irp = some i ∧
        i.file = file
  /-- Unless the machine has stopped, the handle that is open can be used to
  complete every request that was accepted, by POSTs of what it was handed. -/
  completable : s.shared.fault = false → ∀ file,
    s.shared.files.lookup file = some .service → ∀ r ∈ s.shared.inserted,
      ∃ t, relay.machine.Leads (byService file) s t ∧ r ∈ t.shared.finished

/-- The condition on a run under which the relay recovers from restarts. -/
def restartsIdle (x : Shared) (c : ℕ) (call : Call) : Bool :=
  closesIdle x c call && inTime x c call

/-- In every run in which a handle of the service is closed only while no
request is pending, and `ServiceRequestAvailable` finds the cancel routine of
the waiting GET in place, the relay recovers from every restart. -/
theorem recovered_of_restartsIdle
    (hs : relay.machine.ReachableWithin
      (Program.Meets fun x c call => restartsIdle x c call = true) s) :
    Recovered s := by
  have hreachable := hs.reachable
  have hcloses := hs.mono fun _ _ hmeets =>
    hmeets.imp fun _ _ _ hok => (Bool.and_eq_true_iff.mp hok).1
  have hidle : FetchedHere s := fetchedHere_of_reachableWithin hcloses
  have hdelivered : Delivered s :=
    delivered_of_reachableWithin <| hs.mono fun _ _ hmeets =>
      hmeets.imp fun _ _ _ hok => (Bool.and_eq_true_iff.mp hok).2
  refine ⟨?_, ?_, ?_⟩
  · intro c i t hcall hi hstep ht
    obtain ⟨hlock, hbusy⟩ := refused_cases hcall hstep ht
    obtain ⟨i', hi', hopen⟩ :=
      handle_open hreachable hcall rfl (Multiset.mem_singleton_self c)
    cases hi.symm.trans hi'
    rcases hbusy with hirp | hrequest
    · obtain ⟨irp, hirp⟩ := Option.ne_none_iff_exists'.mp hirp
      obtain ⟨i', hi', htype⟩ :=
        (serviceIrp_of_reachable hreachable).shared irp hirp
      have hcompleted :=
        (claimable_of_pending hreachable hirp).not_completed hreachable
      have hopen' := open_of_not_completed hreachable hi' hcompleted
      rw [htype] at hopen'
      exact Or.inl ⟨irp, i', hirp, hi', open_unique hreachable hopen' hopen,
        hcompleted⟩
    · obtain ⟨r, hr⟩ := Option.ne_none_iff_exists'.mp hrequest
      obtain ⟨irp, i', hhanded, hi', hfile⟩ :=
        hidle.file_eq hreachable hr hopen
      obtain ⟨_, hhanded', htold⟩ := hdelivered r hr
      cases handed_unique hreachable hhanded hhanded'
      refine Or.inr ⟨r, irp, i', hr, hhanded, hi', hfile, ?_⟩
      exact htold.imp id fun htelling => htelling.step hreachable hlock hr
  · intro file r hfile hr
    exact hidle.file_eq hreachable hr hfile
  · intro hfault file hfile r hr
    exact exists_completion (serves_byService file) hcloses hfault hfile hr

end Restart

/-- The service fetches a request, posts it, closes its handle and opens a new
one; a request is fetched through the new handle, and while it is not posted
a GET on the new handle is refused. -/
theorem recovered_of_restartsIdle_posted : ∃ s, relay.machine.ReachableWithin
        (Program.Meets fun x c call => restartsIdle x c call = true) s ∧
      (s.shared.files.lookup 2 = some .service ∧
        s.shared.finished = [⟨1, 2, [100, 105, 114]⟩] ∧
        s.shared.pendingRequest = some ⟨2, 7, [100, 105, 114]⟩ ∧
        s.calls.lookup 9 = some (.getting .acquire)) ∧
      Recovered s :=
  (Machine.exists_reachableWithin_of_run _
      (handlesOpen ++ [submitDir, .advance 2, .advance 2, .advance 2,
      .start (.ioctl 0 (.get 1032))] ++ List.replicate 5 (.advance 3) ++
      [.start (.ioctl 0 (.post 16 1 7))] ++ List.replicate 5 (.advance 4) ++
      [.start (.close 0)] ++ List.replicate 4 (.advance 5) ++
      [.start (.create .service true), .advance 6, .advance 6,
        submitDir, .advance 7, .advance 7, .advance 7,
        .start (.ioctl 2 (.get 1032))] ++ List.replicate 5 (.advance 8) ++
      [.start (.ioctl 2 (.get 1032))]) (by decide +kernel)).imp
      fun s ⟨hs, hrun⟩ => ⟨hs, hrun, recovered_of_restartsIdle hs⟩

/-- The service fetches a request and closes its handle without posting it;
the first GET on the next handle is refused, and no call is left that could
change this. -/
theorem restart_refuses_get : ∃ s, relay.machine.Reachable s ∧
      (s.shared.files.lookup 2 = some .service ∧
        s.shared.files.lookup 0 = none ∧
        s.shared.completions =
          [⟨3, .success, some (.request 1 [100, 105, 114])⟩] ∧
        s.shared.handed = [(⟨1, 2, [100, 105, 114]⟩, 3)] ∧
        (s.shared.irps.lookup 3).map (·.file) = some 0 ∧
        s.shared.pendingRequest = some ⟨1, 2, [100, 105, 114]⟩ ∧
        s.calls.lookup 6 = some (.getting .acquire) ∧ s.calls.keys = [6] ∧
        (relay.machine.step s (.advance 6)).any (fun t =>
          t.calls.lookup 6 = some (.returning .notSupported)) = true) ∧
      ¬Recovered s := by
  refine (Machine.exists_reachable_of_run
      (handlesOpen ++ [submitDir, .advance 2, .advance 2, .advance 2,
      .start (.ioctl 0 (.get 1032))] ++ List.replicate 5 (.advance 3) ++
      [.start (.close 0)] ++ List.replicate 4 (.advance 4) ++
      [.start (.create .service true), .advance 5, .advance 5,
        .start (.ioctl 2 (.get 1032))]) (by decide +kernel)).imp
      fun s ⟨hs, hrun⟩ => ⟨hs, hrun, ?_⟩
  obtain ⟨hopen, -, -, hhanded, hfile, hpending, -⟩ := hrun
  intro hrecovered
  obtain ⟨irp, i, hmem, hi, hsame⟩ := hrecovered.fetched 2 _ hopen hpending
  rw [hhanded] at hmem
  cases List.mem_singleton.mp hmem
  simp [hi, hsame] at hfile

end WinNetTest.Isr
