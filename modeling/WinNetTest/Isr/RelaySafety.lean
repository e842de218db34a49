import WinNetTest.Isr.RelayActions

/-!
# The service lock and the IRPs of the relay

While a call holds the service lock no other call touches what the lock
protects, so each position inside a section has an assertion about the two
slots and about the requests popped and handed on so far.
-/

namespace WinNetTest.Isr

open Support

/-! ## The service lock -/

def Call.locks : Call → Bool
  | .notifying (.pop) | .notifying (.took _) | .notifying (.uncancel _)
  | .notifying (.release _) => true
  | .getting (.pop) | .getting (.took _) | .getting .pend | .getting .check
  | .getting .uncancel | .getting (.release _) => true
  | _ => false

/-- The state the lock protects, between sections: the requests popped have
been handed on, and at most one of the slots is in use. -/
structure Free (x : Shared) : Prop where
  popped : x.popped = x.handed.map Prod.fst
  slots : x.pendingIrp = none ∨ x.pendingRequest = none

/-- The state the lock protects at each position inside a section. -/
def Section (x : Shared) (c : ℕ) : Call → Prop
  | .notifying .pop =>
    x.popped = x.handed.map Prod.fst ∧
      x.pendingIrp ≠ none ∧ x.pendingRequest = none
  | .notifying (.took request) =>
    x.popped = x.handed.map Prod.fst ++ [request] ∧
      x.pendingIrp ≠ none ∧ x.pendingRequest = none
  | .notifying (.uncancel _) =>
    x.popped = x.handed.map Prod.fst ∧ x.pendingIrp = none
  | .getting .pop | .getting .pend =>
    x.popped = x.handed.map Prod.fst ∧
      x.pendingIrp = none ∧ x.pendingRequest = none
  | .getting (.took request) =>
    x.popped = x.handed.map Prod.fst ++ [request] ∧
      x.pendingIrp = none ∧ x.pendingRequest = none
  | .getting .check | .getting .uncancel =>
    x.popped = x.handed.map Prod.fst ∧
      x.pendingIrp = some c ∧ x.pendingRequest = none
  | _ => Free x

structure SameService (x y : Shared) : Prop where
  lock : y.lock = x.lock
  pendingIrp : y.pendingIrp = x.pendingIrp
  pendingRequest : y.pendingRequest = x.pendingRequest
  popped : y.popped = x.popped
  handed : y.handed = x.handed

variable {x y : Shared} {c irp : ℕ} {before after : Option Call}
    {s : Pool Shared Call}

theorem Section.congr (h : SameService x y) {call : Call}
    (hsection : Section x c call) : Section y c call := by
  have hfree : Free x → Free y := by
    rintro ⟨hpopped, hslots⟩
    exact ⟨by rw [h.popped, h.handed, hpopped],
      by rw [h.pendingIrp, h.pendingRequest]; exact hslots⟩
  unfold Section at hsection ⊢
  rw [h.popped, h.handed, h.pendingIrp, h.pendingRequest]
  split at hsection <;> first | exact hsection | exact hfree hsection

section

variable (h : Action x c before y after)

include h

theorem Action.sameService {c' : ℕ} (hlock : x.lock = some c') (hc : c' ≠ c)
    (hbefore : ∀ call ∈ before, call.locks = true → x.lock = some c) :
    SameService x y := by
  cases h with
  | session h =>
    cases h <;> exact ⟨rfl, rfl, rfl, rfl, rfl⟩
  | _ =>
    first
    | exact ⟨rfl, rfl, rfl, rfl, rfl⟩
    | (exfalso; simp_all [Call.locks])

theorem Action.free (hfree : x.lock = none → Free x)
    (hbefore : ∀ call ∈ before, call.locks = true →
      x.lock = some c ∧ Section x c call) (hlock : y.lock = none) : Free y := by
  cases h with
  | session h =>
    cases h <;> exact ⟨(hfree hlock).popped, (hfree hlock).slots⟩
  | notifyUnlock | notifyUnlockIrp | getUnlock =>
    have hend : Free x := (hbefore _ rfl rfl).2
    exact ⟨hend.popped, hend.slots⟩
  | postTake request result => exact ⟨(hfree hlock).popped, Or.inr rfl⟩
  | cancelRoutine irp =>
    refine ⟨(hfree hlock).popped, (hfree hlock).slots.imp ?_ id⟩
    intro hirp
    simp [hirp]
  | notifyStore | getStore | getPend | getUncancel | notifyPop | getPop =>
    simp_all [Call.locks]
  | notifyLock | getLock => cases hlock
  | _ => exact ⟨(hfree hlock).popped, (hfree hlock).slots⟩

theorem Action.section (hfree : x.lock = none → Free x)
    (hbefore : ∀ call ∈ before, call.locks = true →
      x.lock = some c ∧ Section x c call) :
    ∀ call ∈ after, call.locks = true → y.lock = some c ∧ Section y c call := by
  cases h with
  | session h => cases h <;> simp [Call.locks]
  | push id command service => split <;> simp [Call.locks]
  | notifyLock hlock hirp =>
    rintro _ ⟨⟩ -
    exact ⟨rfl, (hfree hlock).popped, hirp,
      (hfree hlock).slots.resolve_left hirp⟩
  | notifyEmpty | getPended | getClaimed =>
    rintro _ ⟨⟩ -
    obtain ⟨hlock, hpopped, -, hrequest⟩ := hbefore _ rfl rfl
    exact ⟨hlock, hpopped, Or.inr hrequest⟩
  | notifyPop request | getPop request =>
    rintro _ ⟨⟩ -
    obtain ⟨hlock, hpopped, hirp, hrequest⟩ := hbefore _ rfl rfl
    exact ⟨hlock, congrArg (· ++ [request]) hpopped, hirp, hrequest⟩
  | notifyFault request =>
    rintro _ ⟨⟩ -
    exact hbefore _ rfl rfl
  | notifyStore request irp i =>
    rintro _ ⟨⟩ -
    obtain ⟨hlock, hpopped, -, -⟩ := hbefore _ rfl rfl
    exact ⟨hlock, by simp [hpopped], rfl⟩
  | notifyUncancel | notifyClaimed =>
    rintro _ ⟨⟩ -
    obtain ⟨hlock, hpopped, hirp⟩ := hbefore _ rfl rfl
    exact ⟨hlock, hpopped, Or.inl hirp⟩
  | getLock hlock hirp hrequest =>
    rintro _ ⟨⟩ -
    exact ⟨rfl, (hfree hlock).popped, hirp, hrequest⟩
  | getEmpty =>
    rintro _ ⟨⟩ -
    exact hbefore (.getting .pop) rfl rfl
  | getStore request i =>
    rintro _ ⟨⟩ -
    obtain ⟨hlock, hpopped, hirp, -⟩ := hbefore _ rfl rfl
    exact ⟨hlock, by simp [hpopped], Or.inl hirp⟩
  | getPend i =>
    rintro _ ⟨⟩ -
    obtain ⟨hlock, hpopped, -, hrequest⟩ := hbefore _ rfl rfl
    exact ⟨hlock, hpopped, rfl, hrequest⟩
  | getCheck =>
    rintro _ ⟨⟩ -
    exact hbefore (.getting .check) rfl rfl
  | getUncancel i =>
    rintro _ ⟨⟩ -
    obtain ⟨hlock, hpopped, -⟩ := hbefore _ rfl rfl
    exact ⟨hlock, hpopped, Or.inl rfl⟩
  | _ => simp [Call.locks]

end

theorem locked_of_reachable (hs : relay.machine.Reachable s) :
    Program.Annotated (fun _ x => x.lock = none → Free x)
      (fun x c call => call.locks = true → x.lock = some c ∧ Section x c call)
      s := by
  refine Program.invariant ?_ ?_ hs
  · exact ⟨fun _ => ⟨rfl, Or.inl rfl⟩, by rintro c call ⟨⟩⟩
  · intro s c before n y after _ ih hbefore hturn
    have hact := (action_of_turn hturn).1
    have hown : ∀ call ∈ before, call.locks = true →
        s.shared.lock = some c ∧ Section s.shared c call := by
      intro call hcall
      exact ih.calls c call (hbefore.trans hcall)
    refine Program.Annotated.turn (hact.free ih.shared hown)
      (hact.section ih.shared hown) ?_
    intro c' call hc hcall hlocks
    obtain ⟨hlock, hsection⟩ := ih.calls c' call hcall hlocks
    have hsame := hact.sameService hlock hc
      fun call hcall hlocks => (hown call hcall hlocks).1
    exact ⟨hsame.lock.trans hlock, hsection.congr hsame⟩

theorem section_before (hs : relay.machine.Reachable s)
    (hbefore : s.calls.lookup c = before) :
    ∀ call ∈ before, call.locks = true → Section s.shared c call := by
  intro call hcall hlocks
  exact ((locked_of_reachable hs).calls c call (hbefore.trans hcall) hlocks).2

/-! ## The IRPs -/

def contexts (requests : List Request) : Multiset ℕ :=
  requests.map (·.clientContext)

@[simp] theorem contexts_nil : contexts [] = 0 := rfl

@[simp] theorem contexts_cons (request : Request) (requests : List Request) :
    contexts (request :: requests) =
      {request.clientContext} + contexts requests := rfl

@[simp] theorem contexts_append (requests requests' : List Request) :
    contexts (requests ++ requests') =
      contexts requests + contexts requests' := by
  simp [contexts]

def allIrps (irps : Table ℕ Irp) : Multiset ℕ :=
  irps.total fun c _ => {c}

def cancelable (irps : Table ℕ Irp) : Multiset ℕ :=
  irps.total fun c i => if i.cancelRoutine then {c} else 0

section

variable {irps : Table ℕ Irp} {c : ℕ} {i : Irp}

theorem allIrps_insert_new (i : Irp) (hc : irps.lookup c = none) :
    allIrps (irps.insert c i) = {c} + allIrps irps :=
  Table.total_insert_of_lookup_none _ i hc

theorem cancelable_insert_new (hi : i.cancelRoutine = false)
    (hc : irps.lookup c = none) :
    cancelable (irps.insert c i) = cancelable irps := by
  rw [cancelable, Table.total_insert_of_lookup_none _ i hc]
  simp [hi, cancelable]

theorem allIrps_update (i' : Irp) (hc : irps.lookup c = some i) :
    allIrps (irps.insert c i') = allIrps irps :=
  Table.total_update_eq _ hc rfl

section

variable (hc : irps.lookup c = some i)

include hc

theorem cancelable_update {i' : Irp} (hi : i'.cancelRoutine = i.cancelRoutine) :
    cancelable (irps.insert c i') = cancelable irps :=
  Table.total_update_eq _ hc (by simp [hi])

theorem cancelable_clear (hset : i.cancelRoutine = true) :
    cancelable irps =
      {c} + cancelable (irps.insert c { i with cancelRoutine := false }) := by
  have hupdate := Table.total_update
    (fun c i => if i.cancelRoutine then ({c} : Multiset ℕ) else 0)
    { i with cancelRoutine := false } hc
  simp only [hset, if_true, Bool.false_eq_true, if_false, add_zero] at hupdate
  rw [cancelable, cancelable, ← hupdate, add_comm]

theorem cancelable_set (hset : i.cancelRoutine = false) :
    cancelable (irps.insert c { i with cancelRoutine := true }) =
      {c} + cancelable irps := by
  have hupdate := Table.total_update
    (fun c i => if i.cancelRoutine then ({c} : Multiset ℕ) else 0)
    { i with cancelRoutine := true } hc
  simp only [hset, if_true, Bool.false_eq_true, if_false, add_zero] at hupdate
  rw [cancelable, hupdate, cancelable, add_comm]

end

end

/-- The IRPs a call has in hand: those it is going to complete, and those of
the requests it holds. -/
def Call.irps (c : ℕ) : Call → Multiset ℕ
  | .submitting _ _ => {c}
  | .notifying (.took request) => {request.clientContext}
  | .notifying (.release (some irp)) => {irp}
  | .notifying (.complete irp) => {irp}
  | .getting .acquire | .getting .pop | .getting .pend => {c}
  | .getting (.took request) => {c} + {request.clientContext}
  | .getting (.release status) => if status = .pending then 0 else {c}
  | .posting (.took request _) | .posting (.callback request _) =>
    {c} + {request.clientContext}
  | .posting _ => {c}
  | .cancelling irp .routine | .cancelling irp .complete => {irp}
  | .returning status => if status = .pending then 0 else {c}
  | _ => 0

/-- The IRPs in no call's hands: the cancelable ones, those of the requests on
the queue, pending or dropped, and the completed ones. -/
def Shared.settledIrps (x : Shared) : Multiset ℕ :=
  cancelable x.irps + (contexts x.queue + (contexts x.pendingRequest.toList +
    (contexts x.dropped + x.completedIrps)))

def Accounted (s : Pool Shared Call) : Prop :=
  allIrps s.shared.irps = s.calls.total Call.irps + s.shared.settledIrps

theorem nodup_allIrps (irps : Table ℕ Irp) : (allIrps irps).Nodup := by
  have hkeys : allIrps irps = (irps.keys : Multiset ℕ) := by
    unfold allIrps Table.total AList.keys
    induction irps.entries with
    | nil => rfl
    | cons e rest ih =>
      rw [List.map_cons, List.sum_cons, ih]
      rfl
  rw [hkeys]
  exact irps.keys_nodup

theorem Accounted.notMem_settledIrps (h : Accounted s) {call : Call}
    (hcall : s.calls.lookup c = some call) (hirp : irp ∈ call.irps c) :
    irp ∉ s.shared.settledIrps := by
  intro hsettled
  have hcount := Multiset.nodup_iff_count_le_one.mp
    (nodup_allIrps s.shared.irps) irp
  rw [h, Table.total_eq_of_lookup Call.irps hcall, Multiset.count_add,
    Multiset.count_add] at hcount
  have hhand := Multiset.count_pos.mpr hirp
  have hrest := Multiset.count_pos.mpr hsettled
  omega

theorem Accounted.eq_of_mem (h : Accounted s) {c' : ℕ} {call call' : Call}
    (hcall : s.calls.lookup c = some call) (hirp : irp ∈ call.irps c)
    (hcall' : s.calls.lookup c' = some call') (hirp' : irp ∈ call'.irps c') :
    c = c' := by
  by_contra hne
  have hcount := Multiset.nodup_iff_count_le_one.mp
    (nodup_allIrps s.shared.irps) irp
  have herase : (s.calls.erase c).lookup c' = some call' := by
    rw [AList.lookup_erase_ne (Ne.symm hne)]
    exact hcall'
  rw [h, Table.total_eq_of_lookup Call.irps hcall,
    Table.total_eq_of_lookup Call.irps herase, Multiset.count_add,
    Multiset.count_add, Multiset.count_add] at hcount
  have hhand := Multiset.count_pos.mpr hirp
  have hhand' := Multiset.count_pos.mpr hirp'
  omega

theorem settledIrps_ioCompleteRequest (x : Shared) (irp : ℕ)
    (status : NtStatus) :
    (x.ioCompleteRequest irp status).settledIrps = {irp} + x.settledIrps := by
  simp only [Shared.settledIrps, Shared.completedIrps,
    Shared.ioCompleteRequest, List.map_append, List.map_cons, List.map_nil,
    ← Multiset.coe_add, Multiset.coe_singleton]
  abel

theorem settledIrps_clientRequestComplete (x : Shared) (request : Request)
    (result : Int32) :
    (clientRequestComplete x request result).settledIrps =
      {request.clientContext} + x.settledIrps := by
  simp only [Shared.settledIrps, Shared.completedIrps, clientRequestComplete,
    List.map_append, List.map_cons, List.map_nil, ← Multiset.coe_add,
    Multiset.coe_singleton]
  abel

theorem dispatched_irp {irps : Table ℕ Irp} {file : ℕ} {type : FileType}
    (hc : irps.lookup c = none) (settled : Multiset ℕ) :
    allIrps (irps.insert c ⟨file, type, false, false, none⟩) +
        (0 + (cancelable irps + settled)) =
      allIrps irps + ({c} + (cancelable
        (irps.insert c ⟨file, type, false, false, none⟩) + settled)) := by
  rw [allIrps_insert_new _ hc,
    cancelable_insert_new (i := ⟨file, type, false, false, none⟩) rfl hc]
  abel

theorem Action.irps_cases (h : Action x c before y after) : y.irps = x.irps ∨
    (∃ file type, before = none ∧ x.files.lookup file = some type ∧
      y.irps = x.irps.insert c ⟨file, type, false, false, none⟩) ∨
    ∃ irp i w, x.irps.lookup irp = some i ∧ y.irps = x.irps.insert irp w ∧
      w.file = i.file ∧ w.objectType = i.objectType ∧
      (w.output = i.output ∨ ∃ r, y.handed = x.handed ++ [(r, irp)]) := by
  cases h with
  | session h =>
    cases h <;> exact Or.inl rfl
  | refuse file type status hfile =>
    exact Or.inr (Or.inl ⟨file, type, rfl, hfile, rfl⟩)
  | noMemory file hfile | submit file command hfile =>
    exact Or.inr (Or.inl ⟨file, .client, rfl, hfile, rfl⟩)
  | get file hfile | post file id result hfile =>
    exact Or.inr (Or.inl ⟨file, .service, rfl, hfile, rfl⟩)
  | notifyStore request irp i _ hi =>
    exact Or.inr (Or.inr ⟨irp, i, _, hi, rfl, rfl, rfl, Or.inr ⟨request, rfl⟩⟩)
  | getStore request i hi =>
    exact Or.inr (Or.inr ⟨c, i, _, hi, rfl, rfl, rfl, Or.inr ⟨request, rfl⟩⟩)
  | notifyUncancel irp i hi | cancel irp i hi | cancelClaim irp i hi =>
    exact Or.inr (Or.inr ⟨irp, i, _, hi, rfl, rfl, rfl, Or.inl rfl⟩)
  | getPend i hi | getUncancel i hi =>
    exact Or.inr (Or.inr ⟨c, i, _, hi, rfl, rfl, rfl, Or.inl rfl⟩)
  | _ => exact Or.inl rfl

theorem Action.irp_cases (h : Action x c before y after) {i : Irp}
    (hi : y.irps.lookup irp = some i) :
    (irp = c ∧ before = none ∧ x.files.lookup i.file = some i.objectType) ∨
      ∃ i', x.irps.lookup irp = some i' ∧ i.file = i'.file ∧
        i.objectType = i'.objectType := by
  rcases h.irps_cases with hsame | ⟨file, type, hbefore, hfile, hnew⟩ |
    ⟨irp', i', w, hi', hupdate, hfile, htype, -⟩
  · exact Or.inr ⟨i, hsame ▸ hi, rfl, rfl⟩
  · rw [hnew] at hi
    by_cases hirp : irp = c
    · subst hirp
      rw [AList.lookup_insert] at hi
      cases hi
      exact Or.inl ⟨rfl, hbefore, hfile⟩
    · rw [AList.lookup_insert_ne hirp] at hi
      exact Or.inr ⟨i, hi, rfl, rfl⟩
  · rw [hupdate] at hi
    by_cases hirp : irp = irp'
    · subst hirp
      rw [AList.lookup_insert] at hi
      cases hi
      exact Or.inr ⟨i', hi', hfile, htype⟩
    · rw [AList.lookup_insert_ne hirp] at hi
      exact Or.inr ⟨i, hi, rfl, rfl⟩

theorem Action.irp_kept (h : Action x c before y after)
    (hfresh : before = none → x.irps.lookup c = none) {i : Irp}
    (hi : x.irps.lookup irp = some i) :
    ∃ i', y.irps.lookup irp = some i' ∧ i'.file = i.file ∧
      i'.objectType = i.objectType ∧
      (i'.output = i.output ∨ ∃ r, y.handed = x.handed ++ [(r, irp)]) := by
  rcases h.irps_cases with hsame | ⟨file, type, hbefore, -, hnew⟩ |
    ⟨irp', i', w, hi', hupdate, hfile, htype, houtput⟩
  · exact ⟨i, hsame ▸ hi, rfl, rfl, Or.inl rfl⟩
  · have hirp : irp ≠ c := by
      rintro rfl
      rw [hfresh hbefore] at hi
      cases hi
    exact ⟨i, by rw [hnew, AList.lookup_insert_ne hirp, hi], rfl, rfl,
      Or.inl rfl⟩
  · by_cases hirp : irp = irp'
    · subst hirp
      rw [hi'] at hi
      cases hi
      exact ⟨w, by rw [hupdate, AList.lookup_insert], hfile, htype, houtput⟩
    · exact ⟨i, by rw [hupdate, AList.lookup_insert_ne hirp, hi], rfl, rfl,
        Or.inl rfl⟩

theorem Action.irps (h : Action x c before y after)
    (hfresh : before = none → x.irps.lookup c = none)
    (hsection : ∀ call ∈ before, call.locks = true → Section x c call)
    (hhand : ∀ call ∈ before, ∀ irp ∈ call.irps c, irp ∉ x.settledIrps) :
    allIrps y.irps + (before.elim 0 (Call.irps c) + x.settledIrps) =
      allIrps x.irps + (after.elim 0 (Call.irps c) + y.settledIrps) := by
  cases h with
  | session h =>
    have hnone : before.elim 0 (Call.irps c) = 0 ∧
        after.elim 0 (Call.irps c) = 0 := by
      cases h <;> exact ⟨rfl, rfl⟩
    obtain ⟨_, service, _, _, rfl⟩ := h.frame
    rw [hnone.1, hnone.2]
    rfl
  | refuse file type status hfile hstatus =>
    simp only [Option.elim, Call.irps, hstatus, if_false]
    exact dispatched_irp (hfresh rfl) _
  | noMemory | submit | get | post => exact dispatched_irp (hfresh rfl) _
  | return_ status hstatus =>
    rw [settledIrps_ioCompleteRequest]
    simp only [Option.elim, Call.irps, hstatus, if_false, zero_add]
    rfl
  | push id command service =>
    have hnone : Option.elim (if x.queue = [] then
        some (Call.notifying .acquire) else some .pushed) 0
        (Call.irps c) = 0 := by
      split <;> rfl
    rw [hnone]
    simp only [Shared.settledIrps, Shared.completedIrps, Option.elim,
      Call.irps, contexts_append, contexts_cons, contexts_nil]
    abel
  | notifyPop request rest hqueue | getPop request rest hqueue =>
    simp only [Shared.settledIrps, Shared.completedIrps, Option.elim,
      Call.irps, hqueue, contexts_cons]
    abel
  | notifyStore request irp i hirp hi =>
    obtain ⟨-, -, hrequest⟩ := hsection _ rfl rfl
    have hsame : cancelable (x.irps.insert irp
        { i with output := some (request.id, request.command) }) =
        cancelable x.irps := cancelable_update hi rfl
    simp only [Shared.settledIrps, Shared.completedIrps, Option.elim,
      Call.irps, hrequest, Option.toList, contexts_cons, contexts_nil,
      allIrps_update _ hi, hsame]
    abel
  | notifyUncancel irp i hi hset | cancelClaim irp i hi hset =>
    rw [allIrps_update _ hi]
    simp only [Shared.settledIrps, Shared.completedIrps, Option.elim, Call.irps]
    rw [cancelable_clear hi hset]
    abel
  | notifyComplete | cancelComplete =>
    rw [settledIrps_ioCompleteRequest]
    simp only [Option.elim, Call.irps, zero_add]
    rfl
  | getStore request i hi =>
    obtain ⟨-, -, hrequest⟩ := hsection _ rfl rfl
    have hsame : cancelable (x.irps.insert c
        { i with output := some (request.id, request.command) }) =
        cancelable x.irps := cancelable_update hi rfl
    simp only [Shared.settledIrps, Shared.completedIrps, Option.elim,
      Call.irps, hrequest, Option.toList, contexts_cons, contexts_nil,
      allIrps_update _ hi, hsame, reduceCtorEq, if_false]
    abel
  | getPend i hi =>
    have hunset : i.cancelRoutine = false := by
      by_contra hne
      have hset : i.cancelRoutine = true := by simpa using hne
      refine hhand _ rfl c (Multiset.mem_singleton_self c) ?_
      refine Multiset.mem_add.mpr (Or.inl (Table.mem_total.mpr ⟨c, i, hi, ?_⟩))
      simp [hset]
    rw [allIrps_update _ hi]
    simp only [Shared.settledIrps, Shared.completedIrps, Option.elim, Call.irps]
    rw [cancelable_set hi hunset]
    abel
  | getUncancel i hi hset =>
    rw [allIrps_update _ hi]
    simp only [Shared.settledIrps, Shared.completedIrps, Option.elim,
      Call.irps, reduceCtorEq, if_false]
    rw [cancelable_clear hi hset]
    abel
  | postTake request result hlock hrequest =>
    simp only [Shared.settledIrps, Shared.completedIrps, Option.elim,
      Call.irps, hrequest, Option.toList, contexts_cons, contexts_nil]
    abel
  | postDrop request result =>
    simp only [Shared.settledIrps, Shared.completedIrps, Option.elim,
      Call.irps, reduceCtorEq, if_false, contexts_append, contexts_cons,
      contexts_nil]
    abel
  | postCallback request result =>
    rw [settledIrps_clientRequestComplete]
    simp only [Option.elim, Call.irps, add_assoc]
    rfl
  | cancel irp i hi =>
    have hsame : cancelable (x.irps.insert irp { i with cancel := true }) =
        cancelable x.irps := cancelable_update hi rfl
    simp only [Shared.settledIrps, Shared.completedIrps, Option.elim,
      Call.irps, allIrps_update _ hi, hsame]
  | _ => rfl

section

variable (hs : relay.machine.Reachable s)

include hs

theorem irp_lt_nextCall {i : Irp} (hi : s.shared.irps.lookup c = some i) :
    c < s.nextCall := by
  refine Program.invariant
    (I := fun s => ∀ c i, s.shared.irps.lookup c = some i → c < s.nextCall)
    ?_ ?_ hs c i hi
  · rintro c i ⟨⟩
  · intro s c before n y after _ ih _ hturn irp i hi
    rcases (action_of_turn hturn).1.irp_cases hi with
      ⟨rfl, -⟩ | ⟨i', hi', -⟩
    · exact hturn.lt
    · exact (ih irp i' hi').trans_le hturn.nextCall_le

theorem irp_fresh {n : ℕ} (hturn : relay.Turn s c before n y after)
    (hbefore : before = none) : s.shared.irps.lookup c = none := by
  subst hbefore
  by_contra hne
  obtain ⟨i, hi⟩ := Option.ne_none_iff_exists'.mp hne
  exact absurd (irp_lt_nextCall hs hi) (by simp [hturn.of_none.1])

theorem accounted_of_reachable : Accounted s := by
  refine Program.conserved Call.irps (fun x => allIrps x.irps)
    Shared.settledIrps rfl ?_ hs
  intro s c before n y after hs ih hbefore hturn
  refine (action_of_turn hturn).1.irps (irp_fresh hs hturn)
    (section_before hs hbefore) ?_
  intro call hcall irp hirp
  exact Accounted.notMem_settledIrps ih (hbefore.trans hcall) hirp

end

end WinNetTest.Isr
