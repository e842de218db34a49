import WinNetTest.Fnlwf.Oid

/-!
# What the OID calls of FNLWF do

The actions of the calls, by what they change and by the position of the call
before and after them.  A request that the filter has accepted is a token: it is
in the hands of one call or at the lower layer until the event that settles it,
and an action touches only requests that its call has in hand, that the lower
layer has, or that it brings.
-/

namespace WinNetTest.Fnlwf.Oid

open Support Fnmp

inductive Action (x : Shared) (c : ℕ) :
    Option Call → Shared → Option Call → Prop
  | received {i : OidRequestInterface} {upper : UpperRequest} : Action x c none
        (({ x with originals := x.originals.insert c upper }).record
          (.received c i upper))
        (some (.cloned i (cloneOf c upper)))
  | refused {i : OidRequestInterface} {status : NdisStatus} :
      Action x c none (x.record (.refused c i status)) none
  | submitted {i : OidRequestInterface} {request : NdisOidRequest}
      {internal : FilterRequest} (hevent : internal.completionEvent = false) :
      Action x c none
        (({ x with internals := x.internals.insert c internal }).record
          (.submitted c i))
        (some (.requesting i request))
  | rejected {status : NtStatus} :
      Action x c none (x.record (.rejected c status)) none
  | answered {a : ℕ} {l : LowerRequest} {status : NdisStatus}
      {results : Results} (hl : x.lower.lookup a = some l)
      (hphase : l.phase = .deciding) :
      Action x c none
        (({ x with
            lower := x.lower.insert a
              ⟨l.interface, l.object.done results, .answered status⟩ }).record
          (.lowerDone a l.interface status (l.object.done results).request))
        none
  | pended {a : ℕ} {l : LowerRequest} (hl : x.lower.lookup a = some l)
      (hphase : l.phase = .deciding) :
      Action x c none
        { x with lower := x.lower.insert a { l with phase := .pended } } none
  | completed {a : ℕ} {l : LowerRequest} {status : NdisStatus}
      {results : Results} (hl : x.lower.lookup a = some l)
      (hphase : l.phase = .pended) :
      Action x c none
        (({ x with lower := x.lower.erase a }).record
          (.lowerDone a l.interface status (l.object.done results).request))
        (some (.completing l.interface (l.object.done results) status false))
  | detached : Action x c none { x with rundown := x.rundown.beginWait } none
  | sentDown {i : OidRequestInterface} {clone : OidObject} :
      Action x c (some (.cloned i clone)) (invokeNdisFOidRequest x i clone)
        (some (.forwarding i))
  | returnedPending {i : OidRequestInterface}
      (hresult : invocationResult x c = some none) :
      Action x c (some (.forwarding i)) x (some .returning)
  | returnedStatus {i : OidRequestInterface} {l : LowerRequest}
      {status : NdisStatus} (hl : x.lower.lookup c = some l)
      (hphase : l.phase = .answered status) :
      Action x c (some (.forwarding i)) { x with lower := x.lower.erase c }
        (some (.completing i l.object status true))
  | returned :
      Action x c (some .returning) (x.record (.returned c .pending)) none
  | signaled {i : OidRequestInterface} {object : OidObject}
      {status : NdisStatus} {sync : Bool} {internal : FilterRequest}
      (horiginal : object.originalRequest = none)
      (hinternal : x.internals.lookup object.address = some internal) :
      Action x c (some (.completing i object status sync))
        (({ x with
            internals := x.internals.insert object.address
              ⟨object.request, status, true⟩ }).record
          (.signaled object.address status))
        (afterCompletion sync)
  | copied {i : OidRequestInterface} {object : OidObject} {original : ℕ}
      {status : NdisStatus} {sync : Bool} {upper : UpperRequest}
      (horiginal : object.originalRequest = some original)
      (hupper : x.originals.lookup original = some upper) :
      Action x c (some (.completing i object status sync))
        { x with
          originals :=
            x.originals.insert original (upper.copied object.request) }
        (some (.freeing i object original status sync))
  | freed {i : OidRequestInterface} {clone : OidObject} {original : ℕ}
      {status : NdisStatus} {sync : Bool} :
      Action x c (some (.freeing i clone original status sync))
        (x.record (.freed clone.address))
        (some (.completingUp i original status sync))
  | completedUp {i : OidRequestInterface} {original : ℕ}
      {status : NdisStatus} {sync : Bool} {upper : UpperRequest}
      (hupper : x.originals.lookup original = some upper) :
      Action x c (some (.completingUp i original status sync))
        (({ x with originals := x.originals.erase original }).record
          (.completedUp original i status upper))
        (afterCompletion sync)
  | removed {i : OidRequestInterface} {request : NdisOidRequest} :
      Action x c (some (.requesting i request)) (x.record (.removed c))
        (some (.finishing none))
  | sent {i : OidRequestInterface} {request : NdisOidRequest}
      {rundown : Rundown} :
      Action x c (some (.requesting i request))
        (invokeNdisFOidRequest { x with rundown } i (internalObject c request))
        (some .invoking)
  | invokedPending (hresult : invocationResult x c = some none) :
      Action x c (some .invoking) x (some (.releasing .pending))
  | invokedStatus {l : LowerRequest} {status : NdisStatus}
      {internal : FilterRequest} (hl : x.lower.lookup c = some l)
      (hphase : l.phase = .answered status)
      (hinternal : x.internals.lookup c = some internal) :
      Action x c (some .invoking)
        (({ x with
            lower := x.lower.erase c
            internals := x.internals.insert c
              { internal with oid := l.object.request } }).record
          (.answered c status))
        (some (.releasing status))
  | released {status : NdisStatus} : Action x c (some (.releasing status))
        { x with rundown := x.rundown.release 1 }
        (if status = .pending then some .waiting
          else some (.finishing (some status)))
  | waited {internal : FilterRequest}
      (hinternal : x.internals.lookup c = some internal)
      (hevent : internal.completionEvent = true) :
      Action x c (some .waiting) x (some (.finishing (some internal.status)))
  | finished {status : Option NdisStatus} {internal : FilterRequest}
      (hinternal : x.internals.lookup c = some internal) :
      Action x c (some (.finishing status))
        (({ x with internals := x.internals.erase c }).record
          (.replied c (status.map finalStatus)
            (status.elim 0 (bytesProcessed internal.oid))))
        none

section Inversion

variable {x y : Shared} {c : ℕ} {after : Option Call} {status : NdisStatus}
variable {a : ℕ} {results : Results}

theorem Action.of_answer (h : answer x a status results = some y) :
    Action x c none y none := by
  unfold answer at h
  split at h
  · cases h
  · rename_i l hl
    obtain ⟨hguard, heq⟩ := Option.ite_none_right_eq_some.mp h
    cases heq
    exact .answered hl hguard.1

theorem Action.of_pend (h : pend x a = some y) : Action x c none y none := by
  unfold pend at h
  split at h
  · cases h
  · rename_i l hl
    obtain ⟨hphase, heq⟩ := Option.ite_none_right_eq_some.mp h
    cases heq
    exact .pended hl hphase

theorem Action.of_complete (h : complete x a status results = some (y, after)) :
    Action x c none y after := by
  unfold complete at h
  split at h
  · cases h
  · rename_i l hl
    obtain ⟨hguard, heq⟩ := Option.ite_none_right_eq_some.mp h
    cases heq
    exact .completed hl hguard.1

theorem Action.of_start {input : Input}
    (h : start x c input = some (y, after)) : Action x c none y after := by
  cases input with
  | request i upper failure =>
    cases failure with
    | none =>
      cases h
      exact .received
    | some status =>
      obtain ⟨-, heq⟩ := Option.ite_none_right_eq_some.mp h
      cases heq
      exact .refused
  | submit input =>
    simp only [start] at h
    split at h
    · cases h
      exact .rejected
    · cases h
      exact .submitted rfl
  | answer a status results =>
    obtain ⟨z, hz, heq⟩ := Option.map_eq_some_iff.mp h
    cases heq
    exact .of_answer hz
  | pend a =>
    obtain ⟨z, hz, heq⟩ := Option.map_eq_some_iff.mp h
    cases heq
    exact .of_pend hz
  | complete a status results => exact .of_complete h
  | detach =>
    cases h
    exact .detached

theorem lookup_of_invocationResult {object : OidObject}
    (h : invocationResult x c = some (some (object, status))) :
    ∃ l, x.lower.lookup c = some l ∧ l.phase = .answered status ∧
      l.object = object := by
  unfold invocationResult at h
  split at h
  · cases h
  · rename_i l hl
    split at h
    · cases h
    · cases h
    · rename_i status' hphase
      cases h
      exact ⟨l, hl, hphase, rfl⟩

theorem Action.of_advance {call : Call}
    (h : advance x c call = some (y, after)) :
    Action x c (some call) y after := by
  cases call with
  | cloned i clone =>
    cases h
    exact .sentDown
  | forwarding i =>
    obtain ⟨result, hresult, heq⟩ := Option.map_eq_some_iff.mp h
    cases result with
    | none =>
      cases heq
      exact .returnedPending hresult
    | some answer =>
      obtain ⟨object, status⟩ := answer
      obtain ⟨l, hl, hphase, rfl⟩ := lookup_of_invocationResult hresult
      cases heq
      exact .returnedStatus hl hphase
  | returning =>
    cases h
    exact .returned
  | completing i object status sync =>
    simp only [advance, filterOidRequestCompleteCommon] at h
    split at h
    · rename_i horiginal
      obtain ⟨internal, hinternal, heq⟩ := Option.map_eq_some_iff.mp h
      cases heq
      exact .signaled horiginal hinternal
    · rename_i original horiginal
      obtain ⟨upper, hupper, heq⟩ := Option.map_eq_some_iff.mp h
      cases heq
      exact .copied horiginal hupper
  | freeing i clone original status sync =>
    cases h
    exact .freed
  | completingUp i original status sync =>
    obtain ⟨upper, hupper, heq⟩ := Option.map_eq_some_iff.mp h
    cases heq
    exact .completedUp hupper
  | requesting i request =>
    simp only [advance] at h
    split at h <;> cases h
    · exact .removed
    · exact .sent
  | invoking =>
    obtain ⟨result, hresult, heq⟩ := Option.bind_eq_some_iff.mp h
    cases result with
    | none =>
      cases heq
      exact .invokedPending hresult
    | some answer =>
      obtain ⟨object, status⟩ := answer
      obtain ⟨l, hl, hphase, rfl⟩ := lookup_of_invocationResult hresult
      obtain ⟨internal, hinternal, heq⟩ := Option.map_eq_some_iff.mp heq
      cases heq
      exact .invokedStatus hl hphase hinternal
  | releasing status =>
    cases h
    exact .released
  | waiting =>
    obtain ⟨internal, hinternal, heq⟩ := Option.bind_eq_some_iff.mp h
    obtain ⟨hevent, heq⟩ := Option.ite_none_right_eq_some.mp heq
    cases heq
    exact .waited hinternal hevent
  | finishing status =>
    obtain ⟨internal, hinternal, heq⟩ := Option.map_eq_some_iff.mp h
    cases heq
    exact .finished hinternal

end Inversion

theorem Action.of_turn {s : Pool Shared Call} {c n : ℕ} {y : Shared}
    {before after : Option Call} (h : program.Turn s c before n y after) :
    Action s.shared c before y after := by
  cases h with
  | start hc hstart => exact .of_start hstart
  | advance hc hadvance => exact .of_advance hadvance

/-! ## Tokens -/

def Call.token (c : ℕ) : Call → Option ℕ
  | .cloned _ clone => some clone.address
  | .completing _ object _ _ => some object.address
  | .freeing _ clone _ _ _ => some clone.address
  | .completingUp _ original _ _ => some original
  | .requesting _ _ => some c
  | _ => none

def single (a : Option ℕ) : Multiset ℕ :=
  a.elim 0 fun a => {a}

def Event.born : Event → Option ℕ
  | .received a _ _ => some a
  | .submitted a _ => some a
  | _ => none

def Event.settled : Event → Option ℕ
  | .completedUp a _ _ _ => some a
  | .signaled a _ => some a
  | .answered a _ => some a
  | .removed a => some a
  | _ => none

def born (events : List Event) : List ℕ :=
  events.filterMap Event.born

def settled (events : List Event) : List ℕ :=
  events.filterMap Event.settled

def Shared.below (x : Shared) : Multiset ℕ :=
  x.lower.total fun a _ => {a}

def Shared.others (x : Shared) : Multiset ℕ :=
  x.below + (settled x.events : List ℕ)

theorem born_cons (event : Event) (events : List Event) :
    (born (event :: events) : Multiset ℕ) =
      single event.born + (born events : List ℕ) := by
  cases h : event.born <;> simp [born, single, h]

theorem settled_cons (event : Event) (events : List Event) :
    (settled (event :: events) : Multiset ℕ) =
      single event.settled + (settled events : List ℕ) := by
  cases h : event.settled <;> simp [settled, single, h]

variable {a : ℕ}

theorem below_insert_of_none {x : Shared} (l : LowerRequest)
    (ha : x.lower.lookup a = none) :
    Table.total (fun a _ => ({a} : Multiset ℕ)) (x.lower.insert a l) =
      {a} + x.below :=
  Table.total_insert_of_lookup_none _ l ha

variable {l : LowerRequest}

theorem below_insert_of_some {x : Shared} (l' : LowerRequest)
    (ha : x.lower.lookup a = some l) :
    Table.total (fun a _ => ({a} : Multiset ℕ)) (x.lower.insert a l') =
      x.below :=
  Table.total_update_eq _ ha rfl

theorem below_erase {x : Shared} (ha : x.lower.lookup a = some l) :
    x.below =
      {a} + Table.total (fun a _ => ({a} : Multiset ℕ)) (x.lower.erase a) :=
  Table.total_eq_of_lookup _ ha

theorem mem_below {x : Shared} : a ∈ x.below ↔ (x.lower.lookup a).isSome := by
  rw [Shared.below, Table.mem_total, Option.isSome_iff_exists]
  constructor
  · rintro ⟨a', l, hl, ha⟩
    rw [Multiset.mem_singleton] at ha
    exact ⟨l, ha ▸ hl⟩
  · rintro ⟨l, hl⟩
    exact ⟨a, l, hl, Multiset.mem_singleton_self a⟩

/-! ## What an action touches -/

/-- A call that frees a clone frees that of the request it completes then, and
one that completes a clone finds its own request in it. -/
def Call.Linked : Call → Prop
  | .completing _ object _ _ =>
    ∀ original ∈ object.originalRequest, original = object.address
  | .freeing _ clone original _ _ => original = clone.address
  | _ => True

def Shared.Linked (x : Shared) : Prop :=
  ∀ a l, x.lower.lookup a = some l → l.object.address = a

def about (a : ℕ) (events : List Event) : List Event :=
  events.filter fun event => event.subject = some a

theorem about_record (x : Shared) (event : Event) (a : ℕ) :
    about a (x.record event).events =
      if event.subject = some a then event :: about a x.events
      else about a x.events := by
  by_cases h : event.subject = some a <;> simp [about, Shared.record, h]

theorem about_record_self (x : Shared) {event : Event}
    (h : event.subject = some a) :
    about a (x.record event).events = event :: about a x.events := by
  rw [about_record, if_pos h]

/-- Two states agree about what has happened to a request, and about the
original. -/
structure Agree (x y : Shared) (a : ℕ) : Prop where
  about : about a y.events = about a x.events
  originals : y.originals.lookup a = x.originals.lookup a

structure Same (x y : Shared) (a : ℕ) : Prop extends Agree x y a where
  lower : y.lower.lookup a = x.lower.lookup a

theorem Same.refl (x : Shared) (a : ℕ) : Same x x a :=
  ⟨⟨rfl, rfl⟩, rfl⟩

theorem Same.record {x y : Shared} (h : Same x y a) {event : Event}
    (hevent : event.subject ≠ some a) : Same x (y.record event) a :=
  ⟨⟨by rw [about_record, if_neg hevent, h.about], h.originals⟩, h.lower⟩

theorem Same.record_ne {x y : Shared} {event : Event} {a' : ℕ} (h : Same x y a)
    (hevent : event.subject = some a') (hne : a ≠ a') :
    Same x (y.record event) a :=
  h.record (by simpa [hevent] using hne.symm)

/-- The requests a call may touch: one it brings, one it has in hand, and one
at the lower layer with which something happens there. -/
def Touched (x y : Shared) (c : ℕ) (before : Option Call) (a : ℕ) : Prop :=
  (before = none ∧ a = c) ∨ before.bind (Call.token c) = some a ∨
    ((x.lower.lookup a).isSome ∧ y.lower.lookup a ≠ x.lower.lookup a)

section Step

variable {x y : Shared} {c : ℕ} {before after : Option Call}

theorem Action.same (hact : Action x c before y after)
    (hcall : ∀ call ∈ before, call.Linked) :
    (∀ a, Same x y a) ∨
      ∃ a, Touched x y c before a ∧ ∀ a', a' ≠ a → Same x y a' := by
  cases hact with
  | received =>
    refine Or.inr ⟨c, Or.inl ⟨rfl, rfl⟩, fun a hne => ?_⟩
    exact .record_ne ⟨⟨rfl, AList.lookup_insert_ne hne⟩, rfl⟩ rfl hne
  | refused =>
    refine Or.inr ⟨c, Or.inl ⟨rfl, rfl⟩, fun a hne => ?_⟩
    exact (Same.refl x a).record_ne rfl hne
  | submitted hevent =>
    refine Or.inr ⟨c, Or.inl ⟨rfl, rfl⟩, fun a hne => ?_⟩
    exact .record_ne ⟨⟨rfl, rfl⟩, rfl⟩ rfl hne
  | rejected | returned => exact Or.inl fun a => (Same.refl x a).record nofun
  | @answered a l status results hl hphase =>
    have hchanged : ∀ l', x.lower.lookup a ≠ some
        ⟨l.interface, l', .answered status⟩ := by
      rintro l' heq
      rw [Option.some.inj (hl.symm.trans heq)] at hphase
      cases hphase
    refine Or.inr ⟨a, Or.inr (Or.inr ⟨by simp [hl], ?_⟩), fun a' hne => ?_⟩
    · exact (AList.lookup_insert x.lower).trans_ne (hchanged _).symm
    · exact .record_ne ⟨⟨rfl, rfl⟩, AList.lookup_insert_ne hne⟩ rfl hne
  | @pended a l hl hphase =>
    have hchanged : x.lower.lookup a ≠ some { l with phase := .pended } := by
      intro heq
      rw [Option.some.inj (hl.symm.trans heq)] at hphase
      cases hphase
    refine Or.inr ⟨a, Or.inr (Or.inr ⟨by simp [hl], ?_⟩), fun a' hne => ?_⟩
    · exact (AList.lookup_insert x.lower).trans_ne hchanged.symm
    · exact ⟨⟨rfl, rfl⟩, AList.lookup_insert_ne hne⟩
  | @completed a l status results hl hphase =>
    refine Or.inr ⟨a, Or.inr (Or.inr ⟨by simp [hl], by simp [Shared.record, hl]⟩),
      fun a' hne => ?_⟩
    exact .record_ne ⟨⟨rfl, rfl⟩, AList.lookup_erase_ne hne⟩ rfl hne
  | detached | released => exact Or.inl fun a => ⟨⟨rfl, rfl⟩, rfl⟩
  | @sentDown i clone =>
    refine Or.inr ⟨clone.address, Or.inr (Or.inl rfl), fun a hne => ?_⟩
    exact ⟨⟨rfl, rfl⟩, AList.lookup_insert_ne hne⟩
  | returnedPending | invokedPending | waited => exact Or.inl (Same.refl x)
  | returnedStatus hl hphase =>
    refine Or.inr ⟨c, Or.inr (Or.inr ⟨by simp [hl], by simp [hl]⟩),
      fun a hne => ?_⟩
    exact ⟨⟨rfl, rfl⟩, AList.lookup_erase_ne hne⟩
  | @signaled i object status sync internal horiginal hinternal =>
    refine Or.inr ⟨object.address, Or.inr (Or.inl rfl), fun a hne => ?_⟩
    exact .record_ne ⟨⟨rfl, rfl⟩, rfl⟩ rfl hne
  | @copied i object original status sync upper horiginal hupper =>
    obtain rfl := hcall (.completing i object status sync) rfl original
      horiginal
    refine Or.inr ⟨object.address, Or.inr (Or.inl rfl), fun a hne => ?_⟩
    exact ⟨⟨rfl, AList.lookup_insert_ne hne⟩, rfl⟩
  | @freed i clone original status sync =>
    refine Or.inr ⟨clone.address, Or.inr (Or.inl rfl), fun a hne => ?_⟩
    exact (Same.refl x a).record_ne rfl hne
  | @completedUp i original status sync upper hupper =>
    refine Or.inr ⟨original, Or.inr (Or.inl rfl), fun a hne => ?_⟩
    exact .record_ne ⟨⟨rfl, AList.lookup_erase_ne hne⟩, rfl⟩ rfl hne
  | removed =>
    refine Or.inr ⟨c, Or.inr (Or.inl rfl), fun a hne => ?_⟩
    exact (Same.refl x a).record_ne rfl hne
  | sent =>
    refine Or.inr ⟨c, Or.inr (Or.inl rfl), fun a hne => ?_⟩
    exact ⟨⟨rfl, rfl⟩, AList.lookup_insert_ne hne⟩
  | invokedStatus hl hphase hinternal =>
    refine Or.inr ⟨c, Or.inr (Or.inr ⟨by simp [hl], by simp [Shared.record, hl]⟩),
      fun a hne => ?_⟩
    exact .record_ne ⟨⟨rfl, rfl⟩, AList.lookup_erase_ne hne⟩ rfl hne
  | finished hinternal =>
    refine Or.inl fun a => ?_
    apply Same.record
    · exact ⟨⟨rfl, rfl⟩, rfl⟩
    · exact nofun

theorem Action.tokens (hact : Action x c before y after)
    (hcall : ∀ call ∈ before, call.Linked) (hlower : x.Linked)
    (hfree : ∀ a, before.bind (Call.token c) = some a →
      x.lower.lookup a = none) :
    (born y.events : Multiset ℕ) +
        (single (before.bind (Call.token c)) + x.others) =
      (born x.events : Multiset ℕ) +
        (single (after.bind (Call.token c)) + y.others) := by
  cases hact with
  | received | submitted | removed =>
    simp only [Shared.others, Shared.below, Shared.record, born_cons,
      settled_cons, Event.born, Event.settled, Option.bind, Call.token,
      single, Option.elim, cloneOf]
    abel
  | answered hl hphase =>
    simp only [Shared.others, Shared.below, Shared.record, born_cons,
      settled_cons, Event.born, Event.settled, below_insert_of_some _ hl]
    simp only [single, Option.elim, zero_add]
  | pended hl hphase =>
    simp only [Shared.others, Shared.below, below_insert_of_some _ hl]
  | completed hl hphase =>
    have haddress := hlower _ _ hl
    have hbelow := below_erase hl
    simp only [Shared.others, Shared.record, born_cons, settled_cons,
      Event.born, Event.settled, Option.bind, Call.token, single,
      Option.elim, OidObject.done, haddress, hbelow]
    simp only [Shared.below]
    abel
  | @sentDown i clone =>
    have hbelow := below_insert_of_none ⟨i, clone, .deciding⟩ (hfree _ rfl)
    simp only [Shared.others, invokeNdisFOidRequest, Option.bind,
      Call.token, single, Option.elim]
    simp only [Shared.below] at hbelow ⊢
    rw [hbelow]
    abel
  | returnedStatus hl hphase =>
    have haddress := hlower _ _ hl
    have hbelow := below_erase hl
    simp only [Shared.others, Option.bind, Call.token, single, Option.elim,
      haddress, hbelow]
    simp only [Shared.below]
    abel
  | @signaled i object status sync | @completedUp i original status sync =>
    cases sync <;>
      simp only [Shared.others, Shared.below, Shared.record, born_cons,
        settled_cons, Event.born, Event.settled, Option.bind, Call.token,
        single, Option.elim, afterCompletion] <;>
      abel
  | @freed i clone original status sync =>
    have hlinked : original = clone.address := hcall _ rfl
    simp only [Shared.others, Shared.below, Shared.record, born_cons,
      settled_cons, Event.born, Event.settled, Option.bind, Call.token,
      single, Option.elim, hlinked]
    abel
  | @sent i request rundown =>
    have hbelow := below_insert_of_none
      ⟨i, internalObject c request, .deciding⟩ (hfree _ rfl)
    simp only [Shared.others, invokeNdisFOidRequest, internalObject,
      Option.bind, Call.token, single, Option.elim]
    simp only [Shared.below, internalObject] at hbelow ⊢
    rw [hbelow]
    abel
  | invokedStatus hl hphase hinternal =>
    have hbelow := below_erase hl
    simp only [Shared.others, Shared.record, born_cons, settled_cons,
      Event.born, Event.settled, Option.bind, Call.token, single,
      Option.elim, hbelow]
    simp only [Shared.below]
    abel
  | @released status =>
    by_cases hpending : status = .pending <;>
      simp only [hpending, if_true, if_false] <;> rfl
  | _ => rfl

theorem Action.events (hact : Action x c before y after) :
    ∀ event ∈ x.events, event ∈ y.events := by
  intro event hevent
  cases hact <;> first
    | exact hevent
    | exact List.mem_cons_of_mem _ hevent

theorem Action.settled (hact : Action x c before y after) {a : ℕ}
    (ha : a ∈ settled x.events) : a ∈ settled y.events := by
  obtain ⟨event, hevent, hsettled⟩ := List.mem_filterMap.mp ha
  exact List.mem_filterMap.mpr ⟨event, hact.events event hevent, hsettled⟩

theorem Action.internals (hact : Action x c before y after) {a : ℕ}
    (ha : (x.internals.lookup a).isSome)
    (hne : ∀ status, before = some (.finishing status) → a ≠ c) :
    (y.internals.lookup a).isSome := by
  have hinsert : ∀ a' internal,
      ((x.internals.insert a' internal).lookup a).isSome := by
    intro a' internal
    by_cases h : a = a'
    · subst h
      rw [AList.lookup_insert]
      rfl
    · rw [AList.lookup_insert_ne h]
      exact ha
  cases hact with
  | submitted | signaled | invokedStatus => exact hinsert _ _
  | finished hinternal =>
    have herase := AList.lookup_erase_ne (s := x.internals) (hne _ rfl)
    exact (congrArg Option.isSome herase).trans ha
  | _ => exact ha

theorem Action.born (hact : Action x c before y after) :
    born y.events = born x.events ∨
      (before = none ∧ born y.events = c :: born x.events) := by
  cases hact with
  | received | submitted => exact Or.inr ⟨rfl, rfl⟩
  | _ => exact Or.inl rfl

theorem Action.lower_new (hact : Action x c before y after) {a : ℕ}
    {l : LowerRequest} (hl : y.lower.lookup a = some l)
    (hne : y.lower.lookup a ≠ x.lower.lookup a) :
    y.originals = x.originals ∧ y.internals = x.internals ∧
    ((∃ l₀, before = none ∧ x.lower.lookup a = some l₀ ∧ l₀.phase = .deciding ∧
      ((l = { l₀ with phase := .pended } ∧
          about a y.events = about a x.events) ∨
        ∃ status results,
          l = ⟨l₀.interface, l₀.object.done results, .answered status⟩ ∧
          about a y.events =
            .lowerDone a l₀.interface status (l₀.object.done results).request
              :: about a x.events)) ∨
      (before.bind (Call.token c) = some a ∧
        about a y.events = about a x.events ∧
        ((∃ i clone, before = some (.cloned i clone) ∧
            after = some (.forwarding i) ∧ l = ⟨i, clone, .deciding⟩) ∨
          ∃ i request, before = some (.requesting i request) ∧
            after = some .invoking ∧
            l = ⟨i, internalObject c request, .deciding⟩))) := by
  have hinsert : ∀ a' l', (x.lower.insert a' l').lookup a = some l →
      (x.lower.insert a' l').lookup a ≠ x.lower.lookup a → a = a' ∧ l' = l := by
    intro a' l' hlookup hchanged
    have ha : a = a' := by
      by_contra hother
      exact hchanged (AList.lookup_insert_ne hother)
    subst ha
    exact ⟨rfl, Option.some.inj
      ((AList.lookup_insert x.lower).symm.trans hlookup)⟩
  have herase : ∀ a', (x.lower.erase a').lookup a = some l →
      (x.lower.erase a').lookup a ≠ x.lower.lookup a → False := by
    intro a' hlookup hchanged
    by_cases ha : a = a'
    · subst ha
      rw [AList.lookup_erase] at hlookup
      cases hlookup
    · exact hchanged (AList.lookup_erase_ne ha)
  cases hact with
  | @answered a' l₀ status results hl₀ hphase =>
    obtain ⟨rfl, rfl⟩ := hinsert _ _ hl hne
    exact ⟨rfl, rfl, Or.inl ⟨l₀, rfl, hl₀, hphase,
      Or.inr ⟨status, results, rfl, about_record_self _ rfl⟩⟩⟩
  | @pended a' l₀ hl₀ hphase =>
    obtain ⟨rfl, rfl⟩ := hinsert _ _ hl hne
    exact ⟨rfl, rfl, Or.inl ⟨l₀, rfl, hl₀, hphase, Or.inl ⟨rfl, rfl⟩⟩⟩
  | completed | returnedStatus | invokedStatus => exact absurd hne (herase _ hl)
  | @sentDown i clone =>
    obtain ⟨rfl, rfl⟩ := hinsert _ _ hl hne
    exact ⟨rfl, rfl, Or.inr ⟨rfl, rfl, Or.inl ⟨i, clone, rfl, rfl, rfl⟩⟩⟩
  | @sent i request rundown =>
    obtain ⟨rfl, rfl⟩ := hinsert _ _ hl hne
    exact ⟨rfl, rfl, Or.inr ⟨rfl, rfl, Or.inr ⟨i, request, rfl, rfl, rfl⟩⟩⟩
  | _ => exact absurd rfl hne

theorem Action.same_of_untouched (hact : Action x c before y after)
    (hcall : ∀ call ∈ before, call.Linked) {a : ℕ}
    (hnew : before = none → a ≠ c)
    (htoken : before.bind (Call.token c) ≠ some a)
    (hlower : (x.lower.lookup a).isSome →
      y.lower.lookup a = x.lower.lookup a) : Same x y a := by
  rcases hact.same hcall with hall | ⟨t, ht, hother⟩
  · exact hall a
  · refine hother a ?_
    rintro rfl
    rcases ht with ⟨hnone, hc⟩ | ht | ⟨hsome, hne⟩
    · exact hnew hnone hc
    · exact htoken ht
    · exact hne (hlower hsome)

end Step

end WinNetTest.Fnlwf.Oid
