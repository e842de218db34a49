import WinNetTest.Fnlwf.OidActions

/-!
# Forwarding of OID requests

In every interleaving, with any decisions of the lower layer, a request from
above goes through one course: it arrives, the lower layer is done with its
clone, the clone is freed, the request is completed upward on the interface it
came in on, with the lower layer's status and results.  An internal request is
never completed upward.
-/

namespace WinNetTest.Fnlwf.Oid

open Support Fnmp

/-! ## Courses -/

/-- A request from above after the results of its clone have been copied to it:
the result fields of its type are those of the clone, and nothing else has
changed. -/
structure Returned (upper : UpperRequest) (clone : NdisOidRequest)
    (upper' : UpperRequest) : Prop where
  fields : resultFields upper'.request = resultFields clone
  rest : ∃ results,
    upper' = { upper with request := withResults upper.request results }

inductive Course (a : ℕ) : List Event → Prop
  | none : Course a []
  | refused (i : OidRequestInterface) (status : NdisStatus) :
      Course a [.refused a i status]
  | received (i : OidRequestInterface) (upper : UpperRequest) :
      Course a [.received a i upper]
  | returned (i : OidRequestInterface) (upper : UpperRequest)
      (status : NdisStatus) (results : Results) :
      Course a
        [.lowerDone a i status (withResults upper.request results),
          .received a i upper]
  | freed (i : OidRequestInterface) (upper : UpperRequest)
      (status : NdisStatus) (results : Results) :
      Course a
        [.freed a, .lowerDone a i status (withResults upper.request results),
          .received a i upper]
  | completedUp (i : OidRequestInterface) (upper upper' : UpperRequest)
      (status : NdisStatus) (results : Results)
      (hupper : Returned upper (withResults upper.request results) upper') :
      Course a
        [.completedUp a i status upper', .freed a,
          .lowerDone a i status (withResults upper.request results),
          .received a i upper]
  | submitted (i : OidRequestInterface) : Course a [.submitted a i]
  | internalReturned (i : OidRequestInterface) (status : NdisStatus)
      (request : NdisOidRequest) :
      Course a [.lowerDone a i status request, .submitted a i]
  | signaled (i : OidRequestInterface) (status : NdisStatus)
      (request : NdisOidRequest) :
      Course a
        [.signaled a status, .lowerDone a i status request, .submitted a i]
  | answered (i : OidRequestInterface) (status : NdisStatus)
      (request : NdisOidRequest) :
      Course a
        [.answered a status, .lowerDone a i status request, .submitted a i]
  | removed (i : OidRequestInterface) : Course a [.removed a, .submitted a i]

theorem resultFields_copyResults (original : NdisOidRequest)
    (results : Results) :
    resultFields (copyResults original (withResults original results)) =
      resultFields (withResults original results) := by
  cases h : original.requestType <;>
    simp [resultFields, copyResults, withResults, h]

theorem returned_copied (upper : UpperRequest) (results : Results) :
    Returned upper (withResults upper.request results)
      (upper.copied (withResults upper.request results)) := by
  refine ⟨resultFields_copyResults upper.request results, ?_⟩
  cases h : upper.request.requestType with
  | method =>
    exact ⟨results, by
      simp [UpperRequest.copied, copyResults, withResults, h]⟩
  | setInformation =>
    exact ⟨⟨upper.request.outputBufferLength, results.bytesRead,
      upper.request.bytesWritten, results.bytesNeeded⟩,
      by simp [UpperRequest.copied, copyResults, withResults, h]⟩
  | _ =>
    exact ⟨⟨upper.request.outputBufferLength, upper.request.bytesRead,
      results.bytesWritten, results.bytesNeeded⟩,
      by simp [UpperRequest.copied, copyResults, withResults, h]⟩

/-! ## The invariant -/

def StartedClone (x : Shared) (a : ℕ) (i : OidRequestInterface)
    (object : OidObject) : Prop :=
  ∃ upper, object = cloneOf a upper ∧ about a x.events = [.received a i upper] ∧
    x.originals.lookup a = some upper

def StartedInternal (x : Shared) (a : ℕ) (i : OidRequestInterface)
    (object : OidObject) : Prop :=
  ∃ request, object = internalObject a request ∧
    about a x.events = [.submitted a i] ∧ (x.internals.lookup a).isSome

def DoneClone (x : Shared) (a : ℕ) (i : OidRequestInterface)
    (object : OidObject) (status : NdisStatus) : Prop :=
  ∃ upper results, object = (cloneOf a upper).done results ∧ about a x.events =
      [.lowerDone a i status object.request, .received a i upper] ∧
    x.originals.lookup a = some upper

def DoneInternal (x : Shared) (a : ℕ) (i : OidRequestInterface)
    (object : OidObject) (status : NdisStatus) : Prop :=
  ∃ request results, object = (internalObject a request).done results ∧
    about a x.events = [.lowerDone a i status object.request, .submitted a i] ∧
    (x.internals.lookup a).isSome

def Started (x : Shared) (a : ℕ) (i : OidRequestInterface)
    (object : OidObject) : Prop :=
  StartedClone x a i object ∨ StartedInternal x a i object

def Done (x : Shared) (a : ℕ) (i : OidRequestInterface) (object : OidObject)
    (status : NdisStatus) : Prop :=
  DoneClone x a i object status ∨ DoneInternal x a i object status

def LowerRequest.Sound (x : Shared) (a : ℕ) (l : LowerRequest) : Prop :=
  match l.phase with
  | .answered status => Done x a l.interface l.object status
  | _ => Started x a l.interface l.object

/-- An original whose clone has come back and whose results have been copied,
before and after the clone is freed. -/
def Copied (x : Shared) (a : ℕ) (i : OidRequestInterface) (status : NdisStatus)
    (later : List Event) : Prop :=
  ∃ upper results, about a x.events = later ++
      [.lowerDone a i status (withResults upper.request results),
        .received a i upper] ∧
    x.originals.lookup a =
      some (upper.copied (withResults upper.request results))

def Call.Sound (x : Shared) (c : ℕ) : Call → Prop
  | .cloned i clone => StartedClone x c i clone
  | .forwarding i => ∀ l, x.lower.lookup c = some l →
      l.interface = i ∧ l.object.originalRequest.isSome
  | .returning => True
  | .completing i object status _ => Done x object.address i object status
  | .freeing i clone original status _ =>
    original = clone.address ∧ Copied x original i status []
  | .completingUp i original status _ =>
    Copied x original i status [.freed original]
  | .requesting i request => StartedInternal x c i (internalObject c request)
  | .invoking => (x.internals.lookup c).isSome ∧
      ∀ l, x.lower.lookup c = some l → l.object.originalRequest = none
  | .releasing status => (x.internals.lookup c).isSome ∧
      (status ≠ .pending → c ∈ settled x.events)
  | .waiting => (x.internals.lookup c).isSome
  | .finishing _ => (x.internals.lookup c).isSome ∧ c ∈ settled x.events

/-- A call inside `InvokeNdisFOidRequest`. -/
def Call.Invokes (call : Call) : Prop :=
  (∃ i, call = .forwarding i) ∨ call = .invoking

structure Sound (s : Pool Shared Call) : Prop where
  lt : ∀ event ∈ s.shared.events, ∀ a ∈ event.subject, a < s.nextCall
  nodup : (born s.shared.events).Nodup
  placed : (born s.shared.events : Multiset ℕ) =
    s.calls.total (fun c call => single (call.token c)) + s.shared.others
  lower : ∀ a l, s.shared.lower.lookup a = some l → l.Sound s.shared a
  invoked : ∀ a l, s.shared.lower.lookup a = some l → l.phase ≠ .pended →
    ∃ call, s.calls.lookup a = some call ∧ call.Invokes
  calls : ∀ c call, s.calls.lookup c = some call → call.Sound s.shared c
  settled : ∀ a ∈ settled s.shared.events, Course a (about a s.shared.events)
  signaled : ∀ a internal, s.shared.internals.lookup a = some internal →
    internal.completionEvent = true → a ∈ Oid.settled s.shared.events
  others : ∀ a, a ∉ born s.shared.events → about a s.shared.events = [] ∨
    ∃ i status, about a s.shared.events = [.refused a i status]

section Agree

variable {x y : Shared} {a : ℕ} {i : OidRequestInterface} {object : OidObject}
  {status : NdisStatus}

theorem StartedClone.agree (h : StartedClone x a i object)
    (hagree : Agree x y a) : StartedClone y a i object := by
  obtain ⟨upper, hobject, habout, horiginal⟩ := h
  exact ⟨upper, hobject, hagree.about.trans habout,
    hagree.originals.trans horiginal⟩

theorem StartedInternal.agree (h : StartedInternal x a i object)
    (hagree : Agree x y a)
    (hkept : (x.internals.lookup a).isSome → (y.internals.lookup a).isSome) :
    StartedInternal y a i object := by
  obtain ⟨request, hobject, habout, hinternal⟩ := h
  exact ⟨request, hobject, hagree.about.trans habout, hkept hinternal⟩

theorem Done.agree (h : Done x a i object status) (hagree : Agree x y a)
    (hkept : (x.internals.lookup a).isSome → (y.internals.lookup a).isSome) :
    Done y a i object status := by
  rcases h with ⟨upper, results, hobject, habout, horiginal⟩ |
    ⟨request, results, hobject, habout, hinternal⟩
  · exact Or.inl ⟨upper, results, hobject, hagree.about.trans habout,
      hagree.originals.trans horiginal⟩
  · exact Or.inr ⟨request, results, hobject, hagree.about.trans habout,
      hkept hinternal⟩

theorem Copied.agree {later : List Event} (h : Copied x a i status later)
    (hagree : Agree x y a) : Copied y a i status later := by
  obtain ⟨upper, results, habout, horiginal⟩ := h
  exact ⟨upper, results, hagree.about.trans habout,
    hagree.originals.trans horiginal⟩

variable {l : LowerRequest}

theorem LowerRequest.Sound.agree (h : l.Sound x a) (hagree : Agree x y a)
    (hkept : (x.internals.lookup a).isSome → (y.internals.lookup a).isSome) :
    l.Sound y a := by
  unfold LowerRequest.Sound at h ⊢
  split at h
  · exact h.agree hagree hkept
  · rcases h with h | h
    · exact Or.inl (h.agree hagree)
    · exact Or.inr (h.agree hagree hkept)

theorem Started.done (h : Started x a i object) (results : Results)
    (habout : about a y.events =
      .lowerDone a i status (object.done results).request :: about a x.events)
    (horiginals : y.originals.lookup a = x.originals.lookup a)
    (hkept : (x.internals.lookup a).isSome → (y.internals.lookup a).isSome) :
    Done y a i (object.done results) status := by
  rcases h with ⟨upper, rfl, hx, horiginal⟩ | ⟨request, rfl, hx, hinternal⟩
  · exact Or.inl ⟨upper, results, rfl, habout.trans (by rw [hx]),
      horiginals.trans horiginal⟩
  · exact Or.inr ⟨request, results, rfl, habout.trans (by rw [hx]),
      hkept hinternal⟩

theorem LowerRequest.Sound.started (h : l.Sound x a)
    (hphase : ∀ status, l.phase ≠ .answered status) :
    Started x a l.interface l.object := by
  unfold LowerRequest.Sound at h
  split at h
  · rename_i status hanswered
    exact absurd hanswered (hphase status)
  · exact h

theorem LowerRequest.Sound.done (h : l.Sound x a)
    (hphase : l.phase = .answered status) :
    Done x a l.interface l.object status := by
  unfold LowerRequest.Sound at h
  rw [hphase] at h
  exact h

theorem Started.address (h : Started x a i object) : object.address = a := by
  rcases h with ⟨_, rfl, -⟩ | ⟨request, rfl, -⟩ <;> rfl

theorem Done.address (h : Done x a i object status) : object.address = a := by
  rcases h with ⟨_, results, rfl, -⟩ | ⟨request, results, rfl, -⟩ <;> rfl

theorem LowerRequest.Sound.address (h : l.Sound x a) :
    l.object.address = a := by
  unfold LowerRequest.Sound at h
  split at h
  · exact h.address
  · exact h.address

theorem Call.Sound.linked {c : ℕ} {call : Call} (h : call.Sound x c) :
    call.Linked := by
  cases call with
  | completing i object status sync =>
    intro original horiginal
    rcases h with ⟨_, results, hobject, -⟩ |
      ⟨request, results, hobject, -⟩
    · rw [hobject] at horiginal
      exact (Option.some.inj horiginal).symm
    · rw [hobject] at horiginal
      cases horiginal
  | freeing i clone original status sync => exact h.1
  | _ => trivial

end Agree

/-! ## Requests of others -/

variable {a : ℕ}

theorem mem_single {token : Option ℕ} : a ∈ single token ↔ token = some a := by
  cases token with
  | none => simp [single]
  | some b => simp [single, eq_comm]

namespace Sound

variable {s : Pool Shared Call} (hs : Sound s)

include hs

theorem nodup_placed : (s.calls.total (fun c call => single (call.token c)) +
      s.shared.others).Nodup := by
  rw [← hs.placed]
  exact Multiset.coe_nodup.mpr hs.nodup

theorem lt_of_born (ha : a ∈ born s.shared.events) : a < s.nextCall := by
  obtain ⟨event, hevent, hborn⟩ := List.mem_filterMap.mp ha
  refine hs.lt event hevent a ?_
  cases event <;> simp_all [Event.born, Event.subject]

theorem born_of_placed
    (ha : a ∈ s.calls.total (fun c call => single (call.token c)) +
      s.shared.others) : a ∈ born s.shared.events := by
  rw [← hs.placed] at ha
  exact ha

variable {call : Call}

theorem born_of_token {c a : ℕ} (hcall : s.calls.lookup c = some call)
    (ha : call.token c = some a) : a ∈ born s.shared.events :=
  hs.born_of_placed (Multiset.mem_add.mpr (Or.inl
    (Table.mem_total.mpr ⟨c, call, hcall, mem_single.mpr ha⟩)))

theorem born_of_lower (ha : (s.shared.lower.lookup a).isSome) :
    a ∈ born s.shared.events :=
  hs.born_of_placed (Multiset.mem_add.mpr (Or.inr
    (Multiset.mem_add.mpr (Or.inl (mem_below.mpr ha)))))

theorem born_of_settled (ha : a ∈ Oid.settled s.shared.events) :
    a ∈ born s.shared.events :=
  hs.born_of_placed (Multiset.mem_add.mpr (Or.inr
    (Multiset.mem_add.mpr (Or.inr (Multiset.mem_coe.mpr ha)))))

theorem lower_of_token {c a : ℕ} (hcall : s.calls.lookup c = some call)
    (ha : call.token c = some a) : s.shared.lower.lookup a = none := by
  have hdisjoint := (Multiset.nodup_add.mp hs.nodup_placed).2.2
  by_contra hne
  refine Multiset.disjoint_left.mp hdisjoint
    (Table.mem_total.mpr ⟨c, call, hcall, mem_single.mpr ha⟩)
    (Multiset.mem_add.mpr (Or.inl (mem_below.mpr ?_)))
  exact Option.isSome_iff_ne_none.mpr hne

theorem not_settled_of_token {c a : ℕ} (hcall : s.calls.lookup c = some call)
    (ha : call.token c = some a) : a ∉ Oid.settled s.shared.events := by
  have hdisjoint := (Multiset.nodup_add.mp hs.nodup_placed).2.2
  intro hsettled
  exact Multiset.disjoint_left.mp hdisjoint
    (Table.mem_total.mpr ⟨c, call, hcall, mem_single.mpr ha⟩)
    (Multiset.mem_add.mpr (Or.inr (Multiset.mem_coe.mpr hsettled)))

theorem not_settled_of_lower (ha : (s.shared.lower.lookup a).isSome) :
    a ∉ Oid.settled s.shared.events := by
  have hothers := (Multiset.nodup_add.mp hs.nodup_placed).2.1
  intro hsettled
  exact Multiset.disjoint_left.mp (Multiset.nodup_add.mp hothers).2.2
    (mem_below.mpr ha) (Multiset.mem_coe.mpr hsettled)

theorem token_ne {c c' a a' : ℕ} {call' : Call} (hc : c' ≠ c)
    (hcall : s.calls.lookup c = some call)
    (hcall' : s.calls.lookup c' = some call') (ha : call.token c = some a)
    (ha' : call'.token c' = some a') : a' ≠ a := by
  have htotal := (Multiset.nodup_add.mp hs.nodup_placed).1
  have hrest : (s.calls.erase c).lookup c' = some call' := by
    rw [AList.lookup_erase_ne hc]
    exact hcall'
  rw [Table.total_eq_of_lookup _ hcall] at htotal
  rintro rfl
  exact Multiset.disjoint_left.mp (Multiset.nodup_add.mp htotal).2.2
    (mem_single.mpr ha) (Table.mem_total.mpr ⟨c', call', hrest, mem_single.mpr ha'⟩)

theorem linked {c : ℕ} {before : Option Call}
    (hbefore : s.calls.lookup c = before) : ∀ call ∈ before, call.Linked :=
  fun call hcall => (hs.calls c call (hbefore.trans hcall)).linked

theorem about_nextCall : about s.nextCall s.shared.events = [] := by
  refine List.filter_eq_nil_iff.mpr fun event hevent => ?_
  simp only [decide_eq_true_eq]
  intro hsubject
  exact Nat.lt_irrefl _ (hs.lt event hevent _ hsubject)

end Sound

/-! ## A turn keeps the invariant -/

theorem invocationResult_ne {x : Shared} {c : ℕ} {l : LowerRequest}
    (hl : x.lower.lookup c = some l) (hphase : l.phase ≠ .pended) :
    invocationResult x c ≠ some none := by
  simp only [invocationResult, hl]
  cases h : l.phase with
  | deciding | answered => simp
  | pended => exact absurd h hphase

section Turn

variable {s : Pool Shared Call} {c n : ℕ} {before after : Option Call}
  {y : Shared} (hs : Sound s) (hbefore : s.calls.lookup c = before)
  (hturn : program.Turn s c before n y after)

include hs hbefore hturn

theorem same_of_settled (ha : a ∈ settled s.shared.events) :
    Same s.shared y a := by
  refine (Action.of_turn hturn).same_of_untouched
    (hs.linked hbefore) ?_ ?_ ?_
  · rintro rfl
    obtain ⟨rfl, -⟩ := hturn.of_none
    exact (hs.lt_of_born (hs.born_of_settled ha)).ne
  · intro htoken
    obtain ⟨_, hcall, htoken⟩ := Option.bind_eq_some_iff.mp htoken
    exact hs.not_settled_of_token (hbefore.trans hcall) htoken ha
  · intro hsome
    exact absurd ha (hs.not_settled_of_lower hsome)

theorem same_of_token {c' a : ℕ} {call : Call} (hc : c' ≠ c)
    (hcall : s.calls.lookup c' = some call) (ha : call.token c' = some a) :
    Same s.shared y a := by
  refine (Action.of_turn hturn).same_of_untouched
    (hs.linked hbefore) ?_ ?_ ?_
  · rintro rfl
    obtain ⟨rfl, -⟩ := hturn.of_none
    exact (hs.lt_of_born (hs.born_of_token hcall ha)).ne
  · intro htoken
    obtain ⟨own, hown, htoken⟩ := Option.bind_eq_some_iff.mp htoken
    exact hs.token_ne hc (hbefore.trans hown) hcall htoken ha rfl
  · intro hsome
    rw [hs.lower_of_token hcall ha] at hsome
    cases hsome

theorem same_of_lower (ha : (s.shared.lower.lookup a).isSome)
    (hkept : y.lower.lookup a = s.shared.lower.lookup a) :
    Same s.shared y a := by
  refine (Action.of_turn hturn).same_of_untouched
    (hs.linked hbefore) ?_ ?_ fun _ => hkept
  · rintro rfl
    obtain ⟨rfl, -⟩ := hturn.of_none
    exact (hs.lt_of_born (hs.born_of_lower ha)).ne
  · intro htoken
    obtain ⟨_, hcall, htoken⟩ := Option.bind_eq_some_iff.mp htoken
    rw [hs.lower_of_token (hbefore.trans hcall) htoken] at ha
    cases ha

theorem internal_kept (ha : a ∉ settled s.shared.events) :
    (s.shared.internals.lookup a).isSome → (y.internals.lookup a).isSome := by
  intro hsome
  refine (Action.of_turn hturn).internals hsome fun status hfinishing => ?_
  rintro rfl
  exact ha (hs.calls a _ (hbefore.trans hfinishing)).2

theorem lt_turn : ∀ event ∈ y.events, ∀ a ∈ event.subject, a < n := by
  intro event hevent a ha
  have hold : ∀ b, b < s.nextCall → b < n := fun b hb =>
    hb.trans_le hturn.nextCall_le
  have hsame : Same s.shared y a → a < n := by
    intro hsame
    have hmem : event ∈ about a y.events :=
      List.mem_filter.mpr ⟨hevent, by simpa using ha⟩
    rw [hsame.about] at hmem
    exact hold a (hs.lt event (List.mem_filter.mp hmem).1 a ha)
  rcases (Action.of_turn hturn).same (hs.linked hbefore) with
    hall | ⟨t, ht, hother⟩
  · exact hsame (hall a)
  · by_cases hat : a = t
    · subst hat
      rcases ht with ⟨-, rfl⟩ | htoken | ⟨hlower, -⟩
      · exact hturn.lt
      · obtain ⟨_, hcall, htoken⟩ := Option.bind_eq_some_iff.mp htoken
        exact hold a (hs.lt_of_born
          (hs.born_of_token (hbefore.trans hcall) htoken))
      · exact hold a (hs.lt_of_born (hs.born_of_lower hlower))
    · exact hsame (hother a hat)

theorem nodup_turn : (born y.events).Nodup := by
  rcases (Action.of_turn hturn).born with heq | ⟨rfl, heq⟩
  · rw [heq]
    exact hs.nodup
  · obtain ⟨rfl, -⟩ := hturn.of_none
    rw [heq, List.nodup_cons]
    exact ⟨fun hmem => Nat.lt_irrefl _ (hs.lt_of_born hmem), hs.nodup⟩

theorem placed_turn : (born y.events : Multiset ℕ) =
    (s.calls.put c after).total (fun c call => single (call.token c)) +
      y.others := by
  have hlower : s.shared.Linked := fun a l hl => (hs.lower a l hl).address
  have htokens := (Action.of_turn hturn).tokens
    (hs.linked hbefore) hlower (fun a ha => by
      obtain ⟨call, hcall, htoken⟩ := Option.bind_eq_some_iff.mp ha
      exact hs.lower_of_token (hbefore.trans hcall) htoken)
  have hput := s.calls.total_put (fun c call => single (call.token c)) c after
  have helim : ∀ o : Option Call, o.elim 0 (fun call => single (call.token c)) =
        single (o.bind (Call.token c)) := by
    intro o
    cases o <;> rfl
  rw [hbefore, helim, helim] at hput
  rw [hs.placed] at htokens
  refine add_right_cancel (htokens.trans ?_)
  calc
    s.calls.total (fun c call => single (call.token c)) + s.shared.others +
        (single (after.bind (Call.token c)) + y.others) =
        (s.calls.total (fun c call => single (call.token c)) +
          single (after.bind (Call.token c))) +
            (s.shared.others + y.others) := by abel
    _ = ((s.calls.put c after).total (fun c call => single (call.token c)) +
          single (before.bind (Call.token c))) +
            (s.shared.others + y.others) := by rw [hput]
    _ = _ := by abel

theorem lower_turn : ∀ a l, y.lower.lookup a = some l → l.Sound y a := by
  intro a l hl
  by_cases hkept : y.lower.lookup a = s.shared.lower.lookup a
  · have hold : s.shared.lower.lookup a = some l := hkept.symm.trans hl
    have hsome : (s.shared.lower.lookup a).isSome := by simp [hold]
    exact (hs.lower a l hold).agree
      (same_of_lower hs hbefore hturn hsome hkept).toAgree
      (internal_kept hs hbefore hturn (hs.not_settled_of_lower hsome))
  · obtain ⟨horiginals, hinternals, hnew⟩ :=
      (Action.of_turn hturn).lower_new hl hkept
    have hsame : about a y.events = about a s.shared.events →
        ∀ {i object}, Started s.shared a i object → Started y a i object := by
      rintro habout i object (⟨upper, hobject, hx, horiginal⟩ |
        ⟨request, hobject, hx, hinternal⟩)
      · exact Or.inl ⟨upper, hobject, habout.trans hx, horiginals ▸ horiginal⟩
      · exact Or.inr ⟨request, hobject, habout.trans hx, hinternals ▸ hinternal⟩
    rcases hnew with ⟨l₀, -, hl₀, hphase, hdecided⟩ | ⟨htoken, habout, hsent⟩
    · have hstarted := (hs.lower a l₀ hl₀).started (by simp [hphase])
      rcases hdecided with ⟨rfl, habout⟩ | ⟨status, results, rfl, habout⟩
      · exact hsame habout hstarted
      · exact hstarted.done results habout (by rw [horiginals])
          (by rw [hinternals]; exact id)
    · rcases hsent with ⟨i, clone, hcall, -, rfl⟩ | ⟨i, request, hcall, -, rfl⟩
      · have hclone : StartedClone s.shared c i clone :=
          hs.calls c _ (hbefore.trans hcall)
        obtain ⟨upper, rfl, -⟩ := id hclone
        rw [hcall] at htoken
        obtain rfl : c = a := Option.some.inj htoken
        exact hsame habout (Or.inl hclone)
      · have hinternal : StartedInternal s.shared c i
            (internalObject c request) := hs.calls c _ (hbefore.trans hcall)
        rw [hcall] at htoken
        obtain rfl : c = a := Option.some.inj htoken
        exact hsame habout (Or.inr hinternal)

theorem invoked_turn : ∀ a l, y.lower.lookup a = some l → l.phase ≠ .pended →
    ∃ call, (s.calls.put c after).lookup a = some call ∧ call.Invokes := by
  intro a l hl hphase
  by_cases hkept : y.lower.lookup a = s.shared.lower.lookup a
  · have hold : s.shared.lower.lookup a = some l := hkept.symm.trans hl
    obtain ⟨call, hcall, hinvokes⟩ := hs.invoked a l hold hphase
    by_cases hac : a = c
    · subst hac
      obtain rfl := hbefore.symm.trans hcall
      rcases hinvokes with ⟨i, rfl⟩ | rfl
      · cases Action.of_turn hturn with
        | returnedPending hresult =>
          exact absurd hresult (invocationResult_ne hold hphase)
        | returnedStatus hl' hphase' =>
          rw [AList.lookup_erase] at hl
          cases hl
      · cases Action.of_turn hturn with
        | invokedPending hresult =>
          exact absurd hresult (invocationResult_ne hold hphase)
        | invokedStatus hl' hphase' hinternal =>
          cases (AList.lookup_erase a s.shared.lower).symm.trans hl
    · exact ⟨call, by rw [Table.lookup_put, if_neg hac]; exact hcall, hinvokes⟩
  · obtain ⟨-, -, hnew⟩ := (Action.of_turn hturn).lower_new hl hkept
    rcases hnew with ⟨l₀, rfl, hl₀, hdeciding, -⟩ | ⟨htoken, -, hsent⟩
    · obtain ⟨call, hcall, hinvokes⟩ := hs.invoked a l₀ hl₀ (by simp [hdeciding])
      have hac : a ≠ c := by
        rintro rfl
        exact absurd (hbefore.symm.trans hcall) nofun
      exact ⟨call, by rw [Table.lookup_put, if_neg hac]; exact hcall, hinvokes⟩
    · rcases hsent with ⟨i, clone, hcall, rfl, -⟩ | ⟨i, request, hcall, rfl, -⟩
      · obtain ⟨upper, rfl, -⟩ : StartedClone s.shared c i clone :=
          hs.calls c _ (hbefore.trans hcall)
        rw [hcall] at htoken
        obtain rfl : c = a := Option.some.inj htoken
        exact ⟨.forwarding i, by rw [Table.lookup_put, if_pos rfl],
          Or.inl ⟨i, rfl⟩⟩
      · rw [hcall] at htoken
        obtain rfl : c = a := Option.some.inj htoken
        exact ⟨.invoking, by rw [Table.lookup_put, if_pos rfl], Or.inr rfl⟩

theorem after_turn : ∀ call ∈ after, call.Sound y c := by
  intro call hafter
  have hact := Action.of_turn hturn
  have hown : ∀ call, before = some call → call.Sound s.shared c :=
    fun call hcall => hs.calls c call (hbefore.trans hcall)
  cases hact with
  | received =>
    cases hafter
    obtain ⟨rfl, -⟩ := hturn.of_none
    refine ⟨_, rfl, ?_, AList.lookup_insert _⟩
    rw [about_record_self _ rfl]
    exact congrArg _ hs.about_nextCall
  | submitted hevent =>
    cases hafter
    obtain ⟨rfl, -⟩ := hturn.of_none
    refine ⟨_, rfl, ?_, ?_⟩
    · rw [about_record_self _ rfl]
      exact congrArg _ hs.about_nextCall
    · exact Option.isSome_iff_exists.mpr ⟨_, AList.lookup_insert _⟩
  | @completed a l status results hl hphase =>
    cases hafter
    have hsound := hs.lower a l hl
    have haddress : (l.object.done results).address = a := hsound.address
    have hdone : Done _ a l.interface (l.object.done results) status :=
      (hsound.started (by simp [hphase])).done results
        (about_record_self _ rfl) rfl id
    exact haddress ▸ hdone
  | @sentDown i clone =>
    cases hafter
    obtain ⟨upper, rfl, -⟩ : StartedClone s.shared c i clone := hown _ rfl
    intro l hl
    cases (AList.lookup_insert s.shared.lower).symm.trans hl
    exact ⟨rfl, rfl⟩
  | returnedPending hresult =>
    cases hafter
    trivial
  | @returnedStatus i l status hl hphase =>
    cases hafter
    have hsound := hs.lower c l hl
    have hforwarding : Call.Sound s.shared c (.forwarding i) := hown _ rfl
    obtain ⟨rfl, -⟩ := hforwarding l hl
    have hdone : Done _ c l.interface l.object status :=
      (hsound.done hphase).agree ⟨rfl, rfl⟩ id
    exact (hsound.address ▸ hdone : Done _ l.object.address _ _ _)
  | @signaled i object status sync | @completedUp i original status sync =>
    cases sync <;> cases hafter
    trivial
  | @copied i object original status sync upper horiginal hupper =>
    cases hafter
    obtain rfl := hs.linked hbefore _ rfl original horiginal
    have hdone : Done s.shared object.address i object status := hown _ rfl
    rcases hdone with ⟨upper', results, hobject, habout, hupper'⟩ |
      ⟨request, results, hobject, -⟩
    · obtain rfl : upper' = upper :=
        Option.some.inj (hupper'.symm.trans hupper)
      have hrequest : object.request =
          withResults upper'.request results := by rw [hobject]; rfl
      rw [hrequest] at habout
      refine ⟨rfl, upper', results, habout, ?_⟩
      rw [← hrequest]
      exact AList.lookup_insert _
    · rw [hobject] at horiginal
      cases horiginal
  | @freed i clone original status sync =>
    cases hafter
    have hfreeing : Call.Sound s.shared c
      (.freeing i clone original status sync) := hown _ rfl
    obtain ⟨rfl, upper, results, habout, horiginal⟩ := hfreeing
    exact ⟨upper, results,
      (about_record_self _ rfl).trans (by rw [habout]; rfl), horiginal⟩
  | @removed i request =>
    cases hafter
    obtain ⟨-, -, -, hinternal⟩ : StartedInternal s.shared c i _ := hown _ rfl
    exact ⟨hinternal, List.mem_cons_self⟩
  | @sent i request rundown =>
    cases hafter
    obtain ⟨-, -, -, hinternal⟩ : StartedInternal s.shared c i _ := hown _ rfl
    refine ⟨hinternal, fun l hl => ?_⟩
    cases (AList.lookup_insert s.shared.lower).symm.trans hl
    rfl
  | invokedPending hresult =>
    cases hafter
    exact ⟨(hown .invoking rfl).1, fun hne => absurd rfl hne⟩
  | invokedStatus hl hphase hinternal =>
    cases hafter
    exact ⟨Option.isSome_iff_exists.mpr ⟨_, AList.lookup_insert _⟩,
      fun _ => List.mem_cons_self⟩
  | @released status =>
    have hreleasing : Call.Sound s.shared c (.releasing status) := hown _ rfl
    by_cases hpending : status = .pending
    · rw [if_pos hpending] at hafter
      cases hafter
      exact hreleasing.1
    · rw [if_neg hpending] at hafter
      cases hafter
      exact ⟨hreleasing.1, hreleasing.2 hpending⟩
  | @waited internal hinternal hevent =>
    cases hafter
    exact ⟨by simp [hinternal], hs.signaled c internal hinternal hevent⟩
  | _ => cases hafter

theorem other_turn {c' : ℕ} {call : Call} (hc : c' ≠ c)
    (hcall : s.calls.lookup c' = some call) : call.Sound y c' := by
  have hsound := hs.calls c' call hcall
  have hact := Action.of_turn hturn
  have hagree : ∀ {a}, call.token c' = some a → Agree s.shared y a :=
    fun ha => (same_of_token hs hbefore hturn hc hcall ha).toAgree
  have hkept : ∀ {a}, call.token c' = some a →
      (s.shared.internals.lookup a).isSome →
      (y.internals.lookup a).isSome := fun ha =>
    internal_kept hs hbefore hturn (hs.not_settled_of_token hcall ha)
  have hinternal : (s.shared.internals.lookup c').isSome →
      (y.internals.lookup c').isSome := fun hsome =>
    hact.internals hsome fun _ _ => hc
  have hlower : ∀ l, y.lower.lookup c' = some l →
      ∃ l₀, s.shared.lower.lookup c' = some l₀ ∧ l.interface = l₀.interface ∧
        l.object.originalRequest = l₀.object.originalRequest := by
    intro l hl
    by_cases hsame : y.lower.lookup c' = s.shared.lower.lookup c'
    · exact ⟨l, hsame.symm.trans hl, rfl, rfl⟩
    · obtain ⟨-, -, hnew⟩ := hact.lower_new hl hsame
      rcases hnew with ⟨l₀, -, hl₀, -, hdecided⟩ | ⟨htoken, -, hsent⟩
      · rcases hdecided with ⟨rfl, -⟩ | ⟨status, results, rfl, -⟩
        · exact ⟨l₀, hl₀, rfl, rfl⟩
        · exact ⟨l₀, hl₀, rfl, rfl⟩
      · rcases hsent with ⟨i, clone, hown, -⟩ | ⟨i, request, hown, -⟩
        · obtain ⟨upper, rfl, -⟩ : StartedClone s.shared c i clone :=
            hs.calls c _ (hbefore.trans hown)
          rw [hown] at htoken
          exact absurd (Option.some.inj htoken).symm hc
        · rw [hown] at htoken
          exact absurd (Option.some.inj htoken).symm hc
  cases call with
  | cloned i clone =>
    obtain ⟨upper, rfl, -⟩ := id hsound
    exact StartedClone.agree hsound (hagree rfl)
  | forwarding i =>
    intro l hl
    obtain ⟨l₀, hl₀, hinterface, horiginal⟩ := hlower l hl
    rw [hinterface, horiginal]
    exact hsound l₀ hl₀
  | returning => trivial
  | completing i object status sync =>
    exact Done.agree hsound (hagree rfl) (hkept rfl)
  | freeing i clone original status sync =>
    obtain ⟨rfl, hcopied⟩ := hsound
    exact ⟨rfl, hcopied.agree (hagree rfl)⟩
  | completingUp i original status sync =>
    exact Copied.agree hsound (hagree rfl)
  | requesting i request =>
    exact StartedInternal.agree hsound (hagree rfl) (hkept rfl)
  | invoking =>
    refine ⟨hinternal hsound.1, fun l hl => ?_⟩
    obtain ⟨l₀, hl₀, -, horiginal⟩ := hlower l hl
    rw [horiginal]
    exact hsound.2 l₀ hl₀
  | releasing status =>
    exact ⟨hinternal hsound.1, fun hne => hact.settled (hsound.2 hne)⟩
  | waiting => exact hinternal hsound
  | finishing status => exact ⟨hinternal hsound.1, hact.settled hsound.2⟩

theorem settled_turn : ∀ a ∈ settled y.events, Course a (about a y.events) := by
  intro a ha
  by_cases hold : a ∈ settled s.shared.events
  · rw [(same_of_settled hs hbefore hturn hold).about]
    exact hs.settled a hold
  · have hown : ∀ call, before = some call → call.Sound s.shared c :=
      fun call hcall => hs.calls c call (hbefore.trans hcall)
    cases Action.of_turn hturn with
    | @signaled i object status sync internal horiginal hinternal =>
      obtain rfl := (List.mem_cons.mp ha).resolve_right hold
      have hdone : Done s.shared object.address i object status :=
        hown _ rfl
      rw [about_record_self _ rfl]
      rcases hdone with ⟨upper, results, hobject, -⟩ |
        ⟨request, results, hobject, habout, -⟩
      · rw [hobject] at horiginal
        cases horiginal
      · exact habout ▸ Course.signaled i status object.request
    | @completedUp i original status sync upper hupper =>
      obtain rfl := (List.mem_cons.mp ha).resolve_right hold
      obtain ⟨upper', results, habout, horiginal⟩ :
        Copied s.shared a i status [.freed a] := hown _ rfl
      obtain rfl := Option.some.inj (hupper.symm.trans horiginal)
      rw [about_record_self _ rfl]
      exact habout ▸ Course.completedUp i upper' _ status results
        (returned_copied upper' results)
    | @removed i request =>
      obtain rfl := (List.mem_cons.mp ha).resolve_right hold
      obtain ⟨-, -, habout, -⟩ : StartedInternal s.shared a i _ :=
        hown _ rfl
      rw [about_record_self _ rfl]
      exact habout ▸ Course.removed i
    | @invokedStatus l status internal hl hphase hinternal =>
      obtain rfl := (List.mem_cons.mp ha).resolve_right hold
      have hinvoking : Call.Sound s.shared a .invoking := hown _ rfl
      rw [about_record_self _ rfl]
      rcases (hs.lower a l hl).done hphase with
        ⟨upper, results, hobject, -⟩ | ⟨request, results, hobject, habout, -⟩
      · have hnone := hinvoking.2 l hl
        rw [hobject] at hnone
        cases hnone
      · exact habout ▸ Course.answered l.interface status l.object.request
    | _ => exact absurd ha hold

theorem signaled_turn : ∀ a internal,
    y.internals.lookup a = some internal → internal.completionEvent = true →
    a ∈ settled y.events := by
  intro a internal hinternal hevent
  have hact := Action.of_turn hturn
  have hold : s.shared.internals.lookup a = some internal →
      a ∈ settled y.events := fun hold =>
    hact.settled (hs.signaled a internal hold hevent)
  cases hact with
  | @submitted i request fresh hunset =>
    by_cases hac : a = c
    · subst hac
      cases (AList.lookup_insert s.shared.internals).symm.trans hinternal
      rw [hunset] at hevent
      cases hevent
    · exact hold ((AList.lookup_insert_ne hac).symm.trans hinternal)
  | @signaled i object status sync previous horiginal hprevious =>
    by_cases ha : a = object.address
    · subst ha
      exact List.mem_cons_self
    · exact hold ((AList.lookup_insert_ne ha).symm.trans hinternal)
  | @invokedStatus l status previous hl hphase hprevious =>
    by_cases hac : a = c
    · subst hac
      exact List.mem_cons_self
    · exact hold ((AList.lookup_insert_ne hac).symm.trans hinternal)
  | finished hprevious =>
    by_cases hac : a = c
    · subst hac
      cases (AList.lookup_erase a s.shared.internals).symm.trans hinternal
    · exact hold ((AList.lookup_erase_ne hac).symm.trans hinternal)
  | _ => exact hold hinternal

theorem others_turn : ∀ a, a ∉ born y.events → about a y.events = [] ∨
    ∃ i status, about a y.events = [.refused a i status] := by
  intro a ha
  have hact := Action.of_turn hturn
  have hborn : a ∉ born s.shared.events := by
    rcases hact.born with heq | ⟨-, heq⟩
    · rwa [heq] at ha
    · rw [heq] at ha
      exact fun hmem => ha (List.mem_cons_of_mem _ hmem)
  by_cases hnew : before = none ∧ a = c
  · obtain ⟨rfl, rfl⟩ := hnew
    obtain ⟨rfl, -⟩ := hturn.of_none
    have hnone := hs.about_nextCall
    cases hact with
    | received | submitted => exact absurd List.mem_cons_self ha
    | @refused i status =>
      exact Or.inr ⟨i, status, (about_record_self _ rfl).trans
        (by rw [hnone])⟩
    | @answered a l status results hl | @completed a l status results hl =>
      have hne : a ≠ s.nextCall :=
        (hs.lt_of_born (hs.born_of_lower (by simp [hl]))).ne
      rw [about_record, if_neg (by simpa [Event.subject] using hne)]
      exact Or.inl hnone
    | _ => exact Or.inl hnone
  · have hsame : Same s.shared y a := by
      refine hact.same_of_untouched (hs.linked hbefore) ?_ ?_ ?_
      · exact fun hnone hac => hnew ⟨hnone, hac⟩
      · intro htoken
        obtain ⟨_, hcall, htoken⟩ := Option.bind_eq_some_iff.mp htoken
        exact hborn (hs.born_of_token (hbefore.trans hcall) htoken)
      · exact fun hsome => absurd (hs.born_of_lower hsome) hborn
    rw [hsame.about]
    exact hs.others a hborn

end Turn

theorem sound_of_reachable {s : Pool Shared Call} (hs : machine.Reachable s) :
    Sound s := by
  refine Program.invariant (P := program) (I := Sound) ?_ ?_ hs
  · refine ⟨?_, ?_, ?_, ?_, ?_, ?_, ?_, ?_, ?_⟩
    case refine_3 => rfl
    all_goals simp [program, Program.machine, born, settled, about]
  · intro s c before n y after _ ih hbefore hturn
    refine ⟨lt_turn ih hbefore hturn, nodup_turn ih hbefore hturn,
      placed_turn ih hbefore hturn, lower_turn ih hbefore hturn,
      invoked_turn ih hbefore hturn, ?_, settled_turn ih hbefore hturn,
      signaled_turn ih hbefore hturn, others_turn ih hbefore hturn⟩
    intro c' call hcall
    rw [Table.lookup_put] at hcall
    split at hcall
    · rename_i hc
      subst hc
      exact after_turn ih hbefore hturn call hcall
    · rename_i hc
      exact other_turn ih hbefore hturn hc hcall

end WinNetTest.Fnlwf.Oid
