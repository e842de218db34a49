import WinNetTest.Fnlwf.OidForwarding

/-!
# Completion of OID requests

The courses of the OID requests of FNLWF, read off the invariant: a request from
above whose clone was allocated is completed upward exactly once, after the clone
has been freed, as the lower layer has completed the clone.  When the lower layer
is done with a clone, one call is left to complete the request and can always do
so.
-/

namespace WinNetTest.Fnlwf.Oid

open Support Fnmp

/-! ## Courses -/

variable {i : OidRequestInterface} {a : ℕ} {s : Pool Shared Call} {x : Shared}

theorem Started.course {object : OidObject} (h : Started x a i object) :
    Course a (about a x.events) := by
  rcases h with ⟨upper, -, habout, -⟩ | ⟨request, -, habout, -⟩
  · exact habout ▸ Course.received i upper
  · exact habout ▸ Course.submitted i

variable {status : NdisStatus}

theorem Done.course {object : OidObject} (h : Done x a i object status) :
    Course a (about a x.events) := by
  rcases h with ⟨upper, results, rfl, habout, -⟩ |
    ⟨request, results, -, habout, -⟩
  · exact habout ▸ Course.returned i upper status results
  · exact habout ▸ Course.internalReturned i status object.request

theorem course_of_token {c : ℕ} {call : Call} (hcall : call.Sound x c)
    (ha : call.token c = some a) : Course a (about a x.events) := by
  cases call with
  | cloned i clone =>
    obtain ⟨upper, rfl, -⟩ := id hcall
    cases ha
    exact Started.course (Or.inl hcall)
  | completing i object status sync =>
    cases ha
    exact Done.course hcall
  | freeing i clone original status sync =>
    cases ha
    obtain ⟨rfl, upper, results, habout, -⟩ := hcall
    exact habout ▸ Course.returned i upper status results
  | completingUp i original status sync =>
    cases ha
    obtain ⟨upper, results, habout, -⟩ := hcall
    exact habout ▸ Course.freed i upper status results
  | requesting i request =>
    cases ha
    exact Started.course (Or.inr hcall)
  | _ => cases ha

theorem Sound.course (hs : Sound s) (a : ℕ) :
    Course a (about a s.shared.events) := by
  by_cases hborn : a ∈ born s.shared.events
  · have hplaced : a ∈ (born s.shared.events : Multiset ℕ) := hborn
    rw [hs.placed, Multiset.mem_add, Shared.others, Multiset.mem_add]
      at hplaced
    rcases hplaced with htoken | hlower | hsettled
    · obtain ⟨c, call, hcall, htoken⟩ := Table.mem_total.mp htoken
      exact course_of_token (hs.calls c call hcall) (mem_single.mp htoken)
    · obtain ⟨l, hl⟩ := Option.isSome_iff_exists.mp (mem_below.mp hlower)
      have hsound := hs.lower a l hl
      unfold LowerRequest.Sound at hsound
      split at hsound
      · exact hsound.course
      · exact hsound.course
    · exact hs.settled a hsettled
  · rcases hs.others a hborn with habout | ⟨i, status, habout⟩
    · exact habout ▸ Course.none
    · exact habout ▸ Course.refused i status

/-! ## Requests that have come back are completed -/

/-- The call with a number settles a request when it is executed often
enough; what has happened before stays recorded. -/
def SettledBy (c a : ℕ) (s : Pool Shared Call) : Prop :=
  ∃ k t, machine.run s (List.replicate k (.advance c)) = some t ∧
    machine.Reachable t ∧ (∀ event ∈ s.shared.events, event ∈ t.shared.events) ∧
    a ∈ settled t.shared.events

theorem SettledBy.of_settled (c : ℕ) (hs : machine.Reachable s)
    (ha : a ∈ settled s.shared.events) :
    SettledBy c a s :=
  ⟨0, s, rfl, hs, fun _ hevent => hevent, ha⟩

theorem SettledBy.advance {c : ℕ} {call : Call} {y : Shared}
    {after : Option Call} (hs : machine.Reachable s)
    (hcall : s.calls.lookup c = some call)
    (hadvance : advance s.shared c call = some (y, after))
    (hnext : machine.Reachable ⟨y, s.calls.put c after, s.nextCall⟩ →
      (s.calls.put c after).lookup c = after →
      SettledBy c a ⟨y, s.calls.put c after, s.nextCall⟩) :
    SettledBy c a s := by
  have hstep : machine.step s (.advance c) =
      some ⟨y, s.calls.put c after, s.nextCall⟩ :=
    Program.step_advance hcall hadvance
  have hlookup : (s.calls.put c after).lookup c = after := by
    rw [Table.lookup_put, if_pos rfl]
  obtain ⟨k, t, hrun, ht, hevents, ha⟩ :=
    hnext (hs.step trivial hstep) hlookup
  refine ⟨k + 1, t, ?_, ht, fun event hevent => ?_, ha⟩
  · simp only [List.replicate_succ, Machine.run, hstep]
    exact hrun
  · exact hevents event ((Action.of_advance hadvance).events event hevent)

section Settles

variable {s : Pool Shared Call} {c : ℕ} {status : NdisStatus} {sync : Bool}

section

variable (hs : machine.Reachable s)

include hs

theorem settledBy_completingUp {i : OidRequestInterface} {a : ℕ}
    (hcall : s.calls.lookup c = some (.completingUp i a status sync)) :
    SettledBy c a s := by
  obtain ⟨upper, results, -, horiginal⟩ :
    Copied s.shared a i status [.freed a] :=
      (sound_of_reachable hs).calls c _ hcall
  refine SettledBy.advance hs hcall (by rw [Oid.advance, horiginal]; rfl)
    fun ht _ => ?_
  exact SettledBy.of_settled c ht List.mem_cons_self

theorem settledBy_freeing {i : OidRequestInterface} {clone : OidObject} {a : ℕ}
    (hcall : s.calls.lookup c = some (.freeing i clone a status sync)) :
    SettledBy c a s :=
  SettledBy.advance hs hcall rfl fun ht hlookup =>
    settledBy_completingUp ht hlookup

theorem settledBy_completing {i : OidRequestInterface} {object : OidObject}
    (hcall : s.calls.lookup c = some (.completing i object status sync)) :
    SettledBy c object.address s := by
  have hdone : Done s.shared object.address i object status :=
    (sound_of_reachable hs).calls c _ hcall
  rcases hdone with ⟨_, results, hobject, -, hupper⟩ |
    ⟨request, results, hobject, -, hinternal⟩
  · have horiginal : object.originalRequest = some object.address := by
      rw [hobject]
      rfl
    refine SettledBy.advance hs hcall (by
      rw [Oid.advance, filterOidRequestCompleteCommon, horiginal]
      simp only [hupper, Option.map_some]
      rfl) fun ht hlookup => ?_
    exact settledBy_freeing ht hlookup
  · have horiginal : object.originalRequest = none := by
      rw [hobject]
      rfl
    obtain ⟨_, hinternal⟩ := Option.isSome_iff_exists.mp hinternal
    refine SettledBy.advance hs hcall (by
      rw [Oid.advance, filterOidRequestCompleteCommon, horiginal]
      simp only [hinternal, Option.map_some]
      rfl) fun ht _ => ?_
    exact SettledBy.of_settled c ht List.mem_cons_self

theorem settledBy_answered {l : LowerRequest}
    (hl : s.shared.lower.lookup c = some l)
    (hphase : l.phase = .answered status) : SettledBy c c s := by
  have hsound := sound_of_reachable hs
  have hresult :
      invocationResult s.shared c = some (some (l.object, status)) := by
    simp only [invocationResult, hl, hphase]
  obtain ⟨_, hcall, ⟨i, rfl⟩ | rfl⟩ := hsound.invoked c l hl (by simp [hphase])
  · have haddress := (hsound.lower c l hl).address
    refine SettledBy.advance hs hcall (by
      rw [Oid.advance, hresult]
      rfl) fun ht hlookup => ?_
    exact haddress ▸ settledBy_completing ht hlookup
  · obtain ⟨_, hinternal⟩ :=
      Option.isSome_iff_exists.mp (hsound.calls c _ hcall).1
    refine SettledBy.advance hs hcall (by
      rw [Oid.advance, hresult]
      simp only [Option.bind_some, hinternal, Option.map_some]
      rfl) fun ht _ => ?_
    exact SettledBy.of_settled c ht List.mem_cons_self

end

end Settles

variable {request : NdisOidRequest}

theorem exists_settledBy (hs : machine.Reachable s)
    (hdone : .lowerDone a i status request ∈ s.shared.events) :
    ∃ c, SettledBy c a s := by
  have hsound := sound_of_reachable hs
  have hmem : .lowerDone a i status request ∈ about a s.shared.events :=
    List.mem_filter.mpr ⟨hdone, by simp [Event.subject]⟩
  have hstarted : ∀ {i object}, ¬Started s.shared a i object := by
    rintro i object (⟨upper, -, habout, -⟩ | ⟨request, -, habout, -⟩) <;>
      simp [habout] at hmem
  by_cases hborn : a ∈ born s.shared.events
  · have hplaced : a ∈ (born s.shared.events : Multiset ℕ) := hborn
    rw [hsound.placed, Multiset.mem_add, Shared.others, Multiset.mem_add]
      at hplaced
    rcases hplaced with htoken | hlower | hsettled
    · obtain ⟨c, call, hcall, htoken⟩ := Table.mem_total.mp htoken
      have htoken := mem_single.mp htoken
      cases call with
      | cloned i clone =>
        have hclone := hsound.calls c _ hcall
        obtain ⟨upper, rfl, -⟩ := id hclone
        obtain rfl : c = a := Option.some.inj htoken
        exact absurd (Or.inl hclone) hstarted
      | completing i object status sync =>
        cases htoken
        exact ⟨c, settledBy_completing hs hcall⟩
      | freeing i clone original status sync =>
        cases htoken
        obtain ⟨rfl, -⟩ := hsound.calls c _ hcall
        exact ⟨c, settledBy_freeing hs hcall⟩
      | completingUp i original status sync =>
        cases htoken
        exact ⟨c, settledBy_completingUp hs hcall⟩
      | requesting i request =>
        obtain rfl : c = a := Option.some.inj htoken
        exact absurd (Or.inr (hsound.calls c _ hcall)) hstarted
      | _ => cases htoken
    · obtain ⟨l, hl⟩ := Option.isSome_iff_exists.mp (mem_below.mp hlower)
      cases hphase : l.phase with
      | answered status => exact ⟨a, settledBy_answered hs hl hphase⟩
      | _ =>
        exact absurd ((hsound.lower a l hl).started (by simp [hphase]))
          hstarted
    · exact ⟨0, SettledBy.of_settled 0 hs hsettled⟩
  · rcases hsound.others a hborn with habout | ⟨i, status, habout⟩ <;>
      simp [habout] at hmem

variable {i' : OidRequestInterface} {upper : UpperRequest}

theorem Course.exists_completedUp {events : List Event} (h : Course a events)
    (hreceived : .received a i' upper ∈ events)
    (hdone : .lowerDone a i status request ∈ events)
    (hsettled : ∃ event ∈ events, event.settled = some a) :
    ∃ upper', .completedUp a i status upper' ∈ events := by
  cases h with
  | completedUp i₀ upper₀ upper' status₀ results hupper =>
    have hsame : i = i₀ ∧ status = status₀ := by
      simp at hdone
      exact ⟨hdone.1, hdone.2.1⟩
    rw [hsame.1, hsame.2]
    exact ⟨upper', List.mem_cons_self⟩
  | _ => simp [Event.settled] at hreceived hsettled

theorem exists_completedUp (hs : machine.Reachable s)
    (hreceived : .received a i' upper ∈ s.shared.events)
    (hdone : .lowerDone a i status request ∈ s.shared.events) :
    ∃ c k t upper', machine.run s (List.replicate k (.advance c)) = some t ∧
      .completedUp a i status upper' ∈ t.shared.events := by
  obtain ⟨c, k, t, hrun, ht, hevents, hsettled⟩ := exists_settledBy hs hdone
  have hmem : ∀ event ∈ t.shared.events, event.subject = some a →
      event ∈ about a t.shared.events := fun event hevent hsubject =>
    List.mem_filter.mpr ⟨hevent, by simp [hsubject]⟩
  obtain ⟨event, hevent, hevent'⟩ := List.mem_filterMap.mp hsettled
  have hsubject : event.subject = some a := by
    cases event <;> simp_all [Event.settled, Event.subject]
  obtain ⟨upper', hupper'⟩ :=
    ((sound_of_reachable ht).course a).exists_completedUp
      (hmem _ (hevents _ hreceived) rfl) (hmem _ (hevents _ hdone) rfl)
      ⟨event, hmem event hevent hsubject, hevent'⟩
  exact ⟨c, k, t, upper', hrun, (List.mem_filter.mp hupper').1⟩

/-! ## What the filter guarantees -/

/-- In every interleaving and with any decisions of the lower layer, every OID
request is on its course; when the lower layer is done with a clone, one call
completes the request; and the completion of an internal request sets the
status and the event in its structure and changes nothing else. -/
theorem oids_forwarded {s : Pool Shared Call} (hs : machine.Reachable s) :
    (∀ a, Course a (about a s.shared.events)) ∧
    (∀ a i i' upper status request, .received a i' upper ∈ s.shared.events →
      .lowerDone a i status request ∈ s.shared.events →
      ∃ c k t upper', machine.run s (List.replicate k (.advance c)) = some t ∧
        .completedUp a i status upper' ∈ t.shared.events) ∧
    (∀ c i object status sync t,
      s.calls.lookup c = some (.completing i object status sync) →
      object.originalRequest = none →
      machine.step s (.advance c) = some t →
      t.shared.originals = s.shared.originals ∧
      t.shared.lower = s.shared.lower ∧
      t.shared.internals.lookup object.address =
        some ⟨object.request, status, true⟩ ∧
      (∀ a, a ≠ object.address →
        t.shared.internals.lookup a = s.shared.internals.lookup a) ∧
      t.shared.events =
        .signaled object.address status :: s.shared.events) := by
  refine ⟨(sound_of_reachable hs).course, ?_, ?_⟩
  · intro a i i' upper status request hreceived hdone
    exact exists_completedUp hs hreceived hdone
  · intro c i object status sync t hcall hnone hstep
    obtain ⟨call, hcall', hmap⟩ := Option.bind_eq_some_iff.mp hstep
    obtain ⟨⟨y, after⟩, hadvance, rfl⟩ := Option.map_eq_some_iff.mp hmap
    cases hcall.symm.trans hcall'
    have hact : Action s.shared c (some (.completing i object status sync))
        y after := Action.of_advance hadvance
    cases hact with
    | signaled horiginal hinternal =>
      exact ⟨rfl, rfl, AList.lookup_insert _,
        fun a ha => AList.lookup_insert_ne ha, rfl⟩
    | copied horiginal hupper =>
      rw [hnone] at horiginal
      cases horiginal

def methodRequest : UpperRequest :=
  ⟨{ zeroedRequest 0 with requestType := .method }, 9⟩

/-- A query by `OidIrpSubmitRequest` on the direct interface. -/
def submitQuery : SubmitInput where
  apiVersion := 2
  inputBufferLength := 24
  keyStatus := .success
  key := ⟨.genLinkSpeed, .queryInformation, 1, 0⟩
  informationStatus := .success
  information := (zeroedRequest 0).information
  informationBufferLength := 4
  outputBufferLength := 4

/-- Two requests from above and an internal one are outstanding; the first is
completed before the call that sent it has returned, the second is answered at
once, and the internal one is completed last. -/
theorem oids_forwarded_threeRequests : ∃ s, machine.Reachable s ∧
      ((about 0 s.shared.events).length = 4 ∧
        (about 2 s.shared.events).length = 4 ∧
        (about 1 s.shared.events).length = 3) ∧
      ∀ a, Course a (about a s.shared.events) :=
  (Machine.exists_reachable_of_run
      [.start (.request .regular methodRequest none), .advance 0,
      .start (.submit submitQuery), .advance 1,
      .start (.request .direct methodRequest none), .advance 2,
      .start (.pend 0), .start (.pend 1),
      .start (.complete 0 .success ⟨8, 2, 4, 0⟩), .advance 5, .advance 5,
      .advance 5, .start (.answer 2 .notSupported ⟨0, 0, 0, 0⟩), .advance 2,
      .advance 2, .advance 2, .advance 2, .advance 0,
      .start (.complete 1 .bufferTooShort ⟨0, 0, 0, 16⟩), .advance 7]
      (by decide +kernel)).imp fun s ⟨hs, hP⟩ => ⟨hs, hP, (oids_forwarded hs).1⟩

end WinNetTest.Fnlwf.Oid
