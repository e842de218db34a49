import WinNetTest.Fnmp.OidSafety

/-!
# Pended requests are completed exactly once

Every request that was put on a list is in exactly one place: on the list, in
the hands of a call that will complete it, or completed.  The lists are queues
and calls take requests from their heads, so whatever one call completes it
completes in the order of arrival.  Together with what the request handlers
have returned this settles which requests are completed, how often and where.
-/

namespace WinNetTest.Fnmp

open Support

namespace OidPath

/-! ## Where pended requests are -/

/-- Pended requests are neither lost nor duplicated, and are kept in order of
arrival.  Calls that have not taken anything yet have completed nothing. -/
structure Conserved (s : State) : Prop where
  balance : ∀ i, (s.pendedOn i : Multiset ℕ) =
    s.listed i + s.inHand i + s.completedOn i
  listed : ∀ i, (s.listed i).Sublist (s.pendedOn i)
  traced : ∀ c i,
    (s.completedBy c i ++ handOf i (s.calls.lookup c)).Sublist (s.pendedOn i)
  idle : ∀ c call, s.calls.lookup c = some call →
    (call = .expired ∨ ∃ h, call = .closing h) → ∀ i, s.completedBy c i = []
  recorded : ∀ completion ∈ s.completions,
    completion.call < s.nextCall ∧ completion.status ≠ .pending

namespace State

variable (s : State)

def added (new : List Completion) (i : OidRequestInterface) : List ℕ :=
  (new.filter fun completion => completion.interface = i).map (·.id)

variable {new : List Completion} {t : State}

section

variable (h : t.completions = s.completions ++ new)

include h

theorem completedOn_append (i : OidRequestInterface) :
    t.completedOn i = s.completedOn i ++ added new i := by
  simp [completedOn, added, h]

theorem completedBy_append_same {c : ℕ}
    (hnew : ∀ completion ∈ new, completion.call = c) (i : OidRequestInterface) :
    t.completedBy c i = s.completedBy c i ++ added new i := by
  have hfilter : (new.filter fun completion =>
      decide (completion.call = c ∧ completion.interface = i)) =
      new.filter fun completion => decide (completion.interface = i) := by
    apply List.filter_congr
    intro completion hmem
    simp [hnew completion hmem]
  simp only [completedBy, added, h, List.filter_append, List.map_append,
    hfilter]

theorem completedBy_append_other {c c' : ℕ}
    (hnew : ∀ completion ∈ new, completion.call = c) (hc : c' ≠ c)
    (i : OidRequestInterface) : t.completedBy c' i = s.completedBy c' i := by
  have hfilter : (new.filter fun completion =>
      decide (completion.call = c' ∧ completion.interface = i)) = [] := by
    rw [List.filter_eq_nil_iff]
    intro completion hmem
    simp [hnew completion hmem, Ne.symm hc]
  simp only [completedBy, h, List.filter_append, hfilter, List.append_nil]

end

end State

namespace Conserved

theorem init (config : AdapterConfig) : Conserved (init config) where
  balance := by
    intro i
    cases i <;> rfl
  listed := by
    intro i
    cases i <;> exact List.Sublist.refl _
  traced := by
    intro c i
    cases i <;> exact List.Sublist.refl _
  idle := by simp [OidPath.init]
  recorded := by simp [OidPath.init]

variable {s t : State}

theorem congr (hs : Conserved s)
    (hlists : t.oids.filteredOidRequestLists = s.oids.filteredOidRequestLists)
    (hcalls : t.calls = s.calls) (hpended : t.pended = s.pended)
    (hcompletions : t.completions = s.completions)
    (hnextCall : t.nextCall = s.nextCall) : Conserved t := by
  have hlisted : ∀ i, t.listed i = s.listed i := by
    intro i
    simp [State.listed, OidFilter.list, hlists]
  have hpendedOn : ∀ i, t.pendedOn i = s.pendedOn i := by
    intro i
    simp [State.pendedOn, hpended]
  have hcompletedBy : ∀ c i, t.completedBy c i = s.completedBy c i := by
    intro c i
    simp [State.completedBy, hcompletions]
  refine ⟨?_, ?_, ?_, ?_, ?_⟩
  · intro i
    have hbalance := hs.balance i
    simp only [State.inHand, State.completedOn] at hbalance ⊢
    rw [hpendedOn, hlisted, hcalls, hcompletions, hbalance]
  · intro i
    rw [hlisted, hpendedOn]
    exact hs.listed i
  · intro c i
    rw [hcompletedBy, hcalls, hpendedOn]
    exact hs.traced c i
  · intro c call hcall hkind i
    rw [hcompletedBy]
    exact hs.idle c call (hcalls ▸ hcall) hkind i
  · rw [hcompletions, hnextCall]
    exact hs.recorded

theorem of_setCall (hs : Conserved s) (c : ℕ) (next : Option Call)
    (new : List Completion)
    (hcalls : t.calls = (s.setCall c next).calls)
    (hcompletions : t.completions = s.completions ++ new)
    (hnew : ∀ completion ∈ new,
      completion.call = c ∧ completion.status ≠ .pending)
    (hc : c < t.nextCall) (hnextCall : s.nextCall ≤ t.nextCall)
    (hpended : ∀ i, (s.pendedOn i).Sublist (t.pendedOn i))
    (hbalance : ∀ i, (t.pendedOn i : Multiset ℕ) +
        (s.listed i + handOf i (s.calls.lookup c)) =
      s.pendedOn i + (t.listed i + handOf i next + State.added new i))
    (hlisted : ∀ i, (t.listed i).Sublist (t.pendedOn i))
    (htraced : ∀ i, (s.completedBy c i ++ State.added new i ++
      handOf i next).Sublist (t.pendedOn i))
    (hidle : ∀ call ∈ next, (call = .expired ∨ ∃ h, call = .closing h) →
      ∀ i, s.completedBy c i ++ State.added new i = []) :
    Conserved t := by
  have hcall := fun completion hmem => (hnew completion hmem).1
  have hlookup : ∀ c', t.calls.lookup c' =
      if c' = c then next else s.calls.lookup c' := by
    intro c'
    rw [hcalls, State.lookup_setCall]
  refine ⟨?_, hlisted, ?_, ?_, ?_⟩
  · intro i
    have hhand := s.inHand_setCall c next i
    have hinHand : t.inHand i = (s.setCall c next).inHand i := by
      simp only [State.inHand, hcalls]
    have hcompleted : (t.completedOn i : Multiset ℕ) =
        s.completedOn i + State.added new i := by
      rw [s.completedOn_append hcompletions, Multiset.coe_add]
    rw [← hinHand] at hhand
    apply add_right_cancel
      (b := (s.listed i : Multiset ℕ) + handOf i (s.calls.lookup c))
    calc (t.pendedOn i : Multiset ℕ) +
          (s.listed i + handOf i (s.calls.lookup c))
        = s.pendedOn i + (t.listed i + handOf i next + State.added new i) :=
          hbalance i
      _ = (s.listed i + s.inHand i + s.completedOn i) +
            (t.listed i + handOf i next + State.added new i) := by
          rw [hs.balance i]
      _ = t.listed i + (s.inHand i + handOf i next) +
            (s.completedOn i + State.added new i) + s.listed i := by
          abel
      _ = t.listed i + t.inHand i + t.completedOn i +
            (s.listed i + handOf i (s.calls.lookup c)) := by
          rw [← hhand, ← hcompleted]
          abel
  · intro c' i
    rw [hlookup]
    by_cases hc' : c' = c
    · subst hc'
      rw [if_pos rfl, s.completedBy_append_same hcompletions hcall]
      exact htraced i
    · rw [if_neg hc', s.completedBy_append_other hcompletions hcall hc']
      exact (hs.traced c' i).trans (hpended i)
  · intro c' call hlook hkind i
    rw [hlookup] at hlook
    by_cases hc' : c' = c
    · subst hc'
      rw [if_pos rfl] at hlook
      rw [s.completedBy_append_same hcompletions hcall]
      exact hidle call hlook hkind i
    · rw [if_neg hc'] at hlook
      rw [s.completedBy_append_other hcompletions hcall hc']
      exact hs.idle c' call hlook hkind i
  · intro completion hmem
    rw [hcompletions, List.mem_append] at hmem
    rcases hmem with hold | hadded
    · obtain ⟨hlt, hstatus⟩ := hs.recorded completion hold
      exact ⟨hlt.trans_le hnextCall, hstatus⟩
    · obtain ⟨rfl, hstatus⟩ := hnew completion hadded
      exact ⟨hc, hstatus⟩

theorem completedBy_of_le (hs : Conserved s) {c : ℕ} (hc : s.nextCall ≤ c)
    (i : OidRequestInterface) : s.completedBy c i = [] := by
  rw [State.completedBy, List.map_eq_nil_iff, List.filter_eq_nil_iff]
  intro completion hmem
  have hlt := (hs.recorded completion hmem).1
  simp only [decide_eq_true_eq, not_and]
  omega

theorem of_idle (hs : Conserved s) (c : ℕ) (next : Option Call)
    (hcalls : t.calls = (s.setCall c next).calls)
    (hcompletions : t.completions = s.completions)
    (hc : c < t.nextCall) (hnextCall : s.nextCall ≤ t.nextCall)
    (hpended : t.pended = s.pended)
    (hoids : t.oids.filteredOidRequestLists = s.oids.filteredOidRequestLists)
    (hold : ∀ i, handOf i (s.calls.lookup c) = [])
    (hnext : ∀ i, handOf i next = [])
    (hidle : ∀ call ∈ next, (call = .expired ∨ ∃ h, call = .closing h) →
      s.nextCall ≤ c) :
    Conserved t := by
  have hlisted : ∀ i, t.listed i = s.listed i := by
    intro i
    simp [State.listed, OidFilter.list, hoids]
  have hpendedOn : ∀ i, t.pendedOn i = s.pendedOn i := by
    intro i
    simp [State.pendedOn, hpended]
  refine hs.of_setCall c next [] hcalls (by simpa using hcompletions)
    (by simp) hc hnextCall ?_ ?_ ?_ ?_ ?_
  · intro i
    rw [hpendedOn]
  · intro i
    simp [hpendedOn, hlisted, hold, hnext, State.added]
  · intro i
    rw [hlisted, hpendedOn]
    exact hs.listed i
  · intro i
    have htraced := hs.traced c i
    rw [hold] at htraced
    simpa [hpendedOn, hnext, State.added] using htraced
  · intro call hcall hkind i
    simpa [State.added] using
      hs.completedBy_of_le (hidle call hcall hkind) i

theorem lookup_nextCall (ho : Owned s) : s.calls.lookup s.nextCall = none := by
  by_contra hne
  obtain ⟨call, hcall⟩ := Option.ne_none_iff_exists'.mp hne
  exact absurd (ho.numbered _ call hcall) (Nat.lt_irrefl _)

section

variable (hs : Conserved s)

include hs

variable {call : Call}

theorem of_newCall (ho : Owned s) (hhand : ∀ i, call.hand i = [])
    (hcalls : t.calls = s.calls.insert s.nextCall call)
    (hcompletions : t.completions = s.completions)
    (hnextCall : t.nextCall = s.nextCall + 1) (hpended : t.pended = s.pended)
    (hoids : t.oids.filteredOidRequestLists = s.oids.filteredOidRequestLists) :
    Conserved t :=
  hs.of_idle s.nextCall (some call) hcalls hcompletions (by omega) (by omega)
    hpended hoids (by simp [lookup_nextCall ho, handOf]) hhand
    (fun _ _ _ => le_rfl)

variable {entry : OidRequestEntry}

section

variable (ho : Owned s)

include ho

theorem of_pend (i : OidRequestInterface)
    (hid : entry.request.id = s.nextRequest) :
    Conserved ({ s with
      nextRequest := s.nextRequest + 1
      oids := s.oids.setList i (s.oids.list i ++ [entry])
      pended := s.pended.set i (s.pended.get i ++ [s.nextRequest])
      }.newCall (.returning s.nextRequest i .pending)) := by
  refine hs.of_setCall s.nextCall
    (some (.returning s.nextRequest i .pending)) [] rfl
    (by simp [State.newCall, State.setCall]) (by simp)
    (by simp [State.newCall, State.setCall])
    (by simp [State.newCall, State.setCall]) ?_ ?_ ?_ ?_
    (by simp)
  · intro j
    by_cases hj : j = i
    · subst hj
      simp [State.pendedOn, State.newCall, State.setCall, PerInterface.get_set]
    · simp [State.pendedOn, State.newCall, State.setCall,
        PerInterface.get_set, hj]
  · intro j
    rw [lookup_nextCall ho]
    by_cases hj : j = i
    · subst hj
      simp only [State.pendedOn, State.listed, State.newCall,
        State.setCall, PerInterface.get_set,
        OidFilter.list_setList, if_true, List.map_append, List.map_cons,
        List.map_nil, hid, ← Multiset.coe_add]
      simp only [handOf, Call.hand, State.added, List.filter_nil,
        List.map_nil, Multiset.coe_nil, add_zero]
      abel
    · simp [State.pendedOn, State.listed, State.newCall, State.setCall,
        PerInterface.get_set, hj, handOf, Call.hand, State.added]
  · intro j
    have hlisted := hs.listed j
    by_cases hj : j = i
    · subst hj
      simp only [State.pendedOn, State.listed, State.newCall,
        State.setCall, PerInterface.get_set,
        OidFilter.list_setList, if_true, List.map_append, List.map_cons,
        List.map_nil, hid]
      exact hlisted.append (List.Sublist.refl _)
    · simpa [State.pendedOn, State.listed, State.newCall, State.setCall,
        PerInterface.get_set, hj] using hlisted
  · intro j
    simp [hs.completedBy_of_le le_rfl, State.added, handOf, Call.hand]

theorem of_take (h : ℕ) {i : OidRequestInterface} {rest : List OidRequestEntry}
    {request : NdisOidRequest} (status : NdisStatus)
    (hlist : s.oids.list i = entry :: rest)
    (hid : request.id = entry.request.id) :
    Conserved ({ s with oids := s.oids.setList i rest }.newCall
      (.completing h ⟨i, request, status⟩)) := by
  have hlistedOn : s.listed i = request.id :: rest.map (·.request.id) := by
    simp [State.listed, hlist, hid]
  refine hs.of_setCall s.nextCall (some (.completing h ⟨i, request, status⟩))
    [] rfl (by simp [State.newCall, State.setCall]) (by simp)
    (by simp [State.newCall, State.setCall])
    (by simp [State.newCall, State.setCall]) ?_ ?_ ?_ ?_ (by simp)
  · intro j
    simp [State.pendedOn, State.newCall, State.setCall]
  · intro j
    rw [lookup_nextCall ho]
    by_cases hj : j = i
    · subst hj
      rw [hlistedOn, ← Multiset.cons_coe, ← Multiset.singleton_add]
      simp only [State.pendedOn, State.listed, State.newCall,
        State.setCall, OidFilter.list_setList,
        if_true, handOf, Call.hand, State.added, List.filter_nil, List.map_nil,
        Multiset.coe_nil, add_zero, Multiset.coe_singleton]
      abel
    · simp [State.pendedOn, State.listed, State.newCall, State.setCall, hj,
        Ne.symm hj, handOf, Call.hand, State.added]
  · intro j
    have hlisted := hs.listed j
    by_cases hj : j = i
    · subst hj
      rw [hlistedOn] at hlisted
      simpa [State.pendedOn, State.listed, State.newCall, State.setCall] using
        (List.sublist_cons_self _ _).trans hlisted
    · simpa [State.pendedOn, State.listed, State.newCall, State.setCall, hj]
        using hlisted
  · intro j
    have hlisted := hs.listed j
    rw [hs.completedBy_of_le le_rfl]
    by_cases hj : j = i
    · subst hj
      rw [hlistedOn] at hlisted
      simpa [State.pendedOn, State.newCall, State.setCall, State.added, handOf,
        Call.hand] using ((List.nil_sublist _).cons_cons _).trans hlisted
    · simp [Ne.symm hj, State.added, handOf, Call.hand]

theorem of_complete {c : ℕ} (hlookup : s.calls.lookup c = some call)
    (next : Option Call) (completion : Completion) (config : AdapterConfig)
    (hcall : completion.call = c) (hstatus : completion.status ≠ .pending)
    (hhand : ∀ i, call.hand i = State.added [completion] i ++ handOf i next)
    (hnext : ∀ call' ∈ next, ∃ closed lists, call' = .flushing closed lists) :
    Conserved ({ s with
      config := config
      completions := s.completions ++ [completion] }.setCall c next) := by
  refine hs.of_setCall c next [completion] rfl rfl (by simp [hcall, hstatus])
    (ho.numbered c call hlookup) le_rfl (fun _ => List.Sublist.refl _) ?_
    hs.listed ?_ ?_
  · intro i
    rw [hlookup, handOf, hhand, ← Multiset.coe_add]
    change (s.pendedOn i : Multiset ℕ) + (s.listed i + (_ + _)) =
      s.pendedOn i + (s.listed i + _ + _)
    abel
  · intro i
    have htraced := hs.traced c i
    rw [hlookup, handOf, hhand, ← List.append_assoc] at htraced
    exact htraced
  · intro call' hcall' hkind
    obtain ⟨closed, lists, rfl⟩ := hnext call' hcall'
    simp at hkind

theorem of_clear {c : ℕ} (hlookup : s.calls.lookup c = some call)
    (hcall : call = .expired ∨ ∃ h, call = .closing h) :
    Conserved (clearAndFlush s c call.closes) := by
  have hnothing : ∀ i, call.hand i = [] := by
    intro i
    rcases hcall with rfl | ⟨h, rfl⟩ <;> rfl
  have hhand : ∀ i, handOf i (some (.flushing call.closes
      (clearFilterSection s.oids).1)) = s.listed i :=
    fun _ => rfl
  have hlisted : ∀ i, (clearAndFlush s c call.closes).listed i = [] := by
    intro i
    cases i <;> rfl
  have hpended : ∀ i,
      (clearAndFlush s c call.closes).pendedOn i = s.pendedOn i :=
    fun _ => rfl
  refine hs.of_setCall c (some (.flushing call.closes
    (clearFilterSection s.oids).1)) [] rfl (List.append_nil _).symm (by simp)
    (ho.numbered c call hlookup) le_rfl ?_ ?_ ?_ ?_ (by simp)
  · intro i
    rw [hpended]
  · intro i
    rw [hpended, hlisted, hhand, hlookup, handOf, hnothing]
    simp [State.added]
  · intro i
    rw [hlisted]
    exact List.nil_sublist _
  · intro i
    rw [hpended, hhand, hs.idle c call hlookup hcall]
    simpa [State.added] using hs.listed i

theorem transition (h : Transition s t) : Conserved t := by
  cases h with
  | stay => exact hs
  | pend i entry hid hkeys => exact hs.of_pend ho i hid
  | process_ | refuse | expire | close =>
    exact hs.of_newCall ho (fun _ => rfl) rfl rfl rfl rfl rfl
  | answer c i request config status hcall hstatus =>
    exact hs.of_idle c (some (.returning request.id i status)) rfl rfl
      (ho.numbered c _ hcall) le_rfl rfl rfl (by simp [hcall, handOf, Call.hand])
      (fun _ => rfl) (by simp)
  | return_ c id i status hcall | release c h hcall =>
    exact hs.of_idle c none rfl rfl (ho.numbered c _ hcall) le_rfl rfl rfl
      (by simp [hcall, handOf, Call.hand]) (fun _ => rfl) (by simp)
  | create apiVersion howner => exact hs.congr rfl rfl rfl rfl rfl
  | setFilter h context keys hcontext hopen =>
    rw [ho.markSetOidFilter_eq hcontext]
    exact hs.congr rfl rfl rfl rfl rfl
  | take h i entry rest request status hlist hid =>
    exact hs.of_take ho h status hlist hid
  | completeTaken c h taken config status hlookup hstatus =>
    refine hs.of_complete ho hlookup none
      ⟨c, taken.interface, taken.request.id, status⟩ config rfl hstatus ?_
      (by simp)
    intro i
    by_cases hi : taken.interface = i <;>
      simp [Call.hand, State.added, handOf, hi]
  | completeFlushed c closed lists i entry rest config status hlookup hlist
      hstatus =>
      refine hs.of_complete ho hlookup
        (some (.flushing closed (lists.set i rest)))
        ⟨c, i, entry.request.id, status⟩ config rfl hstatus ?_ ?_
      · intro j
        by_cases hj : i = j
        · subst hj
          simp [Call.hand, State.added, handOf, PerInterface.get_set, hlist]
        · simp [Call.hand, State.added, handOf, PerInterface.get_set, hj,
            Ne.symm hj]
      · intro call hcall
        cases hcall
        exact ⟨_, _, rfl⟩
  | clear c call hlookup hcall => exact hs.of_clear ho hlookup hcall
  | skip c h context hlookup hcontext hset =>
    exact hs.of_idle c (some (.releasing h)) rfl rfl
      (ho.numbered c _ hlookup) le_rfl rfl rfl
      (by simp [hlookup, handOf, Call.hand]) (fun _ => rfl) (by simp)
  | finish c closed hlookup =>
    refine hs.of_idle c (closed.map .releasing) rfl rfl
      (ho.numbered c _ hlookup) le_rfl rfl rfl ?_ ?_ ?_
    · intro i
      cases i <;> simp [hlookup, handOf, Call.hand, PerInterface.get]
    · intro i
      cases closed <;> rfl
    · cases closed <;> simp

end

end

end Conserved

/-! ## What the handlers answer -/

/-- What the handler of a request will have returned, or has decided on so
far: a request that is being processed will not be pended. -/
def Call.answer : Call → Option (ℕ × OidRequestInterface × NdisStatus)
  | processing i request => some (request.id, i, .success)
  | returning id i status => some (id, i, status)
  | _ => none

/-- An answer that agrees with the record: the request is pended on its
interface if and only if the answer is `NDIS_STATUS_PENDING`. -/
def Agrees (s : State) (answer : ℕ × OidRequestInterface × NdisStatus) : Prop :=
  answer.1 < s.nextRequest ∧
    (answer.2.2 = .pending → answer.1 ∈ s.pendedOn answer.2.1) ∧
    (answer.2.2 ≠ .pending → ∀ j, answer.1 ∉ s.pendedOn j)

/-- Requests are pended once, and the answers of the handlers agree with the
record. -/
structure Answered (s : State) : Prop where
  bounded : ∀ i, ∀ id ∈ s.pendedOn i, id < s.nextRequest
  nodup : (s.pendedOn .regular ++ s.pendedOn .direct).Nodup
  calls : ∀ c call answer, s.calls.lookup c = some call →
    call.answer = some answer → Agrees s answer
  returned : ∀ answer ∈ s.returned, Agrees s answer

namespace Answered

theorem init (config : AdapterConfig) : Answered (init config) where
  bounded := by
    intro i
    cases i <;> simp [OidPath.init, State.pendedOn, PerInterface.get]
  nodup := by simp [OidPath.init, State.pendedOn, PerInterface.get]
  calls := by simp [OidPath.init]
  returned := by simp [OidPath.init]

variable {s t : State}

theorem of_setCall (hs : Answered s) (c : ℕ) (next : Option Call)
    (hcalls : t.calls = (s.setCall c next).calls)
    (hpended : t.pended = s.pended)
    (hnextRequest : s.nextRequest ≤ t.nextRequest)
    (hnext : ∀ call ∈ next, ∀ answer, call.answer = some answer →
      Agrees t answer)
    (hreturned : ∀ answer ∈ t.returned,
      answer ∈ s.returned ∨ Agrees t answer) : Answered t := by
  have hpendedOn : ∀ i, t.pendedOn i = s.pendedOn i := by
    intro i
    simp [State.pendedOn, hpended]
  have hagrees : ∀ answer, Agrees s answer → Agrees t answer := by
    intro answer h
    simpa [Agrees, hpendedOn] using ⟨h.1.trans_le hnextRequest, h.2⟩
  refine ⟨?_, ?_, ?_, ?_⟩
  · intro i id hid
    rw [hpendedOn] at hid
    exact (hs.bounded i id hid).trans_le hnextRequest
  · rw [hpendedOn, hpendedOn]
    exact hs.nodup
  · intro c' call answer hcall hanswer
    rw [hcalls, State.lookup_setCall] at hcall
    split at hcall
    · exact hnext call hcall answer hanswer
    · exact hagrees answer (hs.calls c' call answer hcall hanswer)
  · intro answer hmem
    rcases hreturned answer hmem with hold | hnew
    · exact hagrees answer (hs.returned answer hold)
    · exact hnew

theorem nextRequest_notMem (hs : Answered s) (i : OidRequestInterface) :
    s.nextRequest ∉ s.pendedOn i :=
  fun hmem => absurd (hs.bounded i _ hmem) (Nat.lt_irrefl _)

theorem of_pend (hs : Answered s) (i : OidRequestInterface)
    (oids : OidFilter) :
    Answered ({ s with
      nextRequest := s.nextRequest + 1
      oids := oids
      pended := s.pended.set i (s.pended.get i ++ [s.nextRequest])
      }.newCall (.returning s.nextRequest i .pending)) := by
  have hmem : ∀ j id, id ∈ (s.pended.set i
      (s.pended.get i ++ [s.nextRequest])).get j ↔
      id ∈ s.pendedOn j ∨ (j = i ∧ id = s.nextRequest) := by
    intro j id
    by_cases hj : j = i
    · subst hj
      simp [State.pendedOn, PerInterface.get_set]
    · simp [State.pendedOn, PerInterface.get_set, hj]
  have hagrees : ∀ answer, Agrees s answer → Agrees ({ s with
      nextRequest := s.nextRequest + 1
      oids := oids
      pended := s.pended.set i (s.pended.get i ++ [s.nextRequest])
      }.newCall (.returning s.nextRequest i .pending)) answer := by
    rintro ⟨id, j, status⟩ ⟨hlt, hpending, hother⟩
    refine ⟨Nat.lt_succ_of_lt hlt, ?_, ?_⟩
    · intro hstatus
      exact (hmem j id).mpr (Or.inl (hpending hstatus))
    · intro hstatus k hk
      rcases (hmem k id).mp hk with hold | ⟨-, hid⟩
      · exact hother hstatus k hold
      · exact absurd hid (Nat.ne_of_lt hlt)
  refine ⟨?_, ?_, ?_, ?_⟩
  · intro j id hid
    rcases (hmem j id).mp hid with hold | ⟨-, rfl⟩
    · exact Nat.lt_succ_of_lt (hs.bounded j id hold)
    · exact Nat.lt_succ_self _
  · have hcons : (s.nextRequest ::
        (s.pendedOn .regular ++ s.pendedOn .direct)).Nodup := by
      refine List.nodup_cons.mpr ⟨?_, hs.nodup⟩
      simp [hs.nextRequest_notMem .regular, hs.nextRequest_notMem .direct]
    cases i with
    | regular =>
      refine (List.Perm.nodup_iff ?_).mp hcons
      simpa [State.newCall, State.setCall, State.pendedOn, PerInterface.set,
        PerInterface.get] using List.perm_middle.symm
    | direct =>
      refine (List.Perm.nodup_iff ?_).mp hcons
      simpa [State.newCall, State.setCall, State.pendedOn, PerInterface.set,
        PerInterface.get, ← List.append_assoc] using
        (List.perm_append_singleton _ _).symm
  · intro c call answer hcall hanswer
    rw [State.newCall, State.lookup_setCall] at hcall
    split at hcall
    · cases hcall
      cases hanswer
      exact ⟨Nat.lt_succ_self _,
        fun _ => (hmem i _).mpr (Or.inr ⟨rfl, rfl⟩), fun h => absurd rfl h⟩
    · exact hagrees answer (hs.calls c call answer hcall hanswer)
  · intro answer hanswer
    exact hagrees answer (hs.returned answer hanswer)

theorem transition (hs : Answered s) (ho : Owned s) (h : Transition s t) :
    Answered t := by
  cases h with
  | stay => exact hs
  | pend i entry hid hkeys => exact hs.of_pend i _
  | process_ i request hid =>
    refine hs.of_setCall s.nextCall (some (.processing i request)) rfl rfl
      (Nat.le_succ _) ?_ (fun _ hmem => Or.inl hmem)
    intro call hcall answer hanswer
    cases hcall
    cases hanswer
    exact ⟨by simp [hid, State.newCall, State.setCall], by simp,
      fun _ j => hid ▸ hs.nextRequest_notMem j⟩
  | refuse i status hstatus =>
    refine hs.of_setCall s.nextCall
      (some (.returning s.nextRequest i status)) rfl rfl
      (Nat.le_succ _) ?_ (fun _ hmem => Or.inl hmem)
    intro call hcall answer hanswer
    cases hcall
    cases hanswer
    exact ⟨by simp [State.newCall, State.setCall],
      fun hpending => absurd hpending hstatus,
      fun _ j => hs.nextRequest_notMem j⟩
  | answer c i request config status hcall hstatus =>
    refine hs.of_setCall c (some (.returning request.id i status)) rfl rfl
      le_rfl ?_ (fun _ hmem => Or.inl hmem)
    intro call hnext answer hanswer
    cases hnext
    cases hanswer
    obtain ⟨hlt, -, hnot⟩ := hs.calls c _ _ hcall rfl
    exact ⟨hlt, fun hpending => absurd hpending hstatus,
      fun _ => hnot (by simp)⟩
  | return_ c id i status hcall =>
    refine hs.of_setCall c none rfl rfl le_rfl (by simp) ?_
    intro answer hmem
    rcases List.mem_append.mp hmem with hold | hnew
    · exact Or.inl hold
    · rw [List.mem_singleton] at hnew
      subst hnew
      exact Or.inr (hs.calls c _ _ hcall rfl)
  | create apiVersion howner =>
    exact ⟨hs.bounded, hs.nodup, hs.calls, hs.returned⟩
  | setFilter h context keys hcontext hopen =>
    rw [ho.markSetOidFilter_eq hcontext]
    exact ⟨hs.bounded, hs.nodup, hs.calls, hs.returned⟩
  | take h i entry rest request status hlist hid =>
    exact hs.of_setCall s.nextCall (some (.completing h ⟨i, request, status⟩))
      rfl rfl le_rfl (by simp [Call.answer]) (fun _ hmem => Or.inl hmem)
  | completeTaken c | release c =>
    exact hs.of_setCall c none rfl rfl le_rfl (by simp)
      (fun _ hmem => Or.inl hmem)
  | completeFlushed c closed lists i entry rest config status hlookup hlist
      hstatus =>
      exact hs.of_setCall c (some (.flushing closed (lists.set i rest))) rfl rfl
        le_rfl (by simp [Call.answer]) (fun _ hmem => Or.inl hmem)
  | expire =>
    exact hs.of_setCall s.nextCall (some .expired) rfl rfl le_rfl
      (by simp [Call.answer]) (fun _ hmem => Or.inl hmem)
  | clear c call hlookup hcall =>
    exact hs.of_setCall c (some (.flushing call.closes
      (clearFilterSection s.oids).1)) rfl rfl le_rfl (by simp [Call.answer])
      (fun _ hmem => Or.inl hmem)
  | skip c h context hlookup hcontext hset =>
    exact hs.of_setCall c (some (.releasing h)) rfl rfl le_rfl
      (by simp [Call.answer]) (fun _ hmem => Or.inl hmem)
  | finish c closed hlookup =>
    refine hs.of_setCall c (closed.map .releasing) rfl rfl le_rfl ?_
      (fun _ hmem => Or.inl hmem)
    cases closed <;> simp [Call.answer]
  | close h context hcontext hopen =>
    exact hs.of_setCall s.nextCall (some (.closing h)) rfl rfl le_rfl
      (by simp [Call.answer]) (fun _ hmem => Or.inl hmem)

end Answered

/-! ## Every reachable state -/

variable {s : State}

theorem invariant_of_reachable {sizes : NdisSizes} {config : AdapterConfig}
    (hs : (machine sizes config).Reachable s) :
    Owned s ∧ Conserved s ∧ Answered s := by
  refine Machine.Reachable.invariant
    (P := fun s => Owned s ∧ Conserved s ∧ Answered s)
    ⟨Owned.init config, Conserved.init config, Answered.init config⟩ ?_ hs
  rintro s label t ⟨howned, hconserved, hanswered⟩ hstep
  have htransition := transition_of_step hstep
  exact ⟨howned.transition htransition,
    hconserved.transition howned htransition,
    hanswered.transition howned htransition⟩

/-- What holds of pended requests.  Everything that was pended is on its list,
in the hands of a call or completed, with multiplicities, so a request the
handler returned `NDIS_STATUS_PENDING` for is in one of these places once, and
in none of them on the other interface.  A call that holds requests can go on
to complete them; when no call is left and the adapter has no owner they have
all been completed. -/
structure PendedOnce (sizes : NdisSizes) (s : State) : Prop where
  exactlyOnce : ∀ id i, (id, i, .pending) ∈ s.returned → ∀ j,
    ((s.listed j : Multiset ℕ) + s.inHand j + s.completedOn j).count id =
      if j = i then 1 else 0
  progress : ∀ c call i, s.calls.lookup c = some call → call.hand i ≠ [] →
    (step sizes s (.complete c)).isSome
  settled : s.calls = ∅ → s.owner = none → ∀ id i,
    (id, i, .pending) ∈ s.returned → (s.completedOn i).count id = 1
  final : ∀ completion ∈ s.completions, completion.status ≠ .pending
  neverOtherwise : ∀ id i status, (id, i, status) ∈ s.returned →
    status ≠ .pending → ∀ j, id ∉ s.completedOn j
  inOrder : ∀ c i, (s.completedBy c i).Sublist (s.pendedOn i)
  emptyWithoutKeys : s.oids.oidFilterKeys = none → ∀ i, s.oids.list i = []
  emptyWithoutOwner : s.owner = none → ∀ i, s.oids.list i = []

variable {i : OidRequestInterface}

theorem count_of_pended (hc : Conserved s) (ha : Answered s) {id : ℕ}
    (hid : id ∈ s.pendedOn i) (j : OidRequestInterface) :
    ((s.listed j : Multiset ℕ) + s.inHand j + s.completedOn j).count id =
      if j = i then 1 else 0 := by
  have hnodup := List.nodup_append.mp ha.nodup
  rw [← hc.balance j, Multiset.coe_count]
  cases i <;> cases j
  · simpa using List.count_eq_one_of_mem hnodup.1 hid
  · have hnot : id ∉ s.pendedOn .direct := fun h => hnodup.2.2 id hid id h rfl
    simpa using List.count_eq_zero_of_not_mem hnot
  · have hnot : id ∉ s.pendedOn .regular := fun h => hnodup.2.2 id h id hid rfl
    simpa using List.count_eq_zero_of_not_mem hnot
  · simpa using List.count_eq_one_of_mem hnodup.2.1 hid

theorem Owned.list_of_unowned (hs : Owned s) (howner : s.owner = none)
    (i : OidRequestInterface) : s.oids.list i = [] := by
  apply hs.lists
  by_contra hne
  obtain ⟨h, _, hcontext, -⟩ := hs.filter hne
  rw [hs.owner_of_lookup hcontext] at howner
  cases howner

theorem isSome_step_complete {sizes : NdisSizes} {c : ℕ} {call : Call}
    (hs : Owned s) (hlookup : s.calls.lookup c = some call)
    (hhand : call.hand i ≠ []) : (step sizes s (.complete c)).isSome := by
  simp only [step, hs.fault, Bool.false_eq_true, if_false, hlookup,
    Option.bind_some]
  cases call with
  | completing h taken => rfl
  | flushing closed lists =>
    obtain ⟨regular, direct⟩ := lists
    cases regular with
    | cons entry rest => rfl
    | nil =>
      cases direct with
      | cons entry rest => rfl
      | nil => cases i <;> exact absurd rfl hhand
  | _ => exact absurd rfl hhand

/-- For any interleaving of arriving requests, IOCTLs of the exclusive handle,
watchdog flushes and closes, a pended request is completed exactly once and on
its own interface, no other request is completed by the driver, flushes
complete in order of arrival, and the lists are empty whenever there is no
filter and whenever the adapter has no owner. -/
theorem pendedOids_completed_once
    (sizes : NdisSizes) (config : AdapterConfig) (s : State)
    (hs : (machine sizes config).Reachable s) : PendedOnce sizes s := by
  obtain ⟨howned, hconserved, hanswered⟩ := invariant_of_reachable hs
  have hpended : ∀ id i, (id, i, .pending) ∈ s.returned → id ∈ s.pendedOn i :=
    fun id i hmem => (hanswered.returned _ hmem).2.1 rfl
  refine ⟨?_, ?_, ?_, ?_, ?_, ?_, howned.lists, howned.list_of_unowned⟩
  · intro id i hmem j
    exact count_of_pended hconserved hanswered (hpended id i hmem) j
  · intro c call i hlookup hhand
    exact isSome_step_complete howned hlookup hhand
  · intro hcalls howner id i hmem
    have hcount :=
      count_of_pended hconserved hanswered (hpended id i hmem) i
    have hlisted : s.listed i = [] := by
      simp [State.listed, howned.list_of_unowned howner i]
    have hinHand : s.inHand i = 0 := by
      simp [State.inHand, hcalls]
    simpa [hlisted, hinHand] using hcount
  · exact fun completion hmem => (hconserved.recorded completion hmem).2
  · intro id i status hmem hstatus j hcompleted
    apply (hanswered.returned _ hmem).2.2 hstatus j
    have hle : (s.completedOn j : Multiset ℕ) ≤ s.pendedOn j := by
      rw [hconserved.balance j]
      exact Multiset.le_add_left _ _
    exact Multiset.mem_coe.mp (Multiset.mem_of_le hle
      (Multiset.mem_coe.mpr hcompleted))
  · intro c i
    exact (List.sublist_append_left _ _).trans (hconserved.traced c i)

def nopRequest : NdisOidRequest :=
  .noData .fnmpSetNop .setInformation

def nopFilter : SetFilterInput where
  inputBufferLength := 16
  key := fun _ => ⟨.fnmpSetNop, .setInformation, 0, 0⟩
  allocated := true

/-- Two requests are pended; the handle completes the first with a status of
its own, and its close flushes the second. -/
def pendAndClose : List Label :=
  [.create 2, .setFilter 0 nopFilter,
    .arrive .regular nopRequest 0 true, .return_ 0,
    .arrive .regular nopRequest 0 true, .return_ 1, .completeRequest 0
      ⟨24, ⟨.fnmpSetNop, .setInformation, 0, 0⟩,
        some ⟨.fnmpSetNop, .setInformation, 0, 0⟩, true, .resources, 0,
        ⟨true, none⟩⟩,
    .complete 2, .close 0, .flush 3, .complete 3, .finish 3, .release 3]

theorem pendedOids_completed_once_pendAndClose :
    ∃ s, (machine ⟨16, 40, 200, 28, 40, 20, 100⟩
        ⟨true, 1500, 0, 0, [], 0⟩).Reachable s ∧
      (s.completions =
          [⟨2, .regular, 0, .resources⟩, ⟨3, .regular, 1, .success⟩] ∧
        s.calls.keys = [] ∧ s.owner = none) ∧
      PendedOnce ⟨16, 40, 200, 28, 40, 20, 100⟩ s :=
  (Machine.exists_reachable_of_run
      pendAndClose (by decide +kernel)).imp fun s ⟨hs, hrun⟩ =>
      ⟨hs, hrun, pendedOids_completed_once _ _ s hs⟩

end OidPath

end WinNetTest.Fnmp
