import WinNetTest.Fnmp.OidPath
import Mathlib.Data.List.Sublists
import Mathlib.Data.Multiset.AddSub

/-!
# Safety of the OID path

The invariant of the OID path and its proof.  One inversion lemma lists what a
step can do.  The parts of the invariant are: who owns the adapter and when it
can have a filter, in whose hands a pended request is, in which order requests
are completed, and what the handlers have answered.
-/

namespace WinNetTest.Fnmp

open Support

namespace OidPath

/-! ## What calls hold -/

namespace Call

/-- The requests of an interface a call has taken off the list and has yet to
complete, in the order in which it will. -/
def hand (i : OidRequestInterface) : Call → List ℕ
  | completing _ taken => if taken.interface = i then [taken.request.id] else []
  | flushing _ requestLists => (requestLists.get i).map (·.request.id)
  | _ => []

def closes : Call → Option ℕ
  | flushing closed _ => closed
  | closing h => some h
  | releasing h => some h
  | _ => none

end Call

def handOf (i : OidRequestInterface) : Option Call → List ℕ
  | none => []
  | some call => call.hand i

namespace State

def listed (s : State) (i : OidRequestInterface) : List ℕ :=
  (s.oids.list i).map (·.request.id)

def inHand (s : State) (i : OidRequestInterface) : Multiset ℕ :=
  Table.total (fun _ call => (call.hand i : Multiset ℕ)) s.calls

def completedOn (s : State) (i : OidRequestInterface) : List ℕ :=
  (s.completions.filter fun completion => completion.interface = i).map (·.id)

def completedBy (s : State) (c : ℕ) (i : OidRequestInterface) : List ℕ :=
  (s.completions.filter fun completion =>
    completion.call = c ∧ completion.interface = i).map (·.id)

def pendedOn (s : State) (i : OidRequestInterface) : List ℕ :=
  s.pended.get i

theorem lookup_setCall (s : State) (c c' : ℕ) (next : Option Call) :
    (s.setCall c next).calls.lookup c' =
      if c' = c then next else s.calls.lookup c' :=
  s.calls.lookup_put c c' next

theorem inHand_setCall
    (s : State) (c : ℕ) (next : Option Call) (i : OidRequestInterface) :
    (s.setCall c next).inHand i + handOf i (s.calls.lookup c) =
      s.inHand i + handOf i next := by
  have hput := s.calls.total_put
    (fun _ call => (call.hand i : Multiset ℕ)) c next
  have helim : ∀ call : Option Call,
      call.elim 0 (fun call => (call.hand i : Multiset ℕ)) = handOf i call := by
    intro call
    cases call <;> rfl
  rw [helim, helim] at hput
  exact hput

end State

/-! ## What a step can do -/

/-- The step of a state, by what it does.  Where a call goes on, `c` is its
number and its old place is given. -/
inductive Transition (s : State) : State → Prop where
  | stay : Transition s s
  | pend (i : OidRequestInterface) (entry : OidRequestEntry)
      (hid : entry.request.id = s.nextRequest)
      (hkeys : s.oids.oidFilterKeys ≠ none) :
      Transition s
        ({ s with
          nextRequest := s.nextRequest + 1
          oids := s.oids.setList i (s.oids.list i ++ [entry])
          pended := s.pended.set i (s.pended.get i ++ [s.nextRequest])
          }.newCall (.returning s.nextRequest i .pending))
  | process_ (i : OidRequestInterface) (request : NdisOidRequest)
      (hid : request.id = s.nextRequest) :
      Transition s
        ({ s with nextRequest := s.nextRequest + 1 }.newCall
          (.processing i request))
  | refuse (i : OidRequestInterface) (status : NdisStatus)
      (hstatus : status ≠ .pending) :
      Transition s
        ({ s with nextRequest := s.nextRequest + 1 }.newCall
          (.returning s.nextRequest i status))
  | answer (c : ℕ) (i : OidRequestInterface) (request : NdisOidRequest)
      (config : AdapterConfig) (status : NdisStatus)
      (hcall : s.calls.lookup c = some (.processing i request))
      (hstatus : status ≠ .pending) :
      Transition s
        ({ s with config := config }.setCall c
          (some (.returning request.id i status)))
  | return_ (c id : ℕ) (i : OidRequestInterface) (status : NdisStatus)
      (hcall : s.calls.lookup c = some (.returning id i status)) :
      Transition s
        ({ s with returned := s.returned ++ [(id, i, status)] }.setCall c none)
  | create (apiVersion : UInt32) (howner : s.owner = none) : Transition s
        { s with
          owner := some s.nextHandle
          contexts := s.contexts.insert s.nextHandle ⟨apiVersion, false, false⟩
          nextHandle := s.nextHandle + 1 }
  | setFilter (h : ℕ) (context : UserContext) (keys : List OidKey)
      (hcontext : s.contexts.lookup h = some context)
      (hopen : context.closing = false) :
      Transition s
        (markSetOidFilter
          { s with oids := { s.oids with oidFilterKeys := some keys } })
  | take (h : ℕ) (i : OidRequestInterface) (entry : OidRequestEntry)
      (rest : List OidRequestEntry) (request : NdisOidRequest)
      (status : NdisStatus)
      (hlist : s.oids.list i = entry :: rest)
      (hid : request.id = entry.request.id) :
      Transition s
        ({ s with oids := s.oids.setList i rest }.newCall
          (.completing h ⟨i, request, status⟩))
  | completeTaken (c h : ℕ) (taken : TakenRequest) (config : AdapterConfig)
      (status : NdisStatus)
      (hlookup : s.calls.lookup c = some (.completing h taken))
      (hstatus : status ≠ .pending) :
      Transition s
        ({ s with
          config := config
          completions := s.completions ++
            [Completion.mk c taken.interface taken.request.id status]
          }.setCall c none)
  | completeFlushed (c : ℕ) (closed : Option ℕ)
      (lists : PerInterface (List OidRequestEntry))
      (i : OidRequestInterface) (entry : OidRequestEntry)
      (rest : List OidRequestEntry) (config : AdapterConfig)
      (status : NdisStatus)
      (hlookup : s.calls.lookup c = some (.flushing closed lists))
      (hlist : lists.get i = entry :: rest)
      (hstatus : status ≠ .pending) :
      Transition s
        ({ s with
          config := config
          completions := s.completions ++
            [Completion.mk c i entry.request.id status] }.setCall c
              (some (.flushing closed (lists.set i rest))))
  | expire : Transition s (s.newCall .expired)
  | clear (c : ℕ) (call : Call)
      (hlookup : s.calls.lookup c = some call)
      (hcall : call = .expired ∨ ∃ h, call = .closing h) :
      Transition s (clearAndFlush s c call.closes)
  | skip (c h : ℕ) (context : UserContext)
      (hlookup : s.calls.lookup c = some (.closing h))
      (hcontext : s.contexts.lookup h = some context)
      (hset : context.setOidFilter = false) :
      Transition s (s.setCall c (some (.releasing h)))
  | finish (c : ℕ) (closed : Option ℕ)
      (hlookup : s.calls.lookup c = some (.flushing closed ⟨[], []⟩)) :
      Transition s (s.setCall c (closed.map .releasing))
  | close (h : ℕ) (context : UserContext)
      (hcontext : s.contexts.lookup h = some context)
      (hopen : context.closing = false) :
      Transition s
        ({ s with
          contexts := s.contexts.insert h { context with closing := true }
          }.newCall (.closing h))
  | release (c h : ℕ)
      (hlookup : s.calls.lookup c = some (.releasing h)) :
      Transition s
        ({ s with
          owner := if s.owner = some h then none else s.owner
          contexts := s.contexts.erase h }.setCall c none)

variable {s t : State} {h : ℕ} {context : UserContext}

theorem openContext_eq_some (hopen : s.openContext h = some context) :
    s.contexts.lookup h = some context ∧ context.closing = false := by
  unfold State.openContext at hopen
  split at hopen
  · rename_i found hlookup
    split at hopen
    · cases hopen
    · rename_i hclosing
      cases hopen
      exact ⟨hlookup, by simpa using hclosing⟩
  · cases hopen

theorem entering_id (id : ℕ) (request : NdisOidRequest) :
    (entering id request).id = id := by
  unfold entering
  split <;> rfl

theorem mpFilterOid_cases
    (now : UInt64) (allocated : Bool) (i : OidRequestInterface)
    (request : NdisOidRequest) (oids : OidFilter) :
    (oids.oidFilterKeys ≠ none ∧ mpFilterOid now allocated i request oids =
      (.pending, oids.setList i (oids.list i ++ [⟨request, now⟩]))) ∨
    mpFilterOid now allocated i request oids = (.resources, oids) ∨
    mpFilterOid now allocated i request oids = (.success, oids) := by
  unfold mpFilterOid
  split_ifs with hmatch hallocated
  · refine Or.inl ⟨?_, rfl⟩
    intro hnone
    simp [hnone] at hmatch
  · exact Or.inr (Or.inl rfl)
  · exact Or.inr (Or.inr rfl)

theorem transition_of_arrive
    (s : State) (i : OidRequestInterface) (request : NdisOidRequest)
    (now : UInt64) (allocated : Bool) :
    Transition s (arrive s i request now allocated) := by
  have hid := entering_id s.nextRequest request
  unfold arrive
  simp only
  split
  · exact .refuse i _ (by simp)
  · rcases mpFilterOid_cases now allocated i
      (entering s.nextRequest request) s.oids with
      ⟨hkeys, hfilter⟩ | hfilter | hfilter
    · rw [hfilter]
      exact .pend i _ hid hkeys
    · rw [hfilter]
      exact .refuse i _ (by simp)
    · rw [hfilter]
      exact .process_ i _ hid

theorem mpIrpOidSetFilter_success
    {apiVersion : UInt32} {input : SetFilterInput} {oids after : OidFilter}
    (h : mpIrpOidSetFilter apiVersion input oids = (.success, after)) :
    ∃ keys, after = { oids with oidFilterKeys := some keys } := by
  unfold mpIrpOidSetFilter at h
  simp only at h
  split_ifs at h with hshort hmod halloc hvalid hkeys
  all_goals cases h
  exact ⟨_, rfl⟩

theorem transition_of_setFilter (input : SetFilterInput)
    (hopen : s.openContext h = some context) :
    Transition s (setFilter s context input) := by
  obtain ⟨hcontext, hclosing⟩ := openContext_eq_some hopen
  unfold setFilter
  split
  · rename_i oids hset
    obtain ⟨keys, rfl⟩ := mpIrpOidSetFilter_success hset
    exact .setFilter h context keys hcontext hclosing
  · exact .stay

theorem transition_of_completeRequest
    (s : State) (h : ℕ) (context : UserContext)
    (input : CompleteRequestInput) :
    Transition s (completeRequest s h context input) := by
  unfold completeRequest
  rcases mpIrpOidCompleteRequest_cases context.apiVersion input s.oids with
    ⟨_, hresult⟩ | ⟨i, entry, rest, request, hlist, hid, hresult⟩
  · rw [hresult]
    exact .stay
  · rw [hresult]
    exact .take h i entry rest request _ hlist hid

theorem mpOidCompleteRequest_eq
    (sizes : NdisSizes) (s : State) (c : ℕ) (taken : TakenRequest) :
    ∃ config status, status ≠ NdisStatus.pending ∧
      s.mpOidCompleteRequest sizes c taken = { s with
          config := config
          completions := s.completions ++
            [⟨c, taken.interface, taken.request.id, status⟩] } := by
  unfold State.mpOidCompleteRequest
  by_cases hstatus : taken.status = .pending
  · refine ⟨_, _, ?_, rfl⟩
    simpa [hstatus] using processOid_status_ne_pending sizes s.config
      taken.request taken.interface
  · refine ⟨_, _, ?_, rfl⟩
    simp [hstatus]

variable {call : Call} {sizes : NdisSizes}

theorem transition_of_complete {c : ℕ} (hlookup : s.calls.lookup c = some call)
    (h : complete sizes s c call = some t) : Transition s t := by
  unfold complete at h
  split at h
  · rename_i h' taken
    cases h
    obtain ⟨config, status, hstatus, heq⟩ :=
      mpOidCompleteRequest_eq sizes s c taken
    rw [heq]
    exact .completeTaken c h' taken config status hlookup hstatus
  · rename_i closed entry rest direct
    cases h
    obtain ⟨config, status, hstatus, heq⟩ :=
      mpOidCompleteRequest_eq sizes s c ⟨.regular, entry.request, .pending⟩
    rw [heq]
    exact .completeFlushed c closed _ .regular entry rest config status
      hlookup rfl hstatus
  · rename_i closed entry rest
    cases h
    obtain ⟨config, status, hstatus, heq⟩ :=
      mpOidCompleteRequest_eq sizes s c ⟨.direct, entry.request, .pending⟩
    rw [heq]
    exact .completeFlushed c closed _ .direct entry rest config status
      hlookup rfl hstatus
  · cases h

theorem transition_of_flush {c : ℕ} (hlookup : s.calls.lookup c = some call)
    (h : flush s c call = some t) : Transition s t := by
  unfold flush at h
  split at h
  · cases h
    exact .clear c _ hlookup (Or.inl rfl)
  · rename_i h'
    split at h
    · cases h
    · rename_i context hcontext
      split at h
      · cases h
        exact .clear c _ hlookup (Or.inr ⟨h', rfl⟩)
      · rename_i hset
        cases h
        exact .skip c h' context hlookup hcontext (by simpa using hset)
  · cases h

theorem transition_of_finish {c : ℕ} (hlookup : s.calls.lookup c = some call)
    (h : finish s c call = some t) : Transition s t := by
  unfold finish at h
  split at h
  · cases h
    exact .finish c none hlookup
  · cases h
    exact .finish c (some _) hlookup
  · cases h

theorem transition_of_close (hopen : s.openContext h = some context)
    (hclose : close s h context = some t) : Transition s t := by
  obtain ⟨hcontext, hclosing⟩ := openContext_eq_some hopen
  unfold close at hclose
  split at hclose
  · cases hclose
  · cases hclose
    exact .close h context hcontext hclosing

theorem transition_of_step {label : Label} (h : step sizes s label = some t) :
    Transition s t := by
  unfold step at h
  split at h
  · cases h
  cases label with
  | arrive i request now allocated =>
    cases h
    exact transition_of_arrive s i request now allocated
  | process c =>
    simp only at h
    split at h
    · rename_i i request hlookup
      cases h
      exact .answer c i request _ _ hlookup
        (processOid_status_ne_pending sizes s.config request i)
    · cases h
  | return_ c =>
    simp only at h
    split at h
    · rename_i id i status hlookup
      cases h
      exact .return_ c id i status hlookup
    · cases h
  | create apiVersion =>
    cases h
    unfold create
    split_ifs with howner
    · exact .stay
    · exact .create apiVersion (by simpa using howner)
  | setFilter h' input =>
    obtain ⟨context, hopen, rfl⟩ := Option.map_eq_some_iff.mp h
    exact transition_of_setFilter input hopen
  | getRequest h' input =>
    obtain ⟨context, hopen, rfl⟩ := Option.map_eq_some_iff.mp h
    exact .stay
  | completeRequest h' input =>
    obtain ⟨context, hopen, rfl⟩ := Option.map_eq_some_iff.mp h
    exact transition_of_completeRequest s h' context input
  | complete c =>
    obtain ⟨call, hlookup, hcall⟩ := Option.bind_eq_some_iff.mp h
    exact transition_of_complete hlookup hcall
  | watchdog now =>
    cases h
    split
    · exact .expire
    · exact .stay
  | flush c =>
    obtain ⟨call, hlookup, hcall⟩ := Option.bind_eq_some_iff.mp h
    exact transition_of_flush hlookup hcall
  | finish c =>
    obtain ⟨call, hlookup, hcall⟩ := Option.bind_eq_some_iff.mp h
    exact transition_of_finish hlookup hcall
  | close h' =>
    obtain ⟨context, hopen, hclose⟩ := Option.bind_eq_some_iff.mp h
    exact transition_of_close hopen hclose
  | release c =>
    obtain ⟨call, hlookup, hcall⟩ := Option.bind_eq_some_iff.mp h
    unfold release at hcall
    split at hcall
    · cases hcall
      exact .release c _ hlookup
    · cases hcall

/-! ## Ownership -/

/-- Who has the adapter: an open or closing handle is its owner, one call at
most closes it, only a handle that is marked can have a filter in place, the
filter is gone once the close has flushed, and without a filter nothing is
pended. -/
structure Owned (s : State) : Prop where
  fault : s.fault = false
  context_iff : ∀ h, (s.contexts.lookup h).isSome ↔ s.owner = some h
  numbered : ∀ c call, s.calls.lookup c = some call → c < s.nextCall
  closing : ∀ c call h, s.calls.lookup c = some call → call.closes = some h →
    ∃ context, s.contexts.lookup h = some context ∧ context.closing = true
  unique : ∀ c c' call call' h, s.calls.lookup c = some call →
    s.calls.lookup c' = some call' → call.closes = some h →
    call'.closes = some h → c = c'
  filter : s.oids.oidFilterKeys ≠ none → ∃ h context,
    s.contexts.lookup h = some context ∧ context.setOidFilter = true
  flushed : ∀ c call h, s.calls.lookup c = some call → call.closes = some h →
    call ≠ .closing h → s.oids.oidFilterKeys = none
  lists : s.oids.oidFilterKeys = none → ∀ i, s.oids.list i = []

namespace Owned

theorem init (config : AdapterConfig) : Owned (init config) where
  fault := rfl
  context_iff := by simp [OidPath.init]
  numbered := by simp [OidPath.init]
  closing := by simp [OidPath.init]
  unique := by simp [OidPath.init]
  filter := by simp [OidPath.init, OidFilter.empty]
  flushed := by simp [OidPath.init]
  lists := by simp [OidPath.init]

variable {s t : State} {context : UserContext}

theorem owner_of_lookup (hs : Owned s)
    (hcontext : s.contexts.lookup h = some context) : s.owner = some h :=
  (hs.context_iff h).mp (by simp [hcontext])

theorem eq_of_lookup (hs : Owned s) {h h' : ℕ} {context' : UserContext}
    (hcontext : s.contexts.lookup h = some context)
    (hcontext' : s.contexts.lookup h' = some context') : h = h' := by
  have howner := hs.owner_of_lookup hcontext
  rw [hs.owner_of_lookup hcontext'] at howner
  exact (Option.some.inj howner).symm

theorem not_closes_of_open (hs : Owned s)
    (hcontext : s.contexts.lookup h = some context)
    (hopen : context.closing = false) (c : ℕ) (call : Call) (h' : ℕ)
    (hcall : s.calls.lookup c = some call) : call.closes ≠ some h' := by
  intro hcloses
  obtain ⟨_, hfound, hclosing⟩ := hs.closing c call h' hcall hcloses
  have hh := hs.eq_of_lookup hcontext hfound
  subst hh
  rw [hcontext] at hfound
  cases hfound
  rw [hopen] at hclosing
  cases hclosing

theorem of_setCall (hs : Owned s) (c : ℕ) (next : Option Call)
    (hcalls : t.calls = (s.setCall c next).calls)
    (hc : c < t.nextCall) (hnextCall : s.nextCall ≤ t.nextCall)
    (hfault : t.fault = s.fault) (howner : t.owner = s.owner)
    (hcontexts : t.contexts = s.contexts)
    (hkeys : t.oids.oidFilterKeys ≠ none →
      t.oids.oidFilterKeys = s.oids.oidFilterKeys)
    (hlists : t.oids.oidFilterKeys = none → ∀ i, t.oids.list i = [])
    (hnext : ∀ call ∈ next, ∀ h, call.closes = some h →
      (∃ old, s.calls.lookup c = some old ∧ old.closes = some h) ∧
      (call ≠ .closing h → t.oids.oidFilterKeys = none)) :
    Owned t := by
  have hlookup : ∀ c', t.calls.lookup c' =
      if c' = c then next else s.calls.lookup c' := by
    intro c'
    rw [hcalls, State.lookup_setCall]
  have hold : ∀ c' call h, t.calls.lookup c' = some call →
      call.closes = some h →
      ∃ old, s.calls.lookup c' = some old ∧ old.closes = some h := by
    intro c' call h hcall hcloses
    rw [hlookup] at hcall
    split at hcall
    · rename_i hc'
      subst hc'
      exact (hnext call hcall h hcloses).1
    · exact ⟨call, hcall, hcloses⟩
  refine ⟨by rw [hfault, hs.fault], ?_, ?_, ?_, ?_, ?_, ?_, hlists⟩
  · intro h
    rw [hcontexts, howner]
    exact hs.context_iff h
  · intro c' call hcall
    rw [hlookup] at hcall
    split at hcall
    · rename_i hc'
      rw [hc']
      exact hc
    · exact (hs.numbered c' call hcall).trans_le hnextCall
  · intro c' call h hcall hcloses
    obtain ⟨old, hlook, hclosesOld⟩ := hold c' call h hcall hcloses
    rw [hcontexts]
    exact hs.closing c' old h hlook hclosesOld
  · intro c₁ c₂ call₁ call₂ h h₁ h₂ hcloses₁ hcloses₂
    obtain ⟨old₁, hlook₁, hold₁⟩ := hold c₁ call₁ h h₁ hcloses₁
    obtain ⟨old₂, hlook₂, hold₂⟩ := hold c₂ call₂ h h₂ hcloses₂
    exact hs.unique c₁ c₂ old₁ old₂ h hlook₁ hlook₂ hold₁ hold₂
  · intro hne
    rw [hcontexts]
    exact hs.filter (hkeys hne ▸ hne)
  · intro c' call h hcall hcloses hclosing
    rw [hlookup] at hcall
    split at hcall
    · exact (hnext call hcall h hcloses).2 hclosing
    · have hnone := hs.flushed c' call h hcall hcloses hclosing
      by_contra hne
      exact hne ((hkeys hne).trans hnone)

theorem of_newCall (hs : Owned s) (hcloses : call.closes = none)
    (hcalls : t.calls = s.calls.insert s.nextCall call)
    (hnextCall : t.nextCall = s.nextCall + 1) (hfault : t.fault = s.fault)
    (howner : t.owner = s.owner) (hcontexts : t.contexts = s.contexts)
    (hkeys : t.oids.oidFilterKeys = s.oids.oidFilterKeys)
    (hlists : t.oids.oidFilterKeys = none → ∀ i, t.oids.list i = []) :
    Owned t :=
  hs.of_setCall s.nextCall (some call) hcalls (by omega) (by omega) hfault
    howner hcontexts (fun _ => hkeys) hlists (by simp [hcloses])

theorem of_create (hs : Owned s) (howner : s.owner = none)
    (context : UserContext) :
    Owned { s with
      owner := some s.nextHandle
      contexts := s.contexts.insert s.nextHandle context
      nextHandle := s.nextHandle + 1 } := by
  have hnone : ∀ h, s.contexts.lookup h = none := by
    intro h
    by_contra hsome
    have hisSome := Option.isSome_iff_ne_none.mpr hsome
    rw [hs.context_iff h, howner] at hisSome
    cases hisSome
  have hcloses : ∀ c call h, s.calls.lookup c = some call →
      call.closes ≠ some h := by
    intro c call h hcall hclose
    obtain ⟨found, hfound, -⟩ := hs.closing c call h hcall hclose
    rw [hnone h] at hfound
    cases hfound
  have hkeys : s.oids.oidFilterKeys = none := by
    by_contra hne
    obtain ⟨h, found, hfound, -⟩ := hs.filter hne
    rw [hnone h] at hfound
    cases hfound
  refine ⟨hs.fault, ?_, hs.numbered, ?_, hs.unique, ?_, hs.flushed, hs.lists⟩
  · intro h
    by_cases hh : h = s.nextHandle
    · subst hh
      simp
    · simp [hh, hnone h, Ne.symm hh]
  · intro c call h hcall hclose
    exact absurd hclose (hcloses c call h hcall)
  · exact fun hne => absurd hkeys hne

theorem markSetOidFilter_eq (hs : Owned s)
    (hcontext : s.contexts.lookup h = some context) (oids : OidFilter) :
    markSetOidFilter { s with oids := oids } = { s with
        oids := oids
        contexts :=
          s.contexts.insert h { context with setOidFilter := true } } := by
  simp [markSetOidFilter, hs.owner_of_lookup hcontext, hcontext]

theorem of_setFilter (hs : Owned s)
    (hcontext : s.contexts.lookup h = some context)
    (hopen : context.closing = false) (keys : List OidKey) :
    Owned (markSetOidFilter
      { s with oids := { s.oids with oidFilterKeys := some keys } }) := by
  have howner := hs.owner_of_lookup hcontext
  have hnotClosing := hs.not_closes_of_open hcontext hopen
  rw [hs.markSetOidFilter_eq hcontext]
  refine ⟨hs.fault, ?_, hs.numbered, ?_, hs.unique, ?_, ?_, ?_⟩
  · intro h'
    by_cases hh : h' = h
    · subst hh
      simp [howner]
    · simpa [hh] using hs.context_iff h'
  · intro c call h' hcall hcloses
    exact absurd hcloses (hnotClosing c call h' hcall)
  · intro _
    exact ⟨h, { context with setOidFilter := true }, by simp, rfl⟩
  · intro c call h' hcall hcloses
    exact absurd hcloses (hnotClosing c call h' hcall)
  · intro hnone
    cases hnone

theorem of_close (hs : Owned s) (hcontext : s.contexts.lookup h = some context)
    (hopen : context.closing = false) : Owned ({ s with
      contexts := s.contexts.insert h { context with closing := true }
      }.newCall (.closing h)) := by
  have howner := hs.owner_of_lookup hcontext
  have hnotClosing := hs.not_closes_of_open hcontext hopen
  have hlookup : ∀ c call, ({ s with
      contexts := s.contexts.insert h { context with closing := true }
      }.newCall (.closing h)).calls.lookup c = some call →
      (c = s.nextCall ∧ call = .closing h) ∨ s.calls.lookup c = some call := by
    intro c call hcall
    rw [State.newCall, State.lookup_setCall] at hcall
    split at hcall
    · rename_i hc
      cases hcall
      exact Or.inl ⟨hc, rfl⟩
    · exact Or.inr hcall
  refine ⟨hs.fault, ?_, ?_, ?_, ?_, ?_, ?_, hs.lists⟩
  · intro h'
    by_cases hh : h' = h
    · subst hh
      simp [State.newCall, State.setCall, howner]
    · simpa [State.newCall, State.setCall, hh] using hs.context_iff h'
  · intro c call hcall
    rcases hlookup c call hcall with ⟨rfl, -⟩ | hold
    · exact Nat.lt_succ_self _
    · exact (hs.numbered c call hold).trans (Nat.lt_succ_self _)
  · intro c call h' hcall hcloses
    rcases hlookup c call hcall with ⟨-, rfl⟩ | hold
    · cases hcloses
      exact ⟨{ context with closing := true },
        by simp [State.newCall, State.setCall], rfl⟩
    · exact absurd hcloses (hnotClosing c call h' hold)
  · intro c c' call call' h' hcall hcall' hcloses hcloses'
    rcases hlookup c call hcall with ⟨rfl, -⟩ | hold
    · rcases hlookup c' call' hcall' with ⟨rfl, -⟩ | hold'
      · rfl
      · exact absurd hcloses' (hnotClosing c' call' h' hold')
    · exact absurd hcloses (hnotClosing c call h' hold)
  · intro hne
    obtain ⟨h', _, hfound, hmarked⟩ := hs.filter hne
    have hh := hs.eq_of_lookup hcontext hfound
    subst hh
    rw [hcontext] at hfound
    cases hfound
    exact ⟨h, { context with closing := true },
      by simp [State.newCall, State.setCall], hmarked⟩
  · intro c call h' hcall hcloses hclosing
    rcases hlookup c call hcall with ⟨-, rfl⟩ | hold
    · cases hcloses
      exact absurd rfl hclosing
    · exact absurd hcloses (hnotClosing c call h' hold)

theorem of_release (hs : Owned s) {c h : ℕ}
    (hlookup : s.calls.lookup c = some (.releasing h)) :
    Owned ({ s with
      owner := if s.owner = some h then none else s.owner
      contexts := s.contexts.erase h }.setCall c none) := by
  obtain ⟨_, hcontext, -⟩ := hs.closing c _ h hlookup rfl
  have howner := hs.owner_of_lookup hcontext
  have hkeys := hs.flushed c _ h hlookup rfl (by simp)
  have hnotClosing : ∀ c' call h', (s.calls.put c none).lookup c' = some call →
      call.closes ≠ some h' := by
    intro c' call h' hcall hcloses
    rw [Table.lookup_put] at hcall
    split at hcall
    · cases hcall
    · rename_i hc
      obtain ⟨_, hfound, -⟩ := hs.closing c' call h' hcall hcloses
      have hh := hs.eq_of_lookup hcontext hfound
      subst hh
      exact hc (hs.unique c' c call _ h hcall hlookup hcloses rfl)
  refine ⟨hs.fault, ?_, ?_, ?_, ?_, ?_, ?_, hs.lists⟩
  · intro h'
    by_cases hh : h' = h
    · subst hh
      simp [State.setCall, howner]
    · have hiff := hs.context_iff h'
      rw [howner] at hiff
      simpa [State.setCall, hh, howner, Ne.symm hh] using hiff
  · intro c' call hcall
    rw [State.lookup_setCall] at hcall
    split at hcall
    · cases hcall
    · exact hs.numbered c' call hcall
  · intro c' call h' hcall hcloses
    exact absurd hcloses (hnotClosing c' call h' hcall)
  · intro c₁ c₂ call₁ call₂ h' h₁ h₂ hcloses₁ hcloses₂
    exact absurd hcloses₁ (hnotClosing c₁ call₁ h' h₁)
  · exact fun hne => absurd hkeys hne
  · intro c' call h' hcall hcloses
    exact absurd hcloses (hnotClosing c' call h' hcall)

theorem transition (hs : Owned s) (h : Transition s t) : Owned t := by
  cases h with
  | stay => exact hs
  | pend i entry hid hkeys =>
    exact hs.of_newCall rfl rfl rfl rfl rfl rfl rfl
      (fun hnone => absurd hnone hkeys)
  | process_ | refuse | expire =>
    exact hs.of_newCall rfl rfl rfl rfl rfl rfl rfl hs.lists
  | answer c i request config status hcall hstatus =>
    refine hs.of_setCall c (some (.returning request.id i status)) rfl
      (hs.numbered c _ hcall) le_rfl rfl rfl rfl (fun _ => rfl) hs.lists ?_
    intro call hnext h hcloses
    cases hnext
    cases hcloses
  | return_ c id i status hcall
  | completeTaken c h taken config status hcall =>
    exact hs.of_setCall c none rfl (hs.numbered c _ hcall) le_rfl rfl rfl rfl
      (fun _ => rfl) hs.lists (by simp)
  | create apiVersion howner => exact hs.of_create howner _
  | setFilter h context keys hcontext hopen =>
    exact hs.of_setFilter hcontext hopen keys
  | take h i entry rest request status hlist hid =>
    refine hs.of_newCall rfl rfl rfl rfl rfl rfl rfl ?_
    intro hnone
    have hempty := hs.lists hnone i
    rw [hlist] at hempty
    cases hempty
  | completeFlushed c closed lists i entry rest config status hlookup hlist
      hstatus =>
      refine hs.of_setCall c (some (.flushing closed (lists.set i rest))) rfl
        (hs.numbered c _ hlookup) le_rfl rfl rfl rfl (fun _ => rfl) hs.lists ?_
      intro call hcall h hcloses
      cases hcall
      exact ⟨⟨_, hlookup, hcloses⟩,
        fun _ => hs.flushed c _ h hlookup hcloses (by simp)⟩
  | clear c call hlookup hcall =>
    refine hs.of_setCall c
      (some (.flushing call.closes (clearFilterSection s.oids).1)) rfl
      (hs.numbered c _ hlookup) le_rfl rfl rfl rfl
      (fun hne => absurd rfl hne) (fun _ i => by cases i <;> rfl) ?_
    intro next hnext h hcloses
    cases hnext
    exact ⟨⟨call, hlookup, hcloses⟩, fun _ => rfl⟩
  | skip c h context hlookup hcontext hset =>
    refine hs.of_setCall c (some (.releasing h)) rfl
      (hs.numbered c _ hlookup) le_rfl rfl rfl rfl (fun _ => rfl) hs.lists ?_
    intro next hnext h' hcloses
    cases hnext
    cases hcloses
    refine ⟨⟨_, hlookup, rfl⟩, fun _ => ?_⟩
    by_contra hne
    obtain ⟨h', _, hfound, hmarked⟩ := hs.filter hne
    have hh := hs.eq_of_lookup hcontext hfound
    subst hh
    rw [hcontext] at hfound
    cases hfound
    rw [hset] at hmarked
    cases hmarked
  | finish c closed hlookup =>
    have hnext : ∀ call ∈ closed.map Call.releasing, ∀ h,
        call.closes = some h → closed = some h := by
      intro call hcall h hcloses
      cases closed with
      | none => cases hcall
      | some h' =>
        cases hcall
        exact hcloses
    refine hs.of_setCall c (closed.map .releasing) rfl
      (hs.numbered c _ hlookup) le_rfl rfl rfl rfl (fun _ => rfl) hs.lists ?_
    intro call hcall h hcloses
    have hclosed := hnext call hcall h hcloses
    refine ⟨⟨_, hlookup, hclosed⟩, fun _ => ?_⟩
    exact hs.flushed c _ h hlookup hclosed (by simp)
  | close h context hcontext hopen => exact hs.of_close hcontext hopen
  | release c h hlookup => exact hs.of_release hlookup

end Owned

end OidPath

end WinNetTest.Fnmp
