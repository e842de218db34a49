import WinNetTest.Fnmp.Adapters

/-!
# What the calls do to adapters

The actions of initializations, halts, opens and closes, by their effect on the
reference counts, the list of adapters and the handles.
-/

namespace WinNetTest.Fnmp.Adapters

open Support

/-! ## Reference counts -/

theorem count_update (x : Shared) (a a' : ℕ) (f : Adapter → Adapter) :
    (x.update a f).count a' = if a' = a then
        (x.adapters.lookup a).map fun adapter => (f adapter).referenceCount
      else x.count a' := by
  unfold Shared.count Shared.update
  cases hlookup : x.adapters.lookup a with
  | none =>
    by_cases hne : a' = a
    · subst hne
      simp [hlookup]
    · simp [hne]
  | some adapter =>
    by_cases hne : a' = a
    · subst hne
      simp
    · simp [hne]

theorem count_mpReferenceAdapter (x : Shared) (a a' : ℕ) :
    (mpReferenceAdapter x a).count a' =
      if a' = a then (x.count a).map fun n => int64 (n + 1)
      else x.count a' := by
  have h := count_update x a a' fun adapter =>
    { adapter with referenceCount := int64 (adapter.referenceCount + 1) }
  simpa [mpReferenceAdapter, Shared.count, Function.comp_def] using h

theorem count_mpDereferenceAdapter (x : Shared) (a a' : ℕ) :
    (mpDereferenceAdapter x a).1.count a' =
      if a' = a then (x.count a).map fun n => int64 (n - 1)
      else x.count a' := by
  have h := count_update x a a' fun adapter =>
    { adapter with referenceCount := int64 (adapter.referenceCount - 1) }
  simpa [mpDereferenceAdapter, Shared.count, Function.comp_def] using h

theorem int64_eq {n : ℤ} (hlow : -1 ≤ n) (hhigh : n ≤ 2 ^ 62) :
    int64 n = n := by
  unfold int64
  rw [Int.bmod_def]
  omega

/-! ## What an action does -/

structure SameLists (x y : Shared) : Prop where
  adapterList : y.adapterList = x.adapterList
  readers : y.readers = x.readers
  miniports : y.miniports = x.miniports
  handles : y.handles = x.handles
  cleanups : y.cleanups = x.cleanups
  events : y.events = x.events

structure Rewrites (x : Shared) (a : ℕ) (y : Shared) : Prop where
  lists : SameLists x y
  contexts : y.contexts = x.contexts
  count : ∀ a', y.count a' = x.count a'
  stopped : x.count a ≠ none → y.stopped = x.stopped

theorem Rewrites.refl (x : Shared) (a : ℕ) : Rewrites x a x :=
  ⟨⟨rfl, rfl, rfl, rfl, rfl, rfl⟩, rfl, fun _ => rfl, fun _ => rfl⟩

theorem rewrites_update (x : Shared) (a : ℕ) {f : Adapter → Adapter}
    (hf : ∀ adapter, (f adapter).referenceCount = adapter.referenceCount) :
    Rewrites x a (x.update a f) := by
  refine ⟨⟨rfl, rfl, rfl, rfl, rfl, rfl⟩, rfl, fun a' => ?_, fun hcount => ?_⟩
  · rw [count_update]
    split
    · rename_i hne
      subst hne
      simp [Shared.count, hf]
    · rfl
  · simpa [Shared.update, Shared.count] using
      fun h => absurd h (by simpa [Shared.count] using hcount)

/-- A reference to an adapter is dropped, and the call goes on to clean it up or
ends, having freed its context. -/
structure Drops (x : Shared) (a : ℕ) (context : Bool) (y : Shared)
    (after : Option Call) : Prop where
  lists : SameLists x y
  count : ∀ a', y.count a' =
    if a' = a then (x.count a).map fun n => int64 (n - 1) else x.count a'
  stopped : ∀ n, x.count a = some n → 0 ≤ int64 (n - 1) → y.stopped = x.stopped
  outcome : y.count a = some 0 ∧ after = some (.cleaning a context) ∧
        y.contexts = x.contexts ∨
      y.count a ≠ some 0 ∧ after = none ∧
        y.contexts = x.contexts - context.toNat

theorem stopped_mpDereferenceAdapter {x : Shared} {a : ℕ} {n : ℤ}
    (hcount : x.count a = some n) (hle : 0 ≤ int64 (n - 1)) :
    (mpDereferenceAdapter x a).1.stopped = x.stopped := by
  have hnew := count_mpDereferenceAdapter x a a
  rw [if_pos rfl, hcount] at hnew
  obtain ⟨_, hlookup, -⟩ := Option.map_eq_some_iff.mp hcount
  change ((x.stopped || (x.adapters.lookup a).isNone) ||
    ((mpDereferenceAdapter x a).1.count a).any _) = _
  rw [hnew, hlookup]
  simp [hle]

variable {x y : Shared} {after : Option Call}

theorem drops_of_afterDereference {a : ℕ} {context : Bool}
    (h : afterDereference (mpDereferenceAdapter x a) a context = (y, after)) :
    Drops x a context y after := by
  have hcount := count_mpDereferenceAdapter x a
  have hstopped : ∀ n, x.count a = some n → 0 ≤ int64 (n - 1) →
      (mpDereferenceAdapter x a).1.stopped = x.stopped := fun n hn hle =>
    stopped_mpDereferenceAdapter hn hle
  have hzero : (mpDereferenceAdapter x a).2 =
      decide ((mpDereferenceAdapter x a).1.count a = some 0) := rfl
  unfold afterDereference at h
  rw [hzero] at h
  split at h
  · rename_i hlast
    cases h
    exact ⟨⟨rfl, rfl, rfl, rfl, rfl, rfl⟩, hcount, hstopped,
      Or.inl ⟨of_decide_eq_true hlast, rfl, rfl⟩⟩
  · rename_i hlast
    have hne : (mpDereferenceAdapter x a).1.count a ≠ some 0 := by
      simpa using hlast
    split at h
    · rename_i hcontext
      subst hcontext
      cases h
      exact ⟨⟨rfl, rfl, rfl, rfl, rfl, rfl⟩, hcount, hstopped,
        Or.inr ⟨hne, rfl, rfl⟩⟩
    · rename_i hcontext
      obtain rfl : context = false := by simpa using hcontext
      cases h
      exact ⟨⟨rfl, rfl, rfl, rfl, rfl, rfl⟩, hcount, hstopped,
        Or.inr ⟨hne, rfl, rfl⟩⟩

inductive Action (x : Shared) (c : ℕ) :
    Option Call → Shared → Option Call → Prop
  | quiet : Action x c none x none
  | created {ifIndex : UInt32} {outcome : InitializeOutcome} :
      Action x c none (mpCreateAdapter x c ifIndex)
        (some (.configuring c outcome))
  | halted {a : ℕ} (hphase : x.miniports.lookup a = some .initialized)
      (hreaders : x.readers = 0) :
      Action x c none (haltSection x c a) (some (.halting a))
  | allocated {request : OpenRequest} (hroom : x.contexts < maxContexts) :
      Action x c none { x with contexts := x.contexts + 1 }
        (some (.searching request))
  | closed {h : ℕ} {handle : Handle}
      (hopen : x.handles.lookup h = some handle) :
      Action x c none { x with handles := x.handles.erase h }
        (some (.closing handle.kind handle.adapter h))
  | inserted {a : ℕ} {outcome : InitializeOutcome} (hreaders : x.readers = 0) :
      Action x c (some (.configuring a outcome))
        { x with
          adapterList := x.adapterList ++ [a]
          miniports := x.miniports.insert a .initialized } none
  | miniportDropped {call : Call} {a : ℕ}
      (hcall : (∃ outcome, call = .configuring a outcome) ∨ call = .halting a)
      {y : Shared} {after : Option Call}
      (hdrops : Drops { x with miniports := x.miniports.insert a .gone } a
        false y after) :
      Action x c (some call) y after
  | notFound {request : OpenRequest} : Action x c (some (.searching request))
        { x with contexts := x.contexts - 1 } none
  | located {request : OpenRequest} {a : ℕ} (hlisted : a ∈ x.adapterList) :
      Action x c (some (.searching request))
        { x with readers := x.readers + 1 } (some (.referencing request a))
  | referenced {request : OpenRequest} {a : ℕ} :
      Action x c (some (.referencing request a))
        { mpReferenceAdapter x a with
          readers := (mpReferenceAdapter x a).readers - 1
          events := .found c a :: (mpReferenceAdapter x a).events }
        (some (.holding request a))
  | opened {request : OpenRequest} {a : ℕ} {y : Shared}
      (hy : Rewrites x a y) :
      Action x c (some (.holding request a))
        { y with handles := y.handles.insert c ⟨request.kind, a⟩ } none
  | refused {request : OpenRequest} {a : ℕ} :
      Action x c (some (.holding request a)) x
        (some (.closing request.kind a c))
  | released {kind : Kind} {a h : ℕ} {y : Shared} (hy : Rewrites x a y) :
      Action x c (some (.closing kind a h)) y (some (.dropping a))
  | handleDropped {a : ℕ} {y : Shared} {after : Option Call}
      (hdrops : Drops x a true y after) :
      Action x c (some (.dropping a)) y after
  | cleaned {a : ℕ} {context : Bool} : Action x c (some (.cleaning a context))
        (if context then
          { mpCleanupAdapter x a with
            contexts := (mpCleanupAdapter x a).contexts - 1 }
        else mpCleanupAdapter x a) none

theorem Action.of_start {c : ℕ} {input : Input}
    (h : start x c input = some (y, after)) : Action x c none y after := by
  cases input with
  | initializeMiniport ifIndex outcome =>
    cases outcome with
    | none =>
      cases h
      exact .quiet
    | some outcome =>
      cases h
      exact .created
  | halt a =>
    obtain ⟨⟨hphase, hreaders⟩, h⟩ := Option.ite_none_right_eq_some.mp h
    cases h
    exact .halted hphase hreaders
  | create request =>
    simp only [start] at h
    split at h
    · cases h
      exact .quiet
    · split at h
      · cases h
        exact .quiet
      · obtain ⟨hroom, h⟩ := Option.ite_none_right_eq_some.mp h
        cases h
        exact .allocated hroom
  | close handle =>
    obtain ⟨handle, hopen, h⟩ := Option.map_eq_some_iff.mp h
    cases h
    exact .closed hopen

theorem Action.of_finishOpen (x : Shared) (c : ℕ) (request : OpenRequest)
    (a : ℕ) :
    Action x c (some (.holding request a)) (finishOpen x c request a).1
      (finishOpen x c request a).2 := by
  have hopened : ∀ {y : Shared}, Rewrites x a y → ∀ {kind : Kind},
      request.kind = kind → Action x c (some (.holding request a))
        { y with handles := y.handles.insert c ⟨kind, a⟩ } none :=
    fun hy _ hkind => hkind ▸ .opened hy
  have hrefused : ∀ {kind : Kind}, request.kind = kind →
      Action x c (some (.holding request a)) x (some (.closing kind a c)) :=
    fun hkind => hkind ▸ .refused
  unfold finishOpen
  cases hkind : request.kind with
  | shared =>
    dsimp only
    split
    · exact hopened (.refl x a) hkind
    · exact hrefused hkind
  | exclusive =>
    dsimp only
    split
    · exact hrefused hkind
    · refine hopened (y := x.update a fun adapter =>
        { adapter with userContext := some c }) ?_ hkind
      exact rewrites_update x a fun _ => rfl

theorem Action.of_advance {c : ℕ} {call : Call}
    (h : advance x c call = some (y, after)) :
    Action x c (some call) y after := by
  cases call with
  | configuring a outcome =>
    simp only [advance] at h
    split at h
    · obtain ⟨hreaders, h⟩ := Option.ite_none_right_eq_some.mp h
      cases h
      exact .inserted hreaders
    · exact .miniportDropped (Or.inl ⟨_, rfl⟩)
        (drops_of_afterDereference (Option.some.inj h))
  | halting a =>
    exact .miniportDropped (Or.inr rfl)
      (drops_of_afterDereference (Option.some.inj h))
  | searching request =>
    simp only [advance] at h
    split at h
    · cases h
      exact .notFound
    · rename_i a hfind
      cases h
      exact .located (List.mem_of_find?_eq_some hfind)
  | referencing request a =>
    cases h
    exact .referenced
  | holding request a =>
    have hfinish := Action.of_finishOpen x c request a
    rwa [show finishOpen x c request a = (y, after) from
      Option.some.inj h] at hfinish
  | closing kind a handle =>
    cases h
    refine .released ?_
    cases kind with
    | shared => exact .refl x a
    | exclusive => exact rewrites_update x a fun _ => rfl
  | dropping a =>
    exact .handleDropped (drops_of_afterDereference (Option.some.inj h))
  | cleaning a context =>
    cases h
    exact .cleaned

theorem Action.of_turn {s : Pool Shared Call} {c n : ℕ} {y : Shared}
    {before after : Option Call} (h : program.Turn s c before n y after) :
    Action s.shared c before y after := by
  cases h with
  | start hc hstart => exact .of_start hstart
  | advance hc hadvance => exact .of_advance hadvance

end WinNetTest.Fnmp.Adapters
