import WinNetTest.Fnmp.AdapterActions

/-!
# The list of adapters

The list holds the adapters whose miniports are initialized.  The lock keeps an
adapter in the list from the moment an open has found it until the open has
referenced it, so that no open gets an adapter that a halt has removed.
-/

namespace WinNetTest.Fnmp.Adapters

open Support

/-! ## The lock of the list -/

def Call.reads : Call → ℕ
  | .referencing _ _ => 1
  | _ => 0

variable {s : Pool Shared Call}

theorem readers_eq (hs : machine.Reachable s) :
    s.shared.readers = s.calls.total fun _ => Call.reads := by
  have h := Program.conserved (P := program) (fun _ => Call.reads)
    (fun x => x.readers) (fun _ => 0) rfl ?_ hs
  · simpa using h
  · intro s c before n y after hreach ih hbefore hturn
    have hsplit := s.calls.total_eq_erase (fun _ => Call.reads) c
    rw [hbefore] at hsplit
    cases Action.of_turn hturn with
    | miniportDropped hcall hdrops =>
      have hreaders := hdrops.lists.readers
      rcases hcall with ⟨_, rfl⟩ | rfl <;>
        rcases hdrops.outcome with ⟨-, rfl, -⟩ | ⟨-, rfl, -⟩ <;>
        simpa [Call.reads] using hreaders
    | handleDropped hdrops =>
      have hreaders := hdrops.lists.readers
      rcases hdrops.outcome with ⟨-, rfl, -⟩ | ⟨-, rfl, -⟩ <;>
        simpa [Call.reads] using hreaders
    | @referenced request a =>
      have hreaders : (mpReferenceAdapter s.shared a).readers =
        s.shared.readers := rfl
      simp only [Option.elim_some, Call.reads] at hsplit ⊢
      omega
    | opened hy | released hy => simpa [Call.reads] using hy.lists.readers
    | cleaned => split <;> rfl
    | _ => rfl

structure Listed (n : ℕ) (x : Shared) : Prop where
  nodup : x.adapterList.Nodup
  initialized : ∀ a ∈ x.adapterList, x.miniports.lookup a = some .initialized
  numbered : ∀ a phase, x.miniports.lookup a = some phase → a < n
  removed : ∀ a, .removed a ∈ x.events → ∃ phase,
    x.miniports.lookup a = some phase ∧ phase ≠ .initialized ∧
      phase ≠ .initializing
  found : ∀ c a earlier, (.found c a :: earlier) <:+ x.events →
    .removed a ∉ earlier

/-- What a call relies on: an initialization is that of the adapter with its own
number, a halt is under way for its adapter, and the adapter an open has found
stays in the list until it has been referenced. -/
def Relies (x : Shared) (c : ℕ) : Call → Prop
  | .configuring a _ => a = c ∧ x.miniports.lookup a = some .initializing
  | .halting a => x.miniports.lookup a = some (.halting c)
  | .referencing _ a => a ∈ x.adapterList
  | _ => True

variable {x y : Shared} {n a c : ℕ}

theorem Listed.same {n' : ℕ} (hx : Listed n x)
    (hlist : y.adapterList = x.adapterList)
    (hminiports : y.miniports = x.miniports) (hevents : y.events = x.events)
    (hn : n ≤ n') : Listed n' y := by
  refine ⟨?_, ?_, fun a phase h => ?_, ?_, ?_⟩
  · rw [hlist]
    exact hx.nodup
  · rw [hlist, hminiports]
    exact hx.initialized
  · exact (hx.numbered a phase (hminiports ▸ h)).trans_le hn
  · rw [hevents, hminiports]
    exact hx.removed
  · rw [hevents]
    exact hx.found

theorem Listed.setPhase {n' : ℕ} {phase : Phase} (hx : Listed n x)
    (hlist : y.adapterList = x.adapterList)
    (hminiports : y.miniports = x.miniports.insert a phase)
    (hevents : y.events = x.events) (hout : a ∉ x.adapterList)
    (hphase : phase = .gone ∨ x.miniports.lookup a = none) (ha : a < n')
    (hn : n ≤ n') : Listed n' y := by
  refine ⟨?_, ?_, ?_, ?_, ?_⟩
  · rw [hlist]
    exact hx.nodup
  · intro a' ha'
    rw [hlist] at ha'
    have hne : a' ≠ a := fun h => hout (h ▸ ha')
    rw [hminiports, AList.lookup_insert_ne hne]
    exact hx.initialized a' ha'
  · intro a' phase' h
    by_cases hne : a' = a
    · exact hne ▸ ha
    · rw [hminiports, AList.lookup_insert_ne hne] at h
      exact (hx.numbered a' phase' h).trans_le hn
  · intro a' h
    rw [hevents] at h
    obtain ⟨phase', hlookup, hphases⟩ := hx.removed a' h
    by_cases hne : a' = a
    · subst hne
      rcases hphase with rfl | hnone
      · exact ⟨.gone, by rw [hminiports, AList.lookup_insert], by simp⟩
      · rw [hnone] at hlookup
        cases hlookup
    · exact ⟨phase', by rw [hminiports, AList.lookup_insert_ne hne, hlookup],
        hphases⟩
  · rw [hevents]
    exact hx.found

theorem Listed.inserted (hx : Listed n x)
    (hlist : y.adapterList = x.adapterList ++ [a])
    (hminiports : y.miniports = x.miniports.insert a .initialized)
    (hevents : y.events = x.events)
    (hphase : x.miniports.lookup a = some .initializing) : Listed n y := by
  have hout : a ∉ x.adapterList := fun h => by
    rw [hx.initialized a h] at hphase
    cases hphase
  refine ⟨?_, ?_, ?_, ?_, ?_⟩
  · rw [hlist, List.nodup_append]
    exact ⟨hx.nodup, by simp, by
      simpa using fun b hb => ne_of_mem_of_not_mem hb hout⟩
  · intro a' ha'
    rw [hminiports]
    by_cases hne : a' = a
    · rw [hne, AList.lookup_insert]
    · rw [AList.lookup_insert_ne hne]
      rw [hlist] at ha'
      exact hx.initialized a' (by simpa [hne] using ha')
  · intro a' phase' h
    by_cases hne : a' = a
    · exact hne ▸ hx.numbered a _ hphase
    · rw [hminiports, AList.lookup_insert_ne hne] at h
      exact hx.numbered a' phase' h
  · intro a' h
    rw [hevents] at h
    obtain ⟨phase', hlookup, hphases⟩ := hx.removed a' h
    have hne : a' ≠ a := by
      rintro rfl
      rw [hphase] at hlookup
      cases hlookup
      exact hphases.2 rfl
    exact ⟨phase', by rw [hminiports, AList.lookup_insert_ne hne, hlookup],
      hphases⟩
  · rw [hevents]
    exact hx.found

theorem Listed.halted (hx : Listed n x)
    (hphase : x.miniports.lookup a = some .initialized) :
    Listed (n + 1) (haltSection x c a) := by
  have hlookup : ∀ a', a' ≠ a →
      (haltSection x c a).miniports.lookup a' = x.miniports.lookup a' :=
    fun a' hne => AList.lookup_insert_ne hne
  refine ⟨hx.nodup.erase a, ?_, ?_, ?_, ?_⟩
  · intro a' ha'
    obtain ⟨hne, hmem⟩ := hx.nodup.mem_erase_iff.mp ha'
    rw [hlookup a' hne]
    exact hx.initialized a' hmem
  · intro a' phase' h
    by_cases hne : a' = a
    · exact hne ▸ Nat.lt_succ_of_lt (hx.numbered a _ hphase)
    · rw [hlookup a' hne] at h
      exact Nat.lt_succ_of_lt (hx.numbered a' phase' h)
  · intro a' h
    by_cases hne : a' = a
    · exact ⟨.halting c, by rw [hne]; exact AList.lookup_insert _, by simp⟩
    · have hold : .removed a' ∈ x.events := by
        simpa [haltSection, Shared.update, hne] using h
      rw [hlookup a' hne]
      exact hx.removed a' hold
  · intro c' a' earlier hsuffix
    rcases List.suffix_cons_iff.mp hsuffix with heq | hsuffix
    · cases heq
    · exact hx.found c' a' earlier hsuffix

theorem Listed.referenced (hx : Listed n x)
    (hlist : y.adapterList = x.adapterList)
    (hminiports : y.miniports = x.miniports)
    (hevents : y.events = .found c a :: x.events)
    (hlisted : a ∈ x.adapterList) : Listed n y := by
  refine ⟨hlist ▸ hx.nodup, ?_, hminiports ▸ hx.numbered, ?_, ?_⟩
  · rw [hlist, hminiports]
    exact hx.initialized
  · intro a' h
    rw [hevents] at h
    rw [hminiports]
    exact hx.removed a' (by simpa using h)
  · intro c' a' earlier hsuffix
    rw [hevents] at hsuffix
    rcases List.suffix_cons_iff.mp hsuffix with heq | hsuffix
    · cases heq
      intro hremoved
      obtain ⟨_, hlookup, hphases⟩ := hx.removed a hremoved
      rw [hx.initialized a hlisted] at hlookup
      cases hlookup
      exact hphases.1 rfl
    · exact hx.found c' a' earlier hsuffix

theorem Relies.setPhase {phase : Phase} {call : Call} (h : Relies x c call)
    (hminiports : y.miniports = x.miniports.insert a phase)
    (hlist : ∀ request a', call = .referencing request a' →
      a' ∈ y.adapterList) (hhalting : x.miniports.lookup a ≠ some (.halting c))
    (hinitializing : x.miniports.lookup a = some .initializing → a ≠ c) :
    Relies y c call := by
  cases call with
  | configuring a' outcome =>
    obtain ⟨rfl, hphase⟩ := h
    have hne : a' ≠ a := by
      rintro rfl
      exact hinitializing hphase rfl
    exact ⟨rfl, by rw [hminiports, AList.lookup_insert_ne hne, hphase]⟩
  | halting a' =>
    have hne : a' ≠ a := by
      rintro rfl
      exact hhalting h
    change y.miniports.lookup a' = _
    rw [hminiports, AList.lookup_insert_ne hne]
    exact h
  | referencing request a' => exact hlist request a' rfl
  | _ => trivial

theorem Relies.same {call : Call} (h : Relies x c call)
    (hlist : y.adapterList = x.adapterList)
    (hminiports : y.miniports = x.miniports) : Relies y c call := by
  cases call with
  | configuring a outcome => exact ⟨h.1, hminiports ▸ h.2⟩
  | halting a => exact (congrArg _ hminiports).trans h
  | referencing request a =>
    change a ∈ y.adapterList
    rw [hlist]
    exact h
  | _ => trivial

theorem not_referencing (hs : machine.Reachable s)
    (hreaders : s.shared.readers = 0) {request : OpenRequest} :
    s.calls.lookup c ≠ some (.referencing request a) := by
  intro hcall
  have hsplit := s.calls.total_eq_erase (fun _ => Call.reads) c
  rw [hcall, ← readers_eq hs, hreaders] at hsplit
  simp only [Option.elim_some, Call.reads] at hsplit
  omega

theorem annotated_same {after : Option Call}
    (ih : Program.Annotated Listed Relies s)
    (hlist : y.adapterList = s.shared.adapterList)
    (hminiports : y.miniports = s.shared.miniports)
    (hevents : y.events = s.shared.events) (hn : s.nextCall ≤ n)
    (hafter : ∀ call ∈ after, Relies y c call) :
    Program.Annotated Listed Relies ⟨y, s.calls.put c after, n⟩ :=
  .turn (ih.shared.same hlist hminiports hevents hn) hafter
    fun c' call _ hcall => (ih.calls c' call hcall).same hlist hminiports

theorem annotated (hs : machine.Reachable s) :
    Program.Annotated Listed Relies s := by
  refine Program.invariant (P := program)
    (I := Program.Annotated Listed Relies) ?_ ?_ hs
  · exact ⟨⟨List.nodup_nil, by simp [program, Program.machine],
        by simp [program, Program.machine], by simp [program, Program.machine],
        by simp [program, Program.machine]⟩, by simp [program, Program.machine]⟩
  · intro s c before n y after hreach ih hbefore hturn
    have hn := hturn.nextCall_le
    have hrelies : ∀ call, before = some call → Relies s.shared c call :=
      fun call hcall => ih.calls c call (hbefore.trans hcall)
    cases Action.of_turn hturn with
    | quiet => exact annotated_same ih rfl rfl rfl hn (by simp)
    | created =>
      obtain ⟨rfl, rfl⟩ := hturn.of_none
      have hfresh : s.shared.miniports.lookup s.nextCall = none := by
        by_contra hne
        obtain ⟨phase, hphase⟩ := Option.ne_none_iff_exists'.mp hne
        exact Nat.lt_irrefl _ (ih.shared.numbered _ phase hphase)
      have hout : s.nextCall ∉ s.shared.adapterList := fun h => by
        rw [ih.shared.initialized _ h] at hfresh
        cases hfresh
      refine .turn
        (ih.shared.setPhase rfl rfl rfl hout (Or.inr hfresh)
          (Nat.lt_succ_self _) hn) ?_ ?_
      · rintro call ⟨⟩
        exact ⟨rfl, AList.lookup_insert _⟩
      · intro c' call hne hcall
        refine (ih.calls c' call hcall).setPhase rfl ?_ ?_ ?_
        · rintro request a rfl
          exact ih.calls c' _ hcall
        · simp [hfresh]
        · simp [hfresh]
    | halted hphase hreaders =>
      obtain ⟨rfl, rfl⟩ := hturn.of_none
      refine .turn (ih.shared.halted hphase) ?_ ?_
      · rintro call ⟨⟩
        exact AList.lookup_insert _
      · intro c' call hne hcall
        refine (ih.calls c' call hcall).setPhase rfl ?_ ?_ ?_
        · rintro request a rfl
          exact absurd hcall (not_referencing hreach hreaders)
        · simp [hphase]
        · simp [hphase]
    | allocated | closed | refused =>
      exact annotated_same ih rfl rfl rfl hn (by rintro _ ⟨⟩; trivial)
    | @inserted a outcome hreaders =>
      obtain ⟨rfl, hphase⟩ := hrelies _ rfl
      cases hturn with
      | advance hc hadvance =>
        refine .turn (ih.shared.inserted rfl rfl rfl hphase)
          (by rintro _ ⟨⟩) ?_
        intro c' call hne hcall
        refine (ih.calls c' call hcall).setPhase rfl ?_ ?_ ?_
        · rintro request a' rfl
          exact absurd hcall (not_referencing hreach hreaders)
        · simp [hphase]
        · exact fun _ => Ne.symm hne
    | @miniportDropped call a hcall _ _ hdrops =>
      have hphase : s.shared.miniports.lookup a = some .initializing ∧
          a = c ∨ s.shared.miniports.lookup a = some (.halting c) := by
        rcases hcall with ⟨outcome, rfl⟩ | rfl
        · obtain ⟨hac, hphase⟩ := hrelies _ rfl
          exact Or.inl ⟨hphase, hac⟩
        · exact Or.inr (hrelies _ rfl)
      have hout : a ∉ s.shared.adapterList := fun h => by
        rw [ih.shared.initialized a h] at hphase
        simp at hphase
      have hlt : a < s.nextCall := by
        rcases hphase with ⟨hphase, -⟩ | hphase <;>
          exact ih.shared.numbered a _ hphase
      refine .turn
        (ih.shared.setPhase hdrops.lists.adapterList hdrops.lists.miniports
          hdrops.lists.events hout (Or.inl rfl) (hlt.trans_le hn) hn) ?_ ?_
      · rcases hdrops.outcome with ⟨-, rfl, -⟩ | ⟨-, rfl, -⟩
        · rintro _ ⟨⟩
          trivial
        · rintro _ ⟨⟩
      · intro c' call hne hcall'
        refine (ih.calls c' call hcall').setPhase hdrops.lists.miniports
          ?_ ?_ ?_
        · rintro request a' rfl
          rw [hdrops.lists.adapterList]
          exact ih.calls c' _ hcall'
        · rcases hphase with ⟨hphase, -⟩ | hphase
          · simp [hphase]
          · simp [hphase, Ne.symm hne]
        · rcases hphase with ⟨-, rfl⟩ | hphase
          · exact fun _ => Ne.symm hne
          · simp [hphase]
    | notFound => exact annotated_same ih rfl rfl rfl hn (by rintro _ ⟨⟩)
    | located hlisted =>
      exact annotated_same ih rfl rfl rfl hn (by rintro _ ⟨⟩; exact hlisted)
    | @referenced request a =>
      cases hturn with
      | advance hc hadvance =>
        refine .turn
          (ih.shared.referenced (y := { mpReferenceAdapter s.shared a with
            readers := (mpReferenceAdapter s.shared a).readers - 1
            events := .found c a :: (mpReferenceAdapter s.shared a).events })
            rfl rfl rfl (hrelies _ rfl))
          (by rintro _ ⟨⟩; trivial) ?_
        exact fun c' call _ hcall => (ih.calls c' call hcall).same rfl rfl
    | opened hy =>
      exact annotated_same ih hy.lists.adapterList hy.lists.miniports
        hy.lists.events hn (by rintro _ ⟨⟩)
    | released hy =>
      exact annotated_same ih hy.lists.adapterList hy.lists.miniports
        hy.lists.events hn (by rintro _ ⟨⟩; trivial)
    | handleDropped hdrops =>
      refine annotated_same ih hdrops.lists.adapterList
        hdrops.lists.miniports hdrops.lists.events hn ?_
      rcases hdrops.outcome with ⟨-, rfl, -⟩ | ⟨-, rfl, -⟩
      · rintro _ ⟨⟩
        trivial
      · rintro _ ⟨⟩
    | cleaned =>
      refine annotated_same ih ?_ ?_ ?_ hn (by rintro _ ⟨⟩) <;> split <;> rfl

end WinNetTest.Fnmp.Adapters
