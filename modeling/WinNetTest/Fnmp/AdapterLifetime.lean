import WinNetTest.Fnmp.AdapterBalance

/-!
# The life of an adapter

An adapter lives as long as it is held.  As its count is the number of its
holders, a holder can drop its reference and an open can take one without an
assertion firing, and the last holder cleans the adapter up.
-/

namespace WinNetTest.Fnmp.Adapters

open Support

/-! ## No assertion fires -/

/-- Those that hold an adapter: its miniport, the open handles, and the opens
and closes of handles that are under way. -/
def heldBy (s : Pool Shared Call) (a : ℕ) : ℕ :=
  holders s.shared a (s.calls.total fun _ => Call.holds a)

variable {s : Pool Shared Call} {c a : ℕ}

theorem heldBy_pos_of_call {call : Call} (hcall : s.calls.lookup c = some call)
    (hholds : call.holds a = 1) : 0 < heldBy s a := by
  have hsplit := s.calls.total_eq_erase (fun _ => Call.holds a) c
  rw [hcall, Option.elim_some, hholds] at hsplit
  unfold heldBy holders
  omega

theorem heldBy_pos_of_miniport
    (hphase : miniportHolds (s.shared.miniports.lookup a) = 1) :
    0 < heldBy s a := by
  unfold heldBy holders
  omega

theorem count_of_held (hs : machine.Reachable s) (hpos : 0 < heldBy s a) :
    s.shared.count a = some (heldBy s a : ℤ) ∧
      int64 (heldBy s a - 1) = heldBy s a - 1 ∧
      int64 (heldBy s a + 1) = heldBy s a + 1 := by
  have hroom : heldBy s a ≤ 2 ^ 61 := holders_le hs a
  exact ⟨(balanced hs a).count_eq hpos, int64_eq (by omega) (by omega),
    int64_eq (by omega) (by omega)⟩

theorem stopped_mpReferenceAdapter {x : Shared} {n : ℤ}
    (hcount : x.count a = some n) (hlt : 1 < int64 (n + 1)) :
    (mpReferenceAdapter x a).stopped = x.stopped := by
  have hnew := count_mpReferenceAdapter x a a
  rw [if_pos rfl, hcount] at hnew
  obtain ⟨_, hlookup, -⟩ := Option.map_eq_some_iff.mp hcount
  change ((x.stopped || (x.adapters.lookup a).isNone) ||
    ((mpReferenceAdapter x a).count a).any _) = _
  rw [hnew, hlookup]
  simp [hlt]

theorem Drops.stopped_eq (hs : machine.Reachable s) {x y : Shared}
    {context : Bool} {after : Option Call} (h : Drops x a context y after)
    (hcount : x.count a = s.shared.count a) (hpos : 0 < heldBy s a) :
    y.stopped = x.stopped := by
  obtain ⟨hheld, hminus, -⟩ := count_of_held hs hpos
  refine h.stopped _ (hcount.trans hheld) ?_
  rw [hminus]
  omega

theorem Action.stopped {y : Shared} {before after : Option Call}
    (hact : Action s.shared c before y after) (hs : machine.Reachable s)
    (hbefore : s.calls.lookup c = before) : y.stopped = s.shared.stopped := by
  have hlisted := annotated hs
  have hrelies : ∀ call, before = some call → Relies s.shared c call :=
    fun call hcall => hlisted.calls c call (hbefore.trans hcall)
  have hwrite : ∀ {a : ℕ} {z : Shared}, Rewrites s.shared a z →
      0 < heldBy s a → z.stopped = s.shared.stopped := fun hz hpos =>
    hz.stopped (by rw [(count_of_held hs hpos).1]; simp)
  cases hact with
  | @halted a hphase hreaders =>
    have hrewrites := rewrites_update s.shared a (f := fun adapter =>
      { adapter with miniportHandle := false }) fun _ => rfl
    have hstopped := hwrite hrewrites
      (heldBy_pos_of_miniport (by rw [hphase]; rfl))
    exact hstopped
  | @miniportDropped call a hcall y after hdrops =>
    refine hdrops.stopped_eq hs rfl (heldBy_pos_of_miniport ?_)
    rcases hcall with ⟨_, rfl⟩ | rfl
    · rw [(hrelies _ rfl).2]
      rfl
    · rw [show s.shared.miniports.lookup a = some (.halting c) from
        hrelies _ rfl]
      rfl
  | @referenced request a =>
    have hphase := hlisted.shared.initialized a (hrelies _ rfl)
    have hpos : 0 < heldBy s a :=
      heldBy_pos_of_miniport (by rw [hphase]; rfl)
    obtain ⟨hcount, -, hplus⟩ := count_of_held hs hpos
    refine stopped_mpReferenceAdapter hcount ?_
    rw [hplus]
    omega
  | opened hy =>
    have hstopped := hwrite hy (heldBy_pos_of_call hbefore (if_pos rfl))
    exact hstopped
  | released hy =>
    exact hwrite hy (heldBy_pos_of_call hbefore (if_pos rfl))
  | handleDropped hdrops =>
    exact hdrops.stopped_eq hs rfl (heldBy_pos_of_call hbefore (if_pos rfl))
  | @cleaned a context =>
    have hbalanced := Adapters.balanced hs a
    have hsplit := s.calls.total_eq_erase (fun _ => Call.cleans a) c
    rw [hbefore, Option.elim_some, Call.cleans, if_pos rfl, add_comm]
      at hsplit
    rw [Balanced, hsplit] at hbalanced
    obtain ⟨adapter, hlookup⟩ := Option.isSome_iff_exists.mp hbalanced.free.1
    cases context <;> simp [mpCleanupAdapter, hlookup]
  | _ => rfl

theorem not_stopped (hs : machine.Reachable s) : s.shared.stopped = false := by
  refine Program.invariant
    (I := fun s => s.shared.stopped = false) rfl ?_ hs
  intro s c before n y after hreach ih hbefore hturn
  exact ((Action.of_turn hturn).stopped hreach hbefore).trans ih

/-! ## The lifetime -/

/-- What holds in every interleaving of initializations, halts, opens and
closes. -/
structure Lifetime (s : Pool Shared Call) : Prop where
  referenceCount : ∀ a adapter, s.shared.adapters.lookup a = some adapter →
    adapter.referenceCount = heldBy s a
  allocated : ∀ a, heldBy s a ≠ 0 → s.shared.adapters.lookup a ≠ none
  cleanedOnce : ∀ a, (s.shared.miniports.lookup a).isSome →
    s.shared.cleanups.count a + (s.calls.total fun _ => Call.cleans a) =
      if heldBy s a = 0 then 1 else 0
  cleanup : ∀ c a context, s.calls.lookup c = some (.cleaning a context) →
    ∃ t, machine.step s (.advance c) = some t ∧
      t.shared.cleanups = a :: s.shared.cleanups
  found : ∀ c a earlier, (.found c a :: earlier) <:+ s.shared.events →
    .removed a ∉ earlier
  asserted : s.shared.stopped = false

/-- In every run, the reference count of an adapter is the number of its
holders, it is cleaned up once, when it has no holder any more, no open gets an
adapter that a halt has removed from the list, and no assertion about the count
fires. -/
theorem adapter_lifetime {s : Pool Shared Call} (hs : machine.Reachable s) :
    Lifetime s := by
  refine ⟨?_, ?_, ?_, ?_, (annotated hs).shared.found, not_stopped hs⟩
  · intro a adapter hlookup
    have hreferences := (balanced hs a).references
    rw [Shared.count, hlookup] at hreferences
    exact hreferences
  · intro a hne hnone
    have hcount := (count_of_held hs (Nat.pos_of_ne_zero hne)).1
    rw [Shared.count, hnone] at hcount
    cases hcount
  · intro a hcreated
    have hcleaned := (balanced hs a).cleaned
    rw [created, if_pos hcreated] at hcleaned
    change _ + _ + (if heldBy s a = 0 then 0 else 1) = 1 at hcleaned
    split
    · rename_i hzero
      rwa [if_pos hzero] at hcleaned
    · rename_i hzero
      rw [if_neg hzero] at hcleaned
      omega
  · intro c a context hcall
    refine ⟨_, by
      simp only [machine, Program.machine, hcall, Option.bind_some]
      rfl, ?_⟩
    cases context <;> rfl

/-- A halt drops the miniport's reference while an open that has found the
adapter is under way; the handle outlives the miniport, and its close cleans
the adapter up. -/
theorem adapter_lifetime_closeAfterHalt :
    ∃ s, machine.Reachable s ∧ Lifetime s ∧ heldBy s 0 = 0 ∧
      s.shared.cleanups = [0] ∧
      s.shared.events = [.removed 0, .found 1 0] :=
  (Machine.exists_reachable_of_run
      [.start (.initializeMiniport 7 (some ⟨true, true, true, true, true⟩)),
      .advance 0, .start (.create ⟨.shared, 4, 7, true, true, true⟩),
      .advance 1, .advance 1, .start (.halt 0), .advance 2, .advance 1,
      .start (.close 1), .advance 3, .advance 3, .advance 3]
      (by decide +kernel)).imp fun s ⟨hs, hfacts⟩ =>
      ⟨hs, adapter_lifetime hs, hfacts⟩

end WinNetTest.Fnmp.Adapters
