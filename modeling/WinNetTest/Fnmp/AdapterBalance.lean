import WinNetTest.Fnmp.AdapterList
import Mathlib.Algebra.Order.Group.Nat

/-!
# The balance of references

The reference count of an adapter is the number of those that hold it: its
miniport, the open handles, and the calls that have taken a reference and have
not dropped it.  The balance is kept because a reference is taken only while
the adapter is in the list, so that its miniport still holds it.
-/

namespace WinNetTest.Fnmp.Adapters

open Support

/-! ## Handle contexts -/

def Call.context : Call → ℕ
  | .searching _ => 1
  | .referencing _ _ => 1
  | .holding _ _ => 1
  | .closing _ _ _ => 1
  | .dropping _ => 1
  | .cleaning _ context => context.toNat
  | _ => 0

variable {s : Pool Shared Call} {x y : Shared} {a held cleaning held' : ℕ}

section

variable (hs : machine.Reachable s)

include hs

theorem handles_fresh : Program.Annotated
      (fun n x => ∀ h handle, x.handles.lookup h = some handle → h < n)
      (fun x c _ => x.handles.lookup c = none) s := by
  refine Program.invariant ?_ ?_ hs
  · exact ⟨by simp [program, Program.machine],
      by simp [program, Program.machine]⟩
  · intro s c before n y after hreach ih hbefore hturn
    have hn := hturn.nextCall_le
    have hfresh : s.shared.handles.lookup c = none := by
      cases before with
      | some call => exact ih.calls c call hbefore
      | none =>
        obtain ⟨rfl, -⟩ := hturn.of_none
        by_contra hne
        obtain ⟨handle, hhandle⟩ := Option.ne_none_iff_exists'.mp hne
        exact Nat.lt_irrefl _ (ih.shared _ handle hhandle)
    have hkeep : ∀ {y : Shared} {after : Option Call},
        (∀ h handle, y.handles.lookup h = some handle →
          s.shared.handles.lookup h = some handle) →
        Program.Annotated
          (fun n x => ∀ h handle, x.handles.lookup h = some handle → h < n)
          (fun x c _ => x.handles.lookup c = none)
          ⟨y, s.calls.put c after, n⟩ := by
      intro y after hsub
      have hnone : ∀ c', s.shared.handles.lookup c' = none →
          y.handles.lookup c' = none := by
        intro c' hc'
        by_contra hne
        obtain ⟨handle, hhandle⟩ := Option.ne_none_iff_exists'.mp hne
        rw [hsub c' handle hhandle] at hc'
        cases hc'
      exact .turn
        (fun h handle hh => (ih.shared h handle (hsub h handle hh)).trans_le hn)
        (fun _ _ => hnone c hfresh)
        fun c' call _ hcall => hnone c' (ih.calls c' call hcall)
    cases Action.of_turn hturn with
    | @closed h handle hopen =>
      refine hkeep fun h' handle' hh => ?_
      by_cases hne : h' = h
      · subst hne
        simp at hh
      · simpa [hne] using hh
    | @opened request a y hy =>
      have hlookup : ∀ c', c' ≠ c →
          (y.handles.insert c ⟨request.kind, a⟩).lookup c' =
            s.shared.handles.lookup c' := fun c' hne => by
        rw [AList.lookup_insert_ne hne, hy.lists.handles]
      refine .turn ?_ (by rintro _ ⟨⟩) ?_
      · intro h handle hh
        by_cases hne : h = c
        · exact hne ▸ hturn.lt
        · exact (ih.shared h handle ((hlookup h hne).symm.trans hh)).trans_le
            hn
      · intro c' call hne hcall
        exact (hlookup c' hne).trans (ih.calls c' call hcall)
    | miniportDropped hcall hdrops | handleDropped hdrops | released hdrops =>
      exact hkeep fun h handle hh => hdrops.lists.handles ▸ hh
    | cleaned =>
      refine hkeep fun h handle hh => ?_
      split at hh <;> exact hh
    | _ => exact hkeep fun _ _ => id

theorem contexts_eq : s.shared.contexts =
      (s.calls.total fun _ => Call.context) +
        s.shared.handles.total fun _ _ => 1 := by
  refine Program.conserved (fun _ => Call.context)
    (fun x => x.contexts) (fun x => x.handles.total fun _ _ => 1) rfl ?_ hs
  intro s c before n y after hreach ih hbefore hturn
  have hsplit := s.calls.total_eq_erase (fun _ => Call.context) c
  rw [hbefore] at hsplit
  cases Action.of_turn hturn with
  | @closed h handle hopen =>
    have htotal := Table.total_eq_of_lookup (fun _ _ => 1) hopen
    simp only [Option.elim_none, Option.elim_some, Call.context]
    omega
  | @miniportDropped call a hcall _ _ hdrops =>
    rw [hdrops.lists.handles]
    rcases hcall with ⟨_, rfl⟩ | rfl <;>
      rcases hdrops.outcome with ⟨-, rfl, hcontexts⟩ | ⟨-, rfl, hcontexts⟩ <;>
      simp [hcontexts, Call.context]
  | notFound =>
    simp only [Option.elim_none, Option.elim_some, Call.context]
      at hsplit ⊢
    omega
  | @opened request a y hy =>
    have hnone : s.shared.handles.lookup c = none :=
      (handles_fresh hreach).calls c _ hbefore
    simp only [hy.lists.handles, hy.contexts, Option.elim_none,
      Option.elim_some, Call.context]
    rw [Table.total_insert_of_lookup_none _ _ hnone]
    omega
  | released hy =>
    simp only [hy.lists.handles, hy.contexts, Option.elim_some, Call.context]
  | handleDropped hdrops =>
    simp only [Option.elim_some, Call.context] at hsplit
    rw [hdrops.lists.handles]
    rcases hdrops.outcome with ⟨-, rfl, hcontexts⟩ | ⟨-, rfl, hcontexts⟩
    · simp [hcontexts, Call.context]
    · simp only [Bool.toNat_true] at hcontexts
      simp only [Option.elim_none, Option.elim_some, Call.context]
      omega
  | @cleaned a context =>
    cases context with
    | false => rfl
    | true =>
      have hcontexts : (mpCleanupAdapter s.shared a).contexts =
        s.shared.contexts := rfl
      have hhandles : (mpCleanupAdapter s.shared a).handles =
        s.shared.handles := rfl
      simp only [Option.elim_none, Option.elim_some, Call.context,
        Bool.toNat_true, if_true, hhandles] at hsplit ⊢
      omega
  | allocated hroom =>
    simp only [Option.elim_none, Option.elim_some, Call.context]
    omega
  | _ => rfl

theorem contexts_le : s.shared.contexts ≤ maxContexts := by
  refine Program.invariant
    (I := fun s => s.shared.contexts ≤ maxContexts) ?_ ?_ hs
  · exact Nat.zero_le _
  · intro s c before n y after hreach ih hbefore hturn
    cases Action.of_turn hturn with
    | allocated hroom => exact hroom
    | miniportDropped hcall hdrops | handleDropped hdrops =>
      rcases hdrops.outcome with ⟨-, -, hcontexts⟩ | ⟨-, -, hcontexts⟩
      · exact hcontexts.trans_le ih
      · exact hcontexts.trans_le ((Nat.sub_le _ _).trans ih)
    | notFound => exact (Nat.sub_le _ _).trans ih
    | opened hy | released hy => exact hy.contexts.trans_le ih
    | cleaned =>
      split
      · exact (Nat.sub_le _ _).trans ih
      · exact ih
    | _ => exact ih

end

/-! ## The balance of an adapter -/

def Call.holds (a : ℕ) : Call → ℕ
  | .holding _ a' => if a' = a then 1 else 0
  | .closing _ a' _ => if a' = a then 1 else 0
  | .dropping a' => if a' = a then 1 else 0
  | _ => 0

def Call.cleans (a : ℕ) : Call → ℕ
  | .cleaning a' _ => if a' = a then 1 else 0
  | _ => 0

/-- The reference of a miniport, from `MpCreateAdapter` until it is dropped by a
failed initialization or by the halt. -/
def miniportHolds : Option Phase → ℕ
  | none => 0
  | some .gone => 0
  | some _ => 1

def handlesOf (x : Shared) (a : ℕ) : ℕ :=
  x.handles.total fun _ handle => if handle.adapter = a then 1 else 0

def holders (x : Shared) (a held : ℕ) : ℕ :=
  miniportHolds (x.miniports.lookup a) + handlesOf x a + held

/-- One if `MpCreateAdapter` has returned the adapter. -/
def created (x : Shared) (a : ℕ) : ℕ :=
  if (x.miniports.lookup a).isSome then 1 else 0

/-- The reference count is the number of holders, an adapter that has no holder
has been cleaned up or is about to be, and it is allocated until then. -/
structure BalancedAt (x : Shared) (a held cleaning : ℕ) : Prop where
  references : (x.count a).getD 0 = holders x a held
  cleaned : x.cleanups.count a + cleaning +
    (if holders x a held = 0 then 0 else 1) = created x a
  allocated : (if (x.count a).isSome then 1 else 0) + x.cleanups.count a =
    created x a

section

variable (h : BalancedAt x a held cleaning)

include h

theorem BalancedAt.count_eq (hpos : 0 < holders x a held) :
    x.count a = some (holders x a held : ℤ) := by
  have hreferences := h.references
  cases hcount : x.count a with
  | none =>
    rw [hcount] at hreferences
    simp only [Option.getD_none] at hreferences
    omega
  | some n =>
    rw [hcount] at hreferences
    simpa using hreferences

theorem BalancedAt.create (hfresh : x.miniports.lookup a = none)
    (hcount : y.count a = some 1)
    (hphase : y.miniports.lookup a = some .initializing)
    (hhandles : y.handles = x.handles) (hcleanups : y.cleanups = x.cleanups) :
    BalancedAt y a held cleaning := by
  have hcleaned := h.cleaned
  have hcreated : created x a = 0 := by simp [created, hfresh]
  have hcreated' : created y a = 1 := by simp [created, hphase]
  have hzero : holders x a held = 0 := by
    by_contra hne
    rw [if_neg hne] at hcleaned
    omega
  have hone : holders y a held = 1 := by
    unfold holders handlesOf at hzero ⊢
    rw [hphase, hhandles]
    simp only [miniportHolds]
    omega
  rw [if_pos hzero] at hcleaned
  refine ⟨?_, ?_, ?_⟩
  · rw [hcount, hone]
    rfl
  · rw [hcleanups, hone, hcreated', if_neg one_ne_zero]
    omega
  · rw [hcount, hcleanups, hcreated', Option.isSome_some, if_pos rfl]
    omega

theorem BalancedAt.pass (hcount : y.count a = x.count a)
    (hcreated : created y a = created x a)
    (hminiport : miniportHolds (y.miniports.lookup a) =
      miniportHolds (x.miniports.lookup a))
    (hheld : handlesOf y a + held' = handlesOf x a + held)
    (hcleanups : y.cleanups.count a = x.cleanups.count a) :
    BalancedAt y a held' cleaning := by
  have hholders : holders y a held' = holders x a held := by
    unfold holders
    omega
  refine ⟨?_, ?_, ?_⟩
  · rw [hcount, hholders]
    exact h.references
  · rw [hcleanups, hholders, hcreated]
    exact h.cleaned
  · rw [hcount, hcleanups, hcreated]
    exact h.allocated

theorem BalancedAt.same (hcount : y.count a = x.count a)
    (hphase : y.miniports.lookup a = x.miniports.lookup a)
    (hheld : handlesOf y a + held' = handlesOf x a + held)
    (hcleanups : y.cleanups.count a = x.cleanups.count a) :
    BalancedAt y a held' cleaning :=
  h.pass hcount (by rw [created, created, hphase]) (by rw [hphase]) hheld
    hcleanups

theorem BalancedAt.take (hpos : 0 < holders x a held)
    (hroom : holders x a held ≤ 2 ^ 61)
    (hcount : y.count a = (x.count a).map fun n => int64 (n + 1))
    (hminiports : y.miniports = x.miniports) (hhandles : y.handles = x.handles)
    (hcleanups : y.cleanups = x.cleanups) (hheld : held' = held + 1) :
    BalancedAt y a held' cleaning := by
  have hholders : holders y a held' = holders x a held + 1 := by
    rw [holders, holders, handlesOf, handlesOf, hminiports, hhandles, hheld]
    omega
  have hcreated : created y a = created x a := by
    rw [created, created, hminiports]
  have hcleaned := h.cleaned
  have hallocated := h.allocated
  rw [h.count_eq hpos, Option.map_some, int64_eq (by omega) (by omega)]
    at hcount
  rw [h.count_eq hpos] at hallocated
  refine ⟨?_, ?_, ?_⟩
  · rw [hcount, hholders]
    simp
  · rw [hcleanups, hholders, hcreated, if_neg (by omega)]
    rwa [if_neg (by omega)] at hcleaned
  · rw [hcount, hcleanups, hcreated]
    exact hallocated

theorem BalancedAt.drop {cleaning' : ℕ} (hroom : holders x a held ≤ 2 ^ 61)
    (hcount : y.count a = (x.count a).map fun n => int64 (n - 1))
    (hcreated : created y a = created x a)
    (hholders : holders x a held = holders y a held' + 1)
    (hcleanups : y.cleanups.count a = x.cleanups.count a)
    (hcleaning : cleaning' = cleaning + if y.count a = some 0 then 1 else 0) :
    BalancedAt y a held' cleaning' := by
  have hpos : 0 < holders x a held := by omega
  have hcleaned := h.cleaned
  have hallocated := h.allocated
  rw [h.count_eq hpos, Option.map_some, int64_eq (by omega) (by omega),
    hholders] at hcount
  rw [h.count_eq hpos] at hallocated
  have hcount' : y.count a = some (holders y a held' : ℤ) := by
    rw [hcount]
    simp
  refine ⟨?_, ?_, ?_⟩
  · rw [hcount']
    simp
  · rw [if_neg (by omega)] at hcleaned
    rw [hcleaning, hcount', hcleanups, hcreated, ← hcleaned]
    by_cases hzero : holders y a held' = 0
    · simp [hzero, add_assoc]
    · simp [hzero]
  · rw [hcount', hcleanups, hcreated]
    exact hallocated

end

theorem BalancedAt.free (h : BalancedAt x a held (cleaning + 1)) :
    (x.adapters.lookup a).isSome ∧ ∀ y : Shared,
      y.count a = none → y.miniports = x.miniports →
      y.handles = x.handles → y.cleanups = a :: x.cleanups →
      BalancedAt y a held cleaning := by
  have hcleaned := h.cleaned
  have hallocated := h.allocated
  have hcreated : created x a ≤ 1 := by
    unfold created
    split <;> simp
  have hzero : holders x a held = 0 := by
    by_contra hne
    rw [if_neg hne] at hcleaned
    omega
  rw [if_pos hzero] at hcleaned
  have hsome : (x.count a).isSome := by
    by_contra hnone
    rw [if_neg hnone] at hallocated
    omega
  refine ⟨by simpa [Shared.count] using hsome, ?_⟩
  intro y hcount hminiports hhandles hcleanups
  have hcreated' : created y a = created x a := by
    rw [created, created, hminiports]
  have hzero' : holders y a held = 0 := by
    rw [← hzero, holders, holders, handlesOf, handlesOf, hminiports, hhandles]
  rw [if_pos hsome] at hallocated
  refine ⟨?_, ?_, ?_⟩
  · rw [hcount, hzero']
    rfl
  · rw [hcleanups, List.count_cons_self, if_pos hzero', hcreated']
    omega
  · rw [hcount, hcleanups, List.count_cons_self, hcreated']
    simp only [Option.isSome_none, Bool.false_eq_true, if_false]
    omega

def Balanced (s : Pool Shared Call) (a : ℕ) : Prop :=
  BalancedAt s.shared a (s.calls.total fun _ => Call.holds a)
    (s.calls.total fun _ => Call.cleans a)

theorem Balanced.turn {c n : ℕ} {before after : Option Call} (hs : Balanced s a)
    (hbefore : s.calls.lookup c = before) (hturn : ∀ held cleaning,
      (s.calls.total fun _ => Call.holds a) =
        before.elim 0 (Call.holds a) + held →
      BalancedAt s.shared a (before.elim 0 (Call.holds a) + held)
        (before.elim 0 (Call.cleans a) + cleaning) →
      BalancedAt y a (after.elim 0 (Call.holds a) + held)
        (after.elim 0 (Call.cleans a) + cleaning)) :
    Balanced ⟨y, s.calls.put c after, n⟩ a := by
  unfold Balanced at hs ⊢
  have hheld := s.calls.total_eq_erase (fun _ => Call.holds a) c
  have hcleaning := s.calls.total_eq_erase (fun _ => Call.cleans a) c
  rw [hbefore] at hheld hcleaning
  simp only [Table.total_put_eq]
  exact hturn _ _ hheld (hheld ▸ hcleaning ▸ hs)

theorem Call.holds_le_context (a : ℕ) (call : Call) :
    call.holds a ≤ call.context := by
  cases call <;> simp only [Call.holds, Call.context] <;> first
      | exact Nat.zero_le _
      | (split <;> simp)

theorem holders_le (hs : machine.Reachable s) (a : ℕ) :
    holders s.shared a (s.calls.total fun _ => Call.holds a) ≤ 2 ^ 61 := by
  have hcontexts := contexts_eq hs
  have hle := contexts_le hs
  have hheld := Table.total_le_total
    (fun _ call => Call.holds_le_context a call) s.calls
  have hhandles : handlesOf s.shared a ≤
      s.shared.handles.total fun _ _ => 1 := by
    refine Table.total_le_total (fun _ handle => ?_) s.shared.handles
    split <;> simp
  have hminiport : miniportHolds (s.shared.miniports.lookup a) ≤ 1 := by
    unfold miniportHolds
    split <;> simp
  unfold maxContexts at hle
  unfold holders
  omega

theorem count_haltSection (x : Shared) (c a a' : ℕ) :
    (haltSection x c a).count a' = x.count a' :=
  (rewrites_update x a (f := fun adapter =>
    { adapter with miniportHandle := false }) fun _ => rfl).count a'

theorem count_mpCleanupAdapter (x : Shared) (a a' : ℕ) :
    (mpCleanupAdapter x a).count a' = if a' = a then none else x.count a' := by
  by_cases hne : a' = a
  · subst hne
    simp [Shared.count, mpCleanupAdapter]
  · simp [Shared.count, mpCleanupAdapter, hne]

theorem Drops.shares {a' : ℕ} {context : Bool} {after : Option Call}
    (h : Drops x a' context y after) :
    after.elim 0 (Call.holds a) = 0 ∧ after.elim 0 (Call.cleans a) =
        if a = a' ∧ y.count a' = some 0 then 1 else 0 := by
  rcases h.outcome with ⟨hzero, rfl, -⟩ | ⟨hzero, rfl, -⟩
  · refine ⟨rfl, ?_⟩
    simp only [Option.elim_some, Call.cleans, hzero, and_true]
    simp only [eq_comm]
  · exact ⟨rfl, by simp [hzero]⟩

theorem Action.balanced {c n : ℕ} {before after : Option Call}
    (hact : Action s.shared c before y after) (hs : machine.Reachable s)
    (hlisted : Program.Annotated Listed Relies s)
    (hbefore : s.calls.lookup c = before)
    (hfresh : before = none → s.shared.miniports.lookup c = none)
    (ih : Balanced s a) : Balanced ⟨y, s.calls.put c after, n⟩ a := by
  have hroom := holders_le hs a
  have hrelies : ∀ call, before = some call → Relies s.shared c call :=
    fun call hcall => hlisted.calls c call (hbefore.trans hcall)
  refine ih.turn hbefore fun held cleaning hheld h => ?_
  rw [hheld] at hroom
  cases hact with
  | quiet => exact h
  | created =>
    by_cases hne : a = c
    · subst hne
      exact h.create (hfresh rfl) (by simp [Shared.count, mpCreateAdapter])
        (AList.lookup_insert _) rfl rfl
    · exact h.same (by simp [Shared.count, mpCreateAdapter, hne])
        (AList.lookup_insert_ne hne) rfl rfl
  | @halted a' hphase hreaders =>
    by_cases hne : a = a'
    · subst hne
      have hphase' : (haltSection s.shared c a).miniports.lookup a =
        some (.halting c) := AList.lookup_insert _
      exact h.pass (count_haltSection _ _ _ _)
        (by simp [Adapters.created, hphase, hphase'])
        (by rw [hphase, hphase']; rfl) rfl rfl
    · exact h.same (count_haltSection _ _ _ _) (AList.lookup_insert_ne hne)
        rfl rfl
  | allocated | notFound | located | refused => exact h.same rfl rfl rfl rfl
  | @closed h' handle hopen =>
    have htotal := Table.total_eq_of_lookup
      (fun _ handle => if handle.adapter = a then 1 else 0) hopen
    refine h.same rfl rfl ?_ rfl
    simp only [handlesOf, Option.elim_none, Option.elim_some, Call.holds]
    omega
  | @inserted a' outcome hreaders =>
    obtain ⟨rfl, hphase⟩ := hrelies _ rfl
    by_cases hne : a = a'
    · subst hne
      exact h.pass rfl (by simp [Adapters.created, hphase])
        (by rw [AList.lookup_insert, hphase]; rfl) rfl rfl
    · exact h.same rfl (AList.lookup_insert_ne hne) rfl rfl
  | @miniportDropped call a' hcall y after hdrops =>
    obtain ⟨hholds, hcleans⟩ := hdrops.shares (a := a)
    have hcount := hdrops.count a
    have hminiports := hdrops.lists.miniports
    have hhandles : handlesOf y a = handlesOf s.shared a :=
      congrArg (Table.total _) hdrops.lists.handles
    have hcleanups : y.cleanups = s.shared.cleanups := hdrops.lists.cleanups
    have hidle : call.holds a = 0 ∧ call.cleans a = 0 := by
      rcases hcall with ⟨outcome, rfl⟩ | rfl <;> exact ⟨rfl, rfl⟩
    simp only [Option.elim_some, hidle.1, hidle.2, zero_add] at h hroom
    rw [hholds, hcleans, zero_add]
    by_cases hne : a = a'
    · subst hne
      have hphase : miniportHolds (s.shared.miniports.lookup a) = 1 ∧
          Adapters.created s.shared a = 1 := by
        rcases hcall with ⟨outcome, rfl⟩ | rfl
        · obtain ⟨-, hphase⟩ := hrelies _ rfl
          simp [Adapters.created, hphase, miniportHolds]
        · have hphase : s.shared.miniports.lookup a = some (.halting c) :=
            hrelies _ rfl
          simp [Adapters.created, hphase, miniportHolds]
      rw [if_pos rfl] at hcount
      refine h.drop hroom hcount ?_ ?_ (by rw [hcleanups]) (by simp [add_comm])
      · rw [hphase.2, Adapters.created, hminiports, AList.lookup_insert]
        rfl
      · rw [holders, holders, hphase.1, hminiports, AList.lookup_insert,
          hhandles]
        simp only [miniportHolds]
        omega
    · rw [if_neg hne] at hcount
      rw [if_neg fun hand => hne hand.1, zero_add]
      exact h.same hcount (by rw [hminiports, AList.lookup_insert_ne hne])
        (by rw [hhandles]) (by rw [hcleanups])
  | @referenced request a' =>
    have hcount := count_mpReferenceAdapter s.shared a' a
    by_cases hne : a = a'
    · subst hne
      have hphase := hlisted.shared.initialized a (hrelies _ rfl)
      rw [if_pos rfl] at hcount
      refine h.take ?_ hroom hcount rfl rfl rfl ?_
      · simp only [holders, hphase, miniportHolds]
        omega
      · simp only [Option.elim_some, Call.holds, if_true]
        omega
    · rw [if_neg hne] at hcount
      refine h.same hcount rfl ?_ rfl
      simp only [Option.elim_some, Call.holds, if_neg (Ne.symm hne)]
      rfl
  | @opened request a' y hy =>
    have hnone : s.shared.handles.lookup c = none :=
      (handles_fresh hs).calls c _ hbefore
    refine h.same (hy.count a) (by rw [hy.lists.miniports]) ?_
      (by rw [hy.lists.cleanups])
    simp only [handlesOf, hy.lists.handles, Option.elim_none,
      Option.elim_some, Call.holds]
    rw [Table.total_insert_of_lookup_none _ _ hnone]
    dsimp only
    omega
  | released hy =>
    exact h.same (hy.count a) (by rw [hy.lists.miniports])
      (by rw [handlesOf, hy.lists.handles]; rfl) (by rw [hy.lists.cleanups])
  | @handleDropped a' y after hdrops =>
    obtain ⟨hholds, hcleans⟩ := hdrops.shares (a := a)
    have hcount := hdrops.count a
    have hhandles : handlesOf y a = handlesOf s.shared a :=
      congrArg (Table.total _) hdrops.lists.handles
    simp only [Option.elim_some, Call.holds, Call.cleans, zero_add]
      at h hroom
    rw [hholds, hcleans, zero_add]
    by_cases hne : a = a'
    · subst hne
      rw [if_pos rfl] at h hroom hcount
      refine h.drop hroom hcount ?_ ?_ (by rw [hdrops.lists.cleanups])
        (by simp [add_comm])
      · rw [Adapters.created, Adapters.created, hdrops.lists.miniports]
      · rw [holders, holders, hdrops.lists.miniports, hhandles]
        omega
    · rw [if_neg (Ne.symm hne), zero_add] at h
      rw [if_neg hne] at hcount
      rw [if_neg fun hand => hne hand.1, zero_add]
      exact h.same hcount (by rw [hdrops.lists.miniports]) (by rw [hhandles])
        (by rw [hdrops.lists.cleanups])
  | @cleaned a' context =>
    have hcount := count_mpCleanupAdapter s.shared a' a
    by_cases hne : a = a'
    · subst hne
      rw [if_pos rfl] at hcount
      simp only [Option.elim_some, Call.holds, Call.cleans, if_true,
        add_comm 1] at h
      rw [Option.elim_none, Option.elim_none, zero_add cleaning]
      cases context
      · exact h.free.2 (mpCleanupAdapter s.shared a) hcount rfl rfl rfl
      · exact h.free.2
          { mpCleanupAdapter s.shared a with
            contexts := (mpCleanupAdapter s.shared a).contexts - 1 }
          hcount rfl rfl rfl
    · rw [if_neg hne] at hcount
      have hcleanups : (mpCleanupAdapter s.shared a').cleanups.count a =
          s.shared.cleanups.count a :=
        List.count_cons_of_ne (Ne.symm hne)
      simp only [Option.elim_some, Call.holds, Call.cleans,
        if_neg (Ne.symm hne)] at h
      cases context <;> exact h.same hcount rfl rfl hcleanups

theorem balanced (hs : machine.Reachable s) (a : ℕ) : Balanced s a := by
  refine Program.invariant (I := fun s => Balanced s a)
    ?_ ?_ hs
  · exact ⟨rfl, rfl, rfl⟩
  · intro s c before n y after hreach ih hbefore hturn
    have hlisted := annotated hreach
    refine (Action.of_turn hturn).balanced hreach hlisted hbefore ?_ ih
    rintro rfl
    obtain ⟨rfl, -⟩ := hturn.of_none
    by_contra hne
    obtain ⟨phase, hphase⟩ := Option.ne_none_iff_exists'.mp hne
    exact Nat.lt_irrefl _ (hlisted.shared.numbered _ phase hphase)

end WinNetTest.Fnmp.Adapters
