import WinNetTest.Fnmp.ControlDevice
import Mathlib.Algebra.Order.Group.Nat

/-!
# The lifetime of the control device

Every adapter in memory has a reference to the device, from its allocation
until its cleanup gives the reference back, and so has every initialization
that is about to allocate one.  If an allocation of an `ADAPTER_CONTEXT` fails,
`MpCreateAdapter` has no adapter to clean up and keeps the reference: the
device is never deregistered.  If an allocation of an `FN_TIMER` fails, the
driver reads a `NULL` pointer.  In the runs without such failures the count of
references is the number of adapters, and the device is registered exactly
while there are adapters.
-/

namespace WinNetTest.Fnmp.ControlDevice

open Support

/-! ## The adapters in the hands of calls -/

def mark (a : ℕ) (phase : Phase) : Multiset (ℕ × Phase) :=
  if phase = .initialized then 0 else {(a, phase)}

def marks (adapters : Table ℕ Phase) : Multiset (ℕ × Phase) :=
  adapters.total mark

def Call.owned : Call → Multiset (ℕ × Phase)
  | .building a _ _ | .configuring a _ | .cleaning a => {(a, .held)}
  | .freeing a => {(a, .dereferenced)}
  | _ => 0

def Call.unborn : Call → Bool
  | .referencing _ _ | .allocating _ _ => true
  | _ => false

variable {x y : Shared}

theorem adapters_mpIoctlReference {registered : Bool}
    (h : mpIoctlReference x registered = some y) :
    y.adapters = x.adapters ∧ y.blocks = x.blocks := by
  unfold mpIoctlReference at h
  split_ifs at h
  · cases h
    exact ⟨rfl, rfl⟩
  · cases h
    exact ⟨rfl, rfl⟩

theorem blocks_mpIoctlDereference (x : Shared) :
    (mpIoctlDereference x).blocks = x.blocks := by
  unfold mpIoctlDereference
  dsimp only
  split <;> rfl

section Steps

variable {x y : Shared} {c : ℕ} {before after : Option Call}

section

variable (h : Action x c before y after)

include h

section

variable (howned : ∀ call ∈ before, ∀ a phase, (a, phase) ∈ call.owned →
  x.adapters.lookup a = some phase)

include howned

theorem Action.marks
    (hunborn : ∀ call ∈ before, call.unborn = true →
      x.adapters.lookup c = none) :
    marks y.adapters + before.elim 0 Call.owned =
      marks x.adapters + after.elim 0 Call.owned := by
  cases h with
  | released a ha =>
    have hupdate := Table.total_update mark .held ha
    simpa [ControlDevice.marks, mark, Call.owned] using hupdate
  | referenced create outcome y hy =>
    rw [(adapters_mpIoctlReference hy).1]
    rfl
  | allocated create outcome hblocks =>
    have hinsert :=
      Table.total_insert_of_lookup_none mark .held (hunborn _ rfl rfl)
    rw [add_comm] at hinsert
    simpa [ControlDevice.marks, mark, Call.owned] using hinsert
  | configured a outcome =>
    have hupdate := Table.total_update mark .initialized
      (howned _ rfl a .held (Multiset.mem_singleton_self _))
    simpa [ControlDevice.marks, mark, Call.owned, Shared.return_] using hupdate
  | cleaned a =>
    have hupdate := Table.total_update mark .dereferenced
      (howned _ rfl a .held (Multiset.mem_singleton_self _))
    simpa [ControlDevice.marks, mark, Call.owned] using hupdate
  | freed a =>
    have herase := Table.total_eq_of_lookup mark
      (howned _ rfl a .dereferenced (Multiset.mem_singleton_self _))
    rw [add_comm] at herase
    simpa [ControlDevice.marks, mark, Call.owned, Shared.return_]
      using herase.symm
  | _ => rfl

theorem Action.adapters_cases {a : ℕ} {phase : Phase}
    (ha : y.adapters.lookup a = some phase) :
    (∃ phase', x.adapters.lookup a = some phase') ∨
      (a = c ∧ ∀ call ∈ after, call.unborn = false) := by
  have hinsert : ∀ {a' : ℕ} {phase' phase'' : Phase},
      x.adapters.lookup a' = some phase' →
      (x.adapters.insert a' phase'').lookup a = some phase →
      ∃ phase', x.adapters.lookup a = some phase' := by
    intro a' phase' phase'' ha' hlookup
    by_cases hne : a = a'
    · exact ⟨phase', hne ▸ ha'⟩
    · rw [AList.lookup_insert_ne hne] at hlookup
      exact ⟨phase, hlookup⟩
  cases h with
  | released a' ha' => exact Or.inl (hinsert ha' ha)
  | referenced create outcome y hy =>
    rw [(adapters_mpIoctlReference hy).1] at ha
    exact Or.inl ⟨phase, ha⟩
  | allocated create outcome hblocks =>
    by_cases hne : a = c
    · exact Or.inr ⟨hne, by simp [Call.unborn]⟩
    · exact Or.inl ⟨phase, (AList.lookup_insert_ne hne).symm.trans ha⟩
  | configured a' | cleaned a' =>
    exact Or.inl (hinsert
      (howned _ rfl a' .held (Multiset.mem_singleton_self _)) ha)
  | freed a' =>
    by_cases hne : a = a'
    · subst hne
      have hnone : (x.adapters.erase a).lookup a = none :=
        AList.lookup_erase _ _
      exact absurd (hnone.symm.trans ha) (by simp)
    · exact Or.inl ⟨phase, (AList.lookup_erase_ne hne).symm.trans ha⟩
  | _ => exact Or.inl ⟨phase, ha⟩

end

theorem Action.unborn_before {call : Call} (hcall : call ∈ after)
    (hunborn : call.unborn = true) :
    before = none ∨ ∃ call' ∈ before, call'.unborn = true := by
  cases h with
  | begun create outcome hblocks => exact Or.inl rfl
  | referenced create outcome y hy => exact Or.inr ⟨_, rfl, rfl⟩
  | _ => cases hcall <;> cases hunborn

end

end Steps

/-- The adapters that are being initialized or cleaned up are those of the
calls under way, and an adapter has the number of the call that allocated
it. -/
structure Owned (s : Pool Shared Call) : Prop where
  marks : ControlDevice.marks s.shared.adapters =
    s.calls.total fun _ => Call.owned
  lt : ∀ a phase, s.shared.adapters.lookup a = some phase → a < s.nextCall
  unborn : ∀ c call, s.calls.lookup c = some call → call.unborn = true →
    s.shared.adapters.lookup c = none

variable {s : Pool Shared Call}

theorem Owned.lookup (h : Owned s) {c : ℕ} {call : Call}
    (hcall : s.calls.lookup c = some call) {a : ℕ} {phase : Phase}
    (ha : (a, phase) ∈ call.owned) :
    s.shared.adapters.lookup a = some phase := by
  have hmem : (a, phase) ∈ ControlDevice.marks s.shared.adapters := by
    rw [h.marks, Table.mem_total]
    exact ⟨c, call, hcall, ha⟩
  obtain ⟨a', _, ha', hmark⟩ := Table.mem_total.mp hmem
  unfold mark at hmark
  split at hmark
  · cases hmark
  · cases Multiset.mem_singleton.mp hmark
    exact ha'

theorem owned_of_reachable (hs : machine.Reachable s) : Owned s := by
  refine Program.invariant ?_ ?_ hs
  · exact ⟨rfl, by rintro a phase ⟨⟩, by rintro c call ⟨⟩⟩
  · intro s c before n y after _ ih hbefore hturn
    have hact := Action.of_turn hturn
    have howned : ∀ call ∈ before, ∀ a phase, (a, phase) ∈ call.owned →
        s.shared.adapters.lookup a = some phase :=
      fun call hcall a phase => ih.lookup (hbefore.trans hcall)
    have hunborn : ∀ call ∈ before, call.unborn = true →
        s.shared.adapters.lookup c = none :=
      fun call hcall => ih.unborn c call (hbefore.trans hcall)
    refine ⟨?_, ?_, ?_⟩
    · have hput := s.calls.total_put (fun _ => Call.owned) c after
      have hmarks := hact.marks howned hunborn
      rw [hbefore, ← ih.marks] at hput
      exact add_right_cancel (hmarks.trans hput.symm)
    · intro a phase ha
      rcases hact.adapters_cases howned ha with ⟨phase', ha'⟩ | ⟨rfl, -⟩
      · exact (ih.lt a phase' ha').trans_le hturn.nextCall_le
      · exact hturn.lt
    · intro c' call hcall hcall'
      rw [Table.lookup_put] at hcall
      by_contra hne
      obtain ⟨phase, ha⟩ := Option.ne_none_iff_exists'.mp hne
      split at hcall
      · rename_i hc
        subst hc
        rcases hact.adapters_cases howned ha with
          ⟨phase', ha'⟩ | ⟨-, hborn⟩
        · rcases hact.unborn_before hcall hcall' with
            rfl | ⟨call', hbefore', hunborn'⟩
          · exact (ih.lt c' phase' ha').ne hturn.of_none.1
          · rw [hunborn call' hbefore' hunborn'] at ha'
            cases ha'
        · rw [hborn call hcall] at hcall'
          cases hcall'
      · rename_i hc
        rcases hact.adapters_cases howned ha with
          ⟨phase', ha'⟩ | ⟨heq, -⟩
        · rw [ih.unborn c' call hcall hcall'] at ha'
          cases ha'
        · exact hc heq

/-! ## Memory -/

def Shared.adapterCount (x : Shared) : ℕ :=
  x.adapters.total fun _ _ => 1

theorem blocks_eq (hs : machine.Reachable s) :
    s.shared.blocks = (s.calls.total fun _ _ => 1) + s.shared.adapterCount := by
  refine Program.conserved (fun _ _ => 1) Shared.blocks
    Shared.adapterCount rfl ?_ hs
  intro s c before n y after hs ih hbefore hturn
  have howned := owned_of_reachable hs
  have hstack : ∀ call ∈ before, 1 ≤ s.calls.total fun _ _ => (1 : ℕ) := by
    intro call hcall
    rw [Table.total_eq_of_lookup _ (hbefore.trans hcall)]
    exact Nat.le_add_right _ _
  have hupdate : ∀ {a : ℕ} {phase : Phase} (phase' : Phase),
      s.shared.adapters.lookup a = some phase →
      Table.total (fun _ _ => (1 : ℕ)) (s.shared.adapters.insert a phase') =
        s.shared.adapterCount :=
    fun _ ha => Table.total_update_eq _ ha rfl
  have hself : ∀ {call : Call}, before = some call → ∀ {a phase},
      (a, phase) ∈ call.owned → s.shared.adapters.lookup a = some phase :=
    fun hcall _ _ => howned.lookup (hbefore.trans hcall)
  cases Action.of_turn hturn with
  | begun create outcome hblocks =>
    simp only [Option.elim, Shared.adapterCount]
    omega
  | released a ha hblocks =>
    simp only [Option.elim, Shared.adapterCount, hupdate .held ha]
    omega
  | unloaded | built | faulted | notBuilt | notConfigured => rfl
  | notRegistered | notAllocated =>
    have hpos := hstack _ rfl
    simp only [Option.elim, Shared.adapterCount, Shared.return_]
    omega
  | referenced create outcome y hy =>
    obtain ⟨hadapters, hblocks⟩ := adapters_mpIoctlReference hy
    simp only [Option.elim, Shared.adapterCount, hadapters, hblocks]
  | allocated create outcome hblocks =>
    have hinsert := Table.total_insert_of_lookup_none (fun _ _ => (1 : ℕ))
      Phase.held (howned.unborn c _ hbefore rfl)
    simp only [Option.elim, Shared.adapterCount, hinsert]
    omega
  | configured a outcome =>
    have hpos := hstack _ rfl
    have ha := hself rfl (Multiset.mem_singleton_self (a, Phase.held))
    simp only [Option.elim, Shared.adapterCount, Shared.return_,
      hupdate .initialized ha]
    omega
  | cleaned a =>
    have ha := hself rfl (Multiset.mem_singleton_self (a, Phase.held))
    simp only [Option.elim, Shared.adapterCount, blocks_mpIoctlDereference,
      hupdate .dereferenced ha]
  | freed a =>
    have hpos := hstack _ rfl
    have ha := hself rfl (Multiset.mem_singleton_self (a, Phase.dereferenced))
    have herase := Table.total_eq_of_lookup (fun _ _ => (1 : ℕ)) ha
    simp only [Option.elim, Shared.adapterCount, Shared.return_] at ih ⊢
    omega

theorem blocks_le (hs : machine.Reachable s) : s.shared.blocks ≤ maxBlocks := by
  refine Program.invariant
    (I := fun s => s.shared.blocks ≤ maxBlocks) (Nat.zero_le _) ?_ hs
  intro s c before n y after _ ih _ hturn
  cases Action.of_turn hturn with
  | begun create outcome hblocks | released a ha hblocks
  | allocated create outcome hblocks => exact hblocks
  | referenced create outcome y hy =>
    exact (adapters_mpIoctlReference hy).2.trans_le ih
  | cleaned a => exact (blocks_mpIoctlDereference _).trans_le ih
  | notRegistered | notAllocated | configured => exact (Nat.sub_le _ _).trans ih
  | freed => exact ((Nat.sub_le _ _).trans (Nat.sub_le _ _)).trans ih
  | _ => exact ih

/-! ## The references -/

def Shared.referencing (x : Shared) : ℕ :=
  x.adapters.total fun _ phase => if phase = .dereferenced then 0 else 1

def Call.reference : Call → ℕ
  | .allocating _ _ => 1
  | _ => 0

/-- The condition on a run: the allocation of an adapter succeeds, and so does
that of its `FN_TIMER` where `MpCreateAdapter` comes to it. -/
def allocates (_ : Shared) (_ : ℕ) : Call → Bool
  | .allocating create _ => create.adapterAllocated
  | .building _ create _ =>
    !(create.sharedAllocated && create.nblPoolAllocated) ||
      create.timerAllocated
  | _ => true

theorem referencing_le (x : Shared) : x.referencing ≤ x.adapterCount := by
  refine Table.total_le_total ?_ _
  intro a phase
  split
  · exact Nat.zero_le _
  · exact le_rfl

theorem references_le (hs : machine.Reachable s) :
    (s.calls.total fun _ => Call.reference) + s.shared.referencing ≤
      s.shared.blocks := by
  have hcalls : (s.calls.total fun _ => Call.reference) ≤
      s.calls.total fun _ _ => 1 := by
    refine Table.total_le_total ?_ _
    intro c call
    cases call <;> simp [Call.reference]
  rw [blocks_eq hs]
  exact Nat.add_le_add hcalls (referencing_le s.shared)

def Counted (s : Pool Shared Call) : Prop :=
  s.shared.ioctlDeviceReferenceCount =
    (((s.calls.total fun _ => Call.reference) + s.shared.referencing : ℕ) : ℤ)

structure Registered (x : Shared) : Prop where
  device : x.ioctlDeviceObject = true ↔ x.ioctlDeviceReferenceCount ≠ 0
  asserted : x.assertionFailed = false
  safe : x.fault = false

section Device

variable {x y : Shared}

theorem Registered.reference (h : Registered x) {registered : Bool}
    (hlow : 0 ≤ x.ioctlDeviceReferenceCount)
    (hhigh : x.ioctlDeviceReferenceCount ≤ 2 ^ 60)
    (hy : mpIoctlReference x registered = some y) :
    Registered y ∧
      y.ioctlDeviceReferenceCount = x.ioctlDeviceReferenceCount + 1 := by
  have hnext := Adapters.int64_eq
    (n := x.ioctlDeviceReferenceCount + 1) (by omega) (by omega)
  have hasserted := h.asserted
  unfold mpIoctlReference at hy
  split_ifs at hy with hzero hregistered
  · cases hy
    refine ⟨⟨?_, by simp [hasserted], h.safe⟩, hnext⟩
    simp only [hnext]
    exact iff_of_true trivial (by omega)
  · cases hy
    have hdevice := h.device.mpr hzero
    refine ⟨⟨?_, by simp [hasserted, hdevice], h.safe⟩, hnext⟩
    simp only [hnext, hdevice]
    exact iff_of_true trivial (by omega)

theorem Registered.dereference (h : Registered x)
    (hlow : 1 ≤ x.ioctlDeviceReferenceCount)
    (hhigh : x.ioctlDeviceReferenceCount ≤ 2 ^ 60) :
    Registered (mpIoctlDereference x) ∧
      (mpIoctlDereference x).ioctlDeviceReferenceCount =
        x.ioctlDeviceReferenceCount - 1 := by
  have hnext := Adapters.int64_eq
    (n := x.ioctlDeviceReferenceCount - 1) (by omega) (by omega)
  have hdevice := h.device.mpr (by omega)
  have hasserted := h.asserted
  unfold mpIoctlDereference
  simp only [hnext]
  split
  · rename_i hzero
    exact ⟨⟨by simp [hzero], by simp [hasserted, hdevice], h.safe⟩, rfl⟩
  · rename_i hzero
    exact ⟨⟨by simp [hdevice, hzero], hasserted, h.safe⟩, rfl⟩

end Device

theorem Action.balanced {c : ℕ} {before after : Option Call}
    (h : Action x c before y after)
    (howned : ∀ call ∈ before, ∀ a phase, (a, phase) ∈ call.owned →
      x.adapters.lookup a = some phase)
    (hunborn : ∀ call ∈ before, call.unborn = true → x.adapters.lookup c = none)
    (hok : ∀ call ∈ before, allocates x c call = true) (hx : Registered x)
    (hlow : x.referencing ≤ x.ioctlDeviceReferenceCount)
    (hhigh : x.ioctlDeviceReferenceCount ≤ x.blocks)
    (hblocks : x.blocks ≤ maxBlocks) :
    Registered y ∧ y.ioctlDeviceReferenceCount + before.elim 0 Call.reference +
          x.referencing =
        x.ioctlDeviceReferenceCount + after.elim 0 Call.reference +
          y.referencing := by
  have hbound : x.ioctlDeviceReferenceCount ≤ 2 ^ 60 := by
    rw [maxBlocks] at hblocks
    omega
  have hupdate : ∀ {a : ℕ} {phase : Phase} (phase' : Phase),
      x.adapters.lookup a = some phase → phase ≠ .dereferenced →
      phase' ≠ .dereferenced →
      Shared.referencing { x with adapters := x.adapters.insert a phase' } =
        x.referencing := by
    intro a phase phase' ha hphase hphase'
    exact Table.total_update_eq _ ha (by simp [hphase, hphase'])
  have hself : Registered x := ⟨hx.device, hx.asserted, hx.safe⟩
  cases h with
  | begun | notRegistered => exact ⟨{ hself with }, rfl⟩
  | released a ha hfree =>
    have hsame := hupdate .held ha (by decide) (by decide)
    exact ⟨{ hself with }, congrArg
      (fun n : ℕ => x.ioctlDeviceReferenceCount + 0 + (n : ℤ)) hsame.symm⟩
  | unloaded hadapters hfree =>
    have hzero : x.ioctlDeviceReferenceCount = 0 := by omega
    have hdevice : x.ioctlDeviceObject = false := by
      simpa [hzero] using hx.device
    exact ⟨⟨hx.device, by simp [mpIoctlCleanup, hdevice, hx.asserted],
      hx.safe⟩, rfl⟩
  | referenced create outcome y hy =>
    obtain ⟨hregistered, hcount⟩ := hx.reference (by omega) hbound hy
    refine ⟨hregistered, ?_⟩
    simp only [Option.elim, Call.reference, Shared.referencing,
      (adapters_mpIoctlReference hy).1, hcount]
    omega
  | allocated create outcome hfree =>
    have hinsert := Table.total_insert_of_lookup_none
      (fun _ phase => if phase = Phase.dereferenced then 0 else 1) .held
      (hunborn _ rfl rfl)
    refine ⟨{ hself with }, ?_⟩
    simp only [Option.elim, Call.reference, Shared.referencing, hinsert,
      reduceCtorEq, if_false]
    omega
  | notAllocated create outcome hcreate =>
    have hallocated : create.adapterAllocated = true := hok _ rfl
    rw [hcreate] at hallocated
    cases hallocated
  | built | notBuilt | notConfigured => exact ⟨hx, rfl⟩
  | faulted a create outcome hcreate htimer =>
    have hallocated := hok _ rfl
    simp [allocates, hcreate, htimer] at hallocated
  | configured a outcome =>
    have ha := howned _ rfl a .held (Multiset.mem_singleton_self _)
    have hsame := hupdate .initialized ha (by decide) (by decide)
    exact ⟨{ hself with }, congrArg
      (fun n : ℕ => x.ioctlDeviceReferenceCount + 0 + (n : ℤ)) hsame.symm⟩
  | cleaned a =>
    have ha := howned _ rfl a .held (Multiset.mem_singleton_self _)
    have hupdate' := Table.total_update
      (fun _ phase => if phase = Phase.dereferenced then 0 else 1)
      .dereferenced ha
    simp only [reduceCtorEq, if_false, if_true, add_zero] at hupdate'
    have hpos : 1 ≤ x.referencing := by
      simp only [Shared.referencing]
      omega
    obtain ⟨hregistered, hcount⟩ := hx.dereference (by omega) hbound
    refine ⟨{ hregistered with }, ?_⟩
    simp only [Option.elim, Call.reference, hcount]
    simp only [Shared.referencing] at hupdate' ⊢
    omega
  | freed a =>
    have ha := howned _ rfl a .dereferenced (Multiset.mem_singleton_self _)
    have herase := Table.total_eq_of_lookup
      (fun _ phase => if phase = Phase.dereferenced then 0 else 1) ha
    simp only [if_true, zero_add] at herase
    refine ⟨{ hself with }, ?_⟩
    simp only [Option.elim, Call.reference, Shared.referencing,
      Shared.return_, herase]

/-- The count and the device in the runs without such a failed allocation. -/
structure Balanced (s : Pool Shared Call) : Prop where
  counted : Counted s
  registered : Registered s.shared

theorem balanced_of_allocates (hs : machine.ReachableWithin
      (Program.Meets fun x c call => allocates x c call = true) s) :
    Balanced s := by
  refine Program.invariant_within ?_ ?_ hs
  · exact ⟨rfl, ⟨by simp [program, Program.machine], rfl, rfl⟩⟩
  · intro s c before n y after hs ih hbefore hturn hok
    have howned := owned_of_reachable hs
    have hreferences := references_le hs
    have hcounted := ih.counted
    unfold Counted at hcounted
    obtain ⟨hregistered, hcount⟩ := (Action.of_turn hturn).balanced
      (fun call hcall a phase => howned.lookup (hbefore.trans hcall))
      (fun call hcall => howned.unborn c call (hbefore.trans hcall)) hok
      ih.registered (by omega) (by omega) (blocks_le hs)
    have hput := s.calls.total_put (fun _ => Call.reference) c after
    rw [hbefore] at hput
    refine ⟨?_, hregistered⟩
    unfold Counted
    dsimp only
    omega

/-! ## The lifetime of the device -/

/-- A call is between `MpIoctlReference` and the allocation of its adapter, or
between `MpIoctlDereference` and the release of its memory. -/
def Call.between : Call → Bool
  | .allocating _ _ | .freeing _ => true
  | _ => false

/-- No call is in the middle of creating or freeing an adapter. -/
def Settled (s : Pool Shared Call) : Prop :=
  ∀ c call, s.calls.lookup c = some call → call.between = false

/-- At every moment the references are those of the adapters and of the
initializations that are about to allocate one, no assertion has failed and no
`NULL` pointer has been read. -/
structure DeviceLifetime (s : Pool Shared Call) : Prop where
  counted : Counted s
  asserted : s.shared.assertionFailed = false
  safe : s.shared.fault = false
  count : Settled s → s.shared.ioctlDeviceReferenceCount = s.shared.adapterCount
  registered : Settled s →
    (s.shared.ioctlDeviceObject = true ↔ 0 < s.shared.adapterCount)
  gone : Settled s → s.shared.adapters.keys = [] →
    s.shared.ioctlDeviceObject = false ∧
      (mpIoctlCleanup s.shared).assertionFailed = false

theorem reference_of_settled (h : Settled s) :
    (s.calls.total fun _ => Call.reference) = 0 := by
  refine Table.total_eq_zero ?_
  intro c call hcall
  have hsettled := h c call hcall
  cases call with
  | allocating create outcome => cases hsettled
  | _ => rfl

theorem referencing_of_settled (hs : machine.Reachable s) (h : Settled s) :
    s.shared.referencing = s.shared.adapterCount := by
  refine Table.total_congr ?_
  intro a phase ha
  refine if_neg ?_
  rintro rfl
  have hmem : (a, Phase.dereferenced) ∈ marks s.shared.adapters :=
    Table.mem_total.mpr ⟨a, _, ha, Multiset.mem_singleton_self _⟩
  rw [(owned_of_reachable hs).marks] at hmem
  obtain ⟨c, call, hcall, howned⟩ := Table.mem_total.mp hmem
  have hsettled := h c call hcall
  cases call with
  | freeing a' => cases hsettled
  | _ => simp [Call.owned] at howned

theorem adapterCount_eq_zero (h : x.adapters.keys = []) :
    x.adapterCount = 0 := by
  refine Table.total_eq_zero ?_
  intro a phase ha
  have hmem : a ∈ x.adapters.keys :=
    AList.lookup_isSome.mp (by rw [ha]; rfl)
  rw [h] at hmem
  cases hmem

/-- In every run in which no allocation of an `ADAPTER_CONTEXT` or an `FN_TIMER`
fails, whatever else fails, the control device lives as long as the
adapters. -/
theorem deviceLifetime_of_allocates {s : Pool Shared Call}
    (hs : machine.ReachableWithin
      (Program.Meets fun x c call => allocates x c call = true) s) :
    DeviceLifetime s := by
  obtain ⟨hcounted, hregistered⟩ := balanced_of_allocates hs
  have hcount : Settled s →
      s.shared.ioctlDeviceReferenceCount = s.shared.adapterCount := by
    intro hsettled
    rw [hcounted, reference_of_settled hsettled,
      referencing_of_settled hs.reachable hsettled, zero_add]
  have hdevice : Settled s →
      (s.shared.ioctlDeviceObject = true ↔ 0 < s.shared.adapterCount) := by
    intro hsettled
    rw [hregistered.device, hcount hsettled]
    omega
  refine ⟨hcounted, hregistered.asserted, hregistered.safe, hcount, hdevice, ?_⟩
  intro hsettled hadapters
  have hnone : s.shared.ioctlDeviceObject = false := by
    simpa [adapterCount_eq_zero hadapters] using hdevice hsettled
  exact ⟨hnone, by simp [mpIoctlCleanup, hnone, hregistered.asserted]⟩

/-- The creation of one adapter fails at the thread of its timer while another
is initialized. -/
theorem deviceLifetime_of_allocates_one : ∃ s : Pool Shared Call,
      machine.ReachableWithin
        (Program.Meets fun x c call => allocates x c call = true) s ∧
      (s.shared.adapters.keys = [1] ∧ s.shared.ioctlDeviceObject = true ∧
        s.calls.keys = []) ∧ DeviceLifetime s :=
  (Machine.exists_reachableWithin_of_run _
    [.start (.initializeMiniport ⟨true, true, true, true, true, false⟩
        ⟨true, true, true, true, true⟩), .advance 0,
      .start (.initializeMiniport ⟨false, true, true, true, true, true⟩
        ⟨true, true, true, true, true⟩),
      .advance 0, .advance 1, .advance 1, .advance 1, .advance 0, .advance 1,
      .advance 0, .advance 0] (by decide +kernel)).imp
    fun s ⟨hs, hrun⟩ => ⟨hs, hrun, deviceLifetime_of_allocates hs⟩

/-- After the allocation of an adapter has failed there are no adapters and no
calls, but the device is registered and has a reference.  The assertion of
`MpIoctlCleanup` fails.  After the allocation of a timer has failed the adapter
is there for good. -/
theorem device_outlives_adapters :
    (∃ s : Pool Shared Call, machine.Reachable s ∧
      s.shared.adapters.keys = [] ∧ s.calls.keys = [] ∧
      s.shared.ioctlDeviceReferenceCount = 1 ∧
      s.shared.ioctlDeviceObject = true ∧
      (mpIoctlCleanup s.shared).assertionFailed = true) ∧
    (∃ s : Pool Shared Call, machine.Reachable s ∧
      s.shared.assertionFailed = true) ∧
    ∃ s : Pool Shared Call, machine.Reachable s ∧ s.shared.fault = true ∧
      s.shared.adapters.keys = [0] := by
  refine ⟨?_, ?_, ?_⟩
  · exact Machine.exists_reachable_of_run
      [.start (.initializeMiniport ⟨true, false, true, true, true, true⟩
          ⟨true, true, true, true, true⟩), .advance 0, .advance 0]
      (by decide +kernel)
  · exact Machine.exists_reachable_of_run
      [.start (.initializeMiniport ⟨true, false, true, true, true, true⟩
          ⟨true, true, true, true, true⟩),
        .advance 0, .advance 0, .start .unload]
      (by decide +kernel)
  · exact Machine.exists_reachable_of_run
      [.start (.initializeMiniport ⟨true, true, true, true, false, true⟩
          ⟨true, true, true, true, true⟩), .advance 0, .advance 0, .advance 0]
      (by decide +kernel)

end WinNetTest.Fnmp.ControlDevice
