import WinNetTest.Support.Machine
import WinNetTest.Support.Table

/-!
# Programs of interleaved calls

A program executes calls over a shared state, one atomic action at a time.  A
call is begun by an action of its own and is then represented by the position
it has reached; the last action of a call removes it.  Every choice of the
call that acts next is an interleaving.
-/

namespace WinNetTest.Support

/-- Calls under way over a shared state.  Calls are numbered in the order of
their beginning. -/
structure Pool (σ κ : Type*) where
  shared : σ
  calls : Table ℕ κ
  nextCall : ℕ

/-- What is executed next: the first action of a new call, or the next action
of a call under way. -/
inductive Move (α : Type*) where
  | start (input : α)
  | advance (c : ℕ)
  deriving DecidableEq

/-- The first action of a call, given its number and what it is called with, and
the next action at each position. -/
structure Program (σ κ α : Type*) where
  init : σ
  start : σ → ℕ → α → Option (σ × Option κ)
  advance : σ → ℕ → κ → Option (σ × Option κ)

namespace Program

variable {σ κ α : Type*} (P : Program σ κ α)

def machine : Machine (Pool σ κ) (Move α) where
  init := ⟨P.init, ∅, 0⟩
  step s
    | .start input =>
      (P.start s.shared s.nextCall input).map fun next =>
        ⟨next.1, s.calls.put s.nextCall next.2, s.nextCall + 1⟩
    | .advance c =>
      (s.calls.lookup c).bind fun call =>
        (P.advance s.shared c call).map fun next =>
          ⟨next.1, s.calls.put c next.2, s.nextCall⟩

/-- The moves of calls whose next action meets a condition. -/
def Meets (ok : σ → ℕ → κ → Prop) (s : Pool σ κ) : Move α → Prop
  | .start _ => True
  | .advance c => ∀ call ∈ s.calls.lookup c, ok s.shared c call

instance (ok : σ → ℕ → κ → Prop) [∀ x c call, Decidable (ok x c call)]
    (s : Pool σ κ) (m : Move α) : Decidable (Meets ok s m) :=
  match m with
  | .start _ => isTrue trivial
  | .advance c =>
    match hcall : s.calls.lookup c with
    | none => isTrue (by simp [Meets, hcall])
    | some call =>
      decidable_of_iff (ok s.shared c call) (by simp [Meets, hcall])

variable {s : Pool σ κ} {after : Option κ} {m : Move α}

theorem Meets.imp {ok ok' : σ → ℕ → κ → Prop}
    (h : ∀ x c call, ok x c call → ok' x c call) (hm : Meets ok s m) :
    Meets ok' s m := by
  cases m with
  | start input => trivial
  | advance c => exact fun call hcall => h _ _ _ (hm call hcall)

/-- One action of the call numbered `c`, with its position before and after
(`none` before its beginning and after its end), the shared state before and
after, and the number of calls begun after it. -/
inductive Turn (s : Pool σ κ) (c : ℕ) : Option κ → ℕ → σ → Option κ → Prop
  | start {input : α} {y : σ} {after : Option κ} (hc : c = s.nextCall)
      (hstart : P.start s.shared c input = some (y, after)) :
      Turn s c none (s.nextCall + 1) y after
  | advance {call : κ} {y : σ} {after : Option κ} (hc : c < s.nextCall)
      (hadvance : P.advance s.shared c call = some (y, after)) :
      Turn s c (some call) s.nextCall y after

variable {P} {c n : ℕ} {y : σ}

theorem Turn.of_none (h : P.Turn s c none n y after) :
    c = s.nextCall ∧ n = s.nextCall + 1 := by
  cases h with
  | start hc hstart => exact ⟨hc, rfl⟩

variable {before : Option κ}

theorem Turn.lt (h : P.Turn s c before n y after) : c < n := by
  cases h with
  | start hc hstart => exact hc ▸ Nat.lt_succ_self _
  | advance hc hadvance => exact hc

theorem Turn.nextCall_le (h : P.Turn s c before n y after) :
    s.nextCall ≤ n := by
  cases h with
  | start hc hstart => exact Nat.le_succ _
  | advance hc hadvance => exact le_rfl

variable {call : κ}

theorem step_advance (hcall : s.calls.lookup c = some call)
    (hadvance : P.advance s.shared c call = some (y, after)) :
    P.machine.step s (.advance c) =
      some ⟨y, s.calls.put c after, s.nextCall⟩ := by
  simp only [machine, hcall, hadvance, Option.bind_some, Option.map_some]

theorem exists_run_to_end (C : κ → Prop) (rank : κ → ℕ)
    (hnext : ∀ x call, C call → ∃ y after,
      P.advance x c call = some (y, after) ∧
        ∀ next ∈ after, C next ∧ rank next < rank call)
    (hcall : s.calls.lookup c = some call) (hC : C call) :
    ∃ k t, P.machine.run s (List.replicate k (.advance c)) = some t ∧
      t.calls.lookup c = none := by
  induction hrank : rank call using Nat.strong_induction_on
    generalizing s call with
  | _ bound ih =>
    subst hrank
    obtain ⟨y, after, hadvance, hafter⟩ := hnext s.shared call hC
    have hstep := step_advance hcall hadvance
    have hlookup : (s.calls.put c after).lookup c = after := by
      rw [Table.lookup_put, if_pos rfl]
    cases after with
    | none =>
      refine ⟨1, ⟨y, s.calls.put c none, s.nextCall⟩, ?_, hlookup⟩
      simp only [List.replicate_succ, List.replicate_zero, Machine.run, hstep]
    | some next =>
      obtain ⟨hCnext, hless⟩ := hafter next rfl
      obtain ⟨k, t, hrun, hend⟩ := ih (rank next) hless
        (s := ⟨y, s.calls.put c (some next), s.nextCall⟩)
        hlookup hCnext rfl
      refine ⟨k + 1, t, ?_, hend⟩
      simp only [List.replicate_succ, Machine.run, hstep]
      exact hrun

theorem lt_nextCall (hs : P.machine.Reachable s)
    (hcall : s.calls.lookup c = some call) : c < s.nextCall := by
  refine Machine.Reachable.invariant
    (P := fun s => ∀ c call, s.calls.lookup c = some call → c < s.nextCall)
    ?_ ?_ hs c call hcall
  · intro c call hcall
    cases hcall
  · intro s move t ih hstep c call hcall
    cases move with
    | start input =>
      obtain ⟨next, -, rfl⟩ := Option.map_eq_some_iff.mp hstep
      rw [Table.lookup_put] at hcall
      split at hcall
      · rename_i hc
        exact hc ▸ Nat.lt_succ_self _
      · exact Nat.lt_succ_of_lt (ih c call hcall)
    | advance c' =>
      obtain ⟨before, hbefore, hmap⟩ := Option.bind_eq_some_iff.mp hstep
      obtain ⟨next, -, rfl⟩ := Option.map_eq_some_iff.mp hmap
      rw [Table.lookup_put] at hcall
      split at hcall
      · rename_i hc
        exact hc ▸ ih c' before hbefore
      · exact ih c call hcall

theorem turn_of_step {t : Pool σ κ} (hs : P.machine.Reachable s)
    (hstep : P.machine.step s m = some t) :
    ∃ c before after n y, s.calls.lookup c = before ∧
      P.Turn s c before n y after ∧ t = ⟨y, s.calls.put c after, n⟩ ∧
      ∀ ok, Meets ok s m → ∀ call ∈ before, ok s.shared c call := by
  cases m with
  | start input =>
    obtain ⟨⟨y, after⟩, hstart, rfl⟩ := Option.map_eq_some_iff.mp hstep
    have hfresh : s.calls.lookup s.nextCall = none := by
      by_contra hne
      obtain ⟨call, hcall⟩ := Option.ne_none_iff_exists'.mp hne
      exact Nat.lt_irrefl _ (lt_nextCall hs hcall)
    exact ⟨s.nextCall, none, after, _, y, hfresh, .start rfl hstart, rfl,
      by simp⟩
  | advance c =>
    obtain ⟨call, hcall, hmap⟩ := Option.bind_eq_some_iff.mp hstep
    obtain ⟨⟨y, after⟩, hadvance, rfl⟩ := Option.map_eq_some_iff.mp hmap
    refine ⟨c, some call, after, _, y, hcall,
      .advance (lt_nextCall hs hcall) hadvance, rfl, ?_⟩
    intro ok hok call' hcall'
    cases hcall'
    exact hok call hcall

variable {I : Pool σ κ → Prop}

theorem invariant_guarded {G : Pool σ κ → Move α → Prop}
    (hinit : I P.machine.init)
    (hturn : ∀ s m c before n y after, P.machine.Reachable s → I s → G s m →
      (∀ ok, Meets ok s m → ∀ call ∈ before, ok s.shared c call) →
      s.calls.lookup c = before → P.Turn s c before n y after →
      I ⟨y, s.calls.put c after, n⟩) (hs : P.machine.ReachableWithin G s) :
    I s := by
  induction hs with
  | init => exact hinit
  | step hs hG hstep ih =>
    obtain ⟨c, before, after, n, y, hbefore, hact, rfl, hmeets⟩ :=
      turn_of_step hs.reachable hstep
    exact hturn _ _ c before n y after hs.reachable ih hG hmeets hbefore hact

theorem invariant_within {ok : σ → ℕ → κ → Prop} (hinit : I P.machine.init)
    (hturn : ∀ s c before n y after, P.machine.Reachable s → I s →
      s.calls.lookup c = before → P.Turn s c before n y after →
      (∀ call ∈ before, ok s.shared c call) →
      I ⟨y, s.calls.put c after, n⟩)
    (hs : P.machine.ReachableWithin (Meets ok) s) : I s :=
  invariant_guarded hinit (fun s _ c before n y after hs ih hok hmeets hbefore
    hact => hturn s c before n y after hs ih hbefore hact (hmeets _ hok)) hs

theorem invariant_along {C : Pool σ κ → Prop} (hinit : I P.machine.init)
    (hturn : ∀ s c before n y after, P.machine.Reachable s → C s → I s →
      s.calls.lookup c = before → P.Turn s c before n y after →
      I ⟨y, s.calls.put c after, n⟩)
    (hs : P.machine.ReachableWithin (fun s _ => C s) s) : I s :=
  invariant_guarded hinit (fun s _ c before n y after hs ih hC _ =>
    hturn s c before n y after hs hC ih) hs

theorem invariant (hinit : I P.machine.init)
    (hturn : ∀ s c before n y after, P.machine.Reachable s → I s →
      s.calls.lookup c = before → P.Turn s c before n y after →
      I ⟨y, s.calls.put c after, n⟩) (hs : P.machine.Reachable s) : I s :=
  invariant_guarded hinit (fun s _ c before n y after hs ih _ _ =>
    hturn s c before n y after hs ih) hs

/-- An invariant of the shared state, given the number of calls begun, and an
assertion for each call under way. -/
structure Annotated (I : ℕ → σ → Prop) (A : σ → ℕ → κ → Prop)
    (s : Pool σ κ) : Prop where
  shared : I s.nextCall s.shared
  calls : ∀ c call, s.calls.lookup c = some call → A s.shared c call

theorem Annotated.turn {I : ℕ → σ → Prop} {A : σ → ℕ → κ → Prop}
    (hshared : I n y) (hafter : ∀ call ∈ after, A y c call)
    (hothers : ∀ c' call, c' ≠ c → s.calls.lookup c' = some call →
      A y c' call) : Annotated I A ⟨y, s.calls.put c after, n⟩ := by
  refine ⟨hshared, fun c' call hcall => ?_⟩
  rw [Table.lookup_put] at hcall
  split at hcall
  · rename_i hc
    subst hc
    exact hafter call hcall
  · rename_i hc
    exact hothers c' call hc hcall

theorem conserved {M : Type*} [AddCancelCommMonoid M] (hand : ℕ → κ → M)
    (whole rest : σ → M) (hinit : whole P.init = rest P.init)
    (hturn : ∀ s c before n y after, P.machine.Reachable s →
      whole s.shared = s.calls.total hand + rest s.shared →
      s.calls.lookup c = before → P.Turn s c before n y after →
      whole y + (before.elim 0 (hand c) + rest s.shared) =
        whole s.shared + (after.elim 0 (hand c) + rest y))
    (hs : P.machine.Reachable s) :
    whole s.shared = s.calls.total hand + rest s.shared := by
  refine invariant
    (I := fun s => whole s.shared = s.calls.total hand + rest s.shared)
    ?_ ?_ hs
  · simpa [machine] using hinit
  · intro s c before n y after hs ih hbefore hact
    have hput := s.calls.total_put hand c after
    have hstep := hturn s c before n y after hs ih hbefore hact
    rw [hbefore] at hput
    have hsum : whole y + (before.elim 0 (hand c) + rest s.shared) =
        (s.calls.put c after).total hand + rest y +
          (before.elim 0 (hand c) + rest s.shared) := by
      rw [hstep, ih]
      calc
        s.calls.total hand + rest s.shared + (after.elim 0 (hand c) + rest y) =
            (s.calls.total hand + after.elim 0 (hand c)) +
              (rest y + rest s.shared) := by abel
        _ = ((s.calls.put c after).total hand + before.elim 0 (hand c)) +
              (rest y + rest s.shared) := by rw [hput]
        _ = _ := by abel
    exact add_right_cancel hsum

end Program

end WinNetTest.Support
