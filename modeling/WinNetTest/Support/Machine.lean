import Mathlib.Data.List.Defs
import Mathlib.Data.Option.Basic
import Mathlib.Logic.Relation

/-!
# Labelled machines and their runs

A machine is given by an initial state and a partial step function: a label
names what is executed next (which entry point, which call goes on, what the
environment answers), and a step that is not enabled gives `none`.  Whatever
order of labels is chosen is one interleaving, so a statement about every
reachable state is a statement about every interleaving.
-/

namespace WinNetTest.Support

/-- An initial state and a partial, labelled step function. -/
structure Machine (σ α : Type*) where
  init : σ
  step : σ → α → Option σ

namespace Machine

variable {σ α : Type*} (M : Machine σ α)

/-- Execute a list of labels; `none` when one of them is not enabled. -/
def run (M : Machine σ α) : σ → List α → Option σ
  | s, [] => some s
  | s, a :: rest =>
    match M.step s a with
    | some t => run M t rest
    | none => none

/-- States reached by runs every step of which meets `G`. -/
inductive ReachableWithin (M : Machine σ α) (G : σ → α → Prop) : σ → Prop
  | init : ReachableWithin M G M.init
  | step {s t : σ} {a : α} (hs : ReachableWithin M G s)
      (hG : G s a) (hstep : M.step s a = some t) : ReachableWithin M G t

def Reachable (s : σ) : Prop :=
  M.ReachableWithin (fun _ _ => True) s

variable {M} {s t : σ} {G : σ → α → Prop} {labels : List α}

theorem ReachableWithin.of_run (hG : ∀ s a, G s a) (hs : M.ReachableWithin G s)
    (hrun : M.run s labels = some t) : M.ReachableWithin G t := by
  induction labels generalizing s with
  | nil =>
    cases hrun
    exact hs
  | cons a rest ih =>
    rw [run] at hrun
    cases hstep : M.step s a with
    | none => simp [hstep] at hrun
    | some u =>
      simp only [hstep] at hrun
      exact ih (hs.step (hG s a) hstep) hrun

theorem reachable_of_run (hrun : M.run M.init labels = some t) :
    M.Reachable t :=
  ReachableWithin.init.of_run (fun _ _ => trivial) hrun

variable {P : σ → Prop}

theorem exists_reachable_of_run [DecidablePred P] (labels : List α)
    (h : (M.run M.init labels).any (fun s => decide (P s)) = true) :
    ∃ s, M.Reachable s ∧ P s := by
  obtain ⟨s, hrun, hP⟩ := (Option.any_eq_true _ _).mp h
  exact ⟨s, reachable_of_run hrun, of_decide_eq_true hP⟩

theorem ReachableWithin.mono {G' : σ → α → Prop} (hG : ∀ s a, G s a → G' s a)
    (hs : M.ReachableWithin G s) : M.ReachableWithin G' s := by
  induction hs with
  | init => exact ReachableWithin.init
  | step _ hstepG hstep ih => exact ih.step (hG _ _ hstepG) hstep

theorem ReachableWithin.reachable (hs : M.ReachableWithin G s) :
    M.Reachable s :=
  hs.mono fun _ _ _ => trivial

/-- The machine that refuses the steps outside `G`. -/
def restrict (M : Machine σ α) (G : σ → α → Prop)
    [∀ s a, Decidable (G s a)] : Machine σ α :=
  ⟨M.init, fun s a => if G s a then M.step s a else none⟩

theorem reachableWithin_of_restrict [∀ s a, Decidable (G s a)]
    (hs : (M.restrict G).Reachable s) : M.ReachableWithin G s := by
  induction hs with
  | init => exact ReachableWithin.init
  | @step s t a _ _ hstep ih =>
    simp only [restrict] at hstep
    split at hstep
    · rename_i hG
      exact ih.step hG hstep
    · cases hstep

theorem exists_reachableWithin_of_run (G : σ → α → Prop)
    [∀ s a, Decidable (G s a)] [DecidablePred P] (labels : List α)
    (h : ((M.restrict G).run M.init labels).any
      (fun s => decide (P s)) = true) : ∃ s, M.ReachableWithin G s ∧ P s := by
  obtain ⟨s, hs, hP⟩ := exists_reachable_of_run (M := M.restrict G) labels h
  exact ⟨s, reachableWithin_of_restrict hs, hP⟩

theorem ReachableWithin.invariant (hinit : P M.init)
    (hpres : ∀ s a t, P s → G s a → M.step s a = some t → P t)
    (hs : M.ReachableWithin G s) : P s := by
  induction hs with
  | init => exact hinit
  | step _ hG hstep ih => exact hpres _ _ _ ih hG hstep

theorem Reachable.invariant (hinit : P M.init)
    (hpres : ∀ s a t, P s → M.step s a = some t → P t) (hs : M.Reachable s) :
    P s :=
  ReachableWithin.invariant hinit (fun s a t hP _ => hpres s a t hP) hs

theorem ReachableWithin.project {τ β : Type*} {N : Machine τ β} (f : σ → τ)
    (hinit : f M.init = N.init) (hstep : ∀ s a t, M.step s a = some t →
      f t = f s ∨ ∃ b, N.step (f s) b = some (f t))
    (hs : M.ReachableWithin G s) : N.Reachable (f s) := by
  induction hs with
  | init => exact hinit ▸ ReachableWithin.init
  | @step s t a _ _ hst ih =>
    rcases hstep s a t hst with heq | ⟨b, hb⟩
    · exact heq ▸ ih
    · exact ih.step trivial hb

theorem run_rel {τ β : Type*} {N : Machine τ β} {R : σ → τ → Prop}
    {C : α → β → Prop}
    (hstep : ∀ s t a b, R s t → C a b →
      Option.Rel R (M.step s a) (N.step t b)) {labels' : List β}
    (hlabels : List.Forall₂ C labels labels') {t : τ} (hst : R s t) :
    Option.Rel R (M.run s labels) (N.run t labels') := by
  induction hlabels generalizing s t with
  | nil => exact .some hst
  | @cons a b rest rest' hab _ ih =>
    have hnext := hstep s t a b hst hab
    simp only [run]
    cases hs : M.step s a with
    | none =>
      cases ht : N.step t b with
      | none => exact .none
      | some t' =>
        rw [hs, ht] at hnext
        cases hnext
    | some s' =>
      cases ht : N.step t b with
      | none =>
        rw [hs, ht] at hnext
        cases hnext
      | some t' =>
        rw [hs, ht] at hnext
        cases hnext with
        | some h => exact ih h

/-! ## Continuations -/

/-- One state can be continued to another one by allowed steps. -/
def Leads (M : Machine σ α) (A : σ → α → Prop) : σ → σ → Prop :=
  Relation.ReflTransGen fun s t => ∃ a, A s a ∧ M.step s a = some t

theorem Leads.invariant {A : σ → α → Prop} {I : σ → Prop}
    (hstep : ∀ s a t, I s → A s a → M.step s a = some t → I t)
    (h : M.Leads A s t) (hs : I s) : I t := by
  induction h with
  | refl => exact hs
  | tail _ h ih =>
    obtain ⟨a, ha, hat⟩ := h
    exact hstep _ a _ ih ha hat

/-! ## History variables -/

/-- The machine with a history beside its state: every step records something
about what it did. -/
def observe {η : Type*} (M : Machine σ α) (start : η)
    (record : σ → α → σ → η → η) : Machine (σ × η) α :=
  ⟨(M.init, start), fun p a =>
    (M.step p.1 a).map fun t => (t, record p.1 a t p.2)⟩

section Observe

variable {η : Type*} {start : η} {record : σ → α → σ → η → η}
  {G : σ → α → Prop}

theorem ReachableWithin.observe {s : σ} (hs : M.ReachableWithin G s) :
    ∃ h, (M.observe start record).ReachableWithin (fun p => G p.1) (s, h) := by
  induction hs with
  | init => exact ⟨start, .init⟩
  | @step s t a _ hG hstep ih =>
    obtain ⟨h, hs⟩ := ih
    exact ⟨record s a t h, hs.step hG (by simp [Machine.observe, hstep])⟩

theorem ReachableWithin.of_observe {p : σ × η}
    (hp : (M.observe start record).ReachableWithin (fun p => G p.1) p) :
    M.ReachableWithin G p.1 := by
  induction hp with
  | init => exact .init
  | step _ hG hstep ih =>
    obtain ⟨t, ht, rfl⟩ := Option.map_eq_some_iff.mp hstep
    exact ih.step hG ht

theorem ReachableWithin.observe_invariant {I : σ → η → Prop}
    (hinit : I M.init start)
    (hpres : ∀ s a t h, M.Reachable s → I s h → G s a →
      M.step s a = some t → I t (record s a t h))
    {p : σ × η}
    (hp : (M.observe start record).ReachableWithin (fun p => G p.1) p) :
    I p.1 p.2 := by
  induction hp with
  | init => exact hinit
  | step hp hG hstep ih =>
    obtain ⟨t, ht, rfl⟩ := Option.map_eq_some_iff.mp hstep
    exact hpres _ _ _ _ hp.of_observe.reachable ih hG ht

end Observe

end Machine

end WinNetTest.Support
