import WinNetTest.Sock.EventQueue

/-!
# When receive and accept calls block

A call on an empty list is to return without an item only when its timeout has
elapsed.  The event is set with the first item that is added and is never reset,
so this is the case as long as no call takes the last item off the list: from
then on the event says that there are items although there are none, and a call
returns at once without one, whatever its timeout is.
-/

namespace WinNetTest.Sock.EventQueue

open Support

variable {α β ρ ω : Type*}

/-! ## Blocking -/

def State.isWaiting (s : State α ρ ω) : Bool :=
  match s.call with
  | some (.waiting _ _) => true
  | _ => false

/-- The condition on a run: a call takes an item off the list only if there is
another one. -/
def leavesItem (s : State α ρ ω) : Input β ρ → Bool
  | .advance =>
    match s.call with
    | some (.looking _) | some (.rechecking _ _) => s.queue.items.length != 1
    | _ => true
  | _ => true

/-- What holds in every run: the event is signaled while there are items, and
the items added during a wait are on the list. -/
structure Sound (s : State α ρ ω) : Prop where
  event : s.queue.items ≠ [] → s.queue.event = true
  arrived : ∀ request wait, s.call = some (.waiting request wait) ∨
    s.call = some (.rechecking request wait) →
      s.arrived = wait.arrived + s.queue.items.length
  since : ∀ request wait, s.call = some (.waiting request wait) ∨
    s.call = some (.rechecking request wait) → wait.since ≤ s.now
  woken : ∀ request wait, s.call = some (.rechecking request wait) →
    s.queue.event = true ∨ (wait.timeout ≠ wskclientInfinite ∧
        wait.since + wait.timeout.toNat * 10000 ≤ s.now)

section Steps

variable {side : Side α β ρ ω} {s t : State α ρ ω} {input : Input β ρ}

theorem Action.sound (h : Action side s input t) (hs : Sound s) : Sound t := by
  obtain ⟨hevent, harrived, hsince, hwoken⟩ := hs
  cases h with
  | dropped | configured => exact ⟨hevent, harrived, hsince, hwoken⟩
  | added =>
    refine ⟨fun _ => rfl, ?_, hsince, fun _ _ _ => Or.inl rfl⟩
    intro request wait hcall
    have hlength := harrived request wait hcall
    simp only [Queue.insert, List.length_append, List.length_singleton]
    omega
  | ticked =>
    refine ⟨hevent, harrived, ?_, ?_⟩
    · exact fun request wait hcall => (hsince request wait hcall).trans
        (Nat.le_succ _)
    · intro request wait hcall
      refine (hwoken request wait hcall).imp_right ?_
      exact fun h => ⟨h.1, h.2.trans (Nat.le_succ _)⟩
  | called hcall => exact ⟨hevent, by simp, by simp, by simp⟩
  | found hcall hrequest hitems =>
    refine ⟨fun _ => hevent (by simp [hitems]), ?_, ?_, ?_⟩
    · simp [State.take, State.reply]
    · simp [State.take, State.reply]
    · simp [State.take, State.reply]
  | waits hcall hitems => exact ⟨hevent, by simp [hitems], by simp, by simp⟩
  | woken hcall hstatus =>
    rename_i request wait status
    refine ⟨hevent, ?_, ?_, ?_⟩
    · rintro request' wait' (hcall' | hcall')
      · cases hcall'
      · cases hcall'
        exact harrived request wait (Or.inl hcall)
    · rintro request' wait' (hcall' | hcall')
      · cases hcall'
      · cases hcall'
        exact hsince request wait (Or.inl hcall)
    · intro request' wait' hcall'
      cases hcall'
      unfold waitForEvent at hstatus
      split_ifs at hstatus with hset hinfinite helapsed
      · exact Or.inl hset
      · exact Or.inr ⟨hinfinite, helapsed⟩
  | returned hcall hitems =>
    exact ⟨hevent, by simp [State.reply], by simp [State.reply],
      by simp [State.reply]⟩

theorem Action.signaled (h : Action side s input t)
    (hleaves : leavesItem s input = true)
    (hs : s.queue.event = true → s.queue.items ≠ []) :
    t.queue.event = true → t.queue.items ≠ [] := by
  cases h with
  | added => simp [Queue.insert]
  | found hcall hrequest hitems =>
    rintro - hrest
    change _ = [] at hrest
    subst hrest
    rcases hrequest with rfl | ⟨wait, rfl⟩
    · simp [leavesItem, hcall, hitems] at hleaves
    · simp [leavesItem, hcall, hitems] at hleaves
  | _ => exact hs

theorem Action.drained (h : Action side s input t) (hsound : Sound s)
    (hleaves : leavesItem s input = false) :
    t.isWaiting = false ∧ t.queue.event = true ∧ t.queue.items = [] := by
  cases h with
  | found hcall hrequest hitems =>
    have hevent := hsound.event (by simp [hitems])
    rename_i request item rest call
    refine ⟨rfl, hevent, ?_⟩
    change rest = []
    rcases hrequest with rfl | ⟨wait, rfl⟩
    · simpa [leavesItem, hcall, hitems] using hleaves
    · simpa [leavesItem, hcall, hitems] using hleaves
  | waits hcall hitems | returned hcall hitems =>
    simp [leavesItem, hcall, hitems] at hleaves
  | woken hcall hstatus => simp [leavesItem, hcall] at hleaves
  | _ => cases hleaves

end Steps

/-! ## Runs -/

variable {side : Side α β ρ ω} {s : State α ρ ω}

theorem sound_of_reachable (hs : (machine side).Reachable s) : Sound s := by
  refine hs.invariant ?_ ?_
  · exact ⟨by simp [machine], by simp [machine], by simp [machine],
      by simp [machine]⟩
  · intro s input t ih hstep
    exact (Action.of_step hstep).sound ih

end WinNetTest.Sock.EventQueue
