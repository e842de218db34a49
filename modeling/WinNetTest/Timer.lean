import WinNetTest.Support.Machine

/-!
# Watchdog timers

`FnTimerCreate` (`fntimer.h`) starts a thread that waits for the close event
and calls the callback whenever its wait times out.  `FnTimerClose` sets the
event, waits for the thread and frees the timer.  The owner is an adapter of
FNMP or a filter module of FNLWF: the callback uses its memory, and it is freed
once the timer is closed or could not be created.
-/

namespace WinNetTest.Timer

open Support

/-- Where `FnTimerWorker` stands: not started, in its wait, with a wait that has
timed out, in the callback, or at its end. -/
inductive Worker where
  | unborn
  | waiting
  | expired
  | calling
  | exited
  deriving DecidableEq

/-- Where the owner stands: before `FnTimerCreate`, with the thread started by
it, with a timer, waiting in `FnTimerClose`, back from it, with a failed
`FnTimerCreate`, or freed. -/
inductive Owner where
  | idle
  | creating
  | running
  | closing
  | closed
  | failed
  | freed
  deriving DecidableEq

structure FnTimer where
  threadHandle : Bool
  closeEvent : Bool
  deriving DecidableEq

/-- `lateCalls` counts the callbacks begun since the close event was set, and
`fault` is a read of freed memory or of a `NULL` pointer. -/
structure State where
  owner : Owner
  worker : Worker
  timer : Option FnTimer
  frees : ℕ
  threadReferences : ℕ
  lateCalls : ℕ
  fault : Bool
  deriving DecidableEq

def State.access (s : State) (f : FnTimer → State) : State :=
  match s.timer with
  | none => { s with fault := true }
  | some timer => f timer

def fnTimerDestroy (s : State) : State :=
  s.access fun timer =>
    { s with
      timer := none
      frees := s.frees + 1
      threadReferences := s.threadReferences - timer.threadHandle.toNat }

/-- `FnTimerCreate` up to the start of the thread; the pool and the system
answer with `allocated` and `started`. -/
def fnTimerCreate (s : State) (allocated started : Bool) : State :=
  if !allocated then fnTimerDestroy { s with owner := .failed }
  else if !started then
    fnTimerDestroy { s with owner := .failed, timer := some ⟨false, false⟩ }
  else
    { s with
      owner := .creating, worker := .waiting, timer := some ⟨false, false⟩ }

/-- The next step of `FnTimerWorker`.  A wait for an event that is set does not
time out. -/
def fnTimerWorker (s : State) : Option State :=
  match s.worker with
  | .unborn | .exited => none
  | .waiting =>
    some (s.access fun timer =>
      { s with worker := if timer.closeEvent then .exited else .expired })
  | .expired =>
    some (s.access fun timer =>
      { s with
        worker := .calling
        lateCalls := s.lateCalls + timer.closeEvent.toNat
        fault := s.owner = .freed })
  | .calling =>
    some (s.access fun _ =>
      { s with worker := .waiting, fault := s.owner = .freed })

inductive Input where
  | create (allocated started : Bool)
  | created
  | work
  | close
  | join
  | free
  deriving DecidableEq

def step (s : State) (input : Input) : Option State :=
  if s.fault then none
  else match input, s.owner with
  | .work, _ => fnTimerWorker s
  | .create allocated started, .idle =>
    some (fnTimerCreate s allocated started)
  | .created, .creating =>
    some (s.access fun timer =>
      { s with
        owner := .running
        timer := some { timer with threadHandle := true }
        threadReferences := s.threadReferences + 1 })
  | .close, .running =>
    some (s.access fun timer =>
      { s with
        owner := .closing, timer := some { timer with closeEvent := true } })
  | .join, .closing =>
    if s.worker = .exited then some (fnTimerDestroy { s with owner := .closed })
    else none
  | .free, .closed | .free, .failed => some { s with owner := .freed }
  | _, _ => none

def machine : Machine State Input where
  init := ⟨.idle, .unborn, none, 0, 0, 0, false⟩
  step := step

/-- The states of a timer at each position of its owner.  A callback that begins
after the close event was set is the last one. -/
inductive Sound : State → Prop
  | idle : Sound machine.init
  | creating {worker : Worker} (alive : worker ≠ .unborn ∧ worker ≠ .exited) :
    Sound ⟨.creating, worker, some ⟨false, false⟩, 0, 0, 0, false⟩
  | running {worker : Worker} (alive : worker ≠ .unborn ∧ worker ≠ .exited) :
    Sound ⟨.running, worker, some ⟨true, false⟩, 0, 1, 0, false⟩
  | closing {worker : Worker} {late : ℕ} (started : worker ≠ .unborn)
    (last : late ≤ 1) (first : worker = .expired → late = 0) :
    Sound ⟨.closing, worker, some ⟨true, true⟩, 0, 1, late, false⟩
  | closed {late : ℕ} (last : late ≤ 1) :
    Sound ⟨.closed, .exited, none, 1, 0, late, false⟩
  | noMemory : Sound ⟨.failed, .unborn, none, 0, 0, 0, true⟩
  | noThread : Sound ⟨.failed, .unborn, none, 1, 0, 0, false⟩
  | freed {worker : Worker} {late : ℕ} (last : late ≤ 1)
    (ended : worker = .unborn ∨ worker = .exited) :
    Sound ⟨.freed, worker, none, 1, 0, late, false⟩

/-- The thread keeps a timer sound, whatever its owner is doing. -/
theorem Sound.fnTimerWorker {s t : State} (hs : Sound s)
    (h : Timer.fnTimerWorker s = some t) : Sound t := by
  cases hs with
  | idle => cases h
  | creating alive =>
    rename_i worker
    cases worker <;> cases h <;> exact .creating (by decide)
  | running alive =>
    rename_i worker
    cases worker <;> cases h <;> exact .running (by decide)
  | closing started last first =>
    rename_i worker late
    cases worker with
    | unborn | exited => cases h
    | waiting => cases h; exact .closing (by decide) last nofun
    | expired =>
      cases h
      obtain rfl := first rfl
      exact .closing (by decide) (Nat.le_refl 1) nofun
    | calling => cases h; exact .closing (by decide) last nofun
  | closed | noMemory | noThread => cases h
  | freed last ended => obtain rfl | rfl := ended <;> cases h

theorem Sound.step {s t : State} {input : Input} (hs : Sound s)
    (h : Timer.step s input = some t) : Sound t := by
  cases input with
  | work =>
    unfold Timer.step at h
    split at h
    · cases h
    · exact hs.fnTimerWorker h
  | create allocated started =>
    cases hs <;> cases h
    cases allocated with
    | false => exact .noMemory
    | true =>
      cases started with
      | false => exact .noThread
      | true => exact .creating (by decide)
  | created =>
    cases hs <;> cases h
    next alive => exact .running alive
  | close =>
    cases hs <;> cases h
    next alive => exact .closing alive.1 (Nat.zero_le 1) fun _ => rfl
  | join =>
    cases hs <;> try cases h
    case closing worker late started last first =>
      cases worker <;> cases h
      exact .closed last
  | free =>
    cases hs <;> cases h
    · next last => exact .freed last (.inr rfl)
    · exact .freed (Nat.zero_le 1) (.inl rfl)

theorem sound_of_reachable {s : State} (hs : machine.Reachable s) : Sound s :=
  hs.invariant .idle fun _ _ _ hs hstep => hs.step hstep

/-- A worker that has been told to stop gets to its end in three steps, which
lets `FnTimerClose` return. -/
theorem Sound.closes {s : State} (hs : Sound s) (howner : s.owner = .closing) :
    ∃ n ≤ 3, ∃ t, t.owner = .closed ∧
      machine.run s (List.replicate n .work ++ [.join]) = some t := by
  cases hs <;> cases howner
  case closing worker late started last first =>
    cases worker with
    | unborn => exact absurd rfl started
    | expired => exact ⟨3, by decide, _, rfl, rfl⟩
    | calling => exact ⟨2, by decide, _, rfl, rfl⟩
    | waiting => exact ⟨1, by decide, _, rfl, rfl⟩
    | exited => exact ⟨0, by decide, _, rfl, rfl⟩

/-- The only bad read is that of `FnTimerDestroy` after a failed allocation.  A
timer is freed at most once; at most one callback begins after the close event
is set, and none once `FnTimerClose` is back, which it gets in three steps of
the thread. -/
theorem fnTimerClose_settles {s : State} (hs : machine.Reachable s) :
    (s.fault = true ↔ s.owner = .failed ∧ s.frees = 0) ∧
      s.frees ≤ 1 ∧ s.lateCalls ≤ 1 ∧
      (s.owner = .closed ∨ s.owner = .freed →
        s.timer = none ∧ s.threadReferences = 0 ∧
          machine.step s .work = none) ∧
      (s.owner = .closing → ∃ n ≤ 3, ∃ t, t.owner = .closed ∧
        machine.run s (List.replicate n .work ++ [.join]) = some t) := by
  have hsound := sound_of_reachable hs
  refine ⟨?_, ?_, ?_, ?_, hsound.closes⟩
  · cases hsound <;> simp [machine]
  · cases hsound <;> simp [machine]
  · cases hsound <;> simp_all [machine]
  · intro howner
    cases hsound with
    | closed => exact ⟨rfl, rfl, rfl⟩
    | freed last ended => obtain rfl | rfl := ended <;> exact ⟨rfl, rfl, rfl⟩
    | _ => simp [machine] at howner

/-- The timer is closed between the timeout of a wait and the callback. -/
theorem fnTimerClose_settles_late :
    ∃ s, machine.Reachable s ∧ s.lateCalls = 1 ∧
      ∃ n ≤ 3, ∃ t, t.owner = .closed ∧
        machine.run s (List.replicate n .work ++ [.join]) = some t := by
  obtain ⟨s, hs, hlate, howner⟩ := Machine.exists_reachable_of_run
    (M := machine) (P := fun s => s.lateCalls = 1 ∧ s.owner = .closing)
    [.create true true, .created, .work, .close, .work] (by decide)
  exact ⟨s, hs, hlate, (fnTimerClose_settles hs).2.2.2.2 howner⟩

example : (machine.run machine.init [.create false true]).any (·.fault) := rfl

end WinNetTest.Timer
