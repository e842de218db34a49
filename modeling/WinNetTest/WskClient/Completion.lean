import Mathlib
import WinNetTest.WskClient.Operation

/-!
# The completion of asynchronous operations

In every run of an operation the completion block, the IRP and the MDL are
freed once, after the provider has completed the IRP, and every wait is for an
event that is set or will be set, provided that a caller cancels only an
operation that the provider has pended.  `GenericCompletionRoutine` does not set
the event of an IRP that the provider completes in its call, and `Wsk…Cancel`
waits for it in any case.
-/

namespace WinNetTest.WskClient

open Support Std.Do

/-! ## The memory of an operation -/

def Block.Gone (block : Block) : Prop :=
  block.frees = if block.allocated then 1 else 0

/-- What the completion block of an operation says about its MDL is right. -/
@[mk_iff]
structure Resources.Buffered (r : Resources) : Prop where
  pages : r.pagesLocked = r.bufLocked
  locked : r.bufLocked = true → r.wskBufMdl = true
  held : r.wskBufMdl = true → r.mdl = .fresh
  gone : r.wskBufMdl = false → r.mdl.Gone

@[mk_iff]
structure Resources.Held (operation : Operation) (r : Resources) : Prop where
  completion : r.completion = .fresh
  irp : r.irp = .fresh
  buffered : r.Buffered
  accept : operation = .accept → r.wskBufMdl = false

@[mk_iff]
structure Resources.Gone (r : Resources) : Prop where
  completion : r.completion.Gone
  irp : r.irp.Gone
  mdl : r.mdl.Gone
  pages : r.pagesLocked = false

variable {r : Resources} {operation : Operation} {s : State}

theorem Resources.Buffered.uninitializeWskBuf (h : r.Buffered) :
    (uninitializeWskBuf r).mdl.Gone ∧
      (uninitializeWskBuf r).pagesLocked = false ∧
      (uninitializeWskBuf r).completion = r.completion ∧
      (uninitializeWskBuf r).irp = r.irp := by
  unfold WskClient.uninitializeWskBuf
  split
  · rename_i hmdl
    refine ⟨?_, ?_, rfl, rfl⟩
    · simp only [h.held hmdl]
      rfl
    · simp [h.pages]
  · rename_i hmdl
    have hnone : r.wskBufMdl = false := by simpa using hmdl
    refine ⟨h.gone hnone, ?_, rfl, rfl⟩
    rw [h.pages]
    by_contra hlocked
    exact hmdl (h.locked (by simpa using hlocked))

theorem freeCompletion_eq
    (haccept : operation = .accept → r.wskBufMdl = false) :
    freeCompletion operation r = { uninitializeWskBuf r with
        completion := (uninitializeWskBuf r).completion.free } := by
  unfold freeCompletion
  split
  · rename_i hoperation
    simp [uninitializeWskBuf, haccept hoperation]
  · rfl

theorem Resources.Held.gone (h : r.Held operation) :
    (freeCompletion operation (ioFreeIrp r)).Gone := by
  have hbuffered : (ioFreeIrp r).Buffered := { h.buffered with }
  obtain ⟨hmdl, hpages, hcompletion, hirp⟩ := hbuffered.uninitializeWskBuf
  rw [freeCompletion_eq (r := ioFreeIrp r) h.accept]
  refine ⟨?_, ?_, hmdl, hpages⟩
  · dsimp only
    rw [hcompletion]
    change r.completion.free.Gone
    rw [h.completion]
    rfl
  · dsimp only
    rw [hirp]
    change r.irp.free.Gone
    rw [h.irp]
    rfl

theorem Resources.Held.failure (h : r.Held operation) :
    (failure operation r).Gone := by
  have hgone := h.gone
  simpa [WskClient.failure, h.irp, h.completion, Block.fresh, ioFreeIrp]
    using hgone

/-! ## `Wsk…Async` -/

/-- The states after `Wsk…Async` has got to the call of the provider, and after
it has failed. -/
def prepared (operation : Operation) :
    PostCond Unit (.except NtStatus (.arg Resources .pure)) :=
  post⟨fun _ r => ⌜r.Held operation⌝, fun _ r => ⌜(failure operation r).Gone⌝⟩

set_option mvcgen.warning false

theorem prepareWith_spec (operation : Operation) (sockTypes : List SockType)
    (buffer : Bool) (haccept : operation = .accept → buffer = false)
    (request : Request) :
    ⦃fun r => ⌜r = .empty⌝⦄
    prepareWith sockTypes buffer request
    ⦃prepared operation⦄ := by
  mvcgen [prepareWith, allocateCompletion, selectDispatch, allocateIrp,
    initializeBuffer, initializeWskBuf]
  all_goals
    simp_all +zetaDelta [prepared, Resources.held_iff, Resources.buffered_iff,
      Resources.gone_iff, failure, freeCompletion, uninitializeWskBuf,
      ioFreeIrp, Block.Gone, Block.free, Block.fresh, Block.none,
      Resources.empty]

theorem wskSendToAsync_spec (request : Request) : ⦃fun r => ⌜r = .empty⌝⦄
    wskSendToAsync request
    ⦃prepared .sendTo⦄ := by
  mvcgen [wskSendToAsync, allocateCompletion, allocateIrp, initializeBuffer,
    initializeWskBuf]
  all_goals
    simp_all +zetaDelta [prepared, Resources.held_iff, Resources.buffered_iff,
      Resources.gone_iff, failure, freeCompletion, uninitializeWskBuf,
      ioFreeIrp, Block.Gone, Block.free, Block.fresh, Block.none,
      Resources.empty]

theorem prepare_spec (operation : Operation) (request : Request) :
    ⦃fun r => ⌜r = .empty⌝⦄
    prepare operation request
    ⦃prepared operation⦄ := by
  cases operation with
  | connect => exact prepareWith_spec .connect _ _ nofun request
  | accept => exact prepareWith_spec .accept _ _ (fun _ => rfl) request
  | disconnect => exact prepareWith_spec .disconnect _ _ nofun request
  | send => exact prepareWith_spec .send _ _ nofun request
  | sendTo => exact wskSendToAsync_spec request
  | receive => exact prepareWith_spec .receive _ _ nofun request

theorem prepare_run (operation : Operation) (request : Request) :
    match (prepare operation request).run .empty with
    | (.ok (), r) => r.Held operation
    | (.error _, r) => (failure operation r).Gone := by
  have hspec := prepare_spec operation request .empty rfl
  rcases hrun : (prepare operation request).run .empty with ⟨result, r⟩
  have hstate : StateT.run (prepare operation request).run .empty =
      (result, r) := hrun
  cases result with
  | ok | error => simpa [wp, hstate, prepared, Id.run] using hspec

/-! ## Waits -/

/-- The event is set when and only when the IRP has been completed, after the
provider has pended it; the IRP has been completed without the event if the
provider has not. -/
def Signals (s : State) (status : NtStatus) : Prop :=
  if status = .pending then
    (s.irp = .pended ∧ s.event = false) ∨ (s.irp = .completed ∧ s.event = true)
  else s.irp = .completed ∧ s.event = false

def Known (s : State) : Caller → Prop
  | .ready =>
    s.resources = .empty ∧ s.irp = .unsent ∧ s.event = false
  | .calling =>
    s.resources.Held s.operation ∧ s.irp = .sent ∧ s.event = false
  | .returning status => s.resources.Held s.operation ∧ Signals s status
  | .started => s.resources.Held s.operation ∧ Signals s s.status
  | .waiting _ | .draining | .cancelling =>
    s.resources.Held s.operation ∧ Signals s .pending
  | .failed _ | .awaited _ _ | .cancelled =>
    s.resources.Gone ∧ s.irp.outstanding = false

/-- The operation is where its caller expects it, and no memory has been used
or freed at the wrong time. -/
structure Sound (s : State) : Prop where
  fault : s.fault = false
  known : Known s s.caller

/-- The condition on a run: only an operation that the provider has pended is
cancelled. -/
def cancelsPended (s : State) : Input → Bool
  | .cancel => s.status = .pending
  | _ => true

theorem Signals.not_outstanding {status : NtStatus} (h : Signals s status)
    (hdone : status ≠ .pending ∨ s.event = true) :
    s.irp.outstanding = false := by
  unfold Signals at h
  split at h
  · rcases h with ⟨hirp, hevent⟩ | ⟨hirp, hevent⟩
    · simp_all
    · rw [hirp]
      rfl
  · rw [h.1]
    rfl

section Steps

variable {s t : State}

section

variable (hs : Sound s)

include hs

theorem Sound.async (hcaller : s.caller = .ready) (operation : Operation)
    (request : Request) : Sound (s.async operation request) := by
  have hknown := hs.known
  rw [hcaller] at hknown
  have hrun := prepare_run operation request
  unfold State.async
  rcases hprepare : (prepare operation request).run .empty with ⟨result, r⟩
  rw [hprepare] at hrun
  cases result with
  | ok a => exact ⟨hs.fault, hrun, rfl, hknown.2.2⟩
  | error status =>
    refine ⟨hs.fault, hrun, ?_⟩
    dsimp only
    rw [hknown.2.1]
    rfl

theorem Sound.answer (hcaller : s.caller = .calling) {answer : Answer}
    (h : s.answer answer = some t) : Sound t := by
  have hknown := hs.known
  rw [hcaller] at hknown
  obtain ⟨hheld, hirp, hevent⟩ := hknown
  cases answer with
  | complete status information =>
    obtain ⟨hstatus, h⟩ := Option.ite_none_left_eq_some.mp h
    cases h
    refine ⟨by simp [State.complete, hs.fault], hheld, ?_⟩
    simp [Signals, State.complete, hstatus, hevent]
  | pend =>
    cases h
    exact ⟨hs.fault, hheld, Or.inl ⟨rfl, hevent⟩⟩

theorem Sound.complete (hirp : s.irp = .pended) (ioStatus : NtStatus)
    (information : ℕ) : Sound (s.complete true ioStatus information) := by
  have hknown := hs.known
  have hsignals : ∀ {status}, Signals s status →
      Signals (s.complete true ioStatus information) status := by
    intro status h
    unfold Signals at h ⊢
    split at h
    · rename_i hstatus
      rw [if_pos hstatus]
      exact Or.inr ⟨rfl, Bool.or_true _⟩
    · rw [hirp] at h
      cases h.1
  have hfault : s.resources.completion.frees = 0 →
      (s.complete true ioStatus information).fault = false := by
    intro hfrees
    simp [State.complete, hs.fault, hfrees]
  have hheld : s.resources.Held s.operation →
      s.resources.completion.frees = 0 := by
    intro h
    rw [h.completion]
    rfl
  cases hcaller : s.caller with
  | ready | calling => simp_all [Known]
  | failed | awaited | cancelled => simp_all [Known, IrpState.outstanding]
  | _ =>
    rw [hcaller] at hknown
    refine ⟨hfault (hheld hknown.1), ?_⟩
    change Known _ s.caller
    rw [hcaller]
    exact ⟨hknown.1, hsignals hknown.2⟩

variable {caller : Caller}

theorem Sound.release
    (hcaller : (∃ status information, caller = .awaited status information) ∨
      caller = .cancelled) (hheld : s.resources.Held s.operation)
    (hirp : s.irp.outstanding = false) :
    Sound { s.release (freeCompletion s.operation (ioFreeIrp s.resources)) with
      caller := caller } := by
  have hfault : (s.fault || s.irp.outstanding) = false := by
    simp [hs.fault, hirp]
  refine ⟨hfault, ?_⟩
  rcases hcaller with ⟨status, information, rfl⟩ | rfl
  · exact ⟨hheld.gone, hirp⟩
  · exact ⟨hheld.gone, hirp⟩

theorem Sound.advance (h : s.advance = some t) : Sound t := by
  have hknown := hs.known
  unfold State.advance at h
  cases hcaller : s.caller with
  | returning status =>
    rw [hcaller] at hknown h
    obtain ⟨hheld, hsignals⟩ := hknown
    dsimp only at h
    split at h
    · cases h
      exact ⟨hs.fault, hheld, hsignals⟩
    · rename_i hstatus
      cases h
      have hirp := hsignals.not_outstanding
        (Or.inl (by rintro rfl; exact hstatus rfl))
      refine ⟨?_, hheld.failure, hirp⟩
      simp [State.release, hs.fault, hirp]
  | waiting | draining =>
    rw [hcaller] at hknown h
    obtain ⟨hevent, h⟩ := Option.ite_none_right_eq_some.mp h
    cases h
    exact hs.release (Or.inl ⟨_, _, rfl⟩) hknown.1
      (hknown.2.not_outstanding (Or.inr hevent))
  | cancelling =>
    rw [hcaller] at hknown h
    obtain ⟨hevent, h⟩ := Option.ite_none_right_eq_some.mp h
    cases h
    exact hs.release (Or.inr rfl) hknown.1
      (hknown.2.not_outstanding (Or.inr hevent))
  | _ =>
    rw [hcaller] at h
    cases h

theorem Sound.cancelIrp (hcaller : caller = .draining ∨ caller = .cancelling)
    (hheld : s.resources.Held s.operation) (hsignals : Signals s .pending) :
    Sound (s.cancelIrp caller) := by
  have hfault : (s.cancelIrp caller).fault = false := by
    simp [State.cancelIrp, hs.fault, hheld.irp, Block.fresh]
  refine ⟨hfault, ?_⟩
  rcases hcaller with rfl | rfl
  · exact ⟨hheld, hsignals⟩
  · exact ⟨hheld, hsignals⟩

theorem Sound.step {input : Input} (hpended : cancelsPended s input = true)
    (h : WskClient.step s input = some t) : Sound t := by
  have hknown := hs.known
  cases input with
  | async operation request =>
    obtain ⟨hcaller, h⟩ := Option.ite_none_right_eq_some.mp h
    cases h
    exact hs.async hcaller operation request
  | answer answer =>
    obtain ⟨hcaller, h⟩ := Option.ite_none_right_eq_some.mp h
    exact hs.answer hcaller h
  | complete ioStatus information =>
    obtain ⟨⟨hirp, -⟩, h⟩ := Option.ite_none_right_eq_some.mp h
    cases h
    exact hs.complete hirp ioStatus information
  | await timeoutMs =>
    obtain ⟨hcaller, h⟩ := Option.ite_none_right_eq_some.mp h
    rw [hcaller] at hknown
    obtain ⟨hheld, hsignals⟩ := hknown
    split at h
    · rename_i hstatus
      cases h
      rw [hstatus] at hsignals
      exact ⟨hs.fault, hheld, hsignals⟩
    · rename_i hstatus
      cases h
      exact hs.release (Or.inl ⟨_, _, rfl⟩) hheld
        (hsignals.not_outstanding (Or.inl hstatus))
  | cancel =>
    obtain ⟨⟨hcaller, -⟩, h⟩ := Option.ite_none_right_eq_some.mp h
    cases h
    rw [hcaller] at hknown
    obtain ⟨hheld, hsignals⟩ := hknown
    have hstatus : s.status = .pending := by
      simpa [cancelsPended] using hpended
    rw [hstatus] at hsignals
    exact hs.cancelIrp (Or.inr rfl) hheld hsignals
  | timeout =>
    simp only [WskClient.step] at h
    split at h
    · rename_i timeoutMs hcaller
      obtain ⟨-, h⟩ := Option.ite_none_left_eq_some.mp h
      cases h
      rw [hcaller] at hknown
      exact hs.cancelIrp (Or.inl rfl) hknown.1 hknown.2
    · cases h
  | advance => exact hs.advance h

end

end Steps

/-! ## The completion protocol -/

/-- The caller has got a failure from `Wsk…Async`, or has come back from
`Wsk…Await` or `Wsk…Cancel`. -/
def Caller.finished : Caller → Bool
  | .failed _ | .awaited _ _ | .cancelled => true
  | _ => false

def Caller.waits : Caller → Bool
  | .waiting _ | .draining | .cancelling => true
  | _ => false

/-- Nothing is freed twice, nothing that the provider can use is freed before it
has completed the IRP, and nothing is used after it has been freed. -/
structure Safe (s : State) : Prop where
  fault : s.fault = false
  once : ∀ block ∈ [s.resources.completion, s.resources.irp, s.resources.mdl],
    block.frees ≤ if block.allocated then 1 else 0
  held : s.irp.outstanding = true → s.resources.Held s.operation
  finished : s.caller.finished = true →
    s.resources.Gone ∧ s.irp.outstanding = false
  waits : s.caller.waits = true → s.event = true ∨ s.irp = .pended

theorem Block.Gone.le {block : Block} (h : block.Gone) :
    block.frees ≤ if block.allocated then 1 else 0 := le_of_eq h

theorem Resources.Held.once (h : r.Held operation) :
    ∀ block ∈ [r.completion, r.irp, r.mdl],
      block.frees ≤ if block.allocated then 1 else 0 := by
  have hmdl : r.mdl.frees ≤ if r.mdl.allocated then 1 else 0 := by
    cases hbuf : r.wskBufMdl with
    | true =>
      rw [h.buffered.held hbuf]
      decide
    | false => exact (h.buffered.gone hbuf).le
  simp only [List.forall_mem_cons, h.completion, h.irp]
  exact ⟨by decide, by decide, hmdl, by simp⟩

theorem Resources.Gone.once (h : r.Gone) :
    ∀ block ∈ [r.completion, r.irp, r.mdl],
      block.frees ≤ if block.allocated then 1 else 0 := by
  simp only [List.forall_mem_cons]
  exact ⟨h.completion.le, h.irp.le, h.mdl.le, by simp⟩

theorem Signals.event_or_pended (h : Signals s .pending) :
    s.event = true ∨ s.irp = .pended := by
  rcases h with ⟨hirp, -⟩ | ⟨-, hevent⟩
  · exact Or.inr hirp
  · exact Or.inl hevent

theorem Safe.of_held (hfault : s.fault = false)
    (hheld : s.resources.Held s.operation)
    (hfinished : s.caller.finished = false)
    (hwaits : s.caller.waits = false ∨ Signals s .pending) : Safe s := by
  refine ⟨hfault, hheld.once, fun _ => hheld, ?_, ?_⟩
  · rw [hfinished]
    exact nofun
  · intro h
    rcases hwaits with hnot | hsignals
    · rw [hnot] at h
      cases h
    · exact hsignals.event_or_pended

theorem Safe.of_gone (hfault : s.fault = false) (hgone : s.resources.Gone)
    (hirp : s.irp.outstanding = false) (hwaits : s.caller.waits = false) :
    Safe s := by
  refine ⟨hfault, hgone.once, ?_, fun _ => ⟨hgone, hirp⟩, ?_⟩
  · rw [hirp]
    exact nofun
  · rw [hwaits]
    exact nofun

theorem Sound.safe (hs : Sound s) : Safe s := by
  have hknown := hs.known
  cases hcaller : s.caller with
  | ready =>
    rw [hcaller] at hknown
    obtain ⟨hempty, hirp, -⟩ := hknown
    refine .of_gone hs.fault ?_ (by rw [hirp]; rfl) (by rw [hcaller]; rfl)
    rw [hempty]
    exact ⟨rfl, rfl, rfl, rfl⟩
  | calling | returning | started =>
    rw [hcaller] at hknown
    exact .of_held hs.fault hknown.1 (by rw [hcaller]; rfl)
      (Or.inl (by rw [hcaller]; rfl))
  | waiting | draining | cancelling =>
    rw [hcaller] at hknown
    exact .of_held hs.fault hknown.1 (by rw [hcaller]; rfl) (Or.inr hknown.2)
  | failed | awaited | cancelled =>
    rw [hcaller] at hknown
    exact .of_gone hs.fault hknown.1 hknown.2 (by rw [hcaller]; rfl)

theorem sound_of_cancelsPended
    (hs : machine.ReachableWithin (fun s input => cancelsPended s input = true)
      s) : Sound s := by
  refine hs.invariant ?_ ?_
  · exact ⟨rfl, rfl, rfl, rfl⟩
  · intro s input t ih hpended hstep
    exact ih.step hpended hstep

theorem step_cancelling (hcaller : s.caller = .cancelling)
    (hevent : s.event = false) (hirp : s.irp = .completed) (input : Input) :
    machine.step s input = none := by
  cases input with
  | advance =>
    simp [machine, WskClient.step, State.advance, hcaller, hevent]
  | _ => simp [machine, WskClient.step, hcaller, hirp]

theorem cancel_stuck {t : State} (hs : Sound s)
    (hstep : machine.step s .cancel = some t)
    (hpended : cancelsPended s .cancel = false) :
    ¬Safe t ∧ ∀ input, machine.step t input = none := by
  have hknown := hs.known
  obtain ⟨⟨hcaller, -⟩, h⟩ := Option.ite_none_right_eq_some.mp hstep
  cases h
  rw [hcaller] at hknown
  have hstatus : s.status ≠ .pending := by
    simpa [cancelsPended] using hpended
  have hsignals := hknown.2
  rw [Signals, if_neg hstatus] at hsignals
  obtain ⟨hirp, hevent⟩ := hsignals
  refine ⟨?_, ?_⟩
  · intro hsafe
    rcases hsafe.waits rfl with hset | hpend
    · exact absurd (hevent.symm.trans hset) nofun
    · exact absurd (hirp.symm.trans hpend) nofun
  · exact step_cancelling rfl hevent hirp

/-- In every run in which only pended operations are cancelled, the operation is
safe.  The first cancel of an operation that was not pended leaves its caller
waiting forever. -/
theorem safe_of_cancelsPended {s : State}
    (hs : machine.ReachableWithin
      (fun s input => cancelsPended s input = true) s) :
    Safe s ∧
      ∀ t, machine.step s .cancel = some t → cancelsPended s .cancel = false →
        ¬Safe t ∧ ∀ input, machine.step t input = none :=
  ⟨(sound_of_cancelsPended hs).safe,
    fun _ => cancel_stuck (sound_of_cancelsPended hs)⟩

def pagedRequest (sockType : SockType) : Request where
  sockType := sockType
  bufGiven := true
  bufIsNonPagedPool := false
  controlLen := 0
  completionAllocated := true
  irpAllocated := true
  mdlAllocated := true
  pagesProbed := true

/-- A connect request is pended and awaited.  After the timeout it is cancelled,
and the provider completes it. -/
theorem safe_of_cancelsPended_timeout : ∃ s, machine.ReachableWithin
        (fun s input => cancelsPended s input = true) s ∧
      (s.caller = .awaited .timeout none ∧ s.resources.mdl.frees = 1) ∧
      Safe s :=
  (Machine.exists_reachableWithin_of_run _
    [.async .connect (pagedRequest .stream), .answer .pend, .advance,
      .await 100, .timeout, .complete .cancelled 0, .advance]
    (by decide +kernel)).imp fun s ⟨hs, hrun⟩ =>
      ⟨hs, hrun, (safe_of_cancelsPended hs).1⟩

def cancelAfterCompletion (operation : Operation) : List Input :=
  [.async operation (pagedRequest .stream), .answer (.complete .success 0),
    .advance, .cancel]

/-- The provider completes a connect request, or an accept request, in its
call.  The caller cancels it and waits for an event that nothing sets. -/
theorem cancel_waits_forever :
    (∃ s, machine.Reachable s ∧ s.operation = .connect ∧
      s.caller = .cancelling ∧ s.event = false ∧
      ∀ input, machine.step s input = none) ∧
    ∃ s, machine.Reachable s ∧ s.operation = .accept ∧
      s.caller = .cancelling ∧ s.event = false ∧
      ∀ input, machine.step s input = none := by
  constructor
  · obtain ⟨s, hs, hsame, hcaller, hevent, hirp⟩ :=
      Machine.exists_reachable_of_run (M := machine)
        (P := fun s => s.operation = .connect ∧ s.caller = .cancelling ∧
          s.event = false ∧ s.irp = .completed)
        (cancelAfterCompletion .connect) (by decide +kernel)
    exact ⟨s, hs, hsame, hcaller, hevent, step_cancelling hcaller hevent hirp⟩
  · obtain ⟨s, hs, hsame, hcaller, hevent, hirp⟩ :=
      Machine.exists_reachable_of_run (M := machine)
        (P := fun s => s.operation = .accept ∧ s.caller = .cancelling ∧
          s.event = false ∧ s.irp = .completed)
        (cancelAfterCompletion .accept) (by decide +kernel)
    exact ⟨s, hs, hsame, hcaller, hevent, step_cancelling hcaller hevent hirp⟩

end WinNetTest.WskClient
