import Mathlib.Data.List.Forall2
import WinNetTest.WskClient.Sync

/-!
# Synchronous and asynchronous accept and receive

Both forms of an operation are run with the same provider.  They go through the
same waits in lockstep, and they differ in how they end: `WskAcceptSync` neither
clears its output parameter nor replaces the status of a cancelled IRP, and
`WskReceiveAsync` does neither for an IRP that the provider fails in its call.
-/

namespace WinNetTest.WskClient

open Support

/-- A call of an accept or receive operation on a socket that both forms
support, for which everything can be allocated. -/
structure Supported where
  operation : SyncOperation
  request : Request
  timeoutMs : UInt32
  out : ℕ
  buffer : List UInt8
  completionAllocated : request.completionAllocated = true
  irpAllocated : request.irpAllocated = true
  mdlAllocated : request.mdlAllocated = true
  supported : (operation = .accept ∧ request.sockType ∈ [.listen, .stream]) ∨
      (operation = .receive ∧ request.sockType ∈ [.connection, .stream])

def Supported.sync (c : Supported) (inputs : List SyncInput) : Option Form :=
  (syncMachine c.out c.buffer).run (.init c.out c.buffer)
    (.call c.operation c.request c.timeoutMs :: inputs)

def Supported.async (c : Supported) (inputs : List SyncInput) : Option Form :=
  (asyncMachine c.out c.buffer).run (.init c.out c.buffer)
    (.call c.operation c.request c.timeoutMs :: inputs)

/-- The IRP has been completed successfully; or, if it has been completed in the
call for an accept operation or after it for a receive operation, in any way; or
it has failed, was not cancelled, and the output parameter was zero. -/
def Supported.Agrees (c : Supported) (s : State) : Prop :=
  (s.event = true ↔ c.operation = .receive) ∨ s.ioStatus.ntSuccess = true ∨
    (s.ioStatus ≠ .cancelled ∧ c.out = 0)

/-! ## Lockstep -/

structure Running (c : Supported) (x a : Form) : Prop where
  operation : x.operation = c.operation
  reports : a.base.operation.reports = true
  timeoutMs : x.timeoutMs = c.timeoutMs ∧ a.timeoutMs = c.timeoutMs
  out : x.out = (if c.operation = .receive then 0 else c.out) ∧ a.out = c.out
  buffer : a.buffer = x.buffer
  irp : a.base.irp = x.base.irp
  event : a.base.event = x.base.event
  ioStatus : a.base.ioStatus = x.base.ioStatus
  information : a.base.information = x.base.information
  wskBufMdl : a.base.resources.wskBufMdl = x.base.resources.wskBufMdl
  caller : a.base.caller = x.base.caller
  signaled : x.base.event = true → x.base.irp = .completed
  stage : match x.base.caller with
    | .calling => x.base.irp = .sent
    | .returning status => status ≠ .pending →
      x.base.irp = .completed ∧ x.base.ioStatus = status ∧ x.base.event = false
    | .waiting _ | .draining => True
    | _ => False

structure Done (c : Supported) (x a : Form) : Prop where
  irp : x.base.irp = .completed ∧ a.base.irp = .completed
  sync : ∃ status information, x.base.caller = .awaited status information
  async : (∃ status information, a.base.caller = .awaited status information) ∨
    ∃ status, a.base.caller = .failed status
  result : x.result = a.result ↔ c.Agrees x.base

/-- Both forms are at the same point, or both have returned. -/
def Lockstep (c : Supported) (x a : Form) : Prop :=
  Running c x a ∨ Done c x a

variable {c : Supported} {x a : Form}

section

variable (h : Running c x a)

include h

theorem Running.write (data : List UInt8) :
    Running c (x.write data) (a.write data) := by
  unfold Form.write
  rw [h.irp, h.wskBufMdl, h.buffer]
  split
  · exact { h with buffer := rfl }
  · exact h

theorem Running.answer (answer : Answer) (data : List UInt8) :
    Option.Rel (Lockstep c)
      (Form.step Form.syncCall Form.syncAdvance x (.answer answer data))
      (Form.step Form.asyncCall Form.asyncAdvance a (.answer answer data)) := by
  have hstage := h.stage
  simp only [Form.step, step, h.caller]
  by_cases hcalling : x.base.caller = .calling
  · rw [if_pos hcalling, if_pos hcalling]
    rw [hcalling] at hstage
    have hevent : x.base.event = false := by
      by_contra hset
      cases hstage.symm.trans (h.signaled (by simpa using hset))
    cases answer with
    | complete status information =>
      simp only [State.answer]
      by_cases hstatus : status = .pending
      · simp only [if_pos hstatus]
        exact .none
      · simp only [if_neg hstatus]
        refine .some (Or.inl (Running.write ?_ data))
        exact { h with
          irp := rfl
          event := by simp [State.complete, h.event]
          ioStatus := rfl
          information := rfl
          caller := rfl
          signaled := fun _ => rfl
          stage := fun _ => ⟨rfl, rfl, by simp [State.complete, hevent]⟩ }
    | pend =>
      refine .some (Or.inl (Running.write ?_ data))
      exact { h with
        irp := rfl
        caller := rfl
        signaled := fun hset => nomatch hevent.symm.trans hset
        stage := fun hpending => absurd rfl hpending }
  · rw [if_neg hcalling, if_neg hcalling]
    exact .none

theorem Running.complete (ioStatus : NtStatus) (information : ℕ)
    (data : List UInt8) :
    Option.Rel (Lockstep c)
      (Form.step Form.syncCall Form.syncAdvance x
        (.complete ioStatus information data))
      (Form.step Form.asyncCall Form.asyncAdvance a
        (.complete ioStatus information data)) := by
  have hstage := h.stage
  simp only [Form.step, step, h.irp]
  by_cases hpended : x.base.irp = .pended ∧ ioStatus ≠ .pending
  · rw [if_pos hpended, if_pos hpended]
    refine .some (Or.inl (Running.write ?_ data))
    refine { h with
      irp := rfl
      event := by simp [State.complete]
      ioStatus := rfl
      information := rfl
      signaled := fun _ => rfl
      stage := ?_ }
    change match x.base.caller with
      | .calling => _ | .returning _ => _ | .waiting _ | .draining => True
      | _ => False
    cases hcaller : x.base.caller with
    | calling =>
      rw [hcaller] at hstage
      cases hpended.1.symm.trans hstage
    | returning =>
      rw [hcaller] at hstage
      exact fun hstatus => nomatch hpended.1.symm.trans (hstage hstatus).1
    | waiting | draining => trivial
    | _ =>
      rw [hcaller] at hstage
      exact hstage.elim
  · rw [if_neg hpended, if_neg hpended]
    exact .none

theorem Running.timeout : Option.Rel (Lockstep c)
      (Form.step Form.syncCall Form.syncAdvance x .timeout)
      (Form.step Form.asyncCall Form.asyncAdvance a .timeout) := by
  simp only [Form.step, step, h.caller, h.event]
  cases hcaller : x.base.caller with
  | waiting timeoutMs =>
    dsimp only
    by_cases hset : timeoutMs = wskclientInfinite ∨ x.base.event = true
    · rw [if_pos hset, if_pos hset]
      exact .none
    · rw [if_neg hset, if_neg hset]
      exact .some (Or.inl { h with caller := rfl, stage := trivial })
  | _ => exact .none

end

/-! ## How the forms end -/

/-- The asynchronous form after `Wsk…Await`. -/
def Form.finishAwait (a : Form) (status : NtStatus) : Form :=
  { a with
    base := a.base.finishAwait status
    out := if status.ntSuccess then a.base.information else 0 }

theorem asyncAdvance_of_event (h : Running c x a)
    (hcaller : (∃ timeoutMs, x.base.caller = .waiting timeoutMs) ∨
      x.base.caller = .draining) :
    a.asyncAdvance =
      if x.base.event then some (a.finishAwait a.base.ioStatus) else none := by
  have hadvance : a.base.advance =
      if x.base.event then some (a.base.finishAwait a.base.ioStatus)
      else none := by
    unfold State.advance
    rw [h.caller, h.event]
    rcases hcaller with ⟨timeoutMs, hcaller⟩ | hcaller
    · rw [hcaller]
    · rw [hcaller]
  rw [Form.asyncAdvance, hadvance]
  cases x.base.event with
  | false => rfl
  | true => simp [State.finishAwait, Form.finishAwait, State.release, h.reports]

theorem Running.pended (h : Running c x a) (hevent : x.base.event = true) :
    Done c (x.finishSync x.base.ioStatus) (a.finishAwait a.base.ioStatus) := by
  have hirp := h.signaled hevent
  refine ⟨⟨hirp, h.irp.trans hirp⟩, ⟨_, _, rfl⟩, Or.inl ⟨_, _, rfl⟩, ?_⟩
  simp only [Form.result, Form.finishSync, Form.finishAwait, State.finishAwait,
    State.release, Supported.Agrees, h.operation, h.ioStatus, h.information,
    h.buffer, h.out.1, hevent, Option.some.injEq, Prod.mk.injEq]
  rcases c.supported with ⟨hoperation, -⟩ | ⟨hoperation, -⟩
  · by_cases hsuccess : x.base.ioStatus.ntSuccess = true
    · have hne : x.base.ioStatus ≠ .cancelled := by
        rintro hcancelled
        rw [hcancelled] at hsuccess
        cases hsuccess
      simp [hoperation, SyncOperation.returned, SyncOperation.reported,
        hsuccess, hne]
    · by_cases hcancelled : x.base.ioStatus = .cancelled
      · simp [hoperation, SyncOperation.returned, hcancelled,
          NtStatus.ntSuccess]
      · simp [hoperation, SyncOperation.returned, SyncOperation.reported,
          hsuccess, hcancelled]
  · simp [hoperation, SyncOperation.returned, SyncOperation.reported]

/-- The asynchronous form after a `Wsk…Async` that has failed. -/
def Form.fail (a : Form) (status : NtStatus) : Form :=
  { a with
    base := { a.base.release (failure a.base.operation a.base.resources) with
      caller := .failed status } }

theorem asyncAdvance_of_returning {status : NtStatus} (h : Running c x a)
    (hcaller : x.base.caller = .returning status) (hstatus : status ≠ .pending) :
    a.asyncAdvance = some (if status.ntSuccess then
      { a.finishAwait status with
        base := { a.base with status := status }.finishAwait status }
      else a.fail status) := by
  unfold Form.asyncAdvance State.advance
  rw [h.caller, hcaller]
  cases hsuccess : status.ntSuccess with
  | false => simp [hsuccess, Form.fail]
  | true =>
    simp [hsuccess, step, hstatus, State.finishAwait, State.release, h.reports,
      Form.finishAwait]

theorem Running.immediate {status : NtStatus} (h : Running c x a)
    (hirp : x.base.irp = .completed) (hio : x.base.ioStatus = status)
    (hevent : x.base.event = false) :
    Done c (x.finishSync status) (if status.ntSuccess then
      { a.finishAwait status with
        base := { a.base with status := status }.finishAwait status }
      else a.fail status) := by
  cases hsuccess : status.ntSuccess with
  | true =>
    have hne : status ≠ .cancelled := by
      rintro rfl
      cases hsuccess
    refine ⟨⟨hirp, h.irp.trans hirp⟩, ⟨_, _, rfl⟩, Or.inl ⟨_, _, rfl⟩, ?_⟩
    rcases c.supported with ⟨hoperation, -⟩ | ⟨hoperation, -⟩ <;>
      simp [Form.result, Form.finishSync, Form.finishAwait, State.finishAwait,
        State.release, Supported.Agrees, h.operation, h.information, h.buffer,
        hoperation, SyncOperation.returned, SyncOperation.reported, hio,
        hsuccess, hne]
  | false =>
    refine ⟨⟨hirp, h.irp.trans hirp⟩, ⟨_, _, rfl⟩, Or.inr ⟨_, rfl⟩, ?_⟩
    rcases c.supported with ⟨hoperation, -⟩ | ⟨hoperation, -⟩
    · simp [Form.result, Form.finishSync, Form.fail, State.release,
        Supported.Agrees, h.operation, h.buffer, h.out, hoperation,
        SyncOperation.returned, SyncOperation.reported, hevent, hsuccess]
    · by_cases hcancelled : status = .cancelled
      · simp [Form.result, Form.finishSync, Form.fail, State.release,
          Supported.Agrees, h.operation, hoperation, SyncOperation.returned,
          hio, hevent, hcancelled, NtStatus.ntSuccess]
      · simp [Form.result, Form.finishSync, Form.fail, State.release,
          Supported.Agrees, h.operation, h.buffer, h.out, hoperation,
          SyncOperation.returned, SyncOperation.reported, hio, hevent,
          hsuccess, hcancelled]
        exact eq_comm

theorem Running.advance (h : Running c x a) :
    Option.Rel (Lockstep c) x.syncAdvance a.asyncAdvance := by
  have hstage := h.stage
  cases hcaller : x.base.caller with
  | calling =>
    simp only [Form.syncAdvance, Form.asyncAdvance, State.advance, h.caller,
      hcaller]
    exact .none
  | returning status =>
    rw [hcaller] at hstage
    by_cases hstatus : status = .pending
    · have htimed : x.operation.timed = true := by
        rw [h.operation]
        rcases c.supported with ⟨hoperation, -⟩ | ⟨hoperation, -⟩
        · rw [hoperation]
          rfl
        · rw [hoperation]
          rfl
      simp only [Form.syncAdvance, Form.asyncAdvance, State.advance, h.caller,
        hcaller, hstatus, htimed]
      refine .some (Or.inl ?_)
      exact { h with
        caller := congrArg Caller.waiting (h.timeoutMs.2.trans
          h.timeoutMs.1.symm)
        stage := trivial }
    · obtain ⟨hirp, hio, hevent⟩ := hstage hstatus
      rw [asyncAdvance_of_returning h hcaller hstatus]
      simp only [Form.syncAdvance, hcaller, if_neg hstatus]
      exact .some (Or.inr (h.immediate hirp hio hevent))
  | waiting | draining =>
    rw [asyncAdvance_of_event h (by simp [hcaller])]
    simp only [Form.syncAdvance, hcaller]
    cases hevent : x.base.event with
    | false => exact .none
    | true => exact .some (Or.inr (h.pended hevent))
  | _ =>
    rw [hcaller] at hstage
    exact hstage.elim

theorem Done.step (h : Done c x a) (input : SyncInput) :
    Form.step Form.syncCall Form.syncAdvance x input = none ∧
      Form.step Form.asyncCall Form.asyncAdvance a input = none := by
  obtain ⟨status, information, hsync⟩ := h.sync
  have hasync : a.base.caller ≠ .ready ∧ a.base.caller ≠ .calling ∧
      (∀ timeoutMs, a.base.caller ≠ .waiting timeoutMs) ∧
      a.base.advance = none := by
    rcases h.async with ⟨status, information, hcaller⟩ | ⟨status, hcaller⟩
    · simp [State.advance, hcaller]
    · simp [State.advance, hcaller]
  obtain ⟨hready, hcalling, hwaiting, hadvance⟩ := hasync
  cases input with
  | call => simp [Form.step, hsync, hready]
  | answer => simp [Form.step, WskClient.step, hsync, hcalling]
  | complete => simp [Form.step, WskClient.step, h.irp]
  | timeout => simp [Form.step, WskClient.step, hsync]
  | advance =>
    simp [Form.step, Form.syncAdvance, Form.asyncAdvance, hsync, hadvance]

theorem Lockstep.step (h : Lockstep c x a) (input : SyncInput) :
    Option.Rel (Lockstep c)
      (Form.step Form.syncCall Form.syncAdvance x input)
      (Form.step Form.asyncCall Form.asyncAdvance a input) := by
  rcases h with h | h
  · have hcaller : x.base.caller ≠ .ready := by
      intro hready
      have hstage := h.stage
      rw [hready] at hstage
      exact hstage
    cases input with
    | call =>
      simp only [Form.step, h.caller, if_neg hcaller]
      exact .none
    | answer answer data => exact h.answer answer data
    | complete ioStatus information data =>
      exact h.complete ioStatus information data
    | timeout => exact h.timeout
    | advance => exact h.advance
  · obtain ⟨hsync, hasync⟩ := h.step input
    rw [hsync, hasync]
    exact .none

theorem Supported.call (c : Supported) : Option.Rel (Lockstep c)
      ((Form.init c.out c.buffer).syncCall c.operation c.request c.timeoutMs)
      ((Form.init c.out c.buffer).asyncCall c.operation c.request
        c.timeoutMs) := by
  obtain ⟨_, ⟨sockType, _, nonPaged, _, _, _, _,
    probed⟩, _, out, _, hcompletion, hirp, hmdl, hsupported⟩ := c
  cases hcompletion
  cases hirp
  cases hmdl
  rcases hsupported with ⟨rfl, htype⟩ | ⟨rfl, htype⟩
  · cases sockType with
    | listen | stream =>
      exact .some (Or.inl ⟨rfl, rfl, ⟨rfl, rfl⟩, ⟨rfl, rfl⟩, rfl, rfl, rfl, rfl,
        rfl, rfl, rfl, (fun hset => nomatch hset), rfl⟩)
    | _ => simp at htype
  · cases sockType with
    | connection | stream =>
      cases nonPaged <;> cases probed <;>
        exact .some (Or.inl ⟨rfl, rfl, ⟨rfl, rfl⟩, ⟨rfl, rfl⟩, rfl, rfl, rfl,
          rfl, rfl, rfl, rfl, (fun hset => nomatch hset), rfl⟩)
    | _ => simp at htype

theorem Supported.lockstep (c : Supported) (inputs : List SyncInput) :
    Option.Rel (Lockstep c) (c.sync inputs) (c.async inputs) := by
  have hcall := c.call
  simp only [Supported.sync, Supported.async, Machine.run, syncMachine,
    asyncMachine, Form.step]
  have hready : (Form.init c.out c.buffer).base.caller = .ready := rfl
  rw [if_pos hready, if_pos hready]
  generalize Form.syncCall _ _ _ _ = o at hcall ⊢
  generalize Form.asyncCall _ _ _ _ = o' at hcall ⊢
  cases hcall with
  | none => exact .none
  | some h =>
    refine Machine.run_rel (M := syncMachine c.out c.buffer)
      (N := asyncMachine c.out c.buffer) (C := Eq) ?_
      (List.forall₂_same.mpr fun _ _ => rfl) h
    rintro x a input _ h rfl
    exact h.step input

theorem Running.result (h : Running c x a) :
    x.result = none ∧ a.result = none := by
  have hstage := h.stage
  unfold Form.result
  rw [h.caller]
  cases hcaller : x.base.caller with
  | failed | awaited =>
    rw [hcaller] at hstage
    exact hstage.elim
  | _ => exact ⟨rfl, rfl⟩

theorem Done.isSome_result (h : Done c x a) :
    x.result.isSome = true ∧ a.result.isSome = true := by
  obtain ⟨_, _, hsync⟩ := h.sync
  unfold Form.result
  rcases h.async with ⟨_, _, hasync⟩ | ⟨_, hasync⟩
  · simp [hsync, hasync]
  · simp [hsync, hasync]

/-- On every sequence of inputs both forms can go on, or neither can; they
return together, and they return the same status, output parameter and buffer
when and only when `Supported.Agrees` holds. -/
theorem forms_agree_iff (c : Supported) (inputs : List SyncInput) : Option.Rel
      (fun x a => x.result.isSome = a.result.isSome ∧
        (x.result.isSome = true → (x.result = a.result ↔ c.Agrees x.base)))
      (c.sync inputs) (c.async inputs) := by
  have hrun := c.lockstep inputs
  generalize c.sync inputs = o at hrun ⊢
  generalize c.async inputs = o' at hrun ⊢
  cases hrun with
  | none => exact .none
  | some h =>
    refine .some ?_
    rcases h with h | h
    · simp [h.result]
    · obtain ⟨hsync, hasync⟩ := h.isSome_result
      exact ⟨hsync.trans hasync.symm, fun _ => h.result⟩

def timedOutAccept : Supported where
  operation := .accept
  request := allocated .stream
  timeoutMs := 100
  out := 0
  buffer := []
  completionAllocated := rfl
  irpAllocated := rfl
  mdlAllocated := rfl
  supported := Or.inl ⟨rfl, by decide⟩

def refusedReceive : Supported where
  operation := .receive
  request := allocated .stream
  timeoutMs := 100
  out := 7
  buffer := [1]
  completionAllocated := rfl
  irpAllocated := rfl
  mdlAllocated := rfl
  supported := Or.inr ⟨rfl, by decide⟩

/-- `WskAcceptSync` returns `STATUS_CANCELLED` where `WskAcceptAwait` returns
`STATUS_TIMEOUT`.  `WskReceiveSync` clears the count of bytes of a request that
the provider refuses, and `WskReceiveAsync` does not. -/
theorem forms_differ :
    ((timedOutAccept.sync [.answer .pend [], .advance, .timeout,
        .complete .cancelled 0 [], .advance]).bind Form.result =
          some (.cancelled, 0, []) ∧
      (timedOutAccept.async [.answer .pend [], .advance, .timeout,
        .complete .cancelled 0 [], .advance]).bind Form.result =
          some (.timeout, 0, [])) ∧
    (refusedReceive.sync [.answer (.complete .unsuccessful 0) [],
        .advance]).bind Form.result = some (.unsuccessful, 0, [1]) ∧
      (refusedReceive.async [.answer (.complete .unsuccessful 0) [],
        .advance]).bind Form.result = some (.unsuccessful, 7, [1]) := by
  decide +kernel

end WinNetTest.WskClient
