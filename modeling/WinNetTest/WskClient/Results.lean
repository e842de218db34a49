import WinNetTest.WskClient.Sync

/-!
# What a successful status says

A wait that times out cancels the IRP and waits for its completion, which may
still be a successful one.  `Wsk…Await`, `WskReceiveSync` and `WskReceiveExSync`
replace the status of a cancelled IRP by `STATUS_TIMEOUT`, which passes
`NT_SUCCESS`; `WskAcceptSync` does not.
-/

namespace WinNetTest.WskClient

open Support

/-! ## Completed operations -/

def Answered (s : State) (status : NtStatus) : Prop :=
  status ≠ .pending → s.irp = .completed ∧ s.ioStatus = status

/-- What is known of the IRP at each point of the caller; `f` gives the status
that is returned. -/
def Stage (f : NtStatus → NtStatus) (s : State) : Caller → Prop
  | .ready => s.irp = .unsent
  | .calling => s.irp = .sent
  | .returning status => Answered s status
  | .started => Answered s s.status
  | .awaited status information =>
    s.irp = .completed ∧ status = f s.ioStatus ∧ (s.ioStatus.ntSuccess = true →
        ∀ n, information = some n → n = s.information)
  | _ => True

structure Told (f : NtStatus → NtStatus) (s : State) : Prop where
  event : s.event = true → s.irp = .completed
  stage : Stage f s s.caller

section Steps

variable {f : NtStatus → NtStatus} {s t : State}

theorem Told.answer (hs : Told f s) (hcaller : s.caller = .calling)
    {answer : Answer} (h : s.answer answer = some t) : Told f t := by
  have hstage := hs.stage
  rw [hcaller] at hstage
  cases answer with
  | complete status information =>
    obtain ⟨-, h⟩ := Option.ite_none_left_eq_some.mp h
    cases h
    exact ⟨fun _ => rfl, fun _ => ⟨rfl, rfl⟩⟩
  | pend =>
    cases h
    refine ⟨fun hevent => ?_, fun hpending => absurd rfl hpending⟩
    cases hstage.symm.trans (hs.event hevent)

theorem Told.complete (hs : Told f s) (hirp : s.irp = .pended)
    (ioStatus : NtStatus) (information : ℕ) :
    Told f (s.complete true ioStatus information) := by
  refine ⟨fun _ => rfl, ?_⟩
  have hstage := hs.stage
  change Stage f _ s.caller
  cases hcaller : s.caller with
  | ready | calling =>
    rw [hcaller] at hstage
    cases hirp.symm.trans hstage
  | returning | started =>
    rw [hcaller] at hstage
    exact fun hstatus => nomatch hirp.symm.trans (hstage hstatus).1
  | awaited =>
    rw [hcaller] at hstage
    cases hirp.symm.trans hstage.1
  | _ => trivial

theorem Told.provider (hs : Told f s) {input : Input}
    (hinput : (∃ answer, input = .answer answer) ∨
      (∃ ioStatus information, input = .complete ioStatus information) ∨
      input = .timeout)
    (h : step s input = some t) : Told f t := by
  rcases hinput with ⟨answer, rfl⟩ | ⟨ioStatus, information, rfl⟩ | rfl
  · obtain ⟨hcaller, h⟩ := Option.ite_none_right_eq_some.mp h
    exact hs.answer hcaller h
  · obtain ⟨⟨hirp, -⟩, h⟩ := Option.ite_none_right_eq_some.mp h
    cases h
    exact hs.complete hirp ioStatus information
  · simp only [step] at h
    split at h
    · obtain ⟨-, h⟩ := Option.ite_none_left_eq_some.mp h
      cases h
      exact ⟨hs.event, trivial⟩
    · cases h

end Steps

/-- `Wsk…Await` replaces the status of a cancelled IRP. -/
def remap (status : NtStatus) : NtStatus :=
  if status = .cancelled then .timeout else status

variable {s : State}

theorem Told.finishAwait (hs : Told remap s) (hirp : s.irp = .completed) :
    Told remap (s.finishAwait s.ioStatus) := by
  refine ⟨hs.event, hirp, rfl, ?_⟩
  intro hsuccess n hn
  change s.ioStatus.ntSuccess = true at hsuccess
  rw [hsuccess] at hn
  split at hn
  · cases hn
    rfl
  · cases hn

theorem Told.step {t : State} {input : Input} (hs : Told remap s)
    (h : WskClient.step s input = some t) : Told remap t := by
  have hstage := hs.stage
  cases input with
  | async operation request =>
    obtain ⟨hcaller, h⟩ := Option.ite_none_right_eq_some.mp h
    cases h
    rw [hcaller] at hstage
    have hevent : s.event = true → False := fun hevent =>
      nomatch hstage.symm.trans (hs.event hevent)
    unfold State.async
    split
    · exact ⟨fun hset => (hevent hset).elim, rfl⟩
    · exact ⟨hs.event, trivial⟩
  | answer answer => exact hs.provider (Or.inl ⟨_, rfl⟩) h
  | complete => exact hs.provider (Or.inr (Or.inl ⟨_, _, rfl⟩)) h
  | timeout => exact hs.provider (Or.inr (Or.inr rfl)) h
  | await timeoutMs =>
    obtain ⟨hcaller, h⟩ := Option.ite_none_right_eq_some.mp h
    rw [hcaller] at hstage
    split at h
    · cases h
      exact ⟨hs.event, trivial⟩
    · rename_i hstatus
      cases h
      obtain ⟨hirp, hio⟩ := hstage hstatus
      rw [← hio]
      exact hs.finishAwait hirp
  | cancel =>
    obtain ⟨-, h⟩ := Option.ite_none_right_eq_some.mp h
    cases h
    exact ⟨hs.event, trivial⟩
  | advance =>
    change s.advance = some t at h
    unfold State.advance at h
    cases hcaller : s.caller with
    | returning status =>
      rw [hcaller] at hstage h
      dsimp only at h
      split at h
      · cases h
        exact ⟨hs.event, hstage⟩
      · cases h
        exact ⟨hs.event, trivial⟩
    | waiting | draining =>
      rw [hcaller] at h
      obtain ⟨hevent, h⟩ := Option.ite_none_right_eq_some.mp h
      cases h
      exact hs.finishAwait (hs.event hevent)
    | cancelling =>
      rw [hcaller] at h
      obtain ⟨-, h⟩ := Option.ite_none_right_eq_some.mp h
      cases h
      exact ⟨hs.event, trivial⟩
    | _ =>
      rw [hcaller] at h
      cases h

theorem told_of_reachable (hs : machine.Reachable s) : Told remap s := by
  refine hs.invariant ?_ ?_
  · exact ⟨by simp [machine], rfl⟩
  · exact fun s input t ih hstep => ih.step hstep

/-! ## The synchronous form -/

def Form.Told (x : Form) : Prop :=
  WskClient.Told (fun status => x.operation.returned status status) x.base

variable {x y : Form}

theorem Form.Told.write (hx : x.Told) (data : List UInt8) :
    (x.write data).Told := by
  unfold Form.write
  split
  · exact hx
  · exact hx

theorem Form.Told.finishSync (hx : x.Told) (hirp : x.base.irp = .completed) :
    (x.finishSync x.base.ioStatus).Told := by
  have hevent := WskClient.Told.event hx
  refine ⟨hevent, hirp, rfl, ?_⟩
  intro hsuccess n hn
  change x.base.ioStatus.ntSuccess = true at hsuccess
  change (if x.operation.reports then _ else _) = _ at hn
  change n = x.base.information
  rcases x with ⟨operation, _, _, out, _⟩
  cases operation with
  | connectEx | disconnect => cases hn
  | send | sendEx | sendTo =>
    cases hn
    rfl
  | accept | receive | receiveEx =>
    cases hn
    exact if_pos hsuccess

theorem Form.Told.syncCall (hx : x.Told) (hcaller : x.base.caller = .ready)
    {operation : SyncOperation} {request : Request} {timeoutMs : UInt32}
    (h : x.syncCall operation request timeoutMs = some y) : y.Told := by
  have hstage := WskClient.Told.stage hx
  rw [hcaller] at hstage
  have hevent : x.base.event = true → False := fun hevent =>
    nomatch hstage.symm.trans (WskClient.Told.event hx hevent)
  unfold Form.syncCall at h
  dsimp only at h
  split at h
  · cases h
    exact ⟨fun hset => (hevent hset).elim, rfl⟩
  · cases h
    exact ⟨fun hset => (hevent hset).elim, trivial⟩

theorem Form.Told.syncAdvance (hx : x.Told) (h : x.syncAdvance = some y) :
    y.Told := by
  have hevent := WskClient.Told.event hx
  have hstage := WskClient.Told.stage hx
  unfold Form.syncAdvance at h
  cases hcaller : x.base.caller with
  | returning status =>
    rw [hcaller] at hstage h
    dsimp only at h
    split at h
    · cases h
      exact ⟨hevent, trivial⟩
    · rename_i hstatus
      cases h
      obtain ⟨hirp, hio⟩ := hstage hstatus
      rw [← hio]
      exact hx.finishSync hirp
  | waiting | draining =>
    rw [hcaller] at h
    obtain ⟨hset, h⟩ := Option.ite_none_right_eq_some.mp h
    cases h
    exact hx.finishSync (hevent hset)
  | _ =>
    rw [hcaller] at h
    cases h

theorem Form.told_of_reachable {out : ℕ} {buffer : List UInt8}
    (hx : (syncMachine out buffer).Reachable x) : x.Told := by
  refine hx.invariant ?_ ?_
  · exact ⟨by simp [syncMachine, Form.init, machine], rfl⟩
  · intro x input y ih hstep
    cases input with
    | call =>
      obtain ⟨hcaller, h⟩ := Option.ite_none_right_eq_some.mp hstep
      exact ih.syncCall hcaller h
    | answer =>
      obtain ⟨base, hbase, rfl⟩ := Option.map_eq_some_iff.mp hstep
      have htold := WskClient.Told.provider ih (Or.inl ⟨_, rfl⟩) hbase
      exact Told.write (x := { x with base := base }) htold _
    | complete =>
      obtain ⟨base, hbase, rfl⟩ := Option.map_eq_some_iff.mp hstep
      have htold :=
        WskClient.Told.provider ih (Or.inr (Or.inl ⟨_, _, rfl⟩)) hbase
      exact Told.write (x := { x with base := base }) htold _
    | timeout =>
      obtain ⟨base, hbase, rfl⟩ := Option.map_eq_some_iff.mp hstep
      exact WskClient.Told.provider ih (Or.inr (Or.inr rfl)) hbase
    | advance => exact ih.syncAdvance hstep

/-! ## Successful statuses -/

/-- A successful status says that the provider has completed the IRP
successfully, and the socket or the number of bytes is its information.  The
status of an operation that was cancelled is a failure. -/
structure Truthful (s : State) (status : NtStatus) (information : Option ℕ) :
    Prop where
  succeeded : status.ntSuccess = true →
    s.irp = .completed ∧ s.ioStatus.ntSuccess = true ∧
      ∀ n, information = some n → n = s.information
  cancelled : s.ioStatus = .cancelled → status.ntSuccess = false

variable {status : NtStatus}

theorem Told.truthful_iff {f : NtStatus → NtStatus} {information : Option ℕ}
    (hs : Told f s) (hcaller : s.caller = .awaited status information)
    (hf : ∀ status, status ≠ .cancelled → f status = status) :
    Truthful s status information ↔
      (s.ioStatus = .cancelled → (f .cancelled).ntSuccess = false) := by
  have hstage := hs.stage
  rw [hcaller] at hstage
  obtain ⟨hirp, rfl, hinformation⟩ := hstage
  refine ⟨fun h hcancelled => ?_, fun h => ⟨fun hsuccess => ?_, ?_⟩⟩
  · have hfailed := h.cancelled hcancelled
    rwa [hcancelled] at hfailed
  · have hne : s.ioStatus ≠ .cancelled := by
      intro hcancelled
      rw [hcancelled, h hcancelled] at hsuccess
      cases hsuccess
    rw [hf _ hne] at hsuccess
    exact ⟨hirp, hsuccess, hinformation hsuccess⟩
  · intro hcancelled
    rw [hcancelled]
    exact h hcancelled

theorem SyncOperation.returned_of_ne (operation : SyncOperation)
    (h : status ≠ .cancelled) : operation.returned status status = status := by
  unfold SyncOperation.returned
  split
  · rfl
  · exact if_neg h
  · exact if_neg h
  · rfl

/-- A status of `Wsk…Await` is truthful when and only when the IRP was not
cancelled, and so is one of `WskReceiveSync` and `WskReceiveExSync`.  One of
`WskAcceptSync` always is. -/
theorem success_truthful_iff (s : State) (out : ℕ) (buffer : List UInt8)
    (x : Form) (status : NtStatus) (information : Option ℕ) :
    (machine.Reachable s → s.caller = .awaited status information →
      (Truthful s status information ↔ s.ioStatus ≠ .cancelled)) ∧
    ((syncMachine out buffer).Reachable x → x.operation.timed = true →
      x.base.caller = .awaited status information →
      (Truthful x.base status information ↔
        x.operation = .accept ∨ x.base.ioStatus ≠ .cancelled)) := by
  constructor
  · intro hs hcaller
    rw [(told_of_reachable hs).truthful_iff hcaller
      fun _ h => if_neg h]
    simp [remap, NtStatus.ntSuccess]
  · intro hx htimed hcaller
    rw [WskClient.Told.truthful_iff (Form.told_of_reachable hx) hcaller
      fun _ => x.operation.returned_of_ne]
    cases hoperation : x.operation with
    | accept | receive | receiveEx =>
      simp [SyncOperation.returned, NtStatus.ntSuccess]
    | _ =>
      rw [hoperation] at htimed
      cases htimed

/-- A pended receive of 5 bytes is completed, in both forms. -/
theorem success_truthful_iff_received :
    (∃ s, machine.Reachable s ∧ (s.caller = .awaited .success (some 5) ∧
      s.ioStatus ≠ .cancelled) ∧ Truthful s .success (some 5)) ∧
    ∃ x, (syncMachine 0 []).Reachable x ∧ (x.operation.timed = true ∧
      x.base.caller = .awaited .success (some 5) ∧
      x.base.ioStatus ≠ .cancelled) ∧ Truthful x.base .success (some 5) := by
  let form : Form := (syncMachine 0 []).init
  constructor
  · refine (Machine.exists_reachable_of_run
      [.async .receive (allocated .stream), .answer .pend, .advance,
        .await 100, .complete .success 5, .advance]
      (by decide +kernel)).imp fun s ⟨hs, hrun⟩ => ⟨hs, hrun, ?_⟩
    exact ((success_truthful_iff s 0 [] form .success (some 5)).1
      hs hrun.1).mpr hrun.2
  · refine (Machine.exists_reachable_of_run
      [.call .receive (allocated .stream) 100, .answer .pend [], .advance,
        .complete .success 5 [], .advance]
      (by decide +kernel)).imp fun x ⟨hx, hrun⟩ => ⟨hx, hrun, ?_⟩
    exact ((success_truthful_iff x.base 0 [] x .success (some 5)).2
      hx hrun.1 hrun.2.1).mpr (Or.inr hrun.2.2)

/-- A pended operation times out and is cancelled.  `WskAcceptAwait` returns no
socket with a status that passes `NT_SUCCESS`, and `WskReceiveSync` no bytes. -/
theorem timeout_passes_as_success :
    (∃ s, machine.Reachable s ∧ (s.operation = .accept ∧
      s.caller = .awaited .timeout (some 0) ∧ s.ioStatus = .cancelled) ∧
      ¬Truthful s .timeout (some 0)) ∧
    ∃ x, (syncMachine 0 []).Reachable x ∧ (x.operation = .receive ∧
      x.base.caller = .awaited .timeout (some 0) ∧
      x.base.ioStatus = .cancelled) ∧ ¬Truthful x.base .timeout (some 0) := by
  have hnot : ∀ s : State, s.ioStatus = .cancelled →
      ¬Truthful s .timeout (some 0) := fun s hcancelled h =>
    nomatch h.cancelled hcancelled
  constructor
  · exact (Machine.exists_reachable_of_run
      [.async .accept (allocated .stream), .answer .pend, .advance,
        .await 100, .timeout, .complete .cancelled 0, .advance]
      (by decide +kernel)).imp fun s ⟨hs, hrun⟩ =>
        ⟨hs, hrun, hnot s hrun.2.2⟩
  · exact (Machine.exists_reachable_of_run
      [.call .receive (allocated .stream) 100, .answer .pend [], .advance,
        .timeout, .complete .cancelled 0 [], .advance]
      (by decide +kernel)).imp fun x ⟨hx, hrun⟩ =>
        ⟨hx, hrun, hnot x.base hrun.2.2⟩

end WinNetTest.WskClient
