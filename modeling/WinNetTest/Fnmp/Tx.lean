import WinNetTest.Fnio.CaptureAccounting

/-!
# The send path of FNMP

`MpSendNetBufferLists` and the calls on shared handles (`tx.c`) are the
capture path in which a completed NBL gives up its reference after
`NdisMSendNetBufferListsComplete`.  Every NBL NDIS sends is in one place at
any moment, and the references outstanding are those of the accepted NBLs.
-/

namespace WinNetTest.Fnmp

open Support Fnio Fnio.CapturePath

/-- `MpSendNetBufferLists` takes as many references as the chain is long, and
`SharedTxCompleteNbls` completes before it releases. -/
def txDriver : Driver where
  acquired := fun nblCount _ => ulong nblCount
  releaseFirst := false
  hasSetFrame := true

def txMachine : Machine State Label := machine txDriver

structure SendPathConserved (s : State) : Prop where
  /-- The containers hold every NBL received from NDIS once. -/
  partition : Multiset.range s.received =
    s.filters.ids + s.callIds + (s.completed : Multiset ℕ)
  /-- Every NBL is in one chain, one queue of one filter, one private flush
  queue, or completed. -/
  onePlace : ∀ i < s.received, ∃! p, s.At i p
  /-- No NBL is completed twice. -/
  completedOnce : s.completed.Nodup
  /-- The references outstanding, as long as all counts fit in a `ULONG`, which
  `SharedTxCompleteNbls` asserts. -/
  references : s.countsFit = true →
    s.rundown.count = s.outstanding.length + s.pendingRelease
  /-- Whatever a cleared filter had captured is completed when the call
  returns, except for NBLs that a flush on the same handle has taken and not
  yet completed. -/
  cleared : ∀ call ∈ s.returned, ∀ e ∈ call.cleared, ∀ i ∈ e.2,
    i ∈ s.completed ∨ ∃ c flush, s.calls.lookup c = some flush ∧
      flush.entry = .flush e.1 ∧ i ∈ flush.phase.ids
  /-- A cleanup leaves no exception. -/
  cleanedUp : ∀ call ∈ s.returned, ∀ h, call.entry = .cleanup h →
    ∀ e ∈ call.cleared, ∀ i ∈ e.2, i ∈ s.completed

/-- The accounts are right in every state of every interleaving. -/
theorem sendPath_conserved
    (s : State) (hs : txMachine.Reachable s) : SendPathConserved s := by
  obtain ⟨hcontained, hcounted, hacceptance, htracked⟩ :=
    invariant_of_reachable hs
  refine
    { partition := hcontained.partition
      onePlace := fun i hi => hcontained.existsUnique_place hi
      completedOnce := ?_
      references := ?_
      cleared := htracked.returned
      cleanedUp := htracked.returnedCleanups }
  · exact Multiset.coe_nodup.mp (Multiset.nodup_add.mp hcontained.nodup).2.1
  · exact count_eq_outstanding rfl hcontained hacceptance hcounted

/-! ## A run with a late flush -/

def onePacket : NetBufferList where
  id := 0
  firstNb := ⟨[], [⟨[0xab]⟩], 0, 1⟩
  nextNbs := []
  info := ⟨0, 0, 0, 0, 0, 0⟩
  scratch := none

def matchRequest : FilterRequest where
  inputBufferLength := 24
  length := 1
  pattern := ⟨true, some fun _ => 0xab⟩
  mask := ⟨true, some fun _ => 0xff⟩
  filterAllocated := true
  bufferAllocated := true

def captureAtZero : CaptureEnv where
  allocated := fun _ _ => true
  interruptTime := fun _ _ => 0
  processorNumber := ⟨0, 0⟩

def lateFlush : List Label :=
  [.restart, .locked 0 (.create 0), .locked 0 (.filter 0 matchRequest),
    .receive 0 2 [onePacket, onePacket], .transferLocked 0 captureAtZero,
    .locked 0 (.dequeueFrame 0 4 0), .locked 0 (.flush 0),
    .locked 1 (.watchdog fun _ => (60000000, 60000000)), .complete 1,
    .release 1]

/-- The watchdog has cleared the filter and returned, and an NBL the filter
had captured is not completed. -/
theorem exists_cleared_not_completed : ∃ s, txMachine.Reachable s ∧
      ∃ call ∈ s.returned, ∃ e ∈ call.cleared, ∃ i ∈ e.2, i ∉ s.completed :=
  Machine.exists_reachable_of_run lateFlush (by decide +kernel)

/-- The accounts after that run, in which one NBL is completed and the other
is with the flush. -/
theorem sendPath_conserved_lateFlush : ∃ s, txMachine.Reachable s ∧
      (s.received = 2 ∧ s.completed = [1] ∧ s.rundown.count = 1) ∧
      SendPathConserved s :=
  (Machine.exists_reachable_of_run
      lateFlush (by decide +kernel)).imp fun s ⟨hs, hfacts⟩ =>
      ⟨hs, hfacts, sendPath_conserved s hs⟩

end WinNetTest.Fnmp
