import WinNetTest.Fnio.ContextLifecycle
import WinNetTest.Fnmp.Tx

/-!
# The receive path of FNLWF

`FilterReceiveNetBufferLists` and the calls on default handles (`rx.c`) are
the capture path in which the uncaptured part of a chain gives up its
references before it is indicated.  The filters, and with them the contexts of
captured frames, are those of FNMP's send path.
-/

namespace WinNetTest.Fnlwf

open Support Fnio Fnio.CapturePath Fnmp

/-- `FilterReceiveNetBufferLists` takes as many references as NDIS declares
NBLs. -/
def rxDriver : Driver where
  acquired := fun _ declared => declared
  releaseFirst := true
  hasSetFrame := false

def rxMachine : Machine State Label := machine rxDriver

/-- In every run of either driver in which no watchdog tick finds several
filters expired, captured frames own their contexts, contexts are freed once
and none is used after it was freed. -/
theorem frameContexts_safe
    (s : State)
    (hs : txMachine.ReachableWithin OneExpiry s ∨
      rxMachine.ReachableWithin OneExpiry s) :
    s.filters.ContextsSafe := by
  rcases hs with htx | hrx
  · exact contextsSafe_of_reachableWithin htx
  · exact contextsSafe_of_reachableWithin hrx

/-! ## Runs with two filters -/

def captureApart : CaptureEnv where
  allocated := fun _ _ => true
  interruptTime := fun id _ => if id = 0 then 0 else 30000000
  processorNumber := ⟨0, 0⟩

def twoCaptures (env : CaptureEnv) : List Label :=
  [.restart, .locked 0 (.create 0), .locked 0 (.create 1),
    .locked 0 (.filter 0 matchRequest), .locked 0 (.filter 1
      { matchRequest with pattern := ⟨true, some fun _ => 0xcd⟩ }), .receive 0 2
      [onePacket, { onePacket with firstNb := ⟨[], [⟨[0xcd]⟩], 0, 1⟩ }],
    .transferLocked 0 env]

def tick (time : UInt64) : Label :=
  .locked 1 (.watchdog fun _ => (time, time))

/-- Two ticks that find one filter expired each free both contexts. -/
theorem frameContexts_safe_twoTicks :
    ∃ s, rxMachine.ReachableWithin OneExpiry s ∧
      (s.filters.pool.allocated = 2 ∧ s.filters.pool.freed = [0, 1]) ∧
      s.filters.ContextsSafe :=
  (Machine.exists_reachableWithin_of_run _
      (twoCaptures captureApart ++
      [tick 60000000, .complete 1, .release 1, tick 90000000])
      (by decide +kernel)).imp fun s ⟨hs, hfacts⟩ =>
      ⟨hs, hfacts, frameContexts_safe s (Or.inr hs)⟩

/-- When both filters are expired in the same tick, the watchdog of either
driver uses the context of a frame whose scratch pointer is already null. -/
theorem exists_context_fault :
    (∃ s, txMachine.Reachable s ∧ s.filters.pool.fault = true) ∧
      ∃ s, rxMachine.Reachable s ∧ s.filters.pool.fault = true :=
  ⟨Machine.exists_reachable_of_run
      (twoCaptures captureAtZero ++ [tick 60000000]) (by decide +kernel),
    Machine.exists_reachable_of_run
      (twoCaptures captureAtZero ++ [tick 60000000]) (by decide +kernel)⟩

end WinNetTest.Fnlwf
