import Mathlib.Data.Nat.Notation

/-!
# Run-down protection

A run-down reference counts users of an object.  While protection is active
references can be acquired; once a waiter has started to run it down every
further acquisition is refused, and the waiter goes on when the last
reference has been released.  Re-initialisation makes it active again.
-/

namespace WinNetTest.Support

/-- The references outstanding, and whether new ones are granted. -/
structure Rundown where
  count : ℕ
  active : Bool
  deriving DecidableEq

namespace Rundown

def initialized : Rundown := ⟨0, true⟩

def rundown : Rundown := ⟨0, false⟩

/-- Acquire `n` references at once; `none` when protection is inactive. -/
def acquire (r : Rundown) (n : ℕ) : Option Rundown :=
  if r.active then some { r with count := r.count + n } else none

def release (r : Rundown) (n : ℕ) : Rundown :=
  { r with count := r.count - n }

def beginWait (r : Rundown) : Rundown :=
  { r with active := false }

def released (r : Rundown) : Bool :=
  r.count == 0

theorem acquire_count
    {r r' : Rundown} {n : ℕ} (h : r.acquire n = some r') :
    r'.count = r.count + n := by
  unfold acquire at h
  split at h
  · cases h
    rfl
  · cases h

end Rundown

end WinNetTest.Support
