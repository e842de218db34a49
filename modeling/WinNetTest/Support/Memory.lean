import Mathlib.Data.Nat.Notation
import Mathlib.Order.Interval.Set.Defs
import Mathlib.Tactic.Ring

/-!
# Byte-addressed memory

A memory assigns a byte to every offset.  Ranges are written from byte lists
and read back into them; a read sees a write to the same range, and does not
see one to a disjoint range.  Integers of fixed width are stored with the
least significant byte first.
-/

namespace WinNetTest.Support

abbrev Memory := ℕ → UInt8

namespace Memory

def write (m : Memory) (offset : ℕ) (bytes : List UInt8) : Memory :=
  fun a => if offset ≤ a then bytes.getD (a - offset) (m a) else m a

/-- The `n` bytes from an offset on. -/
def read (m : Memory) (offset n : ℕ) : List UInt8 :=
  (List.range n).map fun i => m (offset + i)

variable (m : Memory)

@[simp] theorem length_read (offset n : ℕ) : (m.read offset n).length = n := by
  simp [read]

variable {offset a : ℕ}

theorem write_apply_of_lt (bytes : List UInt8) (h : a < offset) :
    m.write offset bytes a = m a := by
  simp [write, Nat.not_le.mpr h]

variable {bytes : List UInt8}

theorem write_apply_of_ge (h : offset + bytes.length ≤ a) :
    m.write offset bytes a = m a := by
  have hle : offset ≤ a := by omega
  have hout : bytes.length ≤ a - offset := by omega
  simp [write, hle, List.getD, List.getElem?_eq_none hout]

theorem write_apply_outside (h : a < offset ∨ offset + bytes.length ≤ a) :
    m.write offset bytes a = m a :=
  h.elim (write_apply_of_lt m bytes) (write_apply_of_ge m)

theorem read_congr {m m' : Memory} {offset' n : ℕ}
    (h : ∀ i < n, m (offset + i) = m' (offset' + i)) :
    m.read offset n = m'.read offset' n := by
  unfold read
  apply List.map_congr_left
  intro i hi
  exact h i (List.mem_range.mp hi)

@[simp] theorem read_write_same (offset : ℕ) (bytes : List UInt8) :
    (m.write offset bytes).read offset bytes.length = bytes := by
  apply List.ext_getElem
  · simp
  · intro i hi hi'
    simp [read, write, hi']

theorem write_append (offset : ℕ) (xs ys : List UInt8) :
    (m.write offset xs).write (offset + xs.length) ys =
      m.write offset (xs ++ ys) := by
  funext a
  by_cases hlow : offset ≤ a
  · by_cases hhigh : offset + xs.length ≤ a
    · have hxs : xs.length ≤ a - offset := by omega
      have hys : a - offset - xs.length = a - (offset + xs.length) := by omega
      simp [write, hlow, hhigh, List.getD, List.getElem?_append_right hxs,
        List.getElem?_eq_none hxs, hys]
    · have hxs : a - offset < xs.length := by omega
      simp [write, hlow, hhigh, List.getD, List.getElem?_append_left hxs]
  · have hhigh : ¬ offset + xs.length ≤ a := by omega
    simp [write, hlow, hhigh]

theorem read_write_beyond (offset : ℕ) (bytes : List UInt8) (n : ℕ) :
    (m.write offset bytes).read offset (bytes.length + n) =
      bytes ++ m.read (offset + bytes.length) n := by
  rw [read, List.range_add, List.map_append, List.map_map]
  congr 1
  · exact read_write_same m offset bytes
  · refine List.map_congr_left fun i _ => ?_
    rw [Function.comp_apply, ← Nat.add_assoc]
    exact write_apply_of_ge m (Nat.le_add_right _ _)

end Memory

/-! ## Integers -/

/-- The `w` low bytes of a number, least significant first. -/
def leBytes (w n : ℕ) : List UInt8 :=
  match w with
  | 0 => []
  | w + 1 => UInt8.ofNat n :: leBytes w (n / 256)

/-- The number with the given bytes, least significant first. -/
def leValue : List UInt8 → ℕ
  | [] => 0
  | byte :: rest => byte.toNat + 256 * leValue rest

@[simp] theorem length_leBytes (w n : ℕ) : (leBytes w n).length = w := by
  induction w generalizing n with
  | zero => rfl
  | succ w ih => simp [leBytes, ih]

theorem leValue_leBytes {w n : ℕ} (h : n < 256 ^ w) :
    leValue (leBytes w n) = n := by
  induction w generalizing n with
  | zero =>
    have hn : n = 0 := by simpa using h
    simp [leBytes, leValue, hn]
  | succ w ih =>
    have hdiv : n / 256 < 256 ^ w := by
      rw [pow_succ] at h
      exact Nat.div_lt_of_lt_mul (by rwa [mul_comm] at h)
    have hlow : (UInt8.ofNat n).toNat = n % 256 := by
      simp [UInt8.toNat_ofNat']
    rw [leBytes, leValue, ih hdiv, hlow]
    exact Nat.mod_add_div n 256

theorem leValue_lt (bytes : List UInt8) :
    leValue bytes < 256 ^ bytes.length := by
  induction bytes with
  | nil => exact Nat.one_pos
  | cons byte rest ih =>
    have hbyte := byte.toNat_lt
    rw [leValue, List.length_cons, pow_succ]
    omega

namespace Memory

def writeInt (m : Memory) (offset w n : ℕ) : Memory :=
  m.write offset (leBytes w n)

def readInt (m : Memory) (offset w : ℕ) : ℕ :=
  leValue (m.read offset w)

theorem writeInt_apply_outside
    (m : Memory) {offset w a : ℕ} (n : ℕ)
    (h : a < offset ∨ offset + w ≤ a) :
    m.writeInt offset w n a = m a :=
  write_apply_outside m (by simpa using h)

theorem readInt_congr
    {m m' : Memory} {offset offset' w : ℕ}
    (h : ∀ i < w, m (offset + i) = m' (offset' + i)) :
    m.readInt offset w = m'.readInt offset' w :=
  congrArg leValue (read_congr h)

theorem readInt_writeInt_same
    (m : Memory) (offset : ℕ) {w n : ℕ} (h : n < 256 ^ w) :
    (m.writeInt offset w n).readInt offset w = n := by
  have hread := read_write_same m offset (leBytes w n)
  rw [length_leBytes] at hread
  rw [readInt, writeInt, hread, leValue_leBytes h]

theorem readInt_writeInt_uint32 (m : Memory) (offset : ℕ) (x : UInt32) :
    (m.writeInt offset 4 x.toNat).readInt offset 4 = x.toNat := by
  have hx := x.toNat_lt
  exact readInt_writeInt_same m offset (by omega)

/-! ## What a transformation writes -/

/-- A transformation writes the addresses of a set: there its result does not
depend on the memory it starts from, and elsewhere it changes nothing. -/
structure Writes (f : Memory → Memory) (W : Set ℕ) : Prop where
  written : ∀ m m' a, a ∈ W → f m a = f m' a
  kept : ∀ m a, a ∉ W → f m a = m a

theorem writes_id : Writes (fun m => m) ∅ :=
  ⟨fun _ _ _ ha => ha.elim, fun _ _ _ => rfl⟩

theorem Writes.congr {f : Memory → Memory} {W V : Set ℕ} (h : Writes f W)
    (heq : W = V) : Writes f V := heq ▸ h

theorem Writes.comp {f g : Memory → Memory} {W V : Set ℕ}
    (hg : Writes g V) (hf : Writes f W) :
    Writes (fun m => g (f m)) (W ∪ V) := by
  refine ⟨?_, ?_⟩
  · intro m m' a ha
    by_cases hV : a ∈ V
    · exact hg.written _ _ a hV
    · rw [hg.kept _ a hV, hg.kept _ a hV]
      exact hf.written _ _ a (ha.resolve_right hV)
  · intro m a ha
    rw [hg.kept _ a fun hV => ha (Or.inr hV)]
    exact hf.kept m a fun hW => ha (Or.inl hW)

theorem writes_write (offset : ℕ) (bytes : List UInt8) :
    Writes (fun m => m.write offset bytes)
      (Set.Ico offset (offset + bytes.length)) := by
  refine ⟨?_, ?_⟩
  · rintro m m' a ⟨hlow, hhigh⟩
    have hin : a - offset < bytes.length := by omega
    simp [write, hlow, List.getD, List.getElem?_eq_getElem hin]
  · intro m a ha
    refine write_apply_outside m ?_
    by_contra hin
    exact ha ⟨by omega, by omega⟩

theorem writes_writeInt (offset w n : ℕ) :
    Writes (fun m => m.writeInt offset w n) (Set.Ico offset (offset + w)) := by
  have h := writes_write offset (leBytes w n)
  rwa [length_leBytes] at h

theorem Writes.read_eq_iff {f : Memory → Memory} {W : Set ℕ}
    (h : Writes f W) (m m' : Memory) (n : ℕ) :
    (f m).read 0 n = (f m').read 0 n ↔ ∀ a < n, a ∉ W → m a = m' a := by
  have hread : (f m).read 0 n = (f m').read 0 n ↔ ∀ a < n, f m a = f m' a := by
    simp [read, List.map_inj_left]
  rw [hread]
  refine forall₂_congr fun a _ => ?_
  by_cases ha : a ∈ W
  · simp [ha, h.written m m' a ha]
  · simp [ha, h.kept m a ha, h.kept m' a ha]

end Memory

end WinNetTest.Support
