import Mathlib.Data.Nat.ModEq
import WinNetTest.Support.Memory

/-!
# One's-complement sums of 16-bit words

The Internet checksum adds the 16-bit words of a byte string with an
end-around carry.  A receiver adds words in network order; a little-endian
machine adds the words as it loads them.  Both sums are determined modulo
`65535` by the plain sum of the little-endian words, and the end-around carry
never turns a positive sum into zero, which is what makes `0xFFFF` the only
value a receiver can see for a multiple of `65535`.
-/

namespace WinNetTest.Support

/-- Addition of 16-bit words with an end-around carry. -/
def addEndAround (a b : ℕ) : ℕ :=
  if a + b < 65536 then a + b else a + b - 65535

/-- The 16-bit words of a byte string in network order.  An odd last byte is
padded with a zero byte. -/
def networkWords : List UInt8 → List ℕ
  | [] => []
  | [high] => [256 * high.toNat]
  | high :: low :: rest => (256 * high.toNat + low.toNat) :: networkWords rest

/-- The 16-bit one's-complement sum of a byte string, word by word. -/
def onesSum (bytes : List UInt8) : ℕ :=
  (networkWords bytes).foldl addEndAround 0

/-- The plain sum of the little-endian words of a byte string. -/
def littleSum : List UInt8 → ℕ
  | [] => 0
  | [low] => low.toNat
  | low :: high :: rest => low.toNat + 256 * high.toNat + littleSum rest

/-! ## The end-around carry -/

theorem addEndAround_le {a b : ℕ} (ha : a ≤ 65535) (hb : b ≤ 65535) :
    addEndAround a b ≤ 65535 := by
  unfold addEndAround
  split <;> omega

theorem addEndAround_modEq (a b : ℕ) :
    addEndAround a b ≡ a + b [MOD 65535] := by
  unfold addEndAround Nat.ModEq
  split <;> omega

theorem addEndAround_eq_zero_iff {a b : ℕ} :
    addEndAround a b = 0 ↔ a + b = 0 := by
  unfold addEndAround
  split <;> omega

theorem foldl_addEndAround
    (words : List ℕ) (hwords : ∀ w ∈ words, w ≤ 65535)
    (start : ℕ) (hstart : start ≤ 65535) :
    words.foldl addEndAround start ≤ 65535 ∧
      words.foldl addEndAround start ≡ start + words.sum [MOD 65535] ∧
      (words.foldl addEndAround start = 0 ↔ start + words.sum = 0) := by
  induction words generalizing start with
  | nil => simpa using ⟨hstart, Nat.ModEq.rfl⟩
  | cons w rest ih =>
    have hw : w ≤ 65535 := hwords w List.mem_cons_self
    obtain ⟨hle, hmod, hzero⟩ :=
      ih (fun v hv => hwords v (List.mem_cons_of_mem _ hv)) _
        (addEndAround_le hstart hw)
    refine ⟨hle, ?_, ?_⟩
    · calc
        _ ≡ addEndAround start w + rest.sum [MOD 65535] := hmod
        _ ≡ start + w + rest.sum [MOD 65535] :=
          (addEndAround_modEq start w).add_right _
        _ = start + (w :: rest).sum := by
          rw [List.sum_cons, Nat.add_assoc]
    · have hstep : addEndAround start w = 0 ↔ start + w = 0 :=
        addEndAround_eq_zero_iff
      rw [List.foldl_cons, hzero, List.sum_cons]
      omega

/-! ## The two byte orders -/

theorem networkWords_le (bytes : List UInt8) :
    ∀ w ∈ networkWords bytes, w ≤ 65535 := by
  induction bytes using networkWords.induct with
  | case1 => simp [networkWords]
  | case2 high =>
    have hhigh := high.toNat_lt
    simp only [networkWords, List.mem_singleton, forall_eq]
    omega
  | case3 high low rest ih =>
    have hhigh := high.toNat_lt
    have hlow := low.toNat_lt
    simp only [networkWords, List.mem_cons, forall_eq_or_imp]
    exact ⟨by omega, ih⟩

theorem networkWords_sum_modEq (bytes : List UInt8) :
    (networkWords bytes).sum ≡ 256 * littleSum bytes [MOD 65535] := by
  induction bytes using networkWords.induct with
  | case1 => rfl
  | case2 high => simp [networkWords, littleSum, Nat.ModEq.refl]
  | case3 high low rest ih =>
    simp only [networkWords, littleSum, List.sum_cons]
    unfold Nat.ModEq at ih ⊢
    omega

theorem networkWords_sum_eq_zero_iff (bytes : List UInt8) :
    (networkWords bytes).sum = 0 ↔ littleSum bytes = 0 := by
  induction bytes using networkWords.induct with
  | case1 => rfl
  | case2 high => simp [networkWords, littleSum]
  | case3 high low rest ih =>
    simp only [networkWords, littleSum, List.sum_cons]
    omega

theorem onesSum_eq_iff (bytes : List UInt8) : onesSum bytes = 0xFFFF ↔
      0 < littleSum bytes ∧ littleSum bytes ≡ 0 [MOD 65535] := by
  obtain ⟨hle, hmod, hzero⟩ :=
    foldl_addEndAround (networkWords bytes) (networkWords_le bytes) 0
      (by omega)
  have hswap := networkWords_sum_modEq bytes
  have hnull := networkWords_sum_eq_zero_iff bytes
  unfold onesSum
  unfold Nat.ModEq at *
  omega

theorem eq_zero_of_littleSum_eq_zero {bytes : List UInt8}
    (h : littleSum bytes = 0) : ∀ byte ∈ bytes, byte = 0 := by
  induction bytes using littleSum.induct with
  | case1 => simp
  | case2 low =>
    rintro byte (_ | ⟨_, ⟨⟩⟩)
    rwa [← UInt8.toNat_inj]
  | case3 low high rest ih =>
    simp only [littleSum] at h
    have hlow : low = 0 := UInt8.toNat_inj.mp (by simp; omega)
    have hhigh : high = 0 := UInt8.toNat_inj.mp (by simp; omega)
    simpa [hlow, hhigh] using ih (by omega)

/-! ## Concatenation -/

theorem littleSum_append
    {front : List UInt8} (hfront : Even front.length) (back : List UInt8) :
    littleSum (front ++ back) = littleSum front + littleSum back := by
  induction front using littleSum.induct with
  | case1 => simp [littleSum]
  | case2 low => simp at hfront
  | case3 low high rest ih =>
    have hrest : Even rest.length := by
      simpa [Nat.even_add] using hfront
    simp only [List.cons_append, littleSum, ih hrest]
    ring

theorem littleSum_leBytes_two {n : ℕ} (hn : n < 65536) :
    littleSum (leBytes 2 n) = n := by
  simp only [leBytes, littleSum, UInt8.toNat_ofNat']
  omega

end WinNetTest.Support
