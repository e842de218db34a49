import WinNetTest.Support.OnesComplement

/-!
# The checksum helpers of the packet library

The helpers sum a buffer as little-endian 16-bit words in a 32-bit
accumulator, fold the carries twice and complement the result.  A buffer is
the list of the `BufferLength` bytes found at its address.
-/

namespace WinNetTest.Pkt

open WinNetTest.Support

def htons (x : UInt16) : UInt16 :=
  x / 256 + x % 256 * 256

def pktChecksumFold (checksum : UInt32) : UInt16 :=
  let checksum := checksum % 65536 + checksum / 65536
  let checksum := checksum % 65536 + checksum / 65536
  checksum.toUInt16

/-- The loop of `PktPartialChecksum`, and the odd byte after it. -/
def partialChecksumLoop (checksum : UInt32) : List UInt8 → UInt32
  | [] => checksum
  | [low] => checksum + low.toUInt32
  | low :: high :: rest =>
    partialChecksumLoop
      (checksum + (low.toUInt32 + 256 * high.toUInt32)) rest

def pktPartialChecksum (buffer : List UInt8) : UInt16 :=
  pktChecksumFold (partialChecksumLoop 0 buffer)

def pktPseudoHeaderChecksum
    (sourceAddress destinationAddress : List UInt8)
    (dataLength : UInt16) (nextHeader : UInt8) : UInt16 :=
  let checksum := (pktPartialChecksum sourceAddress).toUInt32
  let checksum :=
    checksum + (pktPartialChecksum destinationAddress).toUInt32
  let dataLength := htons dataLength
  let checksum :=
    checksum + (pktPartialChecksum (leBytes 2 dataLength.toNat)).toUInt32
  let checksum := checksum + 256 * nextHeader.toUInt32
  pktChecksumFold checksum

def pktChecksum (initialChecksum : UInt16) (buffer : List UInt8) : UInt16 :=
  let checksum := initialChecksum.toUInt32
  let checksum := checksum + (pktPartialChecksum buffer).toUInt32
  ~~~ (pktChecksumFold checksum)

/-! ## Folding -/

theorem toNat_htons (x : UInt16) :
    (htons x).toNat = x.toNat / 256 + x.toNat % 256 * 256 := by
  have hx := x.toNat_lt
  simp only [htons, UInt16.toNat_add, UInt16.toNat_mul, UInt16.toNat_div,
    UInt16.toNat_mod, UInt16.reduceToNat]
  omega

variable (checksum : UInt32)

theorem toNat_pktChecksumFold :
    (pktChecksumFold checksum).toNat =
      (checksum.toNat % 65536 + checksum.toNat / 65536) % 65536 +
        (checksum.toNat % 65536 + checksum.toNat / 65536) / 65536 := by
  have hlt := checksum.toNat_lt
  simp only [pktChecksumFold, UInt32.toNat_toUInt16, UInt32.toNat_add,
    UInt32.toNat_div, UInt32.toNat_mod, UInt32.reduceToNat]
  omega

theorem pktChecksumFold_modEq :
    (pktChecksumFold checksum).toNat ≡ checksum.toNat [MOD 65535] := by
  rw [toNat_pktChecksumFold]
  unfold Nat.ModEq
  omega

theorem toNat_pktChecksumFold_eq_zero_iff :
    (pktChecksumFold checksum).toNat = 0 ↔ checksum.toNat = 0 := by
  rw [toNat_pktChecksumFold]
  omega

/-! ## Sums of buffers -/

theorem littleSum_le (bytes : List UInt8) :
    littleSum bytes ≤ 65535 * ((bytes.length + 1) / 2) := by
  induction bytes using littleSum.induct with
  | case1 => simp [littleSum]
  | case2 low =>
    have hlow := low.toNat_lt
    simp only [littleSum, List.length_singleton]
    omega
  | case3 low high rest ih =>
    have hlow := low.toNat_lt
    have hhigh := high.toNat_lt
    simp only [littleSum, List.length_cons]
    omega

theorem toNat_partialChecksumLoop (buffer : List UInt8)
    (hfits : checksum.toNat + littleSum buffer < 2 ^ 32) :
    (partialChecksumLoop checksum buffer).toNat =
      checksum.toNat + littleSum buffer := by
  induction buffer using littleSum.induct generalizing checksum with
  | case1 => simp [partialChecksumLoop, littleSum]
  | case2 low =>
    simp only [littleSum] at hfits
    simp only [partialChecksumLoop, littleSum, UInt32.toNat_add,
      UInt8.toNat_toUInt32]
    omega
  | case3 low high rest ih =>
    have hlow := low.toNat_lt
    have hhigh := high.toNat_lt
    simp only [littleSum] at hfits
    have hword : (checksum + (low.toUInt32 + 256 * high.toUInt32)).toNat =
        checksum.toNat + (low.toNat + 256 * high.toNat) := by
      simp only [UInt32.toNat_add, UInt32.toNat_mul, UInt8.toNat_toUInt32,
        UInt32.reduceToNat]
      omega
    simp only [partialChecksumLoop, littleSum]
    rw [ih _ (by omega), hword]
    omega

variable {buffer : List UInt8}

section

variable (hlength : buffer.length < 65536)

include hlength

theorem toNat_partialChecksumLoop_zero :
    (partialChecksumLoop 0 buffer).toNat = littleSum buffer := by
  have hsum := littleSum_le buffer
  have hloop := toNat_partialChecksumLoop 0 buffer (by
    simp only [UInt32.toNat_zero]
    omega)
  rwa [UInt32.toNat_zero, Nat.zero_add] at hloop

theorem pktPartialChecksum_modEq :
    (pktPartialChecksum buffer).toNat ≡ littleSum buffer [MOD 65535] := by
  have hfold := pktChecksumFold_modEq (partialChecksumLoop 0 buffer)
  rwa [toNat_partialChecksumLoop_zero hlength] at hfold

theorem toNat_pktPartialChecksum_eq_zero_iff :
    (pktPartialChecksum buffer).toNat = 0 ↔ littleSum buffer = 0 := by
  rw [pktPartialChecksum, toNat_pktChecksumFold_eq_zero_iff,
    toNat_partialChecksumLoop_zero hlength]

end

theorem eq_of_modEq {x y : UInt16} (h : x.toNat ≡ y.toNat [MOD 65535])
    (hzero : x.toNat = 0 ↔ y.toNat = 0) : x = y := by
  have hx := x.toNat_lt
  have hy := y.toNat_lt
  rw [← UInt16.toNat_inj]
  unfold Nat.ModEq at h
  omega

theorem toNat_not_add_modEq {x : UInt16} {n : ℕ}
    (h : x.toNat ≡ n [MOD 65535]) :
    (~~~ x).toNat + n ≡ 0 [MOD 65535] := by
  have hx := x.toNat_lt
  simp only [UInt16.toNat_not, UInt16.size]
  unfold Nat.ModEq at *
  omega

variable (initialChecksum : UInt16)

theorem toNat_add_pktPartialChecksum (buffer : List UInt8) :
    (initialChecksum.toUInt32 + (pktPartialChecksum buffer).toUInt32).toNat =
      initialChecksum.toNat + (pktPartialChecksum buffer).toNat := by
  have hinitial := initialChecksum.toNat_lt
  have hbound := (pktPartialChecksum buffer).toNat_lt
  simp only [UInt32.toNat_add, UInt16.toNat_toUInt32]
  omega

theorem pktChecksumFold_pktPartialChecksum_add {front back : List UInt8}
    (hfront : Even front.length)
    (hlength : (front ++ back).length < 65536) :
    pktChecksumFold ((pktPartialChecksum front).toUInt32 +
        (pktPartialChecksum back).toUInt32) =
      pktPartialChecksum (front ++ back) := by
  have hsum := littleSum_append hfront back
  have hlengths := hlength
  rw [List.length_append] at hlengths
  have hfrontLength : front.length < 65536 := by omega
  have hbackLength : back.length < 65536 := by omega
  apply eq_of_modEq
  · have hfold := pktChecksumFold_modEq ((pktPartialChecksum front).toUInt32 +
      (pktPartialChecksum back).toUInt32)
    rw [toNat_add_pktPartialChecksum] at hfold
    have hpieces := (pktPartialChecksum_modEq hfrontLength).add
      (pktPartialChecksum_modEq hbackLength)
    rw [← hsum] at hpieces
    exact (hfold.trans hpieces).trans (pktPartialChecksum_modEq hlength).symm
  · have hfrontZero := toNat_pktPartialChecksum_eq_zero_iff hfrontLength
    have hbackZero := toNat_pktPartialChecksum_eq_zero_iff hbackLength
    rw [toNat_pktChecksumFold_eq_zero_iff, toNat_add_pktPartialChecksum,
      toNat_pktPartialChecksum_eq_zero_iff hlength]
    omega

/-- The partial checksum of a buffer is its exact one's-complement sum: the
accumulator holds the plain sum of the words, folding keeps its residue and
does not make it zero, and the sum can be taken piece by piece. -/
theorem pktPartialChecksum_exact (x : UInt32) (buffer : List UInt8)
    (hlength : buffer.length ≤ 65535) :
    ((pktChecksumFold x).toNat ≡ x.toNat [MOD 65535] ∧
      (pktChecksumFold x = 0 → x = 0)) ∧
    (littleSum buffer < 2 ^ 32 ∧
      (partialChecksumLoop 0 buffer).toNat = littleSum buffer) ∧
    (pktPartialChecksum buffer).toNat ≡ littleSum buffer [MOD 65535] ∧
    (pktPartialChecksum buffer = 0 → ∀ byte ∈ buffer, byte = 0) ∧
    ∀ front back, front ++ back = buffer → Even front.length →
      pktChecksumFold ((pktPartialChecksum front).toUInt32 +
          (pktPartialChecksum back).toUInt32) =
        pktPartialChecksum buffer := by
  have hlt : buffer.length < 65536 := by omega
  refine ⟨⟨pktChecksumFold_modEq x, ?_⟩, ⟨?_, ?_⟩, ?_, ?_, ?_⟩
  · intro hzero
    have htoNat := (toNat_pktChecksumFold_eq_zero_iff x).mp (by simp [hzero])
    rwa [← UInt32.toNat_inj]
  · have hsum := littleSum_le buffer
    omega
  · exact toNat_partialChecksumLoop_zero hlt
  · exact pktPartialChecksum_modEq hlt
  · intro hzero
    apply eq_zero_of_littleSum_eq_zero
    exact (toNat_pktPartialChecksum_eq_zero_iff hlt).mp (by simp [hzero])
  · rintro front back rfl heven
    exact pktChecksumFold_pktPartialChecksum_add heven hlt

theorem pktPartialChecksum_exact_five :
    (pktPartialChecksum [0xff, 0xff, 0x12, 0x34, 0x56]).toNat ≡
        littleSum [0xff, 0xff, 0x12, 0x34, 0x56] [MOD 65535] ∧
      pktChecksumFold ((pktPartialChecksum [0xff, 0xff]).toUInt32 +
          (pktPartialChecksum [0x12, 0x34, 0x56]).toUInt32) =
        pktPartialChecksum [0xff, 0xff, 0x12, 0x34, 0x56] := by
  obtain ⟨-, -, hmod, -, hsplit⟩ := pktPartialChecksum_exact 0xffffffff
    [0xff, 0xff, 0x12, 0x34, 0x56] (by decide)
  exact ⟨hmod, hsplit [0xff, 0xff] [0x12, 0x34, 0x56] rfl (by decide)⟩

theorem pktChecksum_add_modEq (hlength : buffer.length < 65536) :
    (pktChecksum initialChecksum buffer).toNat +
        (initialChecksum.toNat + littleSum buffer) ≡ 0 [MOD 65535] := by
  have hfold := pktChecksumFold_modEq
    (initialChecksum.toUInt32 + (pktPartialChecksum buffer).toUInt32)
  rw [toNat_add_pktPartialChecksum] at hfold
  exact toNat_not_add_modEq
    (hfold.trans ((pktPartialChecksum_modEq hlength).add_left _))

theorem pktChecksum_add_pos (hlength : buffer.length < 65536) :
    0 < (pktChecksum initialChecksum buffer).toNat +
        (initialChecksum.toNat + littleSum buffer) := by
  have hzero := toNat_pktChecksumFold_eq_zero_iff
    (initialChecksum.toUInt32 + (pktPartialChecksum buffer).toUInt32)
  have hbuffer := toNat_pktPartialChecksum_eq_zero_iff hlength
  rw [toNat_add_pktPartialChecksum] at hzero
  simp only [pktChecksum, UInt16.toNat_not, UInt16.size]
  omega

theorem pktPseudoHeaderChecksum_modEq
    {sourceAddress destinationAddress : List UInt8}
    (hsource : sourceAddress.length < 65536)
    (hdestination : destinationAddress.length < 65536)
    (dataLength : UInt16) (nextHeader : UInt8) :
    (pktPseudoHeaderChecksum sourceAddress destinationAddress dataLength
        nextHeader).toNat ≡
      littleSum sourceAddress + littleSum destinationAddress +
        (htons dataLength).toNat + 256 * nextHeader.toNat [MOD 65535] := by
  have hs := pktPartialChecksum_modEq hsource
  have hd := pktPartialChecksum_modEq hdestination
  have hl : (pktPartialChecksum (leBytes 2 (htons dataLength).toNat)).toNat ≡
      littleSum (leBytes 2 (htons dataLength).toNat) [MOD 65535] :=
    pktPartialChecksum_modEq (by simp)
  rw [littleSum_leBytes_two (htons dataLength).toNat_lt] at hl
  have hsum : ∀ a b c : UInt16, (a.toUInt32 + b.toUInt32 + c.toUInt32 +
        256 * nextHeader.toUInt32).toNat =
      a.toNat + b.toNat + c.toNat + 256 * nextHeader.toNat := by
    intro a b c
    have ha := a.toNat_lt
    have hb := b.toNat_lt
    have hc := c.toNat_lt
    have hnext := nextHeader.toNat_lt
    simp only [UInt32.toNat_add, UInt32.toNat_mul, UInt16.toNat_toUInt32,
      UInt8.toNat_toUInt32, UInt32.reduceToNat]
    omega
  refine (pktChecksumFold_modEq _).trans ?_
  rw [hsum]
  exact ((hs.add hd).add hl).add_right _

end WinNetTest.Pkt
