import WinNetTest.Pkt.Wire

/-!
# Length fields

The builders compute lengths in 16 bits.  The check meant to refuse an IPv4
packet that is too long compares values promoted to `int` and never fires,
the IPv6 and ICMP paths have no check, and the TCP data offset is a truncating
division.  The length fields of a frame are therefore exact exactly when the
lengths can be represented in them, or when the builder refuses the call for
another reason.
-/

namespace WinNetTest.Pkt

open WinNetTest.Support

def Network.headerLength : Network → ℕ
  | .ipv4 => 20
  | .ipv6 => 40

def Network.lengthField (network : Network) (frame : List UInt8) : ℕ :=
  match network with
  | .ipv4 => ipv4TotalLength (ipPacket frame)
  | .ipv6 => ipv6PayloadLength (ipPacket frame)

def Network.countedBytes (network : Network) (frame : List UInt8) : ℕ :=
  match network with
  | .ipv4 => (ipPacket frame).length
  | .ipv6 => ((ipPacket frame).drop 40).length

def Network.segment (network : Network) (frame : List UInt8) : List UInt8 :=
  (ipPacket frame).drop network.headerLength

def uhUlen (segment : List UInt8) : ℕ :=
  networkValue (field segment 4 2)

def thLen (segment : List UInt8) : ℕ :=
  (segment.getD 12 0).toNat / 16

namespace Request

variable (r : Request)

def TransportExact (segment : List UInt8) : Prop :=
  match r with
  | .udp _ _ payloadLength _ _ _ _ =>
    uhUlen segment = 8 + payloadLength.toNat
  | .tcp _ _ _ _ _ optionsLength _ _ _ _ _ _ _ _ =>
    thLen segment * 4 = 20 + optionsLength.toNat
  | .icmp4 .. => True
  | .icmp6 .. => True

def LengthsExact (size : UInt32) (frame : List UInt8) : Prop :=
  size.toNat = frame.length ∧
    r.network.lengthField frame = r.network.countedBytes frame ∧
    r.TransportExact (r.network.segment frame)

/-- The length of the TCP header can be represented as a data offset. -/
def OffsetRepresentable : Request → Prop
  | .udp .. => True
  | .tcp _ _ _ _ _ optionsLength _ _ _ _ _ _ _ _ =>
    (20 + optionsLength.toNat) % 4 = 0 ∧ (20 + optionsLength.toNat) / 4 < 16
  | .icmp4 .. => True
  | .icmp6 .. => True

def Representable : Prop :=
  r.ipLength < 65536 ∧ r.OffsetRepresentable

def Refused : Request → Prop
  | .udp bufferSize _ payloadLength _ family _ _ =>
    bufferSize.toNat <
      14 + (networkOf family).headerLength + 8 + payloadLength.toNat
  | .tcp _ bufferSize _ payloadLength _ optionsLength _ _ _ _ _ family _ _ =>
    bufferSize.toNat < 14 + (networkOf family).headerLength + 20 +
        optionsLength.toNat + payloadLength.toNat ∨
      40 < optionsLength.toNat
  | .icmp4 bufferSize _ payloadLength _ =>
    bufferSize.toNat < 14 + 20 + 4 + payloadLength.toNat
  | .icmp6 bufferSize _ payloadLength _ =>
    bufferSize.toNat < 14 + 40 + 4 + payloadLength.toNat

/-- Successful calls have exact length fields, and a call whose lengths cannot
be represented is refused. -/
def LengthsRespected : Prop :=
  (∀ size frame, r.build = some (size, frame) → r.LengthsExact size frame) ∧
    (¬ r.Representable → r.build = none)

/-! ## What the fields hold -/

theorem ipLength_mod (network : Network) (n : ℕ) :
    network.ipLength (n % 65536) % 65536 = network.ipLength n % 65536 := by
  cases network with
  | ipv4 => exact Nat.add_mod_mod 20 n 65536
  | ipv6 => exact Nat.mod_mod n 65536

theorem frame_lengths
    {route : Route} {addressFamily length : UInt16} {protocol : UInt8}
    {addressLength : ℕ} {ipHeader : List UInt8}
    (hip : route.ipHeader addressFamily length protocol =
      some (addressLength, ipHeader))
    (type : UInt16) {segment : List UInt8}
    (hlength : length.toNat = segment.length % 65536) :
    ((route.ethernetHeader type).bytes ++ (ipHeader ++ segment)).length =
        14 + (networkOf addressFamily).headerLength + segment.length ∧
      (networkOf addressFamily).lengthField
        ((route.ethernetHeader type).bytes ++ (ipHeader ++ segment)) =
        (networkOf addressFamily).ipLength segment.length % 65536 ∧
      (networkOf addressFamily).segment
        ((route.ethernetHeader type).bytes ++ (ipHeader ++ segment)) =
          segment := by
  have hethernet : (route.ethernetHeader type).bytes.length = 14 := rfl
  rw [← ipLength_mod, ← hlength, List.length_append, List.length_append,
    hethernet, ← Nat.add_assoc]
  unfold networkOf
  by_cases hfamily : addressFamily = afInet
  · subst hfamily
    rw [Route.ipHeader_inet] at hip
    obtain ⟨rfl, rfl⟩ := Prod.mk.inj (Option.some.inj hip)
    exact ⟨rfl, (networkValue_htons (20 + length)).trans
      (UInt16.toNat_add 20 length), rfl⟩
  · rw [Route.ipHeader_of_ne route hfamily] at hip
    obtain ⟨rfl, rfl⟩ := Prod.mk.inj (Option.some.inj hip)
    rw [if_neg hfamily]
    exact ⟨rfl, (networkValue_htons length).trans
      (Nat.mod_eq_of_lt length.toNat_lt).symm, rfl⟩

theorem toNat_udpHeaderBackfill (addressFamily payloadLength : UInt16) :
    (udpHeaderBackfill addressFamily + payloadLength.toUInt32).toNat =
      14 + (networkOf addressFamily).headerLength +
        (8 + payloadLength.toNat) := by
  have hlt := payloadLength.toNat_lt
  unfold udpHeaderBackfill networkOf
  split <;>
    simp only [UInt32.toNat_add, UInt32.reduceToNat, UInt16.toNat_toUInt32,
      Network.headerLength] <;>
    omega

theorem toNat_tcpHeaderBackfill
    (addressFamily payloadLength tcpOptionsLength : UInt16) :
    (tcpHeaderBackfill addressFamily + payloadLength.toUInt32 +
      tcpOptionsLength.toUInt32).toNat =
      14 + (networkOf addressFamily).headerLength +
        (20 + tcpOptionsLength.toNat + payloadLength.toNat) := by
  have hpayload := payloadLength.toNat_lt
  have hoptions := tcpOptionsLength.toNat_lt
  unfold tcpHeaderBackfill networkOf
  split <;>
    simp only [UInt32.toNat_add, UInt32.reduceToNat, UInt16.toNat_toUInt32,
      Network.headerLength] <;>
    omega

theorem toNat_icmpBackfill
    {headers : UInt32} (hheaders : headers.toNat < 65536)
    (payloadLength : UInt16) :
    (headers + payloadLength.toUInt32).toNat =
      headers.toNat + payloadLength.toNat := by
  have hlt := payloadLength.toNat_lt
  simp only [UInt32.toNat_add, UInt16.toNat_toUInt32]
  omega

def TransportField (segment : List UInt8) : Prop :=
  match r with
  | .udp _ _ payloadLength _ _ _ _ =>
    uhUlen segment = (8 + payloadLength.toNat) % 65536
  | .tcp _ _ _ _ _ optionsLength _ _ _ _ _ _ _ _ =>
    thLen segment = (20 + optionsLength.toNat) / 4 ∧ optionsLength.toNat ≤ 40
  | .icmp4 .. => True
  | .icmp6 .. => True

structure Shape (r : Request) (size : UInt32) (frame : List UInt8) : Prop where
  size_eq : size.toNat = 14 + r.network.headerLength + r.segmentLength
  length_eq : frame.length = 14 + r.network.headerLength + r.segmentLength
  lengthField_eq : r.network.lengthField frame = r.ipLength % 65536
  transport_eq : r.TransportField (r.network.segment frame)

theorem thLen_byte {n : ℕ} (hn : n < 16) :
    (16 * UInt8.ofNat n).toNat / 16 = n := by
  simp only [UInt8.toNat_mul, UInt8.toNat_ofNat', UInt8.reduceToNat]
  omega

variable {frame : List UInt8}

theorem shape_of_build {size : UInt32} (hbuild : r.build = some (size, frame)) :
    r.Shape size frame := by
  cases r with
  | udp bufferSize payload payloadLength route family dport sport =>
    obtain ⟨rfl, addressLength, ipHeader, uhSum, hip, -, rfl⟩ :=
      pktBuildUdpFrame_eq_some hbuild
    have hsegment : (udpFront sport dport (8 + payloadLength) ++
          (leBytes 2 (if uhSum = 0 ∧ family = afInet6 then 0xFFFF
            else uhSum).toNat ++
            payload.read 0 payloadLength.toNat)).length =
        8 + payloadLength.toNat := by
      simp
      omega
    obtain ⟨hlength, hfield, htransport⟩ :=
      frame_lengths hip (ethernetType family)
        ((UInt16.toNat_add 8 payloadLength).trans
          (congrArg (· % 65536) hsegment.symm))
    rw [hsegment] at hlength hfield
    refine ⟨toNat_udpHeaderBackfill family payloadLength, hlength, hfield, ?_⟩
    exact (congrArg uhUlen htransport).trans
      ((networkValue_htons (8 + payloadLength)).trans
        (UInt16.toNat_add 8 payloadLength))
  | tcp buffer bufferSize payload payloadLength options optionsLength seq ack
      flags win route family dport sport =>
      obtain ⟨rfl, hoptions, addressLength, ipHeader, thSum, hip, -, rfl⟩ :=
        pktBuildTcpFrame_eq_some hbuild
      have hsegment : (tcpFront sport dport seq ack optionsLength flags win ++
            (leBytes 2 thSum.toNat ++
              tcpBack buffer (14 + ipHeader.length + 20) payload payloadLength
                options optionsLength)).length =
          20 + optionsLength.toNat + payloadLength.toNat := by
        simp
        omega
      obtain ⟨hlength, hfield, htransport⟩ :=
        frame_lengths hip (ethernetType family)
          ((toNat_tcpLength optionsLength payloadLength).trans
            (congrArg (· % 65536) hsegment.symm))
      rw [hsegment] at hlength hfield
      refine ⟨toNat_tcpHeaderBackfill family payloadLength optionsLength,
        hlength, hfield, ?_, hoptions⟩
      exact (congrArg thLen htransport).trans (thLen_byte (by omega))
  | icmp4 bufferSize payload payloadLength route =>
    obtain ⟨rfl, checksum, -, rfl⟩ := pktBuildIcmp4Frame_eq_some hbuild
    have hsegment := length_icmpSegment payloadLength payload 0 checksum.toNat
    obtain ⟨hlength, hfield, -⟩ :=
      frame_lengths (route.ipHeader_inet (4 + payloadLength) ipprotoIcmp)
        ethernetTypeIpv4 ((UInt16.toNat_add 4 payloadLength).trans
          (congrArg (· % 65536) hsegment.symm))
    rw [hsegment] at hlength hfield
    exact ⟨(toNat_icmpBackfill (by decide) payloadLength).trans
      (Nat.add_assoc 34 4 payloadLength.toNat), hlength, hfield, trivial⟩
  | icmp6 bufferSize payload payloadLength route =>
    obtain ⟨rfl, checksum, -, rfl⟩ := pktBuildIcmp6Frame_eq_some hbuild
    have hsegment :=
      length_icmpSegment payloadLength payload 129 checksum.toNat
    obtain ⟨hlength, hfield, -⟩ :=
      frame_lengths (route.ipHeader_of_ne
          (show afInet6 ≠ afInet by decide) (4 + payloadLength) ipprotoIcmpv6)
        ethernetTypeIpv6 ((UInt16.toNat_add 4 payloadLength).trans
          (congrArg (· % 65536) hsegment.symm))
    rw [hsegment] at hlength hfield
    exact ⟨(toNat_icmpBackfill (by decide) payloadLength).trans
      (Nat.add_assoc 54 4 payloadLength.toNat), hlength, hfield, trivial⟩

/-! ## When the fields are exact -/

theorem countedBytes_eq {network : Network} {n : ℕ}
    (h : frame.length = 14 + network.headerLength + n) :
    network.countedBytes frame = network.ipLength n := by
  cases network with
  | ipv4 | ipv6 =>
    simp only [Network.countedBytes, Network.ipLength, ipPacket,
      List.length_drop, h, Network.headerLength]
    omega

theorem Shape.lengthsExact_iff {r : Request} {size : UInt32}
    (h : r.Shape size frame) : r.LengthsExact size frame ↔ r.Representable := by
  have hsize : size.toNat = frame.length := h.size_eq.trans h.length_eq.symm
  have hfield : r.network.lengthField frame = r.network.countedBytes frame ↔
      r.ipLength < 65536 := by
    rw [h.lengthField_eq, countedBytes_eq h.length_eq]
    exact Nat.mod_eq_iff_lt (by omega)
  have hshort : r.ipLength < 65536 → r.segmentLength < 65536 := by
    unfold ipLength Network.ipLength
    split <;> omega
  have htransport := h.transport_eq
  rw [LengthsExact, Representable, hfield, eq_true hsize, true_and]
  refine and_congr_right fun hfits => ?_
  cases r with
  | udp bufferSize payload payloadLength route family dport sport =>
    have hlength : 8 + payloadLength.toNat < 65536 := hshort hfits
    exact iff_of_true (htransport.trans (Nat.mod_eq_of_lt hlength)) trivial
  | tcp buffer bufferSize payload payloadLength options optionsLength seq ack
      flags win route family dport sport =>
      obtain ⟨hlen, hoptions⟩ := htransport
      simp only [TransportExact, OffsetRepresentable, hlen]
      omega
  | icmp4 | icmp6 =>
    exact Iff.rfl

theorem build_eq_none_iff : r.build = none ↔ r.Refused := by
  cases r with
  | udp bufferSize payload payloadLength route family dport sport =>
    have hsize : bufferSize < udpHeaderBackfill family +
          payloadLength.toUInt32 ↔
        (udp bufferSize payload payloadLength route family dport
          sport).Refused := by
      rw [UInt32.lt_iff_toNat_lt, toNat_udpHeaderBackfill, Refused]
      omega
    obtain ⟨header, hip⟩ :=
      route.exists_ipHeader family (8 + payloadLength) ipprotoUdp
    rw [← hsize]
    simp only [build, pktBuildUdpFrame, hip]
    split <;> simp_all
  | tcp buffer bufferSize payload payloadLength options optionsLength seq ack
      flags win route family dport sport =>
      have hsize : (bufferSize < tcpHeaderBackfill family +
            payloadLength.toUInt32 + optionsLength.toUInt32 ∨
            tcpMaxOptionLen < optionsLength) ↔
          (tcp buffer bufferSize payload payloadLength options optionsLength
            seq ack flags win route family dport sport).Refused := by
        rw [UInt32.lt_iff_toNat_lt, UInt16.lt_iff_toNat_lt,
          toNat_tcpHeaderBackfill, Refused]
        have hmax : tcpMaxOptionLen.toNat = 40 := rfl
        omega
      obtain ⟨header, hip⟩ := route.exists_ipHeader family
        (20 + optionsLength + payloadLength) ipprotoTcp
      rw [← hsize]
      simp only [build, pktBuildTcpFrame, hip]
      split <;> simp_all
  | icmp4 bufferSize payload payloadLength route =>
    have hsize : bufferSize < 14 + 20 + 4 + payloadLength.toUInt32 ↔
        (icmp4 bufferSize payload payloadLength route).Refused := by
      rw [UInt32.lt_iff_toNat_lt, toNat_icmpBackfill (by decide), Refused]
      rfl
    rw [← hsize]
    simp only [build, pktBuildIcmp4Frame]
    split <;> simp_all
  | icmp6 bufferSize payload payloadLength route =>
    have hsize : bufferSize < 14 + 40 + 4 + payloadLength.toUInt32 ↔
        (icmp6 bufferSize payload payloadLength route).Refused := by
      rw [UInt32.lt_iff_toNat_lt, toNat_icmpBackfill (by decide), Refused]
      rfl
    rw [← hsize]
    simp only [build, pktBuildIcmp6Frame]
    split <;> simp_all

/-- The builders respect the length fields exactly for the calls they refuse
and for those whose lengths can be represented. -/
theorem lengthsRespected_iff (r : Request) :
    r.LengthsRespected ↔ r.Refused ∨ r.Representable := by
  constructor
  · intro hrespected
    by_cases hrepresentable : r.Representable
    · exact .inr hrepresentable
    · exact .inl ((build_eq_none_iff r).mp (hrespected.2 hrepresentable))
  · rintro (hrefused | hrepresentable)
    · have hnone := (build_eq_none_iff r).mpr hrefused
      refine ⟨fun size frame hbuild => ?_, fun _ => hnone⟩
      rw [hnone] at hbuild
      cases hbuild
    · refine ⟨fun size frame hbuild => ?_, fun h => absurd hrepresentable h⟩
      exact (shape_of_build r hbuild).lengthsExact_iff.mpr hrepresentable

def longUdpRequest : Request :=
  .udp 65577 (fun _ => 0) 65535
    { ethernetDestination := fun _ => 0
      ethernetSource := fun _ => 0
      ipDestination := fun _ => 0
      ipSource := fun _ => 0 }
    afInet 0 0

/-- The call succeeds, and stores `7` in `uh_ulen` and `27` in the total
length. -/
theorem longUdpRequest_not_respected :
    (∃ size frame, longUdpRequest.build = some (size, frame) ∧
      uhUlen (Network.ipv4.segment frame) = 7 ∧
      Network.ipv4.lengthField frame = 27) ∧
      ¬ longUdpRequest.LengthsRespected := by
  have hsome : longUdpRequest.build ≠ none := by
    rw [Ne, build_eq_none_iff]
    change ¬ (65577 : UInt32).toNat < 14 + 20 + 8 + (65535 : UInt16).toNat
    decide
  obtain ⟨⟨size, frame⟩, hbuild⟩ := Option.ne_none_iff_exists'.mp hsome
  have hshape := shape_of_build longUdpRequest hbuild
  refine ⟨⟨size, frame, hbuild, hshape.transport_eq, hshape.lengthField_eq⟩,
    fun hrespected => hsome (hrespected.2 ?_)⟩
  exact fun h => absurd h.1 (by decide)

end Request

end WinNetTest.Pkt
