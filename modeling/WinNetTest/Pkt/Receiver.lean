import WinNetTest.Pkt.Wire

/-!
# What a receiver accepts

Every frame the builders produce whose IP length fits its field is accepted.
The argument is the same for all builders: the checksum field holds a value
that cancels the rest of the sum modulo `65535`, and the rest is positive.
-/

namespace WinNetTest.Pkt

open WinNetTest.Support

/-! ## Checksum fields -/

variable {front segment frame : List UInt8} {protocol : UInt8}
    {length addressFamily payloadLength : UInt16} {bufferSize size : UInt32}

theorem littleSum_around (hfront : Even front.length) (sum : UInt16)
    (back : List UInt8) :
    littleSum (front ++ (leBytes 2 sum.toNat ++ back)) =
      sum.toNat + (littleSum front + littleSum back) := by
  rw [littleSum_append hfront, littleSum_append (by simp),
    littleSum_leBytes_two sum.toNat_lt]
  omega

theorem onesSum_of_cancels {pseudo : List UInt8} (hpseudo : Even pseudo.length)
    (hfront : Even front.length) (sum : UInt16) (back : List UInt8)
    (hpos : 0 < sum.toNat +
      (littleSum pseudo + (littleSum front + littleSum back)))
    (hsum : sum.toNat +
      (littleSum pseudo + (littleSum front + littleSum back)) ≡ 0
        [MOD 65535]) :
    onesSum (pseudo ++ (front ++ (leBytes 2 sum.toNat ++ back))) = 0xFFFF := by
  rw [onesSum_eq_iff, littleSum_append hpseudo, littleSum_around hfront]
  unfold Nat.ModEq at *
  omega

variable {back ipHeader : List UInt8}

theorem onesSum_pktChecksum (hfront : Even front.length)
    (hlength : front.length + (2 + back.length) < 65536) :
    onesSum (front ++ (leBytes 2
      (pktChecksum 0 (front ++ (leBytes 2 0 ++ back))).toNat ++ back)) =
        0xFFFF := by
  have hbuffer : (front ++ (leBytes 2 0 ++ back)).length < 65536 := by
    simpa using hlength
  have hpos := pktChecksum_add_pos 0 hbuffer
  have hcancel := pktChecksum_add_modEq 0 hbuffer
  have haround := littleSum_around hfront 0 back
  rw [UInt16.toNat_zero] at hpos hcancel haround
  rw [haround] at hpos hcancel
  exact @onesSum_of_cancels _ [] (by simp) hfront _ _
    (by simpa [littleSum] using hpos) (by simpa [littleSum] using hcancel)

theorem pktChecksum_cancels (hfront : Even front.length)
    (hlength : front.length + (2 + back.length) < 65536) {seed : UInt16}
    {pseudo : ℕ} (hseed : seed.toNat ≡ pseudo [MOD 65535]) :
    (pktChecksum 0
        (front ++ (leBytes 2 seed.toNat ++ back))).toNat +
      (pseudo + (littleSum front + littleSum back)) ≡ 0 [MOD 65535] := by
  have hcancel := pktChecksum_add_modEq 0
    (show (front ++ (leBytes 2 seed.toNat ++ back)).length < 65536 by
      simpa using hlength)
  rw [littleSum_around hfront, UInt16.toNat_zero, Nat.zero_add] at hcancel
  refine Nat.ModEq.trans ?_ hcancel
  exact ((hseed.symm).add_right _).add_left _

/-! ## Pseudo-headers -/

theorem littleSum_pseudoHeader4
    (d : Datagram) (length : UInt16) (hlength : d.segment.length = length.toNat)
    (hsource : Even d.source.length)
    (hdestination : Even d.destination.length) :
    littleSum d.pseudoHeader4 =
      littleSum d.source + littleSum d.destination + (htons length).toNat +
        256 * d.protocol.toNat := by
  have htail : littleSum ([0, d.protocol] ++ leBytes 2 (htons length).toNat) =
      256 * d.protocol.toNat + (htons length).toNat := by
    rw [littleSum_append (by simp), littleSum_leBytes_two (htons length).toNat_lt]
    simp [littleSum]
  rw [Datagram.pseudoHeader4, hlength, reverse_leBytes_two,
    littleSum_append (by simpa using hsource.add hdestination),
    littleSum_append hsource, htail]
  omega

theorem littleSum_pseudoHeader6
    (d : Datagram) (length : UInt16) (hlength : d.segment.length = length.toNat)
    (hsource : Even d.source.length)
    (hdestination : Even d.destination.length) :
    littleSum d.pseudoHeader6 =
      littleSum d.source + littleSum d.destination + (htons length).toNat +
        256 * d.protocol.toNat := by
  have htail : littleSum (([0, 0] ++ leBytes 2 (htons length).toNat) ++
      [0, 0, 0, d.protocol]) =
      (htons length).toNat + 256 * d.protocol.toNat := by
    rw [littleSum_append ⟨2, by simp⟩, littleSum_append (by simp),
      littleSum_leBytes_two (htons length).toNat_lt]
    simp [littleSum]
  rw [Datagram.pseudoHeader6, hlength, reverse_leBytes_four,
    littleSum_append (by simpa using hsource.add hdestination),
    littleSum_append hsource, htail]
  omega

/-! ## Frames -/

def Route.datagram
    (route : Route) (addressLength : ℕ) (protocol : UInt8)
    (segment : List UInt8) : Datagram :=
  { source := route.ipSource.read 0 addressLength
    destination := route.ipDestination.read 0 addressLength
    protocol
    segment }

theorem onesSum_ipv4Header
    (route : Route) (length : UInt16) (protocol : UInt8) :
    onesSum (route.ipv4Header length protocol).bytes = 0xFFFF := by
  have hfront : Even ([5 + 16 * ipv4Version, 0] ++
      leBytes 2 (htons (20 + length)).toNat ++ leBytes 2 0 ++ leBytes 2 0 ++
      [1, protocol]).length := ⟨5, rfl⟩
  exact onesSum_pktChecksum hfront (by simp [Route.ipv4Unsummed])

theorem ipv4Datagram_bytes (route : Route) (length : UInt16) (protocol : UInt8)
    (hsegment : segment.length = length.toNat)
    (hfits : 20 + length.toNat < 65536) :
    ipv4Datagram ((route.ipv4Header length protocol).bytes ++ segment) =
      route.datagram 4 protocol segment := by
  have hlength :
      ipv4TotalLength ((route.ipv4Header length protocol).bytes ++ segment) =
        20 + segment.length := by
    have hfield :
        field ((route.ipv4Header length protocol).bytes ++ segment) 2 2 =
          leBytes 2 (htons (20 + length)).toNat := rfl
    rw [ipv4TotalLength, hfield, networkValue_htons, UInt16.toNat_add, hsegment]
    exact Nat.mod_eq_of_lt hfits
  have hcut : ((route.ipv4Header length protocol).bytes ++ segment).take
        (20 + segment.length) =
      (route.ipv4Header length protocol).bytes ++ segment :=
    List.take_of_length_le (by
      rw [List.length_append]
      exact le_refl _)
  unfold ipv4Datagram
  rw [hlength, hcut, ipv4HeaderLength_bytes]
  rfl

theorem accepted_ipv4 (route : Route) (length : UInt16) (protocol : UInt8)
    (hsegment : segment.length = length.toNat)
    (hfits : 20 + length.toNat < 65536)
    (hsum : onesSum ((if protocol = ipprotoIcmp then []
      else (route.datagram 4 protocol segment).pseudoHeader4) ++ segment) =
        0xFFFF) :
    Accepted .ipv4 protocol
      ((route.ethernetHeader ethernetTypeIpv4).bytes ++
        ((route.ipv4Header length protocol).bytes ++ segment)) := by
  have hpacket : ipPacket ((route.ethernetHeader ethernetTypeIpv4).bytes ++
        ((route.ipv4Header length protocol).bytes ++ segment)) =
      (route.ipv4Header length protocol).bytes ++ segment := rfl
  have hheader : ((route.ipv4Header length protocol).bytes ++ segment).take 20 =
        (route.ipv4Header length protocol).bytes := rfl
  simp only [Accepted, hpacket, ipv4HeaderLength_bytes, hheader,
    ipv4Datagram_bytes route length protocol hsegment hfits]
  exact ⟨etherType_bytes route ethernetTypeIpv4 _, rfl, rfl,
    onesSum_ipv4Header route length protocol, hsum⟩

theorem ipv6Datagram_bytes (route : Route) (length : UInt16) (protocol : UInt8)
    (hsegment : segment.length = length.toNat) :
    ipv6Datagram ((route.ipv6Header length protocol).bytes ++ segment) =
      route.datagram 16 protocol segment := by
  have hlength :
      ipv6PayloadLength ((route.ipv6Header length protocol).bytes ++ segment) =
        segment.length := by
    rw [hsegment]
    exact networkValue_htons length
  have hcut : field ((route.ipv6Header length protocol).bytes ++ segment) 40
        segment.length = segment :=
    List.take_of_length_le (le_refl _)
  unfold ipv6Datagram
  rw [hlength, hcut]
  rfl

theorem accepted_ipv6 (route : Route) (length : UInt16) (protocol : UInt8)
    (hsegment : segment.length = length.toNat) (hsum : onesSum
      ((route.datagram 16 protocol segment).pseudoHeader6 ++ segment) = 0xFFFF)
    (hudp : protocol = ipprotoUdp → networkValue (field segment 6 2) ≠ 0) :
    Accepted .ipv6 protocol
      ((route.ethernetHeader ethernetTypeIpv6).bytes ++
        ((route.ipv6Header length protocol).bytes ++ segment)) := by
  have hpacket : ipPacket ((route.ethernetHeader ethernetTypeIpv6).bytes ++
        ((route.ipv6Header length protocol).bytes ++ segment)) =
      (route.ipv6Header length protocol).bytes ++ segment := rfl
  simp only [Accepted, hpacket,
    ipv6Datagram_bytes route length protocol hsegment]
  exact ⟨etherType_bytes route ethernetTypeIpv6 _, rfl, rfl, hsum, hudp⟩

/-! ## Segments behind a pseudo-header -/

def Route.pseudoSum
    (route : Route) (addressLength : ℕ) (length : UInt16) (protocol : UInt8) :
    ℕ :=
  littleSum (route.ipSource.read 0 addressLength) +
    littleSum (route.ipDestination.read 0 addressLength) +
    (htons length).toNat + 256 * protocol.toNat

variable {addressLength : ℕ}

theorem pseudoHeaderChecksum_modEq (route : Route)
    (haddress : addressLength < 65536) (length : UInt16) (protocol : UInt8) :
    (route.pseudoHeaderChecksum addressLength length protocol).toNat ≡
      route.pseudoSum addressLength length protocol [MOD 65535] :=
  pktPseudoHeaderChecksum_modEq (by simpa using haddress)
    (by simpa using haddress) length protocol

theorem pseudoSum_pos (route : Route) (addressLength : ℕ) (length : UInt16)
    (hprotocol : 0 < protocol.toNat) :
    0 < route.pseudoSum addressLength length protocol := by
  unfold Route.pseudoSum
  omega

theorem accepted_ipv6_of_cancels (route : Route) (hfront : Even front.length)
    (sum : UInt16) (back : List UInt8)
    (hsegment : front.length + (2 + back.length) = length.toNat)
    (hsum : sum.toNat + (route.pseudoSum 16 length protocol +
      (littleSum front + littleSum back)) ≡ 0 [MOD 65535])
    (hprotocol : 0 < protocol.toNat) (hudp : protocol = ipprotoUdp →
      networkValue (field (front ++ (leBytes 2 sum.toNat ++ back)) 6 2) ≠ 0) :
    Accepted .ipv6 protocol
      ((route.ethernetHeader ethernetTypeIpv6).bytes ++
        ((route.ipv6Header length protocol).bytes ++
          (front ++ (leBytes 2 sum.toNat ++ back)))) := by
  have hlength : (front ++ (leBytes 2 sum.toNat ++ back)).length =
      length.toNat := by
    simpa using hsegment
  have hpseudo : littleSum (route.datagram 16 protocol
        (front ++ (leBytes 2 sum.toNat ++ back))).pseudoHeader6 =
      route.pseudoSum 16 length protocol :=
    littleSum_pseudoHeader6 _ length hlength ⟨8, rfl⟩ ⟨8, rfl⟩
  have hpos := pseudoSum_pos route 16 length hprotocol
  refine accepted_ipv6 route length protocol hlength ?_ hudp
  exact onesSum_of_cancels ⟨20, rfl⟩ hfront sum back
    (by rw [hpseudo]; omega) (by rw [hpseudo]; exact hsum)

theorem accepted_ipv4_of_cancels (route : Route) (hfront : Even front.length)
    (sum : UInt16) (back : List UInt8)
    (hsegment : front.length + (2 + back.length) = length.toNat)
    (hfits : 20 + length.toNat < 65536)
    (hsum : sum.toNat + (route.pseudoSum 4 length protocol +
      (littleSum front + littleSum back)) ≡ 0 [MOD 65535])
    (hprotocol : 0 < protocol.toNat) (hicmp : protocol ≠ ipprotoIcmp) :
    Accepted .ipv4 protocol
      ((route.ethernetHeader ethernetTypeIpv4).bytes ++
        ((route.ipv4Header length protocol).bytes ++
          (front ++ (leBytes 2 sum.toNat ++ back)))) := by
  have hlength : (front ++ (leBytes 2 sum.toNat ++ back)).length =
      length.toNat := by
    simpa using hsegment
  have hpseudo : littleSum (route.datagram 4 protocol
        (front ++ (leBytes 2 sum.toNat ++ back))).pseudoHeader4 =
      route.pseudoSum 4 length protocol :=
    littleSum_pseudoHeader4 _ length hlength ⟨2, rfl⟩ ⟨2, rfl⟩
  have hpos := pseudoSum_pos route 4 length hprotocol
  refine accepted_ipv4 route length protocol hlength hfits ?_
  rw [if_neg hicmp]
  exact onesSum_of_cancels ⟨6, rfl⟩ hfront sum back
    (by rw [hpseudo]; omega) (by rw [hpseudo]; exact hsum)

theorem accepted_of_cancels (route : Route)
    (hip : route.ipHeader addressFamily length protocol =
      some (addressLength, ipHeader)) (hfront : Even front.length)
    (sum : UInt16) (back : List UInt8)
    (hsegment : front.length + (2 + back.length) = length.toNat)
    (hfits : addressFamily = afInet → 20 + length.toNat < 65536)
    (hsum : sum.toNat + (route.pseudoSum addressLength length protocol +
      (littleSum front + littleSum back)) ≡ 0 [MOD 65535])
    (hprotocol : 0 < protocol.toNat) (hicmp : protocol ≠ ipprotoIcmp)
    (hudp : addressFamily ≠ afInet → protocol = ipprotoUdp →
      networkValue (field (front ++ (leBytes 2 sum.toNat ++ back)) 6 2) ≠ 0) :
    Accepted (networkOf addressFamily) protocol
      ((route.ethernetHeader (ethernetType addressFamily)).bytes ++
        (ipHeader ++ (front ++ (leBytes 2 sum.toNat ++ back)))) := by
  unfold networkOf ethernetType
  by_cases hfamily : addressFamily = afInet
  · subst hfamily
    rw [Route.ipHeader_inet] at hip
    obtain ⟨rfl, rfl⟩ := Prod.mk.inj (Option.some.inj hip)
    exact accepted_ipv4_of_cancels route hfront sum back hsegment
      (hfits rfl) hsum hprotocol hicmp
  · rw [Route.ipHeader_of_ne route hfamily] at hip
    obtain ⟨rfl, rfl⟩ := Prod.mk.inj (Option.some.inj hip)
    rw [if_neg hfamily, if_neg hfamily]
    exact accepted_ipv6_of_cancels route hfront sum back hsegment hsum
      hprotocol (hudp hfamily)

/-! ## The builders -/

variable {route : Route}

theorem Route.ipHeader_addressLength
    (h : route.ipHeader addressFamily length protocol =
      some (addressLength, ipHeader)) : addressLength < 65536 := by
  by_cases hfamily : addressFamily = afInet
  · subst hfamily
    rw [Route.ipHeader_inet] at h
    cases h
    omega
  · rw [Route.ipHeader_of_ne route hfamily] at h
    cases h
    omega

theorem toNat_length_of_fits {n : ℕ} (hlength : length.toNat = n % 65536)
    (hfits : (networkOf addressFamily).ipLength n < 65536) :
    length.toNat = n ∧ (addressFamily = afInet → 20 + length.toNat < 65536) := by
  unfold networkOf at hfits
  by_cases hfamily : addressFamily = afInet
  · rw [if_pos hfamily, Network.ipLength] at hfits
    omega
  · rw [if_neg hfamily, Network.ipLength] at hfits
    exact ⟨by omega, fun h => absurd h hfamily⟩

theorem udpSum_modEq (uhSum addressFamily : UInt16) :
    (if uhSum = 0 ∧ addressFamily = afInet6 then 0xFFFF else uhSum).toNat ≡
      uhSum.toNat [MOD 65535] := by
  split
  · next h =>
      rw [h.1]
      rfl
  · rfl

theorem udpSum_ne_zero (uhSum : UInt16) :
    (if uhSum = 0 ∧ afInet6 = afInet6 then 0xFFFF else uhSum) ≠ 0 := by
  split
  · decide
  · next h => exact fun hzero => h ⟨hzero, rfl⟩

theorem networkValue_leBytes_ne_zero {x : UInt16} (hx : x ≠ 0) :
    networkValue (leBytes 2 x.toNat) ≠ 0 := by
  have hpos : x.toNat ≠ 0 := fun h => hx (UInt16.toNat_inj.mp h)
  have hlt := x.toNat_lt
  simp only [leBytes, networkValue, List.foldl_cons, List.foldl_nil,
    UInt8.toNat_ofNat']
  omega

variable {payload : Memory} {portDestination portSource : UInt16}

theorem pktBuildUdpFrame_accepted
    (h : pktBuildUdpFrame bufferSize payload payloadLength route addressFamily
      portDestination portSource = some (size, frame))
    (hfamily : addressFamily = afInet ∨ addressFamily = afInet6)
    (hfits : (networkOf addressFamily).ipLength (8 + payloadLength.toNat) <
      65536) : Accepted (networkOf addressFamily) ipprotoUdp frame := by
  obtain ⟨-, _, _, uhSum, hip, hsum, rfl⟩ :=
    pktBuildUdpFrame_eq_some h
  obtain ⟨hlength, htotal⟩ :=
    toNat_length_of_fits (n := 8 + payloadLength.toNat)
      (UInt16.toNat_add 8 payloadLength) hfits
  have hfront : Even
      (udpFront portSource portDestination (8 + payloadLength)).length :=
    ⟨3, rfl⟩
  have hsegment :
      (udpFront portSource portDestination (8 + payloadLength)).length +
        (2 + (payload.read 0 payloadLength.toNat).length) =
      (8 + payloadLength).toNat := by
    rw [hlength, Memory.length_read, length_udpFront]
    omega
  rw [List.take_of_length_le (by
    simpa only [List.length_append, length_leBytes] using hsegment.le)] at hsum
  have hcancel := pktChecksum_cancels hfront
    (hsegment.trans_lt (UInt16.toNat_lt _))
    (pseudoHeaderChecksum_modEq route
      (Route.ipHeader_addressLength hip) (8 + payloadLength) ipprotoUdp)
  rw [← hsum] at hcancel
  refine accepted_of_cancels route hip hfront _ _ hsegment htotal
    (((udpSum_modEq uhSum addressFamily).add_right _).trans hcancel)
    (by decide) (by decide) ?_
  intro hnot _
  obtain rfl := hfamily.resolve_left hnot
  exact networkValue_leBytes_ne_zero (udpSum_ne_zero uhSum)

theorem pktBuildTcpFrame_accepted {buffer : Memory} {payload : Option Memory}
    {tcpOptions : Option Memory} {tcpOptionsLength : UInt16}
    {thSeq thAck : UInt32} {thFlags : UInt8} {thWin : UInt16}
    (h : pktBuildTcpFrame buffer bufferSize payload payloadLength tcpOptions
      tcpOptionsLength thSeq thAck thFlags thWin route addressFamily
      portDestination portSource = some (size, frame))
    (hfits : (networkOf addressFamily).ipLength
      (20 + tcpOptionsLength.toNat + payloadLength.toNat) < 65536) :
    Accepted (networkOf addressFamily) ipprotoTcp frame := by
  obtain ⟨-, -, _, ipHeader, _, hip, hsum, rfl⟩ :=
    pktBuildTcpFrame_eq_some h
  obtain ⟨hlength, htotal⟩ :=
    toNat_length_of_fits (toNat_tcpLength tcpOptionsLength payloadLength) hfits
  have hfront : Even
      (tcpFront portSource portDestination thSeq thAck tcpOptionsLength
        thFlags thWin).length :=
    ⟨8, rfl⟩
  have hsegment :
      (tcpFront portSource portDestination thSeq thAck tcpOptionsLength
        thFlags thWin).length +
        (2 + (tcpBack buffer (14 + ipHeader.length + 20) payload payloadLength
          tcpOptions tcpOptionsLength).length) =
      (20 + tcpOptionsLength + payloadLength).toNat := by
    rw [hlength, length_tcpBack, length_tcpFront]
    omega
  rw [List.take_of_length_le (by
    simpa only [List.length_append, length_leBytes] using hsegment.le)] at hsum
  have hcancel := pktChecksum_cancels hfront
    (hsegment.trans_lt (UInt16.toNat_lt _))
    (pseudoHeaderChecksum_modEq route (Route.ipHeader_addressLength hip)
      (20 + tcpOptionsLength + payloadLength) ipprotoTcp)
  rw [← hsum] at hcancel
  exact accepted_of_cancels route hip hfront _ _ hsegment htotal hcancel
    (by decide) (by decide) (fun _ hudp => absurd hudp (by decide))

theorem pktBuildIcmp4Frame_accepted
    (h : pktBuildIcmp4Frame bufferSize payload payloadLength route =
      some (size, frame))
    (hfits : 20 + (4 + payloadLength.toNat) < 65536) :
    Accepted .ipv4 ipprotoIcmp frame := by
  obtain ⟨-, checksum, hsum, rfl⟩ := pktBuildIcmp4Frame_eq_some h
  have hshort : 4 + payloadLength.toNat < 65536 := by omega
  have hlength : (4 + payloadLength).toNat = 4 + payloadLength.toNat :=
    (UInt16.toNat_add 4 payloadLength).trans (Nat.mod_eq_of_lt hshort)
  have hsegment (checksum : ℕ) :=
    (length_icmpSegment payloadLength payload 0 checksum).trans hlength.symm
  refine accepted_ipv4 route (4 + payloadLength) ipprotoIcmp
    (hsegment checksum.toNat) (by omega) ?_
  rw [List.take_of_length_le (hsegment 0).le] at hsum
  rw [if_pos rfl, List.nil_append, hsum]
  refine onesSum_pktChecksum ⟨1, rfl⟩ ?_
  rw [Memory.length_read]
  simp only [List.length_cons, List.length_nil]
  omega

theorem icmp6Sum_modEq
    (route : Route) (length : UInt16) (header data : List UInt8)
    (hheader : header.length < 65536) (hdata : data.length < 65536) :
    (pktChecksumFold
      ((pktPartialChecksum (route.ipSource.read 0 16)).toUInt32 +
        (pktPartialChecksum (route.ipDestination.read 0 16)).toUInt32 +
        (pktPartialChecksum (leBytes 2 (htons length).toNat)).toUInt32 +
        256 * ipprotoIcmpv6.toUInt32 +
        (pktPartialChecksum header).toUInt32 +
        (pktPartialChecksum data).toUInt32)).toNat ≡
      route.pseudoSum 16 length ipprotoIcmpv6 +
        (littleSum header + littleSum data) [MOD 65535] := by
  have hsum : ∀ a b c d e : UInt16,
      (a.toUInt32 + b.toUInt32 + c.toUInt32 + 256 * ipprotoIcmpv6.toUInt32 +
        d.toUInt32 + e.toUInt32).toNat =
      a.toNat + b.toNat + c.toNat + 256 * ipprotoIcmpv6.toNat +
        (d.toNat + e.toNat) := by
    intro a b c d e
    simp only [UInt32.toNat_add, UInt32.toNat_mul, UInt16.toNat_toUInt32,
      UInt8.toNat_toUInt32, UInt32.reduceToNat, ipprotoIcmpv6,
      UInt8.reduceToNat]
    have ha := a.toNat_lt
    have hb := b.toNat_lt
    have hc := c.toNat_lt
    have hd := d.toNat_lt
    have he := e.toNat_lt
    omega
  have hlength : (pktPartialChecksum (leBytes 2 (htons length).toNat)).toNat ≡
      (htons length).toNat [MOD 65535] := by
    have hword : (pktPartialChecksum (leBytes 2 (htons length).toNat)).toNat ≡
          littleSum (leBytes 2 (htons length).toNat) [MOD 65535] :=
      pktPartialChecksum_modEq (by simp)
    rwa [littleSum_leBytes_two (htons length).toNat_lt] at hword
  refine (pktChecksumFold_modEq _).trans ?_
  rw [hsum]
  refine Nat.ModEq.add ((Nat.ModEq.add (Nat.ModEq.add ?_ ?_)
    hlength).add_right _) ?_
  · exact pktPartialChecksum_modEq (by simp)
  · exact pktPartialChecksum_modEq (by simp)
  · exact (pktPartialChecksum_modEq hheader).add
      (pktPartialChecksum_modEq hdata)

theorem pktBuildIcmp6Frame_accepted
    (h : pktBuildIcmp6Frame bufferSize payload payloadLength route =
      some (size, frame))
    (hfits : 4 + payloadLength.toNat < 65536) :
    Accepted .ipv6 ipprotoIcmpv6 frame := by
  obtain ⟨-, _, rfl, rfl⟩ := pktBuildIcmp6Frame_eq_some h
  have hlength : (4 + payloadLength).toNat = 4 + payloadLength.toNat :=
    (UInt16.toNat_add 4 payloadLength).trans (Nat.mod_eq_of_lt hfits)
  have hsegment :=
    (length_icmpSegment payloadLength payload 129 0).trans hlength.symm
  have hcancel := toNat_not_add_modEq (icmp6Sum_modEq route
    (4 + payloadLength) ([129, 0] ++ leBytes 2 0)
    (payload.read 0 payloadLength.toNat) (by simp)
    (by simpa using payloadLength.toNat_lt))
  refine accepted_ipv6_of_cancels route ⟨1, rfl⟩ _ _ ?_ hcancel
    (by decide) (fun hudp => absurd hudp (by decide))
  simpa only [List.length_append, length_leBytes] using hsegment

/-! ## All builders -/

/-- Every frame that a builder returns and whose IP length fits its field
carries checksums that a receiver accepts. -/
theorem built_frame_accepted
    (r : Request) {size : UInt32} {frame : List UInt8}
    (hbuild : r.build = some (size, frame))
    (hfamily : r.addressFamily = afInet ∨ r.addressFamily = afInet6)
    (hfits : r.ipLength < 65536) :
    Accepted r.network r.protocol frame := by
  cases r with
  | udp bufferSize payload payloadLength route family dport sport =>
    exact pktBuildUdpFrame_accepted hbuild hfamily hfits
  | tcp buffer bufferSize payload payloadLength options optionsLength seq ack
      flags win route family dport sport =>
      exact pktBuildTcpFrame_accepted hbuild hfits
  | icmp4 bufferSize payload payloadLength route =>
    exact pktBuildIcmp4Frame_accepted hbuild hfits
  | icmp6 bufferSize payload payloadLength route =>
    exact pktBuildIcmp6Frame_accepted hbuild hfits

def oddUdpRequest : Request :=
  .udp 65 (fun i => UInt8.ofNat (i + 1)) 3
    { ethernetDestination := fun _ => 0xff
      ethernetSource := fun i => UInt8.ofNat i
      ipDestination := fun i => if i = 15 then 1 else 0
      ipSource := fun i => if i = 0 then 0xfe else 0x80 }
    afInet6 0x3500 0x0102

theorem built_frame_accepted_oddUdp :
    ∃ built, oddUdpRequest.build = some built ∧
      Accepted .ipv6 ipprotoUdp built.2 := by
  obtain ⟨built, hbuild⟩ : ∃ built, oddUdpRequest.build = some built :=
    Option.isSome_iff_exists.mp (by decide +kernel)
  exact ⟨built, hbuild,
    built_frame_accepted oddUdpRequest hbuild (.inr rfl) (by decide)⟩

end WinNetTest.Pkt
