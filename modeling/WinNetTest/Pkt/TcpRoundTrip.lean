import WinNetTest.Pkt.Parse

/-!
# TCP frames are parsed back

The parser finds in a frame of `PktBuildTcpFrame` the header and the payload
that the builder was given, provided that the options fill whole words and
that the IP length field can hold the length.
-/

namespace WinNetTest.Pkt

open WinNetTest.Support

/-! ## Words of four bytes -/

theorem toNat_htonl (x : UInt32) :
    (htonl x).toNat = x.toNat / 16777216 + x.toNat / 65536 % 256 * 256 +
      x.toNat / 256 % 256 * 65536 + x.toNat % 256 * 16777216 := by
  have hx := x.toNat_lt
  simp only [htonl, UInt32.toNat_add, UInt32.toNat_mul, UInt32.toNat_div,
    UInt32.toNat_mod, UInt32.reduceToNat]
  omega

theorem ntohl_htonl (x : UInt32) : ntohl (htonl x) = x := by
  have hx := x.toNat_lt
  have hdigits (a b c d : ℕ) (ha : a < 256) (hb : b < 256) (hc : c < 256)
      (hd : d < 256) :
      (d + c * 256 + b * 65536 + a * 16777216) / 16777216 = a ∧
        (d + c * 256 + b * 65536 + a * 16777216) / 65536 % 256 = b ∧
        (d + c * 256 + b * 65536 + a * 16777216) / 256 % 256 = c ∧
        (d + c * 256 + b * 65536 + a * 16777216) % 256 = d := by
    omega
  have hvalue : x.toNat % 256 + x.toNat / 256 % 256 * 256 +
      x.toNat / 65536 % 256 * 65536 + x.toNat / 16777216 * 16777216 =
        x.toNat := by
    omega
  obtain ⟨h₀, h₁, h₂, h₃⟩ := hdigits (x.toNat % 256) (x.toNat / 256 % 256)
    (x.toNat / 65536 % 256) (x.toNat / 16777216) (by omega) (by omega)
    (by omega) (by omega)
  rw [← UInt32.toNat_inj, ntohl, toNat_htonl, toNat_htonl, h₀, h₁, h₂, h₃]
  exact hvalue

theorem ntohs_htons (x : UInt16) : ntohs (htons x) = x := by
  have hx := x.toNat_lt
  rw [← UInt16.toNat_inj, ntohs, toNat_htons, toNat_htons]
  omega

/-! ## Built frames -/

variable {addressFamily tcpOptionsLength : UInt16}

theorem Route.ipHeader_fields {route : Route} {length : UInt16}
    {protocol : UInt8} {addressLength : ℕ} {ipHeader : List UInt8}
    (hip : route.ipHeader addressFamily length protocol =
      some (addressLength, ipHeader)) (segment : List UInt8) :
    etherType ((route.ethernetHeader (ethernetType addressFamily)).bytes ++
        (ipHeader ++ segment)) = (networkOf addressFamily).etherType ∧
      (networkOf addressFamily).protocolField
        ((route.ethernetHeader (ethernetType addressFamily)).bytes ++
          (ipHeader ++ segment)) = protocol := by
  rw [etherType_bytes]
  unfold networkOf ethernetType
  by_cases hfamily : addressFamily = afInet
  · subst hfamily
    rw [Route.ipHeader_inet] at hip
    obtain ⟨rfl, rfl⟩ := Prod.mk.inj (Option.some.inj hip)
    exact ⟨rfl, rfl⟩
  · rw [Route.ipHeader_of_ne route hfamily] at hip
    obtain ⟨rfl, rfl⟩ := Prod.mk.inj (Option.some.inj hip)
    rw [if_neg hfamily, if_neg hfamily]
    exact ⟨rfl, rfl⟩

theorem field_segment (network : Network) (frame : List UInt8)
    (offset width : ℕ) :
    field (network.segment frame) offset width =
      field frame (14 + network.headerLength + offset) width := by
  rw [field, Network.segment, ipPacket, List.drop_drop, List.drop_drop, field,
    Nat.add_assoc]

theorem readTcpHdr_segment (network : Network) (frame : List UInt8) :
    readTcpHdr frame (14 + network.headerLength) =
      readTcpHdr (network.segment frame) 0 := by
  have hget (n : ℕ) : (network.segment frame).getD n 0 =
      frame.getD (14 + network.headerLength + n) 0 := by
    rw [Network.segment, ipPacket, List.drop_drop, getD_drop]
  simp only [readTcpHdr, readUInt16, readUInt32, field_segment, hget,
    Nat.zero_add, Nat.add_zero]

theorem readTcpHdr_tcpFront (portSource portDestination : UInt16)
    (seq ack : UInt32) (hoptions : tcpOptionsLength.toNat ≤ 40) (flags : UInt8)
    (win sum : UInt16) (rest : List UInt8) :
    readTcpHdr (tcpFront portSource portDestination seq ack tcpOptionsLength
        flags win ++ (leBytes 2 sum.toNat ++ (leBytes 2 0 ++ rest))) 0 =
      { thSport := portSource
        thDport := portDestination
        thSeq := htonl seq
        thAck := htonl ack
        thLen := UInt8.ofNat ((20 + tcpOptionsLength.toNat) / 4)
        thFlags := flags
        thWin := htons win
        thSum := sum } := by
  have hlen : (16 * UInt8.ofNat ((20 + tcpOptionsLength.toNat) / 4)) / 16 =
      UInt8.ofNat ((20 + tcpOptionsLength.toNat) / 4) := by
    rw [← UInt8.toNat_inj, UInt8.toNat_div]
    simp only [UInt8.toNat_mul, UInt8.toNat_ofNat', UInt8.reduceToNat]
    omega
  have hx2 : (16 * UInt8.ofNat ((20 + tcpOptionsLength.toNat) / 4)) % 16 =
      0 := by
    rw [← UInt8.toNat_inj, UInt8.toNat_mod]
    simp only [UInt8.toNat_mul, UInt8.toNat_ofNat', UInt8.reduceToNat]
    omega
  rw [readTcpHdr, readUInt16_eq (x := portSource) rfl,
    readUInt16_eq (x := portDestination) rfl, readUInt32_eq (x := htonl seq) rfl,
    readUInt32_eq (x := htonl ack) rfl, readUInt16_eq (x := htons win) rfl,
    readUInt16_eq (x := sum) rfl, readUInt16_eq (x := 0) rfl]
  simp only [TcpHdr.mk.injEq, true_and]
  exact ⟨hx2, hlen, rfl, trivial⟩

/-! ## The round trip -/

/-- What the parser returns is what the builder was given: the header at its
place in the frame, with the given fields and options, and the payload. -/
structure ParsedBack (frame : List UInt8) (network : Network)
    (payload : Option Memory) (payloadLength : UInt16)
    (tcpOptions : Option Memory) (tcpOptionsLength : UInt16)
    (thSeq thAck : UInt32) (thFlags : UInt8)
    (thWin portDestination portSource : UInt16) (parsed : ParsedTcp) :
    Prop where
  tcpHdr_eq : parsed.tcpHdr.toNat = 14 + network.headerLength
  thSport_eq : (readTcpHdr frame parsed.tcpHdr.toNat).thSport = portSource
  thDport_eq : (readTcpHdr frame parsed.tcpHdr.toNat).thDport = portDestination
  thSeq_eq : ntohl (readTcpHdr frame parsed.tcpHdr.toNat).thSeq = thSeq
  thAck_eq : ntohl (readTcpHdr frame parsed.tcpHdr.toNat).thAck = thAck
  thX2_eq : (readTcpHdr frame parsed.tcpHdr.toNat).thX2 = 0
  thLen_eq : (readTcpHdr frame parsed.tcpHdr.toNat).thLen.toNat * 4 =
    20 + tcpOptionsLength.toNat
  thFlags_eq : (readTcpHdr frame parsed.tcpHdr.toNat).thFlags = thFlags
  thWin_eq : ntohs (readTcpHdr frame parsed.tcpHdr.toNat).thWin = thWin
  thUrp_eq : (readTcpHdr frame parsed.tcpHdr.toNat).thUrp = 0
  options_eq : ∀ options, tcpOptions = some options →
    field frame (parsed.tcpHdr.toNat + 20) tcpOptionsLength.toNat =
      options.read 0 tcpOptionsLength.toNat
  payload_start : parsed.payload.toNat =
    parsed.tcpHdr.toNat + 20 + tcpOptionsLength.toNat
  payloadLength_eq : parsed.payloadLength.toNat = payloadLength.toNat
  payload_eq : ∀ data, payload = some data →
    field frame parsed.payload.toNat parsed.payloadLength.toNat =
      data.read 0 payloadLength.toNat

theorem field_tcpSegment (front back options data : List UInt8)
    (hfront : (front ++ back).length = 20) :
    field (front ++ (back ++ (options ++ data))) 20 options.length = options ∧
      field (front ++ (back ++ (options ++ data))) (20 + options.length)
        data.length = data := by
  have hsplit : front ++ (back ++ (options ++ data)) =
      (front ++ back) ++ (options ++ data) := by
    simp only [List.append_assoc]
  rw [hsplit, field, field, ← hfront]
  constructor
  · rw [List.drop_left, List.take_left]
  · rw [List.drop_append, List.drop_eq_nil_of_le (by omega), List.nil_append,
      Nat.add_sub_cancel_left, List.drop_left, List.take_length]

theorem pktBuildTcpFrame_segment {buffer : Memory} {bufferSize : UInt32}
    {payload : Option Memory} {payloadLength : UInt16}
    {tcpOptions : Option Memory} {thSeq thAck : UInt32} {thFlags : UInt8}
    {thWin : UInt16} {route : Route} {portDestination portSource : UInt16}
    {size : UInt32} {frame : List UInt8}
    (hbuild : pktBuildTcpFrame buffer bufferSize payload payloadLength
      tcpOptions tcpOptionsLength thSeq thAck thFlags thWin route
      addressFamily portDestination portSource = some (size, frame)) :
    (∃ thSum : UInt16, ∃ offset, (networkOf addressFamily).segment frame =
        tcpFront portSource portDestination thSeq thAck tcpOptionsLength
          thFlags thWin ++ (leBytes 2 thSum.toNat ++ (leBytes 2 0 ++
            (copied buffer offset tcpOptions tcpOptionsLength ++
              copied buffer (offset + tcpOptionsLength.toNat) payload
                payloadLength)))) ∧
      tcpOptionsLength.toNat ≤ 40 ∧
      etherType frame = (networkOf addressFamily).etherType ∧
      (networkOf addressFamily).protocolField frame = ipprotoTcp := by
  obtain ⟨-, hoptions, _, ipHeader, thSum, hip, -, rfl⟩ :=
    pktBuildTcpFrame_eq_some hbuild
  have hsegment :
      (tcpFront portSource portDestination thSeq thAck tcpOptionsLength
        thFlags thWin ++ (leBytes 2 thSum.toNat ++
          tcpBack buffer (14 + ipHeader.length + 20) payload payloadLength
            tcpOptions tcpOptionsLength)).length =
      20 + tcpOptionsLength.toNat + payloadLength.toNat := by
    simp
    omega
  obtain ⟨-, -, hcut⟩ := Request.frame_lengths hip (ethernetType addressFamily)
    ((toNat_tcpLength tcpOptionsLength payloadLength).trans
      (congrArg (· % 65536) hsegment.symm))
  obtain ⟨htype, hprotocol⟩ := Route.ipHeader_fields hip _
  exact ⟨⟨thSum, _, hcut⟩, hoptions, htype, hprotocol⟩

/-- A TCP frame whose options fill whole words and whose length the IP header
can hold is parsed back, and the builder has written as many bytes as it
reports. -/
theorem pktParseTcpFrame_built
    {buffer : Memory} {bufferSize : UInt32}
    {payload : Option Memory} {payloadLength : UInt16}
    {tcpOptions : Option Memory} {tcpOptionsLength : UInt16}
    {thSeq thAck : UInt32} {thFlags : UInt8} {thWin : UInt16}
    {route : Route} {addressFamily portDestination portSource : UInt16}
    {size : UInt32} {frame : List UInt8}
    (hbuild : pktBuildTcpFrame buffer bufferSize payload payloadLength
      tcpOptions tcpOptionsLength thSeq thAck thFlags thWin route
      addressFamily portDestination portSource = some (size, frame))
    (hwords : tcpOptionsLength.toNat % 4 = 0)
    (hfits : (networkOf addressFamily).ipLength
      (20 + tcpOptionsLength.toNat + payloadLength.toNat) < 65536) :
    frame.length = size.toNat ∧
      ∃ parsed, pktParseTcpFrame frame size = some parsed ∧
        ParsedBack frame (networkOf addressFamily) payload payloadLength
          tcpOptions tcpOptionsLength thSeq thAck thFlags thWin
          portDestination portSource parsed := by
  have hshape := Request.shape_of_build (.tcp buffer bufferSize payload
    payloadLength tcpOptions tcpOptionsLength thSeq thAck thFlags thWin route
    addressFamily portDestination portSource) hbuild
  have hsize : size.toNat = frame.length :=
    hshape.size_eq.trans hshape.length_eq.symm
  have hlength : frame.length = 14 + (networkOf addressFamily).headerLength +
      (20 + tcpOptionsLength.toNat + payloadLength.toNat) := hshape.length_eq
  have hfield : (networkOf addressFamily).lengthField frame =
      (networkOf addressFamily).ipLength
        (20 + tcpOptionsLength.toNat + payloadLength.toNat) :=
    hshape.lengthField_eq.trans (Nat.mod_eq_of_lt hfits)
  have htcp : (networkOf addressFamily).tcpHeaderLen frame =
      20 + tcpOptionsLength.toNat := by
    have hthLen : thLen ((networkOf addressFamily).segment frame) =
        (20 + tcpOptionsLength.toNat) / 4 := hshape.transport_eq.1
    rw [Network.tcpHeaderLen, hthLen]
    omega
  obtain ⟨⟨thSum, offset, hsegment⟩, hoptions, htype, hprotocol⟩ :=
    pktBuildTcpFrame_segment hbuild
  generalize networkOf addressFamily = network at *
  have hip : network.ipLength
      (20 + tcpOptionsLength.toNat + payloadLength.toNat) =
      network.ipLength 0 +
        (20 + tcpOptionsLength.toNat + payloadLength.toNat) := by
    cases network <;> simp [Network.ipLength]
  have hpayload : network.ipPayloadLength frame =
      20 + tcpOptionsLength.toNat + payloadLength.toNat := by
    rw [Network.ipPayloadLength, hfield, hip]
    omega
  have hpresents : network.Presents frame size :=
    ⟨htype, hprotocol, by omega, by omega⟩
  have hoffset := network.tcpHdr_parsed frame
  have hstart : (network.parsed frame).payload.toNat =
      14 + network.headerLength + 20 + tcpOptionsLength.toNat := by
    rw [network.payload_parsed, htcp]
    omega
  have hdataLength : (network.parsed frame).payloadLength.toNat =
      payloadLength.toNat := by
    rw [network.payloadLength_parsed (by omega), hpayload, htcp]
    omega
  have hheader := readTcpHdr_segment network frame
  rw [hsegment, readTcpHdr_tcpFront _ _ _ _ hoptions] at hheader
  obtain ⟨hoptionBytes, hdataBytes⟩ := field_tcpSegment
    (tcpFront portSource portDestination thSeq thAck tcpOptionsLength thFlags
      thWin)
    (leBytes 2 thSum.toNat ++ leBytes 2 0)
    (copied buffer offset tcpOptions tcpOptionsLength)
    (copied buffer (offset + tcpOptionsLength.toNat) payload payloadLength)
    (by simp)
  rw [List.append_assoc, ← hsegment, field_segment, length_copied]
    at hoptionBytes hdataBytes
  refine ⟨hsize.symm, network.parsed frame,
    (pktParseTcpFrame_eq_some_iff hsize _).mpr ⟨network, hpresents, rfl⟩, ?_⟩
  constructor
  case tcpHdr_eq => exact hoffset
  case thLen_eq => rw [hoffset, thLen_readTcpHdr, htcp]
  case options_eq =>
    rintro options rfl
    rw [hoffset]
    exact hoptionBytes
  case payload_start => rw [hstart, hoffset]
  case payloadLength_eq => exact hdataLength
  case payload_eq =>
    rintro data rfl
    rw [hstart, hdataLength, Nat.add_assoc]
    rw [length_copied] at hdataBytes
    exact hdataBytes
  all_goals rw [hoffset, hheader]
  case thSeq_eq => exact ntohl_htonl thSeq
  case thAck_eq => exact ntohl_htonl thAck
  case thWin_eq => exact ntohs_htons thWin

def loopRoute : Route where
  ethernetDestination := fun i => UInt8.ofNat (i + 1)
  ethernetSource := fun i => UInt8.ofNat (i + 7)
  ipDestination := fun i => UInt8.ofNat (i + 20)
  ipSource := fun i => UInt8.ofNat (i + 40)

theorem pktParseTcpFrame_built_ipv6 : ∃ size frame parsed,
      pktBuildTcpFrame (fun _ => 0) 200 (some fun i => UInt8.ofNat (i + 65)) 3
        (some fun _ => 1) 4 7 9 0x18 512 loopRoute afInet6 80 1024 =
          some (size, frame) ∧
      pktParseTcpFrame frame size = some parsed ∧
      field frame parsed.payload.toNat parsed.payloadLength.toNat =
        [65, 66, 67] := by
  obtain ⟨size, frame, hbuild⟩ : ∃ size frame,
      pktBuildTcpFrame (fun _ => 0) 200 (some fun i => UInt8.ofNat (i + 65)) 3
        (some fun _ => 1) 4 7 9 0x18 512 loopRoute afInet6 80 1024 =
          some (size, frame) := ⟨_, _, rfl⟩
  obtain ⟨-, parsed, hparsed, hback⟩ :=
    pktParseTcpFrame_built hbuild (by decide) (by decide)
  exact ⟨size, frame, parsed, hbuild, hparsed, hback.payload_eq _ rfl⟩

end WinNetTest.Pkt
