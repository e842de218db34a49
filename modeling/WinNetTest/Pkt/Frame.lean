import WinNetTest.Pkt.Checksum

/-!
# The frame builders

`PktBuildUdpFrame`, `PktBuildTcpFrame`, `PktBuildIcmp4Frame` and
`PktBuildIcmp6Frame` fill headers in place and copy the payload behind them.
A header is a record with the fields of the system's header type; its bytes
are the fields in memory order, each 16- or 32-bit field with the least
significant byte first.  Fields the builders leave zeroed are the record's
defaults.

A pointer argument is the memory it points to.  A builder that returns
`FALSE` yields `none`; otherwise it yields the value stored in `*BufferSize`
and the bytes written from the start of the buffer.
-/

namespace WinNetTest.Pkt

open WinNetTest.Support

/-! ## Constants of the system headers -/

def afInet : UInt16 := 2

def afInet6 : UInt16 := 23

def ethernetTypeIpv4 : UInt16 := 0x0800

def ethernetTypeIpv6 : UInt16 := 0x86dd

def ipprotoIcmp : UInt8 := 1

def ipprotoTcp : UInt8 := 6

def ipprotoUdp : UInt8 := 17

def ipprotoIcmpv6 : UInt8 := 58

def ipv4Version : UInt8 := 4

/-- `IPV6_VERSION`, in the byte order of the header field. -/
def ipv6Version : UInt32 := 0x60

def tcpMaxOptionLen : UInt16 := 40

def udpHeaderBackfill (addressFamily : UInt16) : UInt32 :=
  14 + 8 + if addressFamily = afInet then 20 else 40

def tcpHeaderBackfill (addressFamily : UInt16) : UInt32 :=
  14 + 20 + if addressFamily = afInet then 20 else 40

/-! ## Headers -/

def htonl (x : UInt32) : UInt32 :=
  x / 16777216 + x / 65536 % 256 * 256 + x / 256 % 256 * 65536 +
    x % 256 * 16777216

structure EthernetHeader where
  destination : List UInt8
  source : List UInt8
  type : UInt16

def EthernetHeader.bytes (h : EthernetHeader) : List UInt8 :=
  h.destination ++ h.source ++ leBytes 2 h.type.toNat

structure Ipv4Header where
  headerLength : UInt8
  version : UInt8
  typeOfServiceAndEcnField : UInt8 := 0
  totalLength : UInt16
  identification : UInt16 := 0
  flagsAndOffset : UInt16 := 0
  timeToLive : UInt8
  protocol : UInt8
  headerChecksum : UInt16 := 0
  sourceAddress : List UInt8
  destinationAddress : List UInt8

def Ipv4Header.bytes (h : Ipv4Header) : List UInt8 :=
  [h.headerLength + 16 * h.version, h.typeOfServiceAndEcnField] ++
    leBytes 2 h.totalLength.toNat ++ leBytes 2 h.identification.toNat ++
    leBytes 2 h.flagsAndOffset.toNat ++ [h.timeToLive, h.protocol] ++
    (leBytes 2 h.headerChecksum.toNat ++
      (h.sourceAddress ++ h.destinationAddress))

structure Ipv6Header where
  versionClassFlow : UInt32
  payloadLength : UInt16
  nextHeader : UInt8
  hopLimit : UInt8
  sourceAddress : List UInt8
  destinationAddress : List UInt8

def Ipv6Header.bytes (h : Ipv6Header) : List UInt8 :=
  leBytes 4 h.versionClassFlow.toNat ++ leBytes 2 h.payloadLength.toNat ++
    [h.nextHeader, h.hopLimit] ++ (h.sourceAddress ++ h.destinationAddress)

structure UdpHdr where
  uhSport : UInt16
  uhDport : UInt16
  uhUlen : UInt16
  uhSum : UInt16

def UdpHdr.bytes (h : UdpHdr) : List UInt8 :=
  leBytes 2 h.uhSport.toNat ++ leBytes 2 h.uhDport.toNat ++
    leBytes 2 h.uhUlen.toNat ++ leBytes 2 h.uhSum.toNat

/-- `TCP_HDR`.  `th_x2` and `th_len` are the low and the high four bits of one
byte. -/
structure TcpHdr where
  thSport : UInt16
  thDport : UInt16
  thSeq : UInt32
  thAck : UInt32
  thX2 : UInt8 := 0
  thLen : UInt8
  thFlags : UInt8
  thWin : UInt16
  thSum : UInt16
  thUrp : UInt16 := 0

def TcpHdr.bytes (h : TcpHdr) : List UInt8 :=
  leBytes 2 h.thSport.toNat ++ leBytes 2 h.thDport.toNat ++
    leBytes 4 h.thSeq.toNat ++ leBytes 4 h.thAck.toNat ++
    [h.thX2 + 16 * h.thLen, h.thFlags] ++ leBytes 2 h.thWin.toNat ++
    (leBytes 2 h.thSum.toNat ++ leBytes 2 h.thUrp.toNat)

structure IcmpHeader where
  type : UInt8
  code : UInt8
  checksum : UInt16 := 0

def IcmpHeader.bytes (h : IcmpHeader) : List UInt8 :=
  [h.type, h.code] ++ leBytes 2 h.checksum.toNat

/-! ## The parts the builders share -/

structure Route where
  ethernetDestination : Memory
  ethernetSource : Memory
  ipDestination : Memory
  ipSource : Memory

def Route.ethernetHeader (route : Route) (type : UInt16) : EthernetHeader :=
  { destination := route.ethernetDestination.read 0 6
    source := route.ethernetSource.read 0 6
    type := htons type }

/-- The zeroed and filled IPv4 header before its checksum is computed. -/
def Route.ipv4Unsummed
    (route : Route) (length : UInt16) (protocol : UInt8) : Ipv4Header :=
  { version := ipv4Version
    headerLength := 5
    totalLength := htons (20 + length)
    timeToLive := 1
    protocol
    sourceAddress := route.ipSource.read 0 4
    destinationAddress := route.ipDestination.read 0 4 }

def Route.ipv4Header
    (route : Route) (length : UInt16) (protocol : UInt8) : Ipv4Header :=
  let ipHeader := route.ipv4Unsummed length protocol
  { ipHeader with headerChecksum := pktChecksum 0 ipHeader.bytes }

def Route.ipv6Header
    (route : Route) (length : UInt16) (protocol : UInt8) : Ipv6Header :=
  { versionClassFlow := ipv6Version
    payloadLength := htons length
    nextHeader := protocol
    hopLimit := 1
    sourceAddress := route.ipSource.read 0 16
    destinationAddress := route.ipDestination.read 0 16 }

/-- The IP header of `PktBuildUdpFrame` and `PktBuildTcpFrame`, with
`AddressLength`. -/
def Route.ipHeader
    (route : Route) (addressFamily length : UInt16) (protocol : UInt8) :
    Option (ℕ × List UInt8) :=
  if addressFamily = afInet then
    if (length.toNat : ℤ) + 20 < length.toNat then none
    else some (4, (route.ipv4Header length protocol).bytes)
  else some (16, (route.ipv6Header length protocol).bytes)

/-- The pseudo-header checksum of a segment of `length` bytes. -/
def Route.pseudoHeaderChecksum
    (route : Route) (addressLength : ℕ) (length : UInt16) (protocol : UInt8) :
    UInt16 :=
  pktPseudoHeaderChecksum (route.ipSource.read 0 addressLength)
    (route.ipDestination.read 0 addressLength) length protocol

/-- The Ethernet type of `PktBuildUdpFrame` and `PktBuildTcpFrame`. -/
def ethernetType (addressFamily : UInt16) : UInt16 :=
  if addressFamily = afInet then ethernetTypeIpv4 else ethernetTypeIpv6

/-! ## The builders -/

def pktBuildUdpFrame
    (bufferSize : UInt32) (payload : Memory) (payloadLength : UInt16)
    (route : Route) (addressFamily portDestination portSource : UInt16) :
    Option (UInt32 × List UInt8) :=
  let totalLength := udpHeaderBackfill addressFamily + payloadLength.toUInt32
  if bufferSize < totalLength then none
  else
    let udpLength : UInt16 := 8 + payloadLength
    match route.ipHeader addressFamily udpLength ipprotoUdp with
    | none => none
    | some (addressLength, ipHeader) =>
      let udpHeader : UdpHdr :=
        { uhSport := portSource
          uhDport := portDestination
          uhUlen := htons udpLength
          uhSum :=
            route.pseudoHeaderChecksum addressLength udpLength ipprotoUdp }
      let data := payload.read 0 payloadLength.toNat
      let uhSum :=
        pktChecksum 0 ((udpHeader.bytes ++ data).take udpLength.toNat)
      let uhSum :=
        if uhSum = 0 ∧ addressFamily = afInet6 then 0xFFFF else uhSum
      let udpHeader := { udpHeader with uhSum }
      some (totalLength,
        (route.ethernetHeader (ethernetType addressFamily)).bytes ++
          (ipHeader ++ (udpHeader.bytes ++ data)))

variable (buffer : Memory) (offset : ℕ)

/-- The bytes at an offset of the buffer after copying from a pointer that may
be `NULL`. -/
def copied (source : Option Memory) (length : UInt16) : List UInt8 :=
  match source with
  | some source => source.read 0 length.toNat
  | none => buffer.read offset length.toNat

def pktBuildTcpFrame (bufferSize : UInt32) (payload : Option Memory)
    (payloadLength : UInt16) (tcpOptions : Option Memory)
    (tcpOptionsLength : UInt16) (thSeq thAck : UInt32) (thFlags : UInt8)
    (thWin : UInt16) (route : Route)
    (addressFamily portDestination portSource : UInt16) :
    Option (UInt32 × List UInt8) :=
  let totalLength := tcpHeaderBackfill addressFamily +
    payloadLength.toUInt32 + tcpOptionsLength.toUInt32
  if bufferSize < totalLength ∨ tcpMaxOptionLen < tcpOptionsLength then none
  else
    let tcpLength : UInt16 := 20 + tcpOptionsLength + payloadLength
    match route.ipHeader addressFamily tcpLength ipprotoTcp with
    | none => none
    | some (addressLength, ipHeader) =>
      let tcpHeader : TcpHdr :=
        { thSport := portSource
          thDport := portDestination
          thLen := UInt8.ofNat ((20 + tcpOptionsLength.toNat) / 4)
          thSeq := htonl thSeq
          thAck := htonl thAck
          thWin := htons thWin
          thFlags
          thSum :=
            route.pseudoHeaderChecksum addressLength tcpLength ipprotoTcp }
      let offset := 14 + ipHeader.length + 20
      let options := copied buffer offset tcpOptions tcpOptionsLength
      let data :=
        copied buffer (offset + tcpOptionsLength.toNat) payload payloadLength
      let thSum :=
        pktChecksum 0
          ((tcpHeader.bytes ++ (options ++ data)).take tcpLength.toNat)
      let tcpHeader := { tcpHeader with thSum }
      some (totalLength,
        (route.ethernetHeader (ethernetType addressFamily)).bytes ++
          (ipHeader ++ (tcpHeader.bytes ++ (options ++ data))))

def pktBuildIcmp4Frame
    (bufferSize : UInt32) (payload : Memory) (payloadLength : UInt16)
    (route : Route) : Option (UInt32 × List UInt8) :=
  let totalLength := 14 + 20 + 4 + payloadLength.toUInt32
  if bufferSize < totalLength then none
  else
    let ipHeader := route.ipv4Header (4 + payloadLength) ipprotoIcmp
    let icmp4Hdr : IcmpHeader := { type := 0, code := 0 }
    let data := payload.read 0 payloadLength.toNat
    let length : UInt16 := 4 + payloadLength
    let checksum :=
      pktChecksum 0 ((icmp4Hdr.bytes ++ data).take length.toNat)
    let icmp4Hdr := { icmp4Hdr with checksum }
    some (totalLength, (route.ethernetHeader ethernetTypeIpv4).bytes ++
        (ipHeader.bytes ++ (icmp4Hdr.bytes ++ data)))

def pktBuildIcmp6Frame
    (bufferSize : UInt32) (payload : Memory) (payloadLength : UInt16)
    (route : Route) : Option (UInt32 × List UInt8) :=
  let totalLength := 14 + 40 + 4 + payloadLength.toUInt32
  if bufferSize < totalLength then none
  else
    let ipHeader := route.ipv6Header (4 + payloadLength) ipprotoIcmpv6
    let icmp6Hdr : IcmpHeader := { type := 129, code := 0 }
    let data := payload.read 0 payloadLength.toNat
    let checksum := (pktPartialChecksum (route.ipSource.read 0 16)).toUInt32
    let checksum :=
      checksum + (pktPartialChecksum (route.ipDestination.read 0 16)).toUInt32
    let upperLayerPacketLen := htons (4 + payloadLength)
    let checksum := checksum +
      (pktPartialChecksum (leBytes 2 upperLayerPacketLen.toNat)).toUInt32
    let checksum := checksum + 256 * ipHeader.nextHeader.toUInt32
    let checksum := checksum + (pktPartialChecksum icmp6Hdr.bytes).toUInt32
    let checksum := checksum + (pktPartialChecksum data).toUInt32
    let icmp6Hdr := { icmp6Hdr with checksum := ~~~ (pktChecksumFold checksum) }
    some (totalLength, (route.ethernetHeader ethernetTypeIpv6).bytes ++
        (ipHeader.bytes ++ (icmp6Hdr.bytes ++ data)))

/-! ## What the builders write -/

theorem Route.ipHeader_inet
    (route : Route) (length : UInt16) (protocol : UInt8) :
    route.ipHeader afInet length protocol =
      some (4, (route.ipv4Header length protocol).bytes) := by
  rw [Route.ipHeader, if_pos rfl, if_neg (by omega)]

variable {addressFamily payloadLength : UInt16} {bufferSize size : UInt32}

theorem Route.ipHeader_of_ne (route : Route) (h : addressFamily ≠ afInet)
    (length : UInt16) (protocol : UInt8) :
    route.ipHeader addressFamily length protocol =
      some (16, (route.ipv6Header length protocol).bytes) :=
  if_neg h

theorem Route.exists_ipHeader
    (route : Route) (addressFamily length : UInt16) (protocol : UInt8) :
    ∃ header, route.ipHeader addressFamily length protocol = some header := by
  by_cases hfamily : addressFamily = afInet
  · subst hfamily
    exact ⟨_, route.ipHeader_inet length protocol⟩
  · exact ⟨_, route.ipHeader_of_ne hfamily length protocol⟩

def udpFront (portSource portDestination udpLength : UInt16) : List UInt8 :=
  leBytes 2 portSource.toNat ++ leBytes 2 portDestination.toNat ++
    leBytes 2 (htons udpLength).toNat

@[simp] theorem length_udpFront
    (portSource portDestination udpLength : UInt16) :
    (udpFront portSource portDestination udpLength).length = 6 := rfl

variable {payload : Memory} {route : Route} {frame : List UInt8}
variable {portDestination portSource : UInt16}

theorem pktBuildUdpFrame_eq_some
    (h : pktBuildUdpFrame bufferSize payload payloadLength route addressFamily
      portDestination portSource = some (size, frame)) :
    size = udpHeaderBackfill addressFamily + payloadLength.toUInt32 ∧
      ∃ addressLength ipHeader uhSum,
        route.ipHeader addressFamily (8 + payloadLength) ipprotoUdp =
          some (addressLength, ipHeader) ∧
        uhSum = pktChecksum 0
          ((udpFront portSource portDestination (8 + payloadLength) ++
            (leBytes 2 (route.pseudoHeaderChecksum addressLength
              (8 + payloadLength) ipprotoUdp).toNat ++
              payload.read 0 payloadLength.toNat)).take
            (8 + payloadLength).toNat) ∧
        frame = (route.ethernetHeader (ethernetType addressFamily)).bytes ++
            (ipHeader ++
              (udpFront portSource portDestination (8 + payloadLength) ++
                (leBytes 2 (if uhSum = 0 ∧ addressFamily = afInet6 then 0xFFFF
                  else uhSum).toNat ++ payload.read 0 payloadLength.toNat))) := by
  simp only [pktBuildUdpFrame] at h
  split at h
  · cases h
  · split at h
    · cases h
    · next addressLength ipHeader hip =>
        obtain ⟨rfl, rfl⟩ := Prod.mk.inj (Option.some.inj h)
        refine ⟨rfl, addressLength, ipHeader, _, hip, rfl, ?_⟩
        simp only [UdpHdr.bytes, udpFront, List.append_assoc]

def tcpFront
    (portSource portDestination : UInt16) (thSeq thAck : UInt32)
    (tcpOptionsLength : UInt16) (thFlags : UInt8) (thWin : UInt16) :
    List UInt8 :=
  leBytes 2 portSource.toNat ++ leBytes 2 portDestination.toNat ++
    leBytes 4 (htonl thSeq).toNat ++ leBytes 4 (htonl thAck).toNat ++
    [16 * UInt8.ofNat ((20 + tcpOptionsLength.toNat) / 4), thFlags] ++
    leBytes 2 (htons thWin).toNat

def tcpBack (payload : Option Memory) (payloadLength : UInt16)
    (tcpOptions : Option Memory) (tcpOptionsLength : UInt16) : List UInt8 :=
  leBytes 2 0 ++ (copied buffer offset tcpOptions tcpOptionsLength ++
    copied buffer (offset + tcpOptionsLength.toNat) payload payloadLength)

@[simp] theorem length_copied (source : Option Memory) (length : UInt16) :
    (copied buffer offset source length).length = length.toNat := by
  cases source <;> simp [copied]

@[simp] theorem length_tcpFront
    (portSource portDestination : UInt16) (thSeq thAck : UInt32)
    (tcpOptionsLength : UInt16) (thFlags : UInt8) (thWin : UInt16) :
    (tcpFront portSource portDestination thSeq thAck tcpOptionsLength thFlags
      thWin).length = 16 := rfl

@[simp] theorem length_tcpBack (payload : Option Memory)
    (payloadLength : UInt16) (tcpOptions : Option Memory)
    (tcpOptionsLength : UInt16) :
    (tcpBack buffer offset payload payloadLength tcpOptions
      tcpOptionsLength).length =
      2 + tcpOptionsLength.toNat + payloadLength.toNat := by
  simp [tcpBack, Nat.add_assoc]

theorem toNat_tcpLength (tcpOptionsLength payloadLength : UInt16) :
    (20 + tcpOptionsLength + payloadLength).toNat =
      (20 + tcpOptionsLength.toNat + payloadLength.toNat) % 65536 := by
  simp [UInt16.toNat_add]

theorem pktBuildTcpFrame_eq_some {buffer : Memory} {payload : Option Memory}
    {tcpOptions : Option Memory} {tcpOptionsLength : UInt16}
    {thSeq thAck : UInt32} {thFlags : UInt8} {thWin : UInt16}
    (h : pktBuildTcpFrame buffer bufferSize payload payloadLength tcpOptions
      tcpOptionsLength thSeq thAck thFlags thWin route addressFamily
      portDestination portSource = some (size, frame)) :
    size = tcpHeaderBackfill addressFamily + payloadLength.toUInt32 +
        tcpOptionsLength.toUInt32 ∧
      tcpOptionsLength.toNat ≤ 40 ∧
      ∃ addressLength ipHeader thSum,
        route.ipHeader addressFamily (20 + tcpOptionsLength + payloadLength)
          ipprotoTcp = some (addressLength, ipHeader) ∧
        thSum = pktChecksum 0
          ((tcpFront portSource portDestination thSeq thAck tcpOptionsLength
            thFlags thWin ++
            (leBytes 2 (route.pseudoHeaderChecksum addressLength
              (20 + tcpOptionsLength + payloadLength) ipprotoTcp).toNat ++
              tcpBack buffer (14 + ipHeader.length + 20) payload payloadLength
                tcpOptions tcpOptionsLength)).take
            (20 + tcpOptionsLength + payloadLength).toNat) ∧
        frame = (route.ethernetHeader (ethernetType addressFamily)).bytes ++
            (ipHeader ++ (tcpFront portSource portDestination thSeq thAck
                tcpOptionsLength thFlags thWin ++
                (leBytes 2 thSum.toNat ++
                  tcpBack buffer (14 + ipHeader.length + 20) payload
                    payloadLength tcpOptions tcpOptionsLength))) := by
  simp only [pktBuildTcpFrame] at h
  split at h
  · cases h
  · next hsize =>
      have hoptions : tcpOptionsLength.toNat ≤ 40 := by
        rw [not_or, UInt16.not_lt, UInt16.le_iff_toNat_le] at hsize
        exact hsize.2
      split at h
      · cases h
      · next addressLength ipHeader hip =>
          obtain ⟨rfl, rfl⟩ := Prod.mk.inj (Option.some.inj h)
          refine ⟨rfl, hoptions, addressLength, ipHeader, _, hip, rfl, ?_⟩
          simp only [TcpHdr.bytes, tcpFront, tcpBack, List.append_assoc,
            UInt8.zero_add, UInt16.toNat_zero]

theorem length_icmpSegment
    (payloadLength : UInt16) (payload : Memory) (type : UInt8)
    (checksum : ℕ) :
    ([type, 0] ++ (leBytes 2 checksum ++
      payload.read 0 payloadLength.toNat)).length =
      4 + payloadLength.toNat := by
  simp only [List.length_append, length_leBytes, Memory.length_read,
    List.length_cons, List.length_nil]
  omega

theorem pktBuildIcmp4Frame_eq_some
    (h : pktBuildIcmp4Frame bufferSize payload payloadLength route =
      some (size, frame)) :
    size = 14 + 20 + 4 + payloadLength.toUInt32 ∧ ∃ checksum,
        checksum = pktChecksum 0
          (([0, 0] ++ (leBytes 2 0 ++ payload.read 0 payloadLength.toNat)).take
            (4 + payloadLength).toNat) ∧
        frame = (route.ethernetHeader ethernetTypeIpv4).bytes ++
          ((route.ipv4Header (4 + payloadLength) ipprotoIcmp).bytes ++
            ([0, 0] ++ (leBytes 2 checksum.toNat ++
              payload.read 0 payloadLength.toNat))) := by
  simp only [pktBuildIcmp4Frame] at h
  split at h
  · cases h
  · obtain ⟨rfl, rfl⟩ := Prod.mk.inj (Option.some.inj h)
    exact ⟨rfl, _, rfl, rfl⟩

theorem pktBuildIcmp6Frame_eq_some
    (h : pktBuildIcmp6Frame bufferSize payload payloadLength route =
      some (size, frame)) :
    size = 14 + 40 + 4 + payloadLength.toUInt32 ∧ ∃ checksum,
        checksum = ~~~ (pktChecksumFold
          ((pktPartialChecksum (route.ipSource.read 0 16)).toUInt32 +
            (pktPartialChecksum (route.ipDestination.read 0 16)).toUInt32 +
            (pktPartialChecksum
              (leBytes 2 (htons (4 + payloadLength)).toNat)).toUInt32 +
            256 * ipprotoIcmpv6.toUInt32 +
            (pktPartialChecksum ([129, 0] ++ leBytes 2 0)).toUInt32 +
            (pktPartialChecksum
              (payload.read 0 payloadLength.toNat)).toUInt32)) ∧
        frame = (route.ethernetHeader ethernetTypeIpv6).bytes ++
          ((route.ipv6Header (4 + payloadLength) ipprotoIcmpv6).bytes ++
            ([129, 0] ++ (leBytes 2 checksum.toNat ++
              payload.read 0 payloadLength.toNat))) := by
  simp only [pktBuildIcmp6Frame] at h
  split at h
  · cases h
  · obtain ⟨rfl, rfl⟩ := Prod.mk.inj (Option.some.inj h)
    exact ⟨rfl, _, rfl, rfl⟩

end WinNetTest.Pkt
