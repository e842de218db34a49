import WinNetTest.Pkt.Frame

/-!
# Frames on the wire

A receiver knows only the bytes of a frame.  It reads the Ethernet type, the
IP header and the length field, cuts out the segment the length field covers,
and adds up the words of the IPv4 header and of the segment behind its
pseudo-header.
-/

namespace WinNetTest.Pkt

open WinNetTest.Support

/-! ## Reading frames -/

def networkValue (bytes : List UInt8) : ℕ :=
  bytes.foldl (fun value byte => 256 * value + byte.toNat) 0

def field (bytes : List UInt8) (offset width : ℕ) : List UInt8 :=
  (bytes.drop offset).take width

def etherType (frame : List UInt8) : ℕ :=
  networkValue (field frame 12 2)

def ipPacket (frame : List UInt8) : List UInt8 :=
  frame.drop 14

variable (packet : List UInt8)

def ipv4HeaderLength : ℕ :=
  4 * ((packet.getD 0 0).toNat % 16)

def ipv4TotalLength : ℕ :=
  networkValue (field packet 2 2)

def ipv6PayloadLength : ℕ :=
  networkValue (field packet 4 2)

structure Datagram where
  source : List UInt8
  destination : List UInt8
  protocol : UInt8
  segment : List UInt8

def ipv4Datagram : Datagram :=
  { source := field packet 12 4
    destination := field packet 16 4
    protocol := packet.getD 9 0
    segment :=
      (packet.take (ipv4TotalLength packet)).drop (ipv4HeaderLength packet) }

def ipv6Datagram : Datagram :=
  { source := field packet 8 16
    destination := field packet 24 16
    protocol := packet.getD 6 0
    segment := field packet 40 (ipv6PayloadLength packet) }

def Datagram.pseudoHeader4 (d : Datagram) : List UInt8 :=
  d.source ++ d.destination ++
    ([0, d.protocol] ++ (leBytes 2 d.segment.length).reverse)

def Datagram.pseudoHeader6 (d : Datagram) : List UInt8 :=
  d.source ++ d.destination ++
    ((leBytes 4 d.segment.length).reverse ++ [0, 0, 0, d.protocol])

inductive Network
  | ipv4
  | ipv6
deriving DecidableEq, Repr

def Network.ipLength (network : Network) (segmentLength : ℕ) : ℕ :=
  match network with
  | .ipv4 => 20 + segmentLength
  | .ipv6 => segmentLength

def networkOf (addressFamily : UInt16) : Network :=
  if addressFamily = afInet then .ipv4 else .ipv6

/-- The frame is of the given kind, its IP length field covers all of it, and
its checksums are those a receiver accepts. -/
def Accepted (network : Network) (protocol : UInt8) (frame : List UInt8) :
    Prop :=
  match network with
  | .ipv4 =>
    let packet := ipPacket frame
    let d := ipv4Datagram packet
    etherType frame = 0x0800 ∧ d.protocol = protocol ∧
      d.segment = packet.drop (ipv4HeaderLength packet) ∧
      onesSum (packet.take (ipv4HeaderLength packet)) = 0xFFFF ∧
      onesSum ((if protocol = ipprotoIcmp then [] else d.pseudoHeader4) ++
        d.segment) = 0xFFFF
  | .ipv6 =>
    let packet := ipPacket frame
    let d := ipv6Datagram packet
    etherType frame = 0x86dd ∧ d.protocol = protocol ∧
      d.segment = packet.drop 40 ∧
      onesSum (d.pseudoHeader6 ++ d.segment) = 0xFFFF ∧
      (protocol = ipprotoUdp → networkValue (field d.segment 6 2) ≠ 0)

instance (network : Network) (protocol : UInt8) (frame : List UInt8) :
    Decidable (Accepted network protocol frame) :=
  match network with
  | .ipv4 => inferInstanceAs (Decidable (_ ∧ _ ∧ _ ∧ _ ∧ _))
  | .ipv6 => inferInstanceAs (Decidable (_ ∧ _ ∧ _ ∧ _ ∧ _))

/-! ## Requests -/

inductive Request
  | udp (bufferSize : UInt32) (payload : Memory) (payloadLength : UInt16)
      (route : Route) (addressFamily portDestination portSource : UInt16)
  | tcp (buffer : Memory) (bufferSize : UInt32)
      (payload : Option Memory) (payloadLength : UInt16)
      (tcpOptions : Option Memory) (tcpOptionsLength : UInt16)
      (thSeq thAck : UInt32) (thFlags : UInt8) (thWin : UInt16)
      (route : Route) (addressFamily portDestination portSource : UInt16)
  | icmp4 (bufferSize : UInt32) (payload : Memory) (payloadLength : UInt16)
      (route : Route)
  | icmp6 (bufferSize : UInt32) (payload : Memory) (payloadLength : UInt16)
      (route : Route)

namespace Request

def build : Request → Option (UInt32 × List UInt8)
  | .udp bufferSize payload payloadLength route family dport sport =>
    pktBuildUdpFrame bufferSize payload payloadLength route family dport
      sport
  | .tcp buffer bufferSize payload payloadLength options optionsLength seq ack
      flags win route family dport sport =>
      pktBuildTcpFrame buffer bufferSize payload payloadLength options
        optionsLength seq ack flags win route family dport sport
  | .icmp4 bufferSize payload payloadLength route =>
    pktBuildIcmp4Frame bufferSize payload payloadLength route
  | .icmp6 bufferSize payload payloadLength route =>
    pktBuildIcmp6Frame bufferSize payload payloadLength route

def addressFamily : Request → UInt16
  | .udp _ _ _ _ family _ _ => family
  | .tcp _ _ _ _ _ _ _ _ _ _ _ family _ _ => family
  | .icmp4 .. => afInet
  | .icmp6 .. => afInet6

def network (r : Request) : Network :=
  networkOf r.addressFamily

def protocol : Request → UInt8
  | .udp .. => ipprotoUdp
  | .tcp .. => ipprotoTcp
  | .icmp4 .. => ipprotoIcmp
  | .icmp6 .. => ipprotoIcmpv6

def segmentLength : Request → ℕ
  | .udp _ _ payloadLength _ _ _ _ => 8 + payloadLength.toNat
  | .tcp _ _ _ payloadLength _ optionsLength _ _ _ _ _ _ _ _ =>
    20 + optionsLength.toNat + payloadLength.toNat
  | .icmp4 _ _ payloadLength _ => 4 + payloadLength.toNat
  | .icmp6 _ _ payloadLength _ => 4 + payloadLength.toNat

def ipLength (r : Request) : ℕ :=
  r.network.ipLength r.segmentLength

end Request

/-! ## Network order -/

variable (x : UInt16)

theorem toNat_htons_mod : (htons x).toNat % 256 = x.toNat / 256 := by
  have hx := x.toNat_lt
  rw [toNat_htons, Nat.add_mul_mod_self_right]
  omega

theorem toNat_htons_div : (htons x).toNat / 256 = x.toNat % 256 := by
  have hx := x.toNat_lt
  rw [toNat_htons, Nat.add_mul_div_right _ _ (by omega)]
  omega

theorem networkValue_htons :
    networkValue (leBytes 2 (htons x).toNat) = x.toNat := by
  simp only [leBytes, networkValue, List.foldl_cons, List.foldl_nil,
    UInt8.toNat_ofNat', toNat_htons_div]
  have hlow := toNat_htons_mod x
  omega

theorem reverse_leBytes_two :
    (leBytes 2 x.toNat).reverse = leBytes 2 (htons x).toNat := by
  have hlow := toNat_htons_mod x
  simp only [leBytes, List.reverse_cons, List.reverse_nil, List.nil_append,
    List.cons_append, List.cons.injEq, and_true, toNat_htons_div,
    ← UInt8.toNat_inj, UInt8.toNat_ofNat']
  omega

theorem reverse_leBytes_four :
    (leBytes 4 x.toNat).reverse = [0, 0] ++ leBytes 2 (htons x).toNat := by
  have hx := x.toNat_lt
  have hzero : x.toNat / 256 / 256 = 0 := by omega
  rw [← reverse_leBytes_two]
  simp [leBytes, hzero]

/-! ## Headers as they are read back -/

theorem etherType_bytes
    (route : Route) (type : UInt16) (packet : List UInt8) :
    etherType ((route.ethernetHeader type).bytes ++ packet) = type.toNat :=
  networkValue_htons type

theorem ipv4HeaderLength_bytes
    (route : Route) (length : UInt16) (protocol : UInt8)
    (segment : List UInt8) :
    ipv4HeaderLength
      ((route.ipv4Header length protocol).bytes ++ segment) = 20 := by
  change 4 * ((5 + 16 * ipv4Version : UInt8).toNat % 16) = 20
  decide

end WinNetTest.Pkt
