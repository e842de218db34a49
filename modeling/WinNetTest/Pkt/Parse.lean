import Mathlib.Data.List.Basic
import WinNetTest.Pkt.Lengths

/-!
# The TCP parser

`PktParseTcpFrame` finds the TCP header and the payload of a frame.  It takes
the IPv4 header to have no options, computes the length of the IP payload in
16 bits and the length of the TCP payload in 32 bits, and checks only that the
IP payload ends inside the frame.
-/

namespace WinNetTest.Pkt

open WinNetTest.Support

/-! ## The parser -/

def ntohs (x : UInt16) : UInt16 := htons x

def ntohl (x : UInt32) : UInt32 := htonl x

def readUInt16 (frame : List UInt8) (offset : ℕ) : UInt16 :=
  UInt16.ofNat (leValue (field frame offset 2))

def readUInt32 (frame : List UInt8) (offset : ℕ) : UInt32 :=
  UInt32.ofNat (leValue (field frame offset 4))

/-- The `TCP_HDR` at an offset of a frame. -/
def readTcpHdr (frame : List UInt8) (offset : ℕ) : TcpHdr :=
  { thSport := readUInt16 frame offset
    thDport := readUInt16 frame (offset + 2)
    thSeq := readUInt32 frame (offset + 4)
    thAck := readUInt32 frame (offset + 8)
    thX2 := frame.getD (offset + 12) 0 % 16
    thLen := frame.getD (offset + 12) 0 / 16
    thFlags := frame.getD (offset + 13) 0
    thWin := readUInt16 frame (offset + 14)
    thSum := readUInt16 frame (offset + 16)
    thUrp := readUInt16 frame (offset + 18) }

/-- What the parser returns beside `TRUE`: where the TCP header and the payload
start in the frame, and the payload length. -/
structure ParsedTcp where
  tcpHdr : UInt32
  payload : UInt32
  payloadLength : UInt32
  deriving DecidableEq

/-- `PktParseTcpFrame` behind the IP header. -/
def parseTcpSegment (frame : List UInt8) (frameSize offset : UInt32)
    (ipProto : UInt8) (ipPayloadLength : UInt16) : Option ParsedTcp :=
  if ipProto = ipprotoTcp then
    if frameSize < offset + 20 then none
    else
      let tcpHeaderLen := (readTcpHdr frame offset.toNat).thLen * 4
      if frameSize ≥ offset + ipPayloadLength.toUInt32 then
        some
          { tcpHdr := offset
            payload := offset + tcpHeaderLen.toUInt32
            payloadLength :=
              ipPayloadLength.toUInt32 - tcpHeaderLen.toUInt32 }
      else none
  else none

/-- `PktParseTcpFrame`, called with pointers for the payload and its
length. -/
def pktParseTcpFrame (frame : List UInt8) (frameSize : UInt32) :
    Option ParsedTcp :=
  if frameSize < 14 then none
  else if readUInt16 frame 12 = htons ethernetTypeIpv4 then
    if frameSize < 14 + 20 then none
    else
      parseTcpSegment frame frameSize (14 + 20) (frame.getD (14 + 9) 0)
        (ntohs (readUInt16 frame (14 + 2)) - 20)
  else if readUInt16 frame 12 = htons ethernetTypeIpv6 then
    if frameSize < 14 + 40 then none
    else
      parseTcpSegment frame frameSize (14 + 40) (frame.getD (14 + 6) 0)
        (ntohs (readUInt16 frame (14 + 4)))
  else none

/-! ## Fields -/

variable {frame : List UInt8} {offset : ℕ}

theorem readUInt16_eq {x : UInt16}
    (h : field frame offset 2 = leBytes 2 x.toNat) :
    readUInt16 frame offset = x := by
  have hx := x.toNat_lt
  rw [readUInt16, h, leValue_leBytes (by omega), UInt16.ofNat_toNat]

theorem readUInt32_eq {x : UInt32}
    (h : field frame offset 4 = leBytes 4 x.toNat) :
    readUInt32 frame offset = x := by
  have hx := x.toNat_lt
  rw [readUInt32, h, leValue_leBytes (by omega), UInt32.ofNat_toNat]

section

variable (h : offset + 2 ≤ frame.length)

include h

theorem field_two : ∃ low high, field frame offset 2 = [low, high] := by
  have hlength : (field frame offset 2).length = 2 := by
    rw [field, List.length_take, List.length_drop]
    omega
  exact List.length_eq_two.mp hlength

theorem toNat_ntohs_readUInt16 :
    (ntohs (readUInt16 frame offset)).toNat =
      networkValue (field frame offset 2) := by
  obtain ⟨first, second, hfield⟩ := field_two h
  have hfirst := first.toNat_lt
  have hsecond := second.toNat_lt
  have hread : (readUInt16 frame offset).toNat =
      first.toNat + 256 * second.toNat := by
    rw [readUInt16, hfield]
    refine UInt16.toNat_ofNat_of_lt' ?_
    simp only [leValue, UInt16.size]
    omega
  rw [ntohs, toNat_htons, hread, hfield]
  simp only [networkValue, List.foldl_cons, List.foldl_nil]
  omega

theorem readUInt16_eq_htons (type : UInt16) :
    readUInt16 frame offset = htons type ↔
      networkValue (field frame offset 2) = type.toNat := by
  rw [← toNat_ntohs_readUInt16 h, ← UInt16.toNat_inj, ntohs, toNat_htons,
    toNat_htons]
  have hread := (readUInt16 frame offset).toNat_lt
  have htype := type.toNat_lt
  omega

end

/-! ## What the parser accepts -/

namespace Network

def etherType : Network → ℕ
  | .ipv4 => 0x0800
  | .ipv6 => 0x86dd

def protocolField (network : Network) (frame : List UInt8) : UInt8 :=
  match network with
  | .ipv4 => (ipPacket frame).getD 9 0
  | .ipv6 => (ipPacket frame).getD 6 0

def ipPayloadLength (network : Network) (frame : List UInt8) : ℕ :=
  (network.lengthField frame + 65536 - network.ipLength 0) % 65536

def tcpHeaderLen (network : Network) (frame : List UInt8) : ℕ :=
  4 * thLen (network.segment frame)

def parsed (network : Network) (frame : List UInt8) : ParsedTcp :=
  let offset := 14 + network.headerLength
  { tcpHdr := UInt32.ofNat offset
    payload := UInt32.ofNat (offset + network.tcpHeaderLen frame)
    payloadLength := UInt32.ofNat (network.ipPayloadLength frame) -
      UInt32.ofNat (network.tcpHeaderLen frame) }

/-- What the parser takes for a TCP segment is present as a whole. -/
def PresentsTcp (network : Network) (frame : List UInt8)
    (frameSize : UInt32) : Prop :=
  network.protocolField frame = ipprotoTcp ∧
    14 + network.headerLength + 20 ≤ frameSize.toNat ∧
    14 + network.headerLength + network.ipPayloadLength frame ≤
      frameSize.toNat

/-- The parser takes the frame to be a TCP segment of the network that is
present as a whole. -/
structure Presents (network : Network) (frame : List UInt8)
    (frameSize : UInt32) : Prop where
  type_eq : Pkt.etherType frame = network.etherType
  tcp : network.PresentsTcp frame frameSize

theorem tcpHdr_parsed (network : Network) (frame : List UInt8) :
    (network.parsed frame).tcpHdr.toNat = 14 + network.headerLength := by
  have hheader : network.headerLength ≤ 40 := by cases network <;> decide
  refine UInt32.toNat_ofNat_of_lt' ?_
  simp only [UInt32.size]
  omega

theorem tcpHeaderLen_lt (network : Network) (frame : List UInt8) :
    network.tcpHeaderLen frame < 64 := by
  have hbyte := ((network.segment frame).getD 12 0).toNat_lt
  unfold tcpHeaderLen thLen
  omega

theorem payload_parsed (network : Network) (frame : List UInt8) :
    (network.parsed frame).payload.toNat =
      14 + network.headerLength + network.tcpHeaderLen frame := by
  have hheader : network.headerLength ≤ 40 := by cases network <;> decide
  have hlt := network.tcpHeaderLen_lt frame
  refine UInt32.toNat_ofNat_of_lt' ?_
  simp only [UInt32.size]
  omega

theorem payloadLength_parsed {network : Network} {frame : List UInt8}
    (h : network.tcpHeaderLen frame ≤ network.ipPayloadLength frame) :
    (network.parsed frame).payloadLength.toNat =
      network.ipPayloadLength frame - network.tcpHeaderLen frame := by
  have hlt : network.ipPayloadLength frame < 65536 := Nat.mod_lt _ (by decide)
  simp only [parsed, UInt32.toNat_sub, UInt32.toNat_ofNat']
  omega

end Network

theorem getD_drop (frame : List UInt8) (m n : ℕ) :
    (frame.drop m).getD n 0 = frame.getD (m + n) 0 := by
  simp [List.getD]

theorem thLen_readTcpHdr (network : Network) (frame : List UInt8) :
    (readTcpHdr frame (14 + network.headerLength)).thLen.toNat * 4 =
      network.tcpHeaderLen frame := by
  simp only [readTcpHdr, Network.tcpHeaderLen, Network.segment, ipPacket,
    thLen, List.drop_drop, getD_drop, UInt8.toNat_div, UInt8.reduceToNat]
  omega

variable {ipPayloadLength : UInt16}

theorem parseTcpSegment_eq_some_iff (network : Network)
    {frameSize offset : UInt32}
    (hoffset : offset.toNat = 14 + network.headerLength)
    (hlength : ipPayloadLength.toNat = network.ipPayloadLength frame)
    (parsed : ParsedTcp) :
    parseTcpSegment frame frameSize offset (network.protocolField frame)
        ipPayloadLength = some parsed ↔
      network.PresentsTcp frame frameSize ∧ parsed = network.parsed frame := by
  have hheader : network.headerLength ≤ 40 := by cases network <;> decide
  have hpayload := ipPayloadLength.toNat_lt
  have hthLen : ((readTcpHdr frame offset.toNat).thLen * 4).toNat =
      network.tcpHeaderLen frame := by
    have hlt := network.tcpHeaderLen_lt frame
    have heq := thLen_readTcpHdr network frame
    rw [← hoffset] at heq
    rw [UInt8.toNat_mul]
    exact (congrArg (· % 256) heq).trans (Nat.mod_eq_of_lt (by omega))
  have hparsed : ParsedTcp.mk offset
      (offset + ((readTcpHdr frame offset.toNat).thLen * 4).toUInt32)
      (ipPayloadLength.toUInt32 -
        ((readTcpHdr frame offset.toNat).thLen * 4).toUInt32) =
      network.parsed frame := by
    have htcp : ((readTcpHdr frame offset.toNat).thLen * 4).toUInt32 =
        UInt32.ofNat (network.tcpHeaderLen frame) := by
      rw [← hthLen, UInt32.ofNat_uInt8ToNat]
    have hip : ipPayloadLength.toUInt32 =
        UInt32.ofNat (network.ipPayloadLength frame) := by
      rw [← hlength, UInt32.ofNat_uInt16ToNat]
    rw [htcp, hip, Network.parsed, ← hoffset, UInt32.ofNat_add,
      UInt32.ofNat_toNat]
  have hsize : frameSize < offset + 20 ↔
      ¬ 14 + network.headerLength + 20 ≤ frameSize.toNat := by
    rw [UInt32.lt_iff_toNat_lt, UInt32.toNat_add, hoffset]
    simp only [UInt32.reduceToNat]
    omega
  have hpresent : offset + ipPayloadLength.toUInt32 ≤ frameSize ↔
      14 + network.headerLength + network.ipPayloadLength frame ≤
        frameSize.toNat := by
    rw [UInt32.le_iff_toNat_le, UInt32.toNat_add, UInt16.toNat_toUInt32,
      hoffset, ← hlength]
    omega
  rw [parseTcpSegment, Network.PresentsTcp]
  split
  · next hproto =>
      split
      · next hshort =>
          have hnot := hsize.mp hshort
          simp [hnot]
      · next hlong =>
          have hle := not_not.mp (hsize.not.mp hlong)
          simp only [ge_iff_le, hpresent]
          split
          · next hin =>
              simp only [hproto, hle, hin, true_and, Option.some.injEq,
                hparsed, eq_comm]
          · next hout => simp [hout]
  · next hproto => simp [hproto]

theorem parseIpHeader_eq_some_iff (network : Network)
    {frameSize offset : UInt32}
    (hoffset : offset.toNat = 14 + network.headerLength)
    (hlength : 14 + network.headerLength ≤ frameSize.toNat →
      ipPayloadLength.toNat = network.ipPayloadLength frame)
    (parsed : ParsedTcp) :
    (if frameSize < offset then none
      else parseTcpSegment frame frameSize offset
        (network.protocolField frame) ipPayloadLength) = some parsed ↔
      network.PresentsTcp frame frameSize ∧ parsed = network.parsed frame := by
  by_cases hshort : frameSize < offset
  · rw [if_pos hshort]
    rw [UInt32.lt_iff_toNat_lt, hoffset] at hshort
    constructor
    · intro h
      cases h
    · rintro ⟨⟨-, hheader, -⟩, -⟩
      omega
  · rw [if_neg hshort]
    rw [UInt32.lt_iff_toNat_lt, hoffset] at hshort
    exact parseTcpSegment_eq_some_iff network hoffset
      (hlength (Nat.le_of_not_lt hshort)) parsed

theorem field_ipPacket (frame : List UInt8) (offset width : ℕ) :
    field (ipPacket frame) offset width = field frame (14 + offset) width := by
  rw [field, ipPacket, List.drop_drop, field]

variable {frameSize : UInt32}

theorem pktParseTcpFrame_of_type {network : Network}
    (hsize : frameSize.toNat = frame.length) (hlong : 14 ≤ frame.length)
    (htype : Pkt.etherType frame = network.etherType) (parsed : ParsedTcp) :
    pktParseTcpFrame frame frameSize = some parsed ↔
      network.Presents frame frameSize ∧ parsed = network.parsed frame := by
  have hpresents : network.Presents frame frameSize ↔
      network.PresentsTcp frame frameSize :=
    ⟨Network.Presents.tcp, fun h => ⟨htype, h⟩⟩
  have hfirst : ¬ frameSize < 14 := by
    rw [UInt32.lt_iff_toNat_lt]
    simp only [UInt32.reduceToNat]
    omega
  have hread (type : UInt16) : readUInt16 frame 12 = htons type ↔
      network.etherType = type.toNat := by
    rw [readUInt16_eq_htons (by omega), ← htype]
    rfl
  rw [hpresents, pktParseTcpFrame, if_neg hfirst]
  cases network with
  | ipv4 =>
    rw [if_pos ((hread _).mpr rfl), ← getD_drop]
    refine parseIpHeader_eq_some_iff .ipv4 rfl (fun hle => ?_) parsed
    change 34 ≤ frameSize.toNat at hle
    have hlt := (ntohs (readUInt16 frame (14 + 2))).toNat_lt
    rw [UInt16.toNat_sub]
    rw [toNat_ntohs_readUInt16 (by omega), ← field_ipPacket] at hlt ⊢
    simp only [Network.ipPayloadLength, Network.lengthField,
      ipv4TotalLength, Network.ipLength, UInt16.reduceToNat]
    omega
  | ipv6 =>
    rw [if_neg ((hread _).not.mpr (by decide)), if_pos ((hread _).mpr rfl),
      ← getD_drop]
    refine parseIpHeader_eq_some_iff .ipv6 rfl (fun hle => ?_) parsed
    change 54 ≤ frameSize.toNat at hle
    have hlt := (ntohs (readUInt16 frame (14 + 4))).toNat_lt
    rw [toNat_ntohs_readUInt16 (by omega), ← field_ipPacket] at hlt ⊢
    simp only [Network.ipPayloadLength, Network.lengthField,
      ipv6PayloadLength, Network.ipLength]
    omega

theorem pktParseTcpFrame_eq_some_iff (hsize : frameSize.toNat = frame.length)
    (parsed : ParsedTcp) :
    pktParseTcpFrame frame frameSize = some parsed ↔
      ∃ network : Network, network.Presents frame frameSize ∧
        parsed = network.parsed frame := by
  constructor
  · intro h
    have hlong : 14 ≤ frame.length := by
      by_contra hshort
      have hfirst : frameSize < 14 := by
        rw [UInt32.lt_iff_toNat_lt]
        simp only [UInt32.reduceToNat]
        omega
      rw [pktParseTcpFrame, if_pos hfirst] at h
      cases h
    by_cases htype4 : Pkt.etherType frame = Network.ipv4.etherType
    · exact ⟨_, (pktParseTcpFrame_of_type hsize hlong htype4 parsed).mp h⟩
    · by_cases htype6 : Pkt.etherType frame = Network.ipv6.etherType
      · exact ⟨_, (pktParseTcpFrame_of_type hsize hlong htype6 parsed).mp h⟩
      · have hread (type : UInt16)
            (hne : Pkt.etherType frame ≠ type.toNat) :
            readUInt16 frame 12 ≠ htons type := fun heq =>
          hne ((readUInt16_eq_htons (by omega) type).mp heq)
        rw [pktParseTcpFrame, if_neg (hread ethernetTypeIpv4 htype4),
          if_neg (hread ethernetTypeIpv6 htype6)] at h
        split at h <;> cases h
  · rintro ⟨network, hpresents, rfl⟩
    have hheader := hpresents.tcp.2.1
    exact (pktParseTcpFrame_of_type hsize (by omega) hpresents.type_eq _).mpr
      ⟨hpresents, rfl⟩

/-! ## Frames from the wire -/

/-- The TCP header with its options and the payload lie inside the frame, and
the payload starts where the header ends. -/
structure Inside (frame : List UInt8) (frameSize : UInt32)
    (parsed : ParsedTcp) : Prop where
  header_long : 20 ≤ (readTcpHdr frame parsed.tcpHdr.toNat).thLen.toNat * 4
  header_inside : parsed.tcpHdr.toNat +
    (readTcpHdr frame parsed.tcpHdr.toNat).thLen.toNat * 4 ≤ frameSize.toNat
  payload_start : parsed.payload.toNat = parsed.tcpHdr.toNat +
    (readTcpHdr frame parsed.tcpHdr.toNat).thLen.toNat * 4
  payload_inside : parsed.payload.toNat + parsed.payloadLength.toNat ≤
    frameSize.toNat
  payload_le : parsed.payloadLength.toNat ≤ frameSize.toNat

namespace Network

def Carries (network : Network) (frame : List UInt8) : Prop :=
  Pkt.etherType frame = network.etherType ∧
    network.protocolField frame = ipprotoTcp

/-- The length of the IP header by its own fields. -/
def headerField (network : Network) (frame : List UInt8) : ℕ :=
  match network with
  | .ipv4 => ipv4HeaderLength (ipPacket frame)
  | .ipv6 => 40

/-- The bytes between the fixed part of the IP header and its end. -/
def optionsLength (network : Network) (frame : List UInt8) : ℕ :=
  network.headerField frame - network.headerLength

/-- The length of the TCP header that starts where the IP header ends. -/
def tcpHeaderField (network : Network) (frame : List UInt8) : ℕ :=
  4 * thLen ((ipPacket frame).drop (network.headerField frame))

/-- The length fields of IP cover its header with the options, and the TCP
header behind it is neither too short nor longer than its segment. -/
structure FieldsOrdered (network : Network) (frame : List UInt8) : Prop where
  header_long : network.headerLength ≤ network.headerField frame
  ip_long : network.ipLength (network.optionsLength frame) ≤
    network.lengthField frame
  tcp_long : 20 ≤ network.tcpHeaderField frame
  tcp_fits : network.tcpHeaderField frame ≤ network.lengthField frame -
    network.ipLength (network.optionsLength frame)

/-- The length fields agree with each other and with the bytes present. -/
structure Consistent (network : Network) (frame : List UInt8)
    (frameSize : UInt32) : Prop where
  fields : network.FieldsOrdered frame
  ip_present : 14 + network.headerLength +
    (network.lengthField frame - network.ipLength 0) ≤ frameSize.toNat

/-- The lengths of the headers are ordered, and so is the one of the TCP header
that the parser reads, which lies between 20 and the length that the parser
computes for the IP payload. -/
structure LengthsOrdered (network : Network) (frame : List UInt8) : Prop where
  fields : network.FieldsOrdered frame
  tcp_long : 20 ≤ network.tcpHeaderLen frame
  tcp_fits : network.tcpHeaderLen frame ≤ network.ipPayloadLength frame

variable {network : Network}

theorem lengthField_lt {frame : List UInt8} (h : 34 ≤ frame.length) :
    network.lengthField frame < 65536 := by
  have hfield (offset : ℕ) (hle : offset + 2 ≤ frame.length) :
      networkValue (field frame offset 2) < 65536 := by
    rw [← toNat_ntohs_readUInt16 hle]
    exact (ntohs (readUInt16 frame offset)).toNat_lt
  cases network with
  | ipv4 =>
    rw [lengthField, ipv4TotalLength, field_ipPacket]
    exact hfield _ (by omega)
  | ipv6 =>
    rw [lengthField, ipv6PayloadLength, field_ipPacket]
    exact hfield _ (by omega)

theorem ipPayloadLength_eq {frame : List UInt8} (hlong : 34 ≤ frame.length)
    (h : network.ipLength 0 ≤ network.lengthField frame) :
    network.ipPayloadLength frame =
      network.lengthField frame - network.ipLength 0 := by
  have hlt := network.lengthField_lt hlong
  unfold ipPayloadLength
  omega

theorem etherType_injective {network' : Network}
    (h : network.etherType = network'.etherType) : network = network' := by
  cases network <;> cases network' <;> first | rfl | cases h

theorem Presents.consistent_iff {frame : List UInt8}
    (hsize : frameSize.toNat = frame.length)
    (h : network.Presents frame frameSize) :
    network.Consistent frame frameSize ↔ network.FieldsOrdered frame := by
  obtain ⟨-, hheader, hpayload⟩ := h.tcp
  refine ⟨Consistent.fields, fun hfields => ⟨hfields, ?_⟩⟩
  have hip : network.ipLength 0 ≤ network.lengthField frame := by
    have hlong := hfields.ip_long
    cases network <;> simp only [ipLength] at hlong ⊢ <;> omega
  rwa [ipPayloadLength_eq (by omega) hip] at hpayload

theorem Presents.inside_iff {frame : List UInt8}
    (h : network.Presents frame frameSize) :
    Inside frame frameSize (network.parsed frame) ↔
      20 ≤ network.tcpHeaderLen frame ∧
        network.tcpHeaderLen frame ≤ network.ipPayloadLength frame := by
  have hpayload := h.tcp.2.2
  have hoffset := network.tcpHdr_parsed frame
  have hthLen : (readTcpHdr frame
      (network.parsed frame).tcpHdr.toNat).thLen.toNat * 4 =
      network.tcpHeaderLen frame := by
    rw [hoffset, thLen_readTcpHdr]
  have hstart := network.payload_parsed frame
  constructor
  · intro hinside
    have hlong := hinside.header_long
    have hend := hinside.payload_inside
    have hlt := network.tcpHeaderLen_lt frame
    have hsize := frameSize.toNat_lt
    have hip : network.ipPayloadLength frame < 65536 :=
      Nat.mod_lt _ (by decide)
    rw [hthLen] at hlong
    rw [hstart] at hend
    simp only [parsed, UInt32.toNat_sub, UInt32.toNat_ofNat'] at hend
    exact ⟨hlong, by omega⟩
  · rintro ⟨htcp, hfits⟩
    have hlength := payloadLength_parsed hfits
    refine ⟨?_, ?_, ?_, ?_, ?_⟩
    · rwa [hthLen]
    · rw [hthLen, hoffset]
      omega
    · rw [hthLen, hstart, hoffset]
    · rw [hstart, hlength]
      omega
    · rw [hlength]
      omega

end Network

/-- The parser points inside the frame and rejects inconsistent lengths. -/
def ParsesInside (frame : List UInt8) (frameSize : UInt32) : Prop :=
  (∀ parsed, pktParseTcpFrame frame frameSize = some parsed →
    Inside frame frameSize parsed) ∧
  ∀ network : Network, network.Carries frame →
    ¬ network.Consistent frame frameSize →
    pktParseTcpFrame frame frameSize = none

/-- The parser keeps inside the frame and rejects inconsistent lengths exactly
if no frame is presented to it whose lengths are out of order. -/
theorem parsesInside_iff {frame : List UInt8} {frameSize : UInt32}
    (hsize : frameSize.toNat = frame.length) :
    ParsesInside frame frameSize ↔
      ∀ network : Network, network.Presents frame frameSize →
        network.LengthsOrdered frame := by
  constructor
  · rintro ⟨hinside, hrejects⟩ network hpresents
    have haccepted := (pktParseTcpFrame_eq_some_iff hsize _).mpr
      ⟨network, hpresents, rfl⟩
    obtain ⟨htcp, hfits⟩ :=
      hpresents.inside_iff.mp (hinside _ haccepted)
    refine ⟨(hpresents.consistent_iff hsize).mp ?_, htcp, hfits⟩
    by_contra hinconsistent
    have hnone := hrejects network ⟨hpresents.type_eq, hpresents.tcp.1⟩
      hinconsistent
    rw [haccepted] at hnone
    cases hnone
  · intro hordered
    constructor
    · intro parsed hparsed
      obtain ⟨network, hpresents, rfl⟩ :=
        (pktParseTcpFrame_eq_some_iff hsize parsed).mp hparsed
      have hlengths := hordered network hpresents
      exact hpresents.inside_iff.mpr ⟨hlengths.tcp_long, hlengths.tcp_fits⟩
    · intro network hcarries hinconsistent
      cases hparsed : pktParseTcpFrame frame frameSize with
      | none => rfl
      | some parsed =>
        obtain ⟨network', hpresents, -⟩ :=
          (pktParseTcpFrame_eq_some_iff hsize parsed).mp hparsed
        obtain rfl := Network.etherType_injective
          (hpresents.type_eq.symm.trans hcarries.1)
        exact absurd ((hpresents.consistent_iff hsize).mpr
          (hordered network' hpresents).fields) hinconsistent

/-- A frame of 54 bytes with the given IPv4 header length and total length and
the given data offset of TCP. -/
def segmentFrame (headerLength totalLength thLen : UInt8) : List UInt8 :=
  List.replicate 12 0 ++ [0x08, 0, 0x40 + headerLength, 0, 0, totalLength] ++
    List.replicate 5 0 ++ [6] ++ List.replicate 22 0 ++ [16 * thLen] ++
    List.replicate 7 0

theorem parsesInside_iff_segmentFrame :
    ParsesInside (segmentFrame 5 40 5) 54 := by
  refine (parsesInside_iff rfl).mpr fun network hpresents => ?_
  obtain rfl : network = .ipv4 :=
    Network.etherType_injective (hpresents.type_eq.symm.trans (by decide))
  exact ⟨⟨by decide, by decide, by decide, by decide⟩, by decide, by decide⟩

/-- A data offset of 60 bytes in a segment of 20 bytes: the payload starts 40
bytes behind the frame and has a length of almost 4 GiB.  An IPv4 header of 60
bytes in a packet of 40 is accepted, too. -/
theorem long_header_accepted :
    (pktParseTcpFrame (segmentFrame 5 40 15) 54 =
        some ⟨34, 94, 4294967256⟩ ∧
      (segmentFrame 5 40 15).length = 54 ∧
      ¬ ParsesInside (segmentFrame 5 40 15) 54) ∧
    pktParseTcpFrame (segmentFrame 15 40 5) 54 = some ⟨34, 54, 0⟩ ∧
      ¬ ParsesInside (segmentFrame 15 40 5) 54 := by
  have hparsed : pktParseTcpFrame (segmentFrame 5 40 15) 54 =
      some ⟨34, 94, 4294967256⟩ := by decide
  have hparsed' : pktParseTcpFrame (segmentFrame 15 40 5) 54 =
      some ⟨34, 54, 0⟩ := by decide
  refine ⟨⟨hparsed, rfl, fun h => ?_⟩, hparsed', fun h => ?_⟩
  · exact absurd (h.1 _ hparsed).payload_inside (by decide)
  · have hnone := h.2 .ipv4 ⟨by decide, by decide⟩
      fun hconsistent => absurd hconsistent.fields.ip_long (by decide)
    rw [hparsed'] at hnone
    cases hnone

end WinNetTest.Pkt
