import WinNetTest.Pkt.Wire

/-!
# QUIC packets

`PktBuildQuicPacket` writes a header of QUIC version 1 and copies the payload
behind it.  A receiver decodes a packet by the version-independent properties
of QUIC: the first bit tells a long header from a short one, a long header has
a version of 32 bits in network order and connection ids with their lengths in
front, and the length of the connection id in a short header is known from
elsewhere.
-/

namespace WinNetTest.Pkt

open WinNetTest.Support

/-! ## The builders -/

/-- `RtlCopyMemory` of the payload, if there is one. -/
def copyPayload (buffer : Memory) (cursor : ℕ) (payload : Option Memory)
    (payloadLength : UInt16) : Memory :=
  match payload with
  | some payload => buffer.write cursor (payload.read 0 payloadLength.toNat)
  | none => buffer

/-- `PktBuildQuicV1PacketLongHeader`: the return value, the new value of
`*BufferSize`, and the buffer. -/
def pktBuildQuicV1PacketLongHeader (buffer : Memory) (bufferSize : UInt32)
    (typeAndSpecificBits : UInt8)
    (destConnId : Memory) (destConnIdLength : UInt8)
    (srcConnId : Memory) (srcConnIdLength : UInt8)
    (payload : Option Memory) (payloadLength : UInt16) :
    Bool × UInt32 × Memory :=
  let version : UInt32 := 1
  let totalLength := 1 + 4 + 1 + destConnIdLength.toUInt32 + 1 +
    srcConnIdLength.toUInt32 + payloadLength.toUInt32
  if bufferSize < totalLength then (false, bufferSize, buffer)
  else
    let prelude : UInt8 := 0xC0 ||| (0x3F &&& typeAndSpecificBits)
    let buffer := buffer.write 0 [prelude]
    let cursor := 1
    let buffer := buffer.writeInt cursor 4 version.toNat
    let cursor := cursor + 4
    let buffer := buffer.write cursor [destConnIdLength]
    let cursor := cursor + 1
    let buffer :=
      buffer.write cursor (destConnId.read 0 destConnIdLength.toNat)
    let cursor := cursor + destConnIdLength.toNat
    let buffer := buffer.write cursor [srcConnIdLength]
    let cursor := cursor + 1
    let buffer := buffer.write cursor (srcConnId.read 0 srcConnIdLength.toNat)
    let cursor := cursor + srcConnIdLength.toNat
    (true, totalLength, copyPayload buffer cursor payload payloadLength)

def pktBuildQuicPacketShortHeader (buffer : Memory) (bufferSize : UInt32)
    (typeAndSpecificBits : UInt8)
    (destConnId : Memory) (destConnIdLength : UInt8)
    (payload : Option Memory) (payloadLength : UInt16) :
    Bool × UInt32 × Memory :=
  let totalLength :=
    1 + destConnIdLength.toUInt32 + payloadLength.toUInt32
  if bufferSize < totalLength then (false, bufferSize, buffer)
  else
    let prelude : UInt8 := 0x40 ||| (0x3F &&& typeAndSpecificBits)
    let buffer := buffer.write 0 [prelude]
    let cursor := 1
    let buffer :=
      buffer.write cursor (destConnId.read 0 destConnIdLength.toNat)
    let cursor := cursor + destConnIdLength.toNat
    (true, totalLength, copyPayload buffer cursor payload payloadLength)

structure QuicRequest where
  buffer : Memory
  bufferSize : UInt32
  payload : Option Memory
  payloadLength : UInt16
  typeAndSpecificBits : UInt8
  version : UInt32
  destConnId : Memory
  destConnIdLength : UInt8
  srcConnId : Memory
  srcConnIdLength : UInt8
  useShortHeader : Bool

def pktBuildQuicPacket (r : QuicRequest) : Bool × UInt32 × Memory :=
  if r.version ≠ 1 then (false, r.bufferSize, r.buffer)
  else if r.useShortHeader then
    pktBuildQuicPacketShortHeader r.buffer r.bufferSize r.typeAndSpecificBits
      r.destConnId r.destConnIdLength r.payload r.payloadLength
  else
    pktBuildQuicV1PacketLongHeader r.buffer r.bufferSize r.typeAndSpecificBits
      r.destConnId r.destConnIdLength r.srcConnId r.srcConnIdLength r.payload
      r.payloadLength

/-! ## Decoding -/

/-- What the version-independent properties of QUIC and the fixed bit of its
first version tell about a packet. -/
structure QuicPacket where
  longForm : Bool
  fixedBit : Bool
  version : Option ℕ
  destConnId : List UInt8
  srcConnId : Option (List UInt8)
  payload : List UInt8
  deriving DecidableEq

def takeConnId : List UInt8 → Option (List UInt8 × List UInt8)
  | [] => none
  | length :: rest =>
    if rest.length < length.toNat then none
    else some (rest.take length.toNat, rest.drop length.toNat)

/-- Decode a packet.  The length of the connection id of a short header is
known to the receiver. -/
def decodeQuic (knownLength : ℕ) : List UInt8 → Option QuicPacket
  | [] => none
  | first :: rest =>
    let fixedBit := first.toNat / 64 % 2 = 1
    if first.toNat / 128 = 1 then
      match takeConnId (rest.drop 4) with
      | none => none
      | some (destConnId, rest') =>
        match takeConnId rest' with
        | none => none
        | some (srcConnId, payload) =>
          some ⟨true, fixedBit, some (networkValue (rest.take 4)),
            destConnId, some srcConnId, payload⟩
    else if rest.length < knownLength then none
    else
      some ⟨false, fixedBit, none, rest.take knownLength, none,
        rest.drop knownLength⟩

namespace QuicRequest

def destBytes (r : QuicRequest) : List UInt8 :=
  r.destConnId.read 0 r.destConnIdLength.toNat

def srcBytes (r : QuicRequest) : List UInt8 :=
  r.srcConnId.read 0 r.srcConnIdLength.toNat

def header (r : QuicRequest) : List UInt8 :=
  if r.useShortHeader then
    (0x40 ||| (0x3F &&& r.typeAndSpecificBits)) :: r.destBytes
  else
    (0xC0 ||| (0x3F &&& r.typeAndSpecificBits)) :: (leBytes 4 1 ++
      (r.destConnIdLength :: r.destBytes ++ (r.srcConnIdLength :: r.srcBytes)))

/-- The payload.  For a null pointer it is what the buffer holds there. -/
def payloadBytes (r : QuicRequest) : List UInt8 :=
  match r.payload with
  | some payload => payload.read 0 r.payloadLength.toNat
  | none => r.buffer.read r.header.length r.payloadLength.toNat

def size (r : QuicRequest) : ℕ := r.header.length + r.payloadLength.toNat

def asked (r : QuicRequest) : QuicPacket where
  longForm := !r.useShortHeader
  fixedBit := true
  version := if r.useShortHeader then none else some 1
  destConnId := r.destBytes
  srcConnId := if r.useShortHeader then none else some r.srcBytes
  payload := r.payloadBytes

/-- A packet that is built decodes to what was asked for and nothing behind it
is written; another version or a buffer that is too small is refused and the
buffer left alone. -/
structure Respected (r : QuicRequest) : Prop where
  decodes : (pktBuildQuicPacket r).1 = true →
    decodeQuic r.destConnIdLength.toNat
      ((pktBuildQuicPacket r).2.2.read 0
        (pktBuildQuicPacket r).2.1.toNat) = some r.asked
  bounded : (pktBuildQuicPacket r).1 = true →
    ∀ a, (pktBuildQuicPacket r).2.1.toNat ≤ a →
      (pktBuildQuicPacket r).2.2 a = r.buffer a
  refused : r.version ≠ 1 ∨ r.bufferSize.toNat < r.size →
    pktBuildQuicPacket r = (false, r.bufferSize, r.buffer)

/-! ## What the builder writes -/

variable (r : QuicRequest)

@[simp] theorem length_destBytes :
    r.destBytes.length = r.destConnIdLength.toNat :=
  Memory.length_read ..

@[simp] theorem length_srcBytes : r.srcBytes.length = r.srcConnIdLength.toNat :=
  Memory.length_read ..

theorem length_header : r.header.length =
      if r.useShortHeader then 1 + r.destConnIdLength.toNat
      else 7 + r.destConnIdLength.toNat + r.srcConnIdLength.toNat := by
  unfold header
  split
  · simp [Nat.add_comm]
  · simp
    omega

def written (r : QuicRequest) : Memory :=
  copyPayload (r.buffer.write 0 r.header) r.header.length r.payload
    r.payloadLength

theorem write_cursor (buffer : Memory) {cursor : ℕ} {packet : List UInt8}
    (h : packet.length = cursor) (bytes : List UInt8) :
    (buffer.write 0 packet).write cursor bytes =
      buffer.write 0 (packet ++ bytes) := by
  have happend := Memory.write_append buffer 0 packet bytes
  rwa [Nat.zero_add, h] at happend

theorem size_lt : r.size < 2 ^ 32 := by
  have hdest := r.destConnIdLength.toNat_lt
  have hsrc := r.srcConnIdLength.toNat_lt
  have hpayload := r.payloadLength.toNat_lt
  rw [size, length_header]
  split <;> omega

theorem longHeader_eq (hlong : r.useShortHeader = false) :
    pktBuildQuicV1PacketLongHeader r.buffer r.bufferSize r.typeAndSpecificBits
        r.destConnId r.destConnIdLength r.srcConnId r.srcConnIdLength
        r.payload r.payloadLength =
      if r.bufferSize.toNat < r.size then (false, r.bufferSize, r.buffer)
      else (true, UInt32.ofNat r.size, r.written) := by
  have hlength : r.header.length = 1 + 4 + 1 + r.destConnIdLength.toNat + 1 +
      r.srcConnIdLength.toNat := by
    rw [length_header, hlong, if_neg Bool.false_ne_true]
    omega
  have hsize := r.size_lt
  have htotal : 1 + 4 + 1 + r.destConnIdLength.toUInt32 + 1 +
      r.srcConnIdLength.toUInt32 + r.payloadLength.toUInt32 =
        UInt32.ofNat r.size := by
    rw [size, hlength] at hsize ⊢
    rw [← UInt32.toNat_inj]
    simp only [UInt32.toNat_add, UInt8.toNat_toUInt32, UInt16.toNat_toUInt32,
      UInt32.toNat_ofNat', UInt32.reduceToNat]
    omega
  have hheader : r.header =
      [0xC0 ||| (0x3F &&& r.typeAndSpecificBits)] ++ leBytes 4 1 ++
        [r.destConnIdLength] ++ r.destBytes ++ [r.srcConnIdLength] ++
        r.srcBytes := by
    rw [header, hlong]
    simp
  simp only [pktBuildQuicV1PacketLongHeader, htotal, UInt32.lt_iff_toNat_lt,
    UInt32.toNat_ofNat_of_lt' hsize]
  split
  · rfl
  · have hdest : ([0xC0 ||| (0x3F &&& r.typeAndSpecificBits)] ++
        leBytes 4 1 ++ [r.destConnIdLength] ++ r.destBytes).length =
        1 + 4 + 1 + r.destConnIdLength.toNat := by
      simp
      omega
    have hsrc : ([0xC0 ||| (0x3F &&& r.typeAndSpecificBits)] ++
        leBytes 4 1 ++ [r.destConnIdLength] ++ r.destBytes ++
        [r.srcConnIdLength]).length =
        1 + 4 + 1 + r.destConnIdLength.toNat + 1 := by
      rw [List.length_append, hdest]
      rfl
    rw [written, hlength, hheader, ← write_cursor _ hsrc,
      ← write_cursor _ hdest, ← write_cursor _ (show _ = 1 + 4 + 1 from rfl),
      ← write_cursor _ (show _ = 1 + 4 from rfl),
      ← write_cursor _ (show _ = 1 from rfl)]
    rfl

theorem shortHeader_eq (hshort : r.useShortHeader = true) :
    pktBuildQuicPacketShortHeader r.buffer r.bufferSize r.typeAndSpecificBits
        r.destConnId r.destConnIdLength r.payload r.payloadLength =
      if r.bufferSize.toNat < r.size then (false, r.bufferSize, r.buffer)
      else (true, UInt32.ofNat r.size, r.written) := by
  have hlength : r.header.length = 1 + r.destConnIdLength.toNat := by
    rw [length_header, hshort, if_pos rfl]
  have hsize := r.size_lt
  have htotal : 1 + r.destConnIdLength.toUInt32 + r.payloadLength.toUInt32 =
      UInt32.ofNat r.size := by
    rw [size, hlength] at hsize ⊢
    rw [← UInt32.toNat_inj]
    simp only [UInt32.toNat_add, UInt8.toNat_toUInt32, UInt16.toNat_toUInt32,
      UInt32.toNat_ofNat', UInt32.reduceToNat]
    omega
  have hheader : r.header =
      [0x40 ||| (0x3F &&& r.typeAndSpecificBits)] ++ r.destBytes := by
    rw [header, hshort]
    rfl
  simp only [pktBuildQuicPacketShortHeader, htotal, UInt32.lt_iff_toNat_lt,
    UInt32.toNat_ofNat_of_lt' hsize]
  split
  · rfl
  · rw [written, hlength, hheader, ← write_cursor _ rfl]
    rfl

theorem pktBuildQuicPacket_eq : pktBuildQuicPacket r =
      if r.version ≠ 1 ∨ r.bufferSize.toNat < r.size then
        (false, r.bufferSize, r.buffer)
      else (true, UInt32.ofNat r.size, r.written) := by
  rw [pktBuildQuicPacket]
  by_cases hversion : r.version = 1
  · have hcond : (r.version ≠ 1 ∨ r.bufferSize.toNat < r.size) =
        (r.bufferSize.toNat < r.size) := by
      simp [hversion]
    rw [if_neg (not_not.mpr hversion)]
    simp only [hcond]
    cases hform : r.useShortHeader with
    | true => exact r.shortHeader_eq hform
    | false => exact r.longHeader_eq hform
  · rw [if_pos hversion, if_pos (Or.inl hversion)]

theorem read_written :
    r.written.read 0 r.size = r.header ++ r.payloadBytes := by
  unfold written copyPayload payloadBytes size
  cases r.payload with
  | none =>
    rw [Memory.read_write_beyond, Nat.zero_add]
  | some payload =>
    have happend := Memory.write_append r.buffer 0 r.header
      (payload.read 0 r.payloadLength.toNat)
    have hread := Memory.read_write_same r.buffer 0
      (r.header ++ payload.read 0 r.payloadLength.toNat)
    rw [Nat.zero_add] at happend
    rw [List.length_append, Memory.length_read] at hread
    simp only [happend, hread]

theorem written_beyond {a : ℕ} (ha : r.size ≤ a) :
    r.written a = r.buffer a := by
  unfold size at ha
  have hheader : (r.buffer.write 0 r.header) a = r.buffer a :=
    Memory.write_apply_of_ge _ (by omega)
  unfold written copyPayload
  cases r.payload with
  | none => exact hheader
  | some payload =>
    rw [← hheader]
    exact Memory.write_apply_of_ge _ (by rwa [Memory.length_read])

/-! ## What it decodes to -/

theorem takeConnId_cons {length : UInt8} {id : List UInt8}
    (h : id.length = length.toNat) (rest : List UInt8) :
    takeConnId (length :: (id ++ rest)) = some (id, rest) := by
  rw [takeConnId, if_neg (by rw [List.length_append]; omega), ← h,
    List.take_left, List.drop_left]

theorem toNat_prelude {high : UInt8} (hhigh : high.toNat % 64 = 0)
    (bits : UInt8) :
    (high ||| (0x3F &&& bits)).toNat = high.toNat + bits.toNat % 64 := by
  have hlow : (0x3F &&& bits : UInt8).toNat = bits.toNat % 64 := by
    rw [UInt8.toNat_and, Nat.and_comm]
    exact Nat.and_two_pow_sub_one_eq_mod bits.toNat 6
  have hsplit : high.toNat = 2 ^ 6 * (high.toNat / 64) := by omega
  rw [UInt8.toNat_or, hlow, hsplit,
    Nat.two_pow_add_eq_or_of_lt (Nat.mod_lt _ (by decide))]

theorem decode_packet :
    decodeQuic r.destConnIdLength.toNat (r.header ++ r.payloadBytes) =
      some { r.asked with
        version := if r.useShortHeader then none else some 16777216 } := by
  have hbits : r.typeAndSpecificBits.toNat % 64 < 64 :=
    Nat.mod_lt _ (by decide)
  cases hform : r.useShortHeader with
  | true =>
    have hprelude : (0x40 ||| (0x3F &&& r.typeAndSpecificBits)).toNat =
        64 + r.typeAndSpecificBits.toNat % 64 :=
      toNat_prelude rfl r.typeAndSpecificBits
    have hlength : (r.destBytes ++ r.payloadBytes).length ≥
        r.destConnIdLength.toNat := by
      rw [List.length_append, length_destBytes]
      omega
    rw [header, hform, if_pos rfl, List.cons_append, decodeQuic, hprelude,
      if_neg (by omega), if_neg (by omega), ← r.length_destBytes,
      List.take_left, List.drop_left]
    simp [asked, hform]
  | false =>
    have hprelude : (0xC0 ||| (0x3F &&& r.typeAndSpecificBits)).toNat =
        192 + r.typeAndSpecificBits.toNat % 64 :=
      toNat_prelude rfl r.typeAndSpecificBits
    have hfixed : (192 + r.typeAndSpecificBits.toNat % 64) / 64 % 2 = 1 := by
      omega
    have hdrop : (leBytes 4 1 ++ (r.destConnIdLength :: r.destBytes ++
        r.srcConnIdLength :: r.srcBytes) ++ r.payloadBytes).drop 4 =
        r.destConnIdLength :: (r.destBytes ++
          (r.srcConnIdLength :: (r.srcBytes ++ r.payloadBytes))) := by
      simp [leBytes]
    rw [header, hform, if_neg Bool.false_ne_true, List.cons_append,
      decodeQuic, hprelude, if_pos (by omega), hdrop,
      takeConnId_cons r.length_destBytes]
    simp only [takeConnId_cons r.length_srcBytes]
    simp [asked, hform, hfixed, leBytes, networkValue]

/-- The builder does what it is asked for exactly if it uses a short header or
refuses: the version of a long header is in the wrong byte order. -/
theorem respected_iff (r : QuicRequest) :
    r.Respected ↔ r.useShortHeader = true ∨ r.version ≠ 1 ∨
      r.bufferSize.toNat < r.size := by
  have hbuild := r.pktBuildQuicPacket_eq
  by_cases hrefused : r.version ≠ 1 ∨ r.bufferSize.toNat < r.size
  · rw [if_pos hrefused] at hbuild
    refine iff_of_true ⟨?_, ?_, fun _ => hbuild⟩ (Or.inr hrefused)
    · rw [hbuild]
      simp
    · rw [hbuild]
      simp
  · rw [if_neg hrefused] at hbuild
    have hsize : (UInt32.ofNat r.size).toNat = r.size :=
      UInt32.toNat_ofNat_of_lt' r.size_lt
    constructor
    · intro h
      have hdecoded := h.decodes (by rw [hbuild])
      rw [hbuild, hsize, read_written, decode_packet] at hdecoded
      refine Or.inl ?_
      by_contra hlong
      have hversion := congrArg QuicPacket.version (Option.some.inj hdecoded)
      simp [asked, hlong] at hversion
    · intro h
      have hshort : r.useShortHeader = true := h.resolve_right hrefused
      refine ⟨fun _ => ?_, fun _ a ha => ?_, fun h => absurd h hrefused⟩
      · rw [hbuild, hsize, read_written, decode_packet]
        simp [asked, hshort]
      · rw [hbuild, hsize] at ha
        rw [hbuild]
        exact r.written_beyond ha

def longHeaderRequest : QuicRequest where
  buffer := fun _ => 0xFF
  bufferSize := 100
  payload := some fun _ => 7
  payloadLength := 1
  typeAndSpecificBits := 0
  version := 1
  destConnId := fun i => UInt8.ofNat (i + 1)
  destConnIdLength := 2
  srcConnId := fun i => UInt8.ofNat (i + 3)
  srcConnIdLength := 2
  useShortHeader := false

/-- The packet decodes to version `0x01000000`. -/
theorem longHeaderRequest_version :
    (pktBuildQuicPacket longHeaderRequest).1 = true ∧
      decodeQuic 2 ((pktBuildQuicPacket longHeaderRequest).2.2.read 0
        (pktBuildQuicPacket longHeaderRequest).2.1.toNat) =
        some ⟨true, true, some 0x01000000, [1, 2], some [3, 4], [7]⟩ ∧
      ¬longHeaderRequest.Respected := by
  refine ⟨by decide, by decide, fun h => ?_⟩
  exact absurd (h.decodes (by decide)) (by decide)

end QuicRequest

end WinNetTest.Pkt
