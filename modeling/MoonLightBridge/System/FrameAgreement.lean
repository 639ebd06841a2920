import MoonLightBridge.Client.Frames
import MoonLightBridge.Protocol.Framing

/-!
# The two readers of frame headers

The protocol document asks every peer to reject invalid magic, unsupported
versions, unknown frame kinds, reserved flags and oversized payloads. The Rust
reader checks all five, the Java reader all but the kind. On headers of a known
kind the two agree; a header of an unknown kind is accepted by the client alone.
-/

namespace MoonLightBridge.Client

open Protocol

/-- The fields of a client header are those of a decoded one, each number with
its bits unchanged. -/
structure FrameHeader.Agrees (header : FrameHeader) (decoded : DecodedHeader) : Prop where
  kind : header.kind = decoded.kind.toU8
  flags : header.flags = decoded.flags
  bodyLength : header.bodyLength = decoded.bodyLen.toInt32
  methodId : header.methodId = decoded.methodId.toInt32
  requestId : header.requestId = decoded.requestId.toInt64

variable {bodyLimit : Int32}

theorem FrameHeader.isValid_iff {header : FrameHeader} :
    header.isValid bodyLimit = true ↔
      header.magic = frameMagic ∧ header.version = frameVersion ∧
        header.flags &&& ~~~frameHasMetadata = 0 ∧
        0 ≤ header.bodyLength ∧ header.bodyLength ≤ bodyLimit := by
  simp [isValid, Int32.not_lt, and_assoc]

/-- Where the server decodes a header, the client reads the same fields. -/
theorem agrees_of_decodeHeader {header : Header} {maxBodyLen : UInt32} {decoded : DecodedHeader}
    (h : decodeHeader header maxBodyLen = .ok decoded) : (readHeader header).Agrees decoded := by
  obtain ⟨⟨_, _, hkind, _, _⟩, hflags, hbodyLen, hmethodId, hrequestId⟩ :=
    decodeHeader_eq_ok_iff_fields.mp h
  exact ⟨FrameKind.tryFrom_eq_ok_iff.mp hkind, hflags, congrArg _ hbodyLen,
    congrArg _ hmethodId, congrArg _ hrequestId⟩

/-- The server's check is the client's check and the table of frame kinds. -/
theorem decodeHeader_isOk_iff_isValid {header : Header} (hlimit : 1 ≤ bodyLimit) :
    (∃ decoded, decodeHeader header bodyLimit.toUInt32 = .ok decoded) ↔
      (readHeader header).isValid bodyLimit = true ∧
        ∃ kind, FrameKind.tryFrom (header.1.getD 5 0) = .ok kind := by
  have hpos : (0 : Int32) ≤ bodyLimit := Int32.le_trans (by decide) hlimit
  have hmagic : UInt32.fromBeBytes (slice header.1 0 4) = Protocol.magic ↔
      (readHeader header).magic = frameMagic :=
    ⟨fun h => congrArg UInt32.toInt32 h, fun h => congrArg Int32.toUInt32 h⟩
  have hlength : 0 ≤ (readHeader header).bodyLength ∧ (readHeader header).bodyLength ≤ bodyLimit ↔
      UInt32.fromBeBytes (slice header.1 8 12) ≤ bodyLimit.toUInt32 :=
    UInt32.toInt32_range_iff hpos
  rw [FrameHeader.isValid_iff, hlength, ← hmagic]
  constructor
  · rintro ⟨decoded, h⟩
    obtain ⟨⟨hmagic, hversion, hkind, hknown, hbody⟩, hflags, hbodyLen, -⟩ :=
      decodeHeader_eq_ok_iff_fields.mp h
    rw [← hflags] at hknown
    rw [← hbodyLen] at hbody
    exact ⟨⟨hmagic, hversion, hknown, hbody⟩, decoded.kind, hkind⟩
  · rintro ⟨⟨hmagic, hversion, hknown, hbody⟩, kind, hkind⟩
    exact ⟨⟨kind, _, _, _, _⟩, decodeHeader_eq_ok_iff_fields.mpr
      ⟨⟨hmagic, hversion, hkind, hknown, hbody⟩, rfl, rfl, rfl, rfl⟩⟩

/-- The header of a PING with request id 7. -/
def pingHeader : Header :=
  ⟨[0x4D, 0x4C, 0x42, 0x52, 2, 19, 0, 0, 0, 0, 0, 0, 0, 0, 0, 0, 0, 0, 0, 0, 0, 0, 0, 7], rfl⟩

/-- A header that is well formed but for its kind byte, 0. -/
def unknownKindHeader : Header :=
  ⟨[0x4D, 0x4C, 0x42, 0x52, 2, 0, 0, 0, 0, 0, 0, 0, 0, 0, 0, 0, 0, 0, 0, 0, 0, 0, 0, 7], rfl⟩

/-- A frame as the client holds it. -/
def WireFrame.ofFrame (frame : Frame) : WireFrame :=
  ⟨frame.kind.toU8, frame.flags, frame.methodId.toInt32, frame.requestId.toInt64, frame.body⟩

/-- Whatever the server would read as a frame of a known kind, the client reads
as the same frame. -/
theorem readFrame_of_readFrame (hlimit : 1 ≤ bodyLimit) {input rest : Bytes} {frame : Frame}
    (h : Protocol.readFrame bodyLimit.toUInt32 input = .ok (frame, rest)) :
    readFrame bodyLimit input = .ok (WireFrame.ofFrame frame, rest) := by
  unfold Protocol.readFrame at h
  split at h
  swap; · exact absurd h (by simp)
  rename_i hheader
  split at h
  · exact absurd h (by simp)
  rename_i decoded hdecoded
  dsimp only at h
  split_ifs at h with hbody
  obtain ⟨rfl, rfl⟩ := Prod.mk.inj (Except.ok.inj h)
  -- the announced length is within the limit, hence not negative for the client either
  obtain ⟨hvalid, -⟩ := (decodeHeader_isOk_iff_isValid hlimit).mp ⟨decoded, hdecoded⟩
  obtain ⟨hkind, hflags, hlength, hmethodId, hrequestId⟩ := agrees_of_decodeHeader hdecoded
  obtain ⟨-, -, -, hnonneg, -⟩ := FrameHeader.isValid_iff.mp hvalid
  rw [hlength] at hnonneg
  have htake : ((input.drop headerLen).take decoded.bodyLen.toNat).length =
      decoded.bodyLen.toNat := List.length_take_of_le hbody
  unfold readFrame
  rw [dif_pos hheader]
  simp only [hvalid, if_true, hkind, hflags, hlength, hmethodId, hrequestId,
    UInt32.toNat_toInt_toInt32 hnonneg, htake, ne_eq, not_true, if_false]
  rfl

/-- The client reads a frame encoded by the server as that frame. -/
theorem readFrame_wire {frame : Frame} (rest : Bytes) (hlimit : 1 ≤ bodyLimit)
    (hflags : frame.HasKnownFlags) (hbody : frame.body.length ≤ bodyLimit.toUInt32.toNat) :
    readFrame bodyLimit (frame.wire ++ rest) = .ok (WireFrame.ofFrame frame, rest) :=
  readFrame_of_readFrame hlimit (Protocol.readFrame_wire frame rest _ hflags hbody)

end MoonLightBridge.Client
