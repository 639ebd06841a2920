import MoonLightBridge.Data.Bytes

/-!
# Frames and their fixed-width header

The wire unit of the protocol crate (`moonlight-bridge-protocol/src/lib.rs`): a
24-byte header followed by an opaque body. Encoding appends to a caller-managed
buffer; decoding validates the header before the body is read.
-/

namespace MoonLightBridge.Protocol

abbrev Bytes := List UInt8

/-- ASCII `MLBR`. -/
def magic : UInt32 := 0x4D4C4252

def version : UInt8 := 2

def headerLen : ℕ := 24

/-- The frame body starts with a bounded metadata block. -/
def flagHasMetadata : UInt16 := 1

def knownFlags : UInt16 := flagHasMetadata

/-- `COMPRESSION_CODEC_ZSTD`, the Zstandard bit of the negotiated codec mask. -/
def compressionCodecZstd : UInt32 := 2

/-- Type discriminator stored in every frame header. -/
inductive FrameKind
  | request
  | response
  | error
  | hello
  | welcome
  | cancel
  | ping
  | pong
  | goodbye
  | health
  | healthStatus
  | event
  | streamItem
  | streamEnd
  | streamCredit
  | goAway
  deriving DecidableEq, Repr

/-- The `repr(u8)` discriminant. -/
def FrameKind.toU8 : FrameKind → UInt8
  | .request => 1
  | .response => 2
  | .error => 3
  | .hello => 16
  | .welcome => 17
  | .cancel => 18
  | .ping => 19
  | .pong => 20
  | .goodbye => 21
  | .health => 22
  | .healthStatus => 23
  | .event => 24
  | .streamItem => 25
  | .streamEnd => 26
  | .streamCredit => 27
  | .goAway => 28

/-- Failures of encoding or decoding protocol primitives. -/
inductive ProtocolError
  | invalidMagic (value : UInt32)
  | unsupportedVersion (value : UInt8)
  | unknownKind (value : UInt8)
  | unsupportedFlags (value : UInt16)
  | bodyTooLarge (value : UInt32)
  | invalidSettingsLength (value : ℕ)
  | invalidSettingsValue
  | invalidTraceContextLength (value : ℕ)
  | invalidTraceSampling (value : UInt8)
  | invalidMetadataLength (announced : UInt32) (available : ℕ)
  | metadataTooLarge (value : UInt32)
  | metadataValueTooLarge (value : UInt32)
  | tooManyMetadataEntries (value : UInt16)
  | invalidMetadataEntryLength
  | duplicateMetadataKey
  | nonCanonicalMetadataOrder
  | invalidUserMetadataKey
  | unknownCriticalMetadataKey (value : UInt16)
  | unknownErrorCode (value : UInt16)
  deriving DecidableEq, Repr

/-- `FrameKind::try_from`. -/
def FrameKind.tryFrom (value : UInt8) : Except ProtocolError FrameKind :=
  match value.toNat with
  | 1 => .ok .request
  | 2 => .ok .response
  | 3 => .ok .error
  | 16 => .ok .hello
  | 17 => .ok .welcome
  | 18 => .ok .cancel
  | 19 => .ok .ping
  | 20 => .ok .pong
  | 21 => .ok .goodbye
  | 22 => .ok .health
  | 23 => .ok .healthStatus
  | 24 => .ok .event
  | 25 => .ok .streamItem
  | 26 => .ok .streamEnd
  | 27 => .ok .streamCredit
  | 28 => .ok .goAway
  | _ => .error (.unknownKind value)

@[simp] theorem FrameKind.tryFrom_toU8 (kind : FrameKind) :
    FrameKind.tryFrom kind.toU8 = .ok kind := by
  cases kind <;> rfl

/-- Transport-level error classification carried by ERROR frames. -/
inductive ErrorCode
  | unknownMethod
  | invalidRequest
  | deadlineExceeded
  | cancelled
  | resourceExhausted
  | internal
  | unauthenticated
  | permissionDenied
  | unavailable
  | compressionFailure
  | replayGap
  | failedPrecondition
  | unsupportedProtocol
  deriving DecidableEq, Repr

/-- The `repr(u16)` discriminant. -/
def ErrorCode.toU16 : ErrorCode → UInt16
  | .unknownMethod => 1
  | .invalidRequest => 2
  | .deadlineExceeded => 3
  | .cancelled => 4
  | .resourceExhausted => 5
  | .internal => 6
  | .unauthenticated => 7
  | .permissionDenied => 8
  | .unavailable => 9
  | .compressionFailure => 10
  | .replayGap => 11
  | .failedPrecondition => 12
  | .unsupportedProtocol => 13

/-- `ErrorCode::try_from`. -/
def ErrorCode.tryFrom (value : UInt16) : Except ProtocolError ErrorCode :=
  match value.toNat with
  | 1 => .ok .unknownMethod
  | 2 => .ok .invalidRequest
  | 3 => .ok .deadlineExceeded
  | 4 => .ok .cancelled
  | 5 => .ok .resourceExhausted
  | 6 => .ok .internal
  | 7 => .ok .unauthenticated
  | 8 => .ok .permissionDenied
  | 9 => .ok .unavailable
  | 10 => .ok .compressionFailure
  | 11 => .ok .replayGap
  | 12 => .ok .failedPrecondition
  | 13 => .ok .unsupportedProtocol
  | _ => .error (.unknownErrorCode value)

@[simp] theorem ErrorCode.tryFrom_toU16 (code : ErrorCode) :
    ErrorCode.tryFrom code.toU16 = .ok code := by
  cases code <;> rfl

/-- The code followed by a UTF-8 diagnostic message. -/
def ErrorCode.encode (code : ErrorCode) (message : String) : Bytes :=
  code.toU16.toBeBytes ++ message.toUTF8.data.toList

/-- One complete protocol frame with an owned opaque body. -/
structure Frame where
  kind : FrameKind
  flags : UInt16
  methodId : UInt32
  requestId : UInt64
  body : Bytes
  deriving DecidableEq, Repr

namespace Frame

/-- A frame with no optional flags. -/
def new (kind : FrameKind) (methodId : UInt32) (requestId : UInt64) (body : Bytes) : Frame :=
  { kind, flags := 0, methodId, requestId, body }

def withFlags (frame : Frame) (flags : UInt16) : Frame := { frame with flags }

/-- The header `encodeInto` writes for a body of `bodyLen` bytes. -/
def headerBytes (frame : Frame) (bodyLen : UInt32) : Bytes :=
  magic.toBeBytes ++ [version] ++ [frame.kind.toU8] ++ frame.flags.toBeBytes ++
    bodyLen.toBeBytes ++ frame.methodId.toBeBytes ++ frame.requestId.toBeBytes

/-- Append the encoded frame to `output`; nothing is appended on failure. -/
def encodeInto (frame : Frame) (output : Bytes) : Except ProtocolError Bytes :=
  if frame.flags &&& ~~~knownFlags ≠ 0 then .error (.unsupportedFlags frame.flags)
  -- `u32::try_from(self.body.len())`
  else if frame.body.length < 2 ^ 32 then
    .ok (output ++ frame.headerBytes (UInt32.ofNat frame.body.length) ++ frame.body)
  else .error (.bodyTooLarge 0xFFFFFFFF)

def encode (frame : Frame) : Except ProtocolError Bytes := frame.encodeInto []

/-- Every flag of the frame is understood by this protocol version. -/
def HasKnownFlags (frame : Frame) : Prop := frame.flags &&& ~~~knownFlags = 0

instance (frame : Frame) : Decidable frame.HasKnownFlags := inferInstanceAs (Decidable (_ = _))

@[simp] theorem length_headerBytes (frame : Frame) (bodyLen : UInt32) :
    (frame.headerBytes bodyLen).length = headerLen := by
  simp [headerBytes, headerLen]

/-- The bytes an encodable frame occupies on the wire. -/
def wire (frame : Frame) : Bytes :=
  frame.headerBytes (UInt32.ofNat frame.body.length) ++ frame.body

@[simp] theorem length_wire (frame : Frame) :
    frame.wire.length = headerLen + frame.body.length := by
  simp [wire]

theorem encodeInto_of_hasKnownFlags {frame : Frame} (hflags : frame.HasKnownFlags)
    (hbody : frame.body.length < 2 ^ 32) (output : Bytes) :
    frame.encodeInto output = .ok (output ++ frame.wire) := by
  have hknown : ¬ frame.flags &&& ~~~knownFlags ≠ 0 := not_not.mpr hflags
  unfold encodeInto
  rw [if_neg hknown, if_pos hbody, wire, List.append_assoc]

/-- The frame is one `encodeInto` accepts. -/
def Encodable (frame : Frame) : Prop :=
  frame.HasKnownFlags ∧ frame.body.length < 2 ^ 32

/-- The encodings of frames, one after the other. -/
def encodeAll (frames : List Frame) : Except ProtocolError Bytes :=
  frames.foldlM (fun output frame => frame.encodeInto output) []

theorem foldlM_encodeInto {frames : List Frame} (h : ∀ frame ∈ frames, frame.Encodable)
    (output : Bytes) :
    frames.foldlM (fun output frame => frame.encodeInto output) output =
      .ok (output ++ frames.flatMap wire) := by
  induction frames generalizing output with
  | nil => simp [pure, Except.pure]
  | cons frame frames ih =>
    obtain ⟨hframe, hframes⟩ := List.forall_mem_cons.mp h
    rw [List.foldlM_cons, encodeInto_of_hasKnownFlags hframe.1 hframe.2]
    change frames.foldlM _ (output ++ frame.wire) = _
    rw [ih hframes, List.flatMap_cons, List.append_assoc]

theorem encodeAll_eq {frames : List Frame} (h : ∀ frame ∈ frames, frame.Encodable) :
    encodeAll frames = .ok (frames.flatMap wire) := by
  rw [encodeAll, foldlM_encodeInto h, List.nil_append]

end Frame

/-! ### Header validation -/

/-- A buffer of exactly one header: `[u8; HEADER_LEN]`. -/
abbrev Header := { bytes : Bytes // bytes.length = headerLen }

/-- Validated header fields, independent of the frame body. -/
structure DecodedHeader where
  kind : FrameKind
  flags : UInt16
  bodyLen : UInt32
  methodId : UInt32
  requestId : UInt64
  deriving DecidableEq, Repr

/-- `Frame::decode_header`. -/
def decodeHeader (header : Header) (maxBodyLen : UInt32) : Except ProtocolError DecodedHeader :=
  let receivedMagic := UInt32.fromBeBytes (slice header.1 0 4)
  if receivedMagic ≠ magic then .error (.invalidMagic receivedMagic)
  else
    -- a header has 24 bytes, so the defaults of `getD` are never read
    let receivedVersion := header.1.getD 4 0
    if receivedVersion ≠ version then .error (.unsupportedVersion receivedVersion)
    else do
      let kind ← FrameKind.tryFrom (header.1.getD 5 0)
      let flags := UInt16.fromBeBytes (slice header.1 6 8)
      if flags &&& ~~~knownFlags ≠ 0 then throw (.unsupportedFlags flags)
      let bodyLen := UInt32.fromBeBytes (slice header.1 8 12)
      if maxBodyLen < bodyLen then throw (.bodyTooLarge bodyLen)
      return {
        kind, flags, bodyLen
        methodId := UInt32.fromBeBytes (slice header.1 12 16)
        requestId := UInt64.fromBeBytes (slice header.1 16 24) }

/-- The header of an encoded frame decodes to the frame's own fields. -/
theorem decodeHeader_headerBytes (frame : Frame) (bodyLen maxBodyLen : UInt32)
    (hflags : frame.HasKnownFlags) (hlimit : ¬ maxBodyLen < bodyLen) :
    decodeHeader ⟨frame.headerBytes bodyLen, frame.length_headerBytes bodyLen⟩ maxBodyLen =
      .ok { kind := frame.kind, flags := frame.flags, bodyLen,
            methodId := frame.methodId, requestId := frame.requestId } := by
  -- The header is a concatenation of fixed-width fields; every slice picks one of them.
  have hmagic : slice (frame.headerBytes bodyLen) 0 4 = magic.toBeBytes := by
    simp [slice, Frame.headerBytes]
  have hversion : (frame.headerBytes bodyLen)[4]?.getD 0 = version := by
    simp [Frame.headerBytes]
  have hkind : (frame.headerBytes bodyLen)[5]?.getD 0 = frame.kind.toU8 := by
    simp [Frame.headerBytes]
  have hflagBytes : slice (frame.headerBytes bodyLen) 6 8 = frame.flags.toBeBytes := by
    rw [Frame.headerBytes]
    simp only [List.append_assoc]
    rw [← List.append_assoc, ← List.append_assoc]
    exact slice_append_append (by simp) (by simp)
  have hlen : slice (frame.headerBytes bodyLen) 8 12 = bodyLen.toBeBytes := by
    rw [Frame.headerBytes, List.append_assoc (_ ++ _) _ frame.requestId.toBeBytes,
      List.append_assoc]
    exact slice_append_append (by simp) (by simp)
  have hmethod : slice (frame.headerBytes bodyLen) 12 16 = frame.methodId.toBeBytes := by
    rw [Frame.headerBytes, List.append_assoc]
    exact slice_append_append (by simp) (by simp)
  have hrequest : slice (frame.headerBytes bodyLen) 16 24 = frame.requestId.toBeBytes := by
    rw [Frame.headerBytes, ← List.append_nil frame.requestId.toBeBytes]
    exact slice_append_append (by simp) (by simp)
  have hknown : frame.flags &&& ~~~knownFlags = 0 := hflags
  simp [decodeHeader, hmagic, hversion, hkind, hflagBytes, hlen, hmethod, hrequest, hknown,
    hlimit, pure, Except.pure, bind, Except.bind]

/-! ### Reading frames off a byte stream -/

/-- Failures of `read_frame`: the stream ended early, or the header was rejected. -/
inductive ReadError
  | unexpectedEof
  | invalidData (error : ProtocolError)
  deriving DecidableEq, Repr

/-- `read_frame`: one header, then exactly the announced number of body bytes.
Also returns the unread rest of the stream. -/
def readFrame (maxBodyLen : UInt32) (input : Bytes) : Except ReadError (Frame × Bytes) :=
  if hheader : headerLen ≤ input.length then
    match decodeHeader ⟨input.take headerLen, by simp [hheader]⟩ maxBodyLen with
    | .error error => .error (.invalidData error)
    | .ok decoded =>
      let rest := input.drop headerLen
      -- the second `read_exact`, of the announced length
      if decoded.bodyLen.toNat ≤ rest.length then
        .ok ((Frame.new decoded.kind decoded.methodId decoded.requestId
          (rest.take decoded.bodyLen.toNat)).withFlags decoded.flags,
          rest.drop decoded.bodyLen.toNat)
      else .error .unexpectedEof
  else .error .unexpectedEof

/-- Reading an encoded frame returns the frame and the bytes after it. -/
theorem readFrame_wire (frame : Frame) (rest : Bytes) (maxBodyLen : UInt32)
    (hflags : frame.HasKnownFlags) (hbody : frame.body.length ≤ maxBodyLen.toNat) :
    readFrame maxBodyLen (frame.wire ++ rest) = .ok (frame, rest) := by
  have hlt : frame.body.length < 2 ^ 32 := lt_of_le_of_lt hbody maxBodyLen.toNat_lt
  have hlen : (UInt32.ofNat frame.body.length).toNat = frame.body.length :=
    UInt32.toNat_ofNat_of_lt' hlt
  have hlimit : ¬ maxBodyLen < UInt32.ofNat frame.body.length := by
    rw [UInt32.lt_iff_toNat_lt, hlen]
    omega
  have hheader : headerLen ≤ (frame.wire ++ rest).length := by
    rw [List.length_append, frame.length_wire]
    omega
  have hhead : (frame.wire ++ rest).take headerLen =
      frame.headerBytes (UInt32.ofNat frame.body.length) := by
    rw [Frame.wire, List.append_assoc]
    exact List.take_left' (frame.length_headerBytes _)
  have hsuffix : (frame.wire ++ rest).drop headerLen = frame.body ++ rest := by
    rw [Frame.wire, List.append_assoc]
    exact List.drop_left' (frame.length_headerBytes _)
  unfold readFrame
  rw [dif_pos hheader]
  simp only [hhead, hsuffix, decodeHeader_headerBytes _ _ _ hflags hlimit, hlen,
    List.length_append, Nat.le_add_right, if_true, List.take_left', List.drop_left']
  rfl

/-- Encodings of frames are a prefix code, decoded by `readFrame` with the
largest body limit. -/
theorem framePrefixCode : PrefixCode Frame.Encodable Frame.wire := by
  have hdecode : ∀ frame rest, Frame.Encodable frame →
      (readFrame 0xFFFFFFFF (frame.wire ++ rest)).toOption = some (frame, rest) := by
    intro frame rest hframe
    have hbody : frame.body.length ≤ (0xFFFFFFFF : UInt32).toNat := by
      have := hframe.2
      change _ ≤ 4294967295
      omega
    rw [readFrame_wire frame rest _ hframe.1 hbody]
    rfl
  -- `read_frame` is the decoder, and a codeword has at least its header
  refine PrefixCode.of_decoder (fun input => (readFrame 0xFFFFFFFF input).toOption) hdecode
    fun frame => ?_
  apply List.ne_nil_of_length_pos
  rw [frame.length_wire, headerLen]
  omega

/-! ### Trace contexts -/

def traceContextLen : ℕ := 25

/-- The trace a request belongs to: identifiers of sixteen and of eight bytes. -/
structure TraceContext where
  traceId : Bytes
  parentSpanId : Bytes
  sampled : Bool
  length_traceId : traceId.length = 16
  length_parentSpanId : parentSpanId.length = 8
  deriving DecidableEq

namespace TraceContext

/-- Append the fixed-width representation. -/
def encodeInto (context : TraceContext) (output : Bytes) : Bytes :=
  output ++ context.traceId ++ context.parentSpanId ++ [if context.sampled then 1 else 0]

/-- Decode a trace context from the first bytes of the input. -/
def decode (input : Bytes) : Except ProtocolError TraceContext :=
  if h : input.length < traceContextLen then .error (.invalidTraceContextLength input.length)
  else
    have hlength : 24 ≤ input.length := Nat.le_of_succ_le (not_lt.mp h)
    let withSampling (sampled : Bool) : TraceContext := {
      traceId := slice input 0 16
      parentSpanId := slice input 16 24
      sampled
      length_traceId := length_slice (by omega)
      length_parentSpanId := length_slice hlength }
    let sampling := input.getD 24 0
    if sampling = 0 then .ok (withSampling false)
    else if sampling = 1 then .ok (withSampling true)
    else .error (.invalidTraceSampling sampling)

theorem length_encodeInto_nil (context : TraceContext) :
    (context.encodeInto []).length = traceContextLen := by
  simp [encodeInto, context.length_traceId, context.length_parentSpanId, traceContextLen]

/-- An encoded trace context decodes to itself. -/
theorem decode_encodeInto_nil (context : TraceContext) :
    decode (context.encodeInto []) = .ok context := by
  have hlength : ¬ (context.encodeInto []).length < traceContextLen := by
    rw [length_encodeInto_nil]
    exact lt_irrefl _
  obtain ⟨traceId, parentSpanId, sampled, htrace, hparent⟩ := context
  have htraceSlice : slice (traceId ++ (parentSpanId ++ [if sampled then (1 : UInt8) else 0]))
      0 16 = traceId := List.take_left' htrace
  have hparentSlice : slice (traceId ++ (parentSpanId ++ [if sampled then (1 : UInt8) else 0]))
      16 24 = parentSpanId := slice_append_append htrace (by omega)
  have hsampling : (traceId ++ (parentSpanId ++ [if sampled then (1 : UInt8) else 0]))[24]?.getD 0 =
      if sampled then 1 else 0 := by
    rw [List.getElem?_append_right (by omega), List.getElem?_append_right (by omega)]
    simp [htrace, hparent]
  unfold decode
  rw [dif_neg hlength]
  simp only [encodeInto, List.nil_append, List.append_assoc, htraceSlice, hparentSlice,
    List.getD_eq_getElem?_getD, hsampling]
  cases sampled <;> rfl

end TraceContext

end MoonLightBridge.Protocol
