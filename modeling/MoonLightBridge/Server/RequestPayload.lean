import MoonLightBridge.Protocol.Compression
import MoonLightBridge.Protocol.MetadataRoundTrip

/-!
# What the server takes out of a request

`request_payload` validates the metadata of a REQUEST, reads the deadline, the
trace context and the compression entries off it, shifts the payload to the front
of the body and decompresses it.
-/

namespace MoonLightBridge.Server

open Protocol

/-- The code and the message of the ERROR a request is answered with. -/
abbrev Rejection := ErrorCode × String

/-- `RequestCompression` -/
structure RequestCompression where
  codecs : UInt32
  policy : CompressionPolicy
  budget : DecodedByteBudget

/-- `ParsedRequest`, without its time measurements. The deadline is in
milliseconds; the permit is the number of decoded bytes it holds. -/
structure ParsedRequest where
  deadline : Option ℕ
  traceContext : Option TraceContext
  metadata : Option Metadata
  payload : Bytes
  decodedPermit : Option ℕ

/-- The local variables that the loop over the runtime entries assigns. -/
structure RequestValues where
  deadlineValue : Option Bytes
  traceValue : Option Bytes
  codecValue : Option Bytes
  originalValue : Option Bytes

namespace RequestValues

def empty : RequestValues := ⟨none, none, none, none⟩

/-- One iteration of the loop. -/
def record (values : RequestValues) : ReservedMetadataKey × Bytes → RequestValues
  | (.deadlineMillis, value) => { values with deadlineValue := some value }
  | (.traceContext, value) => { values with traceValue := some value }
  | (.compressionCodec, value) => { values with codecValue := some value }
  | (.originalLength, value) => { values with originalValue := some value }
  | _ => values

def ofEntries (entries : List (ReservedMetadataKey × Bytes)) : RequestValues :=
  entries.foldl record empty

/-- The variable a key is assigned to. -/
def get (values : RequestValues) : ReservedMetadataKey → Option Bytes
  | .deadlineMillis => values.deadlineValue
  | .traceContext => values.traceValue
  | .compressionCodec => values.codecValue
  | .originalLength => values.originalValue
  | _ => none

/-- The keys that have a variable. -/
def keys : List ReservedMetadataKey :=
  [.deadlineMillis, .traceContext, .compressionCodec, .originalLength]

variable {key : ReservedMetadataKey}

theorem get_record (hkey : key ∈ keys) (values : RequestValues)
    (entry : ReservedMetadataKey × Bytes) :
    (values.record entry).get key = if entry.1 = key then some entry.2 else values.get key := by
  obtain ⟨key', value⟩ := entry
  simp only [keys, List.mem_cons, List.not_mem_nil, or_false] at hkey
  rcases hkey with rfl | rfl | rfl | rfl <;> cases key' <;> rfl

variable {entries : List (ReservedMetadataKey × Bytes)}

theorem get_foldl_of_notMem (hkey : key ∈ keys) (h : key ∉ entries.map Prod.fst)
    (values : RequestValues) : (entries.foldl record values).get key = values.get key := by
  induction entries generalizing values with
  | nil => rfl
  | cons entry entries ih =>
    rw [List.map_cons, List.mem_cons, not_or] at h
    rw [List.foldl_cons, ih h.2, get_record hkey, if_neg (Ne.symm h.1)]

/-- A value that occurs once is the one that is assigned. -/
theorem get_ofEntries (hkey : key ∈ keys) {value : Bytes} (hnodup : (entries.map Prod.fst).Nodup)
    (hmem : (key, value) ∈ entries) : (ofEntries entries).get key = some value := by
  -- nothing after the entry overwrites it
  obtain ⟨before, after, rfl⟩ := List.append_of_mem hmem
  rw [List.map_append, List.map_cons] at hnodup
  have hafter : key ∉ after.map Prod.fst :=
    (List.nodup_cons.mp (List.nodup_append.mp hnodup).2.1).1
  rw [ofEntries, List.foldl_append, List.foldl_cons, get_foldl_of_notMem hkey hafter,
    get_record hkey, if_pos rfl]

theorem get_ofEntries_of_notMem (hkey : key ∈ keys) (h : key ∉ entries.map Prod.fst) :
    (ofEntries entries).get key = none := by
  rw [ofEntries, get_foldl_of_notMem hkey h]
  cases key <;> rfl

/-- `deadline` -/
def deadline (values : RequestValues) : Except Rejection (Option ℕ) :=
  match values.deadlineValue with
  | none => .ok none
  | some value =>
    if value.length ≠ 4 then .error (.invalidRequest, "deadline metadata must contain four bytes")
    else
      let millis := UInt32.fromBeBytes value
      if millis = 0 then .error (.invalidRequest, "deadline must be greater than zero")
      else .ok (some millis.toNat)

/-- `trace_context` -/
def traceContext (values : RequestValues) : Except Rejection (Option TraceContext) :=
  match values.traceValue with
  | none => .ok none
  | some value =>
    if value.length ≠ traceContextLen then
      .error (.invalidRequest, "trace-context metadata must contain 25 bytes")
    else
      match TraceContext.decode value with
      | .error _ => .error (.invalidRequest, "invalid trace context")
      | .ok context => .ok (some context)

/-- `compression_metadata` -/
def compression (values : RequestValues) :
    Except Rejection (Option (CompressionCodec × UInt32)) :=
  match values.codecValue, values.originalValue with
  | none, none => .ok none
  | some [codec], some original =>
    match CompressionCodec.tryFrom codec with
    | .error _ => .error (.compressionFailure, "unsupported compression codec")
    | .ok codec =>
      if original.length ≠ 4 then
        .error (.compressionFailure, "invalid original payload length")
      else .ok (some (codec, UInt32.fromBeBytes original))
  | _, _ => .error (.compressionFailure, "incomplete compression metadata")

end RequestValues

/-- What the first half of `request_payload` returns. -/
structure RequestPrefix where
  deadline : Option ℕ
  traceContext : Option TraceContext
  compression : Option (CompressionCodec × UInt32)
  metadata : Option Metadata
  payloadOffset : ℕ

/-- The metadata in front of the payload. -/
def requestPrefix (frame : Frame) (maxMetadataLen : UInt32) (retainMetadata : Bool) :
    Except Rejection RequestPrefix :=
  if frame.flags &&& flagHasMetadata ≠ 0 then
    match Metadata.validate frame.body
        { MetadataLimits.default with maxBytes := maxMetadataLen } with
    | .error _ => .error (.invalidRequest, "invalid request metadata")
    | .ok (validated, payload) => do
      let values := RequestValues.ofEntries validated.reservedEntries
      let deadline ← values.deadline
      let traceContext ← values.traceContext
      let compression ← values.compression
      let metadata ←
        if retainMetadata then
          match validated.intoMetadata with
          | .error _ => .error (.invalidRequest, "invalid request metadata")
          | .ok metadata => .ok (some metadata)
        else .ok none
      return ⟨deadline, traceContext, compression, metadata, frame.body.length - payload.length⟩
  else .ok ⟨none, none, none, if retainMetadata then some Metadata.new else none, 0⟩

/-- The payload behind the metadata, decompressed if it was announced so. -/
def RequestCompression.decode (zstd : Zstd) (compression : RequestCompression)
    (announced : Option (CompressionCodec × UInt32)) (encodedPayload : Bytes) :
    Except Rejection (Bytes × Option ℕ) :=
  match announced with
  | none => .ok (encodedPayload, none)
  | some (codec, originalLength) =>
    if codec ≠ .zstd ∨ compression.codecs &&& compressionCodecZstd = 0 then
      .error (.compressionFailure, "compression codec was not negotiated")
    else
      match compression.policy.decodeWithReservation zstd codec encodedPayload originalLength
          compression.budget with
      | .error _ => .error (.compressionFailure, "compressed payload rejected")
      | .ok decoded => .ok decoded

/-- `request_payload` -/
def requestPayload (zstd : Zstd) (frame : Frame) (maxMetadataLen : UInt32)
    (compression : RequestCompression) (retainMetadata : Bool) :
    Except Rejection ParsedRequest := do
  let parsed ← requestPrefix frame maxMetadataLen retainMetadata
  -- `copy_within` and `truncate` leave what follows the metadata
  let encodedPayload := frame.body.drop parsed.payloadOffset
  let (payload, decodedPermit) ← compression.decode zstd parsed.compression encodedPayload
  return ⟨parsed.deadline, parsed.traceContext, parsed.metadata, payload, decodedPermit⟩

section Block

variable {zstd : Zstd} {frame : Frame} {m : Metadata} {hlen : m.blockLen < 2 ^ 32}
  {encodedPayload : Bytes} {maxMetadataLen : UInt32} {compression : RequestCompression}

/-- The prefix of a request whose metadata is a block the crate encodes. -/
theorem requestPrefix_block {deadline : Option ℕ} {traceContext : Option TraceContext}
    {announced : Option (CompressionCodec × UInt32)}
    (hflags : frame.flags &&& flagHasMetadata ≠ 0)
    (hbody : frame.body = m.block hlen ++ encodedPayload)
    (hadmitted : m.Admitted { MetadataLimits.default with maxBytes := maxMetadataLen })
    (hdeadline : (RequestValues.ofEntries
      (m.entries.toList.filterMap Metadata.reservedPair)).deadline = .ok deadline)
    (htrace : (RequestValues.ofEntries
      (m.entries.toList.filterMap Metadata.reservedPair)).traceContext = .ok traceContext)
    (hannounced : (RequestValues.ofEntries
      (m.entries.toList.filterMap Metadata.reservedPair)).compression = .ok announced)
    (retainMetadata : Bool) :
    requestPrefix frame maxMetadataLen retainMetadata =
      .ok ⟨deadline, traceContext, announced, if retainMetadata then some m else none,
        (m.block hlen).length⟩ := by
  obtain ⟨validated, hvalidate, hreserved, hcopy⟩ :=
    Metadata.validate_block hlen hadmitted encodedPayload
  have hoffset : frame.body.length - encodedPayload.length = (m.block hlen).length := by
    rw [hbody, List.length_append, Nat.add_sub_cancel]
  unfold requestPrefix
  rw [if_pos hflags]
  rw [← hbody] at hvalidate
  simp only [hvalidate, hreserved, hdeadline, htrace, hannounced, hcopy, hoffset, bind, Except.bind,
    pure, Except.pure]
  cases retainMetadata <;> rfl

/-- A request whose metadata is a block the crate encodes, and whose payload can
be decoded, is parsed to the values of the block and that payload. -/
theorem requestPayload_block {deadline : Option ℕ} {traceContext : Option TraceContext}
    {announced : Option (CompressionCodec × UInt32)} {payload : Bytes} {permit : Option ℕ}
    (hflags : frame.flags &&& flagHasMetadata ≠ 0)
    (hbody : frame.body = m.block hlen ++ encodedPayload)
    (hadmitted : m.Admitted { MetadataLimits.default with maxBytes := maxMetadataLen })
    (hdeadline : (RequestValues.ofEntries
      (m.entries.toList.filterMap Metadata.reservedPair)).deadline = .ok deadline)
    (htrace : (RequestValues.ofEntries
      (m.entries.toList.filterMap Metadata.reservedPair)).traceContext = .ok traceContext)
    (hannounced : (RequestValues.ofEntries
      (m.entries.toList.filterMap Metadata.reservedPair)).compression = .ok announced)
    (hpayload : compression.decode zstd announced encodedPayload = .ok (payload, permit))
    (retainMetadata : Bool) :
    requestPayload zstd frame maxMetadataLen compression retainMetadata =
      .ok ⟨deadline, traceContext, if retainMetadata then some m else none, payload, permit⟩ := by
  have hprefixed := requestPrefix_block hflags hbody hadmitted hdeadline htrace hannounced
    retainMetadata
  have hdrop : frame.body.drop (m.block hlen).length = encodedPayload := by
    rw [hbody, List.drop_left]
  unfold requestPayload
  simp only [hprefixed, hdrop, hpayload, bind, Except.bind, pure, Except.pure]

end Block

end MoonLightBridge.Server
