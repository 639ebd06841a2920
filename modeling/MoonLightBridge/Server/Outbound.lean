import MoonLightBridge.Protocol.Compression
import MoonLightBridge.Protocol.MetadataRoundTrip
import MoonLightBridge.Protocol.Settings

/-!
# What the server does to a frame before writing it

`fit_outbound_frame` replaces a body that is too large by an ERROR, and
`compress_outbound_frame` compresses the payload behind the metadata it carries.
The writer applies fit, compress and fit again, to whatever frame it holds.
-/

namespace MoonLightBridge.Server

open Protocol

/-- An ERROR frame in answer to `request`. -/
def errorFrame (request : Frame) (code : ErrorCode) (message : String) : Frame :=
  Frame.new .error request.methodId request.requestId (code.encode message)

/-- Replace a frame whose body exceeds the limit by an ERROR. -/
def fitOutboundFrame (frame : Frame) (maxBodyLen : UInt32) : Frame :=
  if frame.body.length ≤ maxBodyLen.toNat then frame
  else { frame with
    kind := .error
    flags := 0
    -- a limit below two bytes does not even leave room for the error code
    body := if 2 ≤ maxBodyLen.toNat then ErrorCode.resourceExhausted.encode "" else [] }

/-- The kinds that carry application payload to the client. -/
def carriesPayload : FrameKind → Bool
  | .response | .event | .streamItem => true
  | _ => false

/-- The metadata in front of a frame's payload, and the payload. -/
def outboundMetadata (frame : Frame) (maxMetadataLen : UInt32) : Option (Metadata × Bytes) :=
  if frame.flags &&& flagHasMetadata ≠ 0 then
    match Metadata.decode frame.body { MetadataLimits.default with maxBytes := maxMetadataLen } with
    | .ok result => some result
    | .error _ => none
  else some (Metadata.new, frame.body)

/-- The ERROR a frame is replaced by when it cannot be compressed. -/
def compressionFailure (frame : Frame) (message : String) : Frame :=
  { frame with kind := .error, flags := 0, body := ErrorCode.compressionFailure.encode message }

/-- Add the two entries that tell the peer how to decompress. -/
def announceCompression (metadata : Metadata) (compressed : CompressedPayload) :
    Except ProtocolError Metadata :=
  if compressed.codec = .zstd then
    match metadata.insertReserved .compressionCodec [compressed.codec.toU8] with
    | .error error => .error error
    | .ok metadata => metadata.insertReserved .originalLength compressed.originalLen.toBeBytes
  else .ok metadata

/-- Put metadata and payload back together. -/
def reassemble (frame : Frame) (maxMetadataLen : UInt32) (metadata : Metadata) (bytes : Bytes) :
    Frame :=
  if metadata.isEmpty then
    { frame with flags := frame.flags &&& ~~~flagHasMetadata, body := bytes }
  else
    match metadata.encodePrefix [] with
    | (_, .error _) => compressionFailure frame "response metadata too large"
    | (body, .ok ()) =>
      -- the limit is on the entries, without their length prefix
      if maxMetadataLen.toNat < body.length - 4 then
        compressionFailure frame "response metadata too large"
      else { frame with flags := frame.flags ||| flagHasMetadata, body := body ++ bytes }

/-- Compress the payload of a frame that carries one, if the peers negotiated
Zstandard. -/
def compressOutboundFrame (zstd : Zstd) (frame : Frame) (compressionCodecs : UInt32)
    (policy : CompressionPolicy) (maxMetadataLen : UInt32) : Frame :=
  if compressionCodecs &&& compressionCodecZstd = 0 ∨ carriesPayload frame.kind = false then frame
  else
    match outboundMetadata frame maxMetadataLen with
    -- metadata that does not decode: the frame goes out as it is
    | none => frame
    | some (metadata, payload) =>
      match policy.encode zstd payload .zstd with
      | .error _ => compressionFailure frame "response compression failed"
      | .ok compressed =>
        match announceCompression metadata compressed with
        | .error _ => compressionFailure frame "response metadata conflict"
        | .ok metadata => reassemble frame maxMetadataLen metadata compressed.bytes

/-- The policy of a connection: the runtime's defaults up to the negotiated
decoded limit. -/
def connectionCompressionPolicy (negotiated : Negotiated) : CompressionPolicy :=
  { CompressionPolicy.default with maxDecodedBodyLen := negotiated.maxDecodedBodyLen }

/-- `compress_outbound_frame` with the arguments of a connection. -/
def compressFor (zstd : Zstd) (negotiated : Negotiated) (frame : Frame) : Frame :=
  compressOutboundFrame zstd frame negotiated.compressionCodecs
    (connectionCompressionPolicy negotiated) negotiated.maxMetadataLen

/-- What the writer makes of a frame it received from the queue. -/
def outbound (zstd : Zstd) (negotiated : Negotiated) (frame : Frame) : Frame :=
  fitOutboundFrame
    (compressFor zstd negotiated (fitOutboundFrame frame negotiated.maxDecodedBodyLen))
    negotiated.maxBodyLen

/-- Zstandard was negotiated and the frame is of a kind that is compressed. -/
def Eligible (negotiated : Negotiated) (frame : Frame) : Prop :=
  negotiated.compressionCodecs &&& compressionCodecZstd ≠ 0 ∧ carriesPayload frame.kind = true

/-- A frame whose payload, as it stands, the connection's policy would compress
or fail to compress. -/
def Recompressible (zstd : Zstd) (negotiated : Negotiated) (frame : Frame) : Prop :=
  Eligible negotiated frame ∧
    ∃ metadata payload,
      outboundMetadata frame negotiated.maxMetadataLen = some (metadata, payload) ∧
      ¬ (connectionCompressionPolicy negotiated).Keeps zstd payload

/-! ### Fitting -/

theorem fitOutboundFrame_of_le {frame : Frame} {limit : UInt32}
    (h : frame.body.length ≤ limit.toNat) : fitOutboundFrame frame limit = frame :=
  if_pos h

theorem kind_fitOutboundFrame_of_lt {frame : Frame} {limit : UInt32}
    (h : limit.toNat < frame.body.length) : (fitOutboundFrame frame limit).kind = .error := by
  rw [fitOutboundFrame, if_neg (not_le.mpr h)]

theorem length_fitOutboundFrame_le (frame : Frame) (limit : UInt32) :
    (fitOutboundFrame frame limit).body.length ≤ limit.toNat := by
  unfold fitOutboundFrame
  split_ifs with hfits htwo
  · exact hfits
  · exact htwo
  · exact Nat.zero_le _

theorem kind_fitOutboundFrame_of_error {frame : Frame} {limit : UInt32}
    (h : frame.kind = .error) : (fitOutboundFrame frame limit).kind = .error := by
  unfold fitOutboundFrame
  split_ifs
  · exact h
  all_goals rfl

/-- Fitting never lengthens a body. -/
theorem length_fitOutboundFrame_le_length (frame : Frame) (limit : UInt32) :
    (fitOutboundFrame frame limit).body.length ≤ frame.body.length := by
  unfold fitOutboundFrame
  split_ifs with hfits htwo
  · exact le_rfl
  · have : (ErrorCode.resourceExhausted.encode "").length = 2 := by decide
    simp only [this]
    omega
  · exact Nat.zero_le _

/-! ### Reassembling -/

section Reassemble

variable {frame : Frame} {limit : UInt32} {metadata : Metadata} {bytes : Bytes}

theorem reassemble_new :
    reassemble frame limit Metadata.new bytes =
      { frame with flags := frame.flags &&& ~~~flagHasMetadata, body := bytes } :=
  if_pos rfl

theorem reassemble_of_le (hne : metadata ≠ Metadata.new) (hlen : metadata.blockLen < 2 ^ 32)
    (hlimit : metadata.blockLen ≤ limit.toNat) :
    reassemble frame limit metadata bytes =
      { frame with
        flags := frame.flags ||| flagHasMetadata
        body := metadata.block hlen ++ bytes } := by
  have hempty : ¬ metadata.isEmpty = true := mt Metadata.isEmpty_iff.mp hne
  have hlength := metadata.length_block hlen
  rw [reassemble, if_neg hempty, Metadata.encodePrefix_eq_ok hlen, List.nil_append]
  simp only
  rw [if_neg (by omega)]

theorem reassemble_of_lt (hne : metadata ≠ Metadata.new)
    (hlimit : limit.toNat < metadata.blockLen) :
    reassemble frame limit metadata bytes =
      compressionFailure frame "response metadata too large" := by
  have hempty : ¬ metadata.isEmpty = true := mt Metadata.isEmpty_iff.mp hne
  rw [reassemble, if_neg hempty]
  by_cases hlen : metadata.blockLen < 2 ^ 32
  · have hlength := metadata.length_block hlen
    rw [Metadata.encodePrefix_eq_ok hlen, List.nil_append]
    simp only
    rw [if_pos (by omega)]
  · obtain ⟨error, herror⟩ := Metadata.encodePrefix_eq_error (not_lt.mp hlen)
    rw [herror]

theorem blockLen_le_of_reassemble_ne (hne : metadata ≠ Metadata.new)
    (h : reassemble frame limit metadata bytes ≠
      compressionFailure frame "response metadata too large") :
    metadata.blockLen ≤ limit.toNat := by
  by_contra hlt
  exact h (reassemble_of_lt hne (not_le.mp hlt))

variable
  (h : reassemble frame limit metadata bytes ≠
    compressionFailure frame "response metadata too large")

include h

/-- Reading the parts of a reassembled frame back. The decoder's other limits
may refuse metadata that the encoder wrote. -/
theorem outboundMetadata_reassemble :
    outboundMetadata (reassemble frame limit metadata bytes) limit = some (metadata, bytes) ∨
      (outboundMetadata (reassemble frame limit metadata bytes) limit = none) := by
  by_cases hnew : metadata = Metadata.new
  · -- without metadata the flag is cleared, and the body is the payload
    subst hnew
    left
    rw [reassemble_new, outboundMetadata, if_neg]
    simp [UInt16.and_assoc]
  · have hlimit := blockLen_le_of_reassemble_ne hnew h
    have hlen : metadata.blockLen < 2 ^ 32 := lt_of_le_of_lt hlimit limit.toNat_lt
    -- with metadata the flag is set, and the decoder meets what the encoder wrote
    have hflag : (frame.flags ||| flagHasMetadata) &&& flagHasMetadata ≠ 0 := by
      rw [UInt16.or_and_distrib, ne_eq, UInt16.or_eq_zero_iff, UInt16.and_self]
      exact fun h => absurd h.2 (by decide)
    rw [reassemble_of_le hnew hlen hlimit, outboundMetadata, if_pos hflag]
    cases hdecode : Metadata.decode (metadata.block hlen ++ bytes)
        { MetadataLimits.default with maxBytes := limit } with
    | error error => exact Or.inr rfl
    | ok result =>
      rw [((Metadata.decode_block_eq_ok_iff hlen _ bytes result).mp hdecode).2]
      exact Or.inl rfl

theorem kind_reassemble : (reassemble frame limit metadata bytes).kind = frame.kind := by
  by_cases hnew : metadata = Metadata.new
  · rw [hnew, reassemble_new]
  · have hlimit := blockLen_le_of_reassemble_ne hnew h
    rw [reassemble_of_le hnew (lt_of_le_of_lt hlimit limit.toNat_lt) hlimit]

theorem reassemble_reassemble :
    reassemble (reassemble frame limit metadata bytes) limit metadata bytes =
      reassemble frame limit metadata bytes := by
  by_cases hnew : metadata = Metadata.new
  · subst hnew
    simp only [reassemble_new, UInt16.and_assoc, UInt16.and_self]
  · have hlimit := blockLen_le_of_reassemble_ne hnew h
    have hlen : metadata.blockLen < 2 ^ 32 := lt_of_le_of_lt hlimit limit.toNat_lt
    simp only [reassemble_of_le hnew hlen hlimit, UInt16.or_assoc, UInt16.or_self]

end Reassemble

/-! ### Compressing -/

section Compress

variable {zstd : Zstd} {negotiated : Negotiated} {frame : Frame} {metadata : Metadata}
  {payload : Bytes}

theorem compressFor_of_not_eligible (h : ¬ Eligible negotiated frame) :
    compressFor zstd negotiated frame = frame := by
  refine if_pos ?_
  rw [Eligible, not_and_or, not_not, Bool.not_eq_true] at h
  exact h

theorem compressFor_of_eligible (h : Eligible negotiated frame) :
    compressFor zstd negotiated frame =
      match outboundMetadata frame negotiated.maxMetadataLen with
      | none => frame
      | some (metadata, payload) =>
        match (connectionCompressionPolicy negotiated).encode zstd payload .zstd with
        | .error _ => compressionFailure frame "response compression failed"
        | .ok compressed =>
          match announceCompression metadata compressed with
          | .error _ => compressionFailure frame "response metadata conflict"
          | .ok metadata =>
            reassemble frame negotiated.maxMetadataLen metadata compressed.bytes := by
  refine if_neg ?_
  rw [not_or, Bool.not_eq_false]
  exact h

theorem compressFor_of_kind_error (h : frame.kind = .error) :
    compressFor zstd negotiated frame = frame ∧ ¬ Recompressible zstd negotiated frame := by
  have hnot : ¬ Eligible negotiated frame := by
    rintro ⟨-, hkind⟩
    rw [h] at hkind
    exact absurd hkind (by decide)
  exact ⟨compressFor_of_not_eligible hnot, fun hre => hnot hre.1⟩

variable {compressed : CompressedPayload}

theorem announceCompression_of_none (h : compressed.codec = .none) :
    announceCompression metadata compressed = .ok metadata := by
  rw [announceCompression, if_neg (by rw [h]; decide)]

variable {metadata' : Metadata}

/-- Announced compression is recorded under the codec's key, in nineteen bytes. -/
theorem announceCompression_eq_ok (hcodec : compressed.codec = .zstd)
    (h : announceCompression metadata compressed = .ok metadata') :
    .reserved .compressionCodec ∈ metadata'.entries.keys ∧
      metadata'.blockLen = 19 + metadata.blockLen := by
  rw [announceCompression, if_pos hcodec] at h
  split at h
  · cases h
  · rename_i inner hinner
    refine ⟨?_, ?_⟩
    · exact (Metadata.mem_keys_of_insert h).mpr
        (Or.inr ((Metadata.mem_keys_of_insert hinner).mpr (Or.inl rfl)))
    · rw [Metadata.blockLen_of_insert h, Metadata.blockLen_of_insert hinner]
      -- two headers of seven bytes, one byte of codec and four of length
      simp only [Metadata.entryLen, Metadata.keyName, entryHeaderLen, List.length_nil,
        List.length_singleton, UInt32.length_toBeBytes]
      omega

/-- Metadata that announces a codec already refuses to announce another. -/
theorem announceCompression_of_mem (hcodec : compressed.codec = .zstd)
    (hmem : .reserved .compressionCodec ∈ metadata.entries.keys) :
    ∃ error, announceCompression metadata compressed = .error error := by
  rw [announceCompression, if_pos hcodec]
  cases hinsert : metadata.insertReserved .compressionCodec [compressed.codec.toU8] with
  | error error => exact ⟨error, rfl⟩
  | ok metadata' => exact absurd hmem (Metadata.insert_eq_ok_iff.mp hinsert).1

theorem compressFor_eq_reassemble {result : CompressedPayload} (h : Eligible negotiated frame)
    (hparts : outboundMetadata frame negotiated.maxMetadataLen = some (metadata, payload))
    (hresult : (connectionCompressionPolicy negotiated).encode zstd payload .zstd = .ok result)
    (hmetadata' : announceCompression metadata result = .ok metadata') :
    compressFor zstd negotiated frame =
      reassemble frame negotiated.maxMetadataLen metadata' result.bytes := by
  simp only [compressFor_of_eligible h, hparts, hresult, hmetadata']

/-- A payload that the policy keeps is put back behind its metadata. -/
theorem compressFor_of_keeps (h : Eligible negotiated frame)
    (hparts : outboundMetadata frame negotiated.maxMetadataLen = some (metadata, payload))
    (hkeeps : (connectionCompressionPolicy negotiated).Keeps zstd payload) :
    compressFor zstd negotiated frame =
      reassemble frame negotiated.maxMetadataLen metadata payload := by
  obtain ⟨result, hresult, hcodec⟩ := hkeeps
  have hbytes : result.bytes = payload := by
    rcases CompressionPolicy.encode_eq_ok hresult with ⟨-, hbytes⟩ | ⟨hzstd, -⟩
    · exact hbytes
    · exact absurd (hcodec.symm.trans hzstd) (by decide)
  rw [compressFor_eq_reassemble h hparts hresult (announceCompression_of_none hcodec), hbytes]

/-- A payload announced as compressed that the policy does not keep makes the
frame an ERROR. -/
theorem kind_compressFor_of_not_keeps (h : Eligible negotiated frame)
    (hparts : outboundMetadata frame negotiated.maxMetadataLen = some (metadata, payload))
    (hkeeps : ¬ (connectionCompressionPolicy negotiated).Keeps zstd payload)
    (hmem : .reserved .compressionCodec ∈ metadata.entries.keys) :
    (compressFor zstd negotiated frame).kind = .error := by
  simp only [compressFor_of_eligible h, hparts]
  cases hresult : (connectionCompressionPolicy negotiated).encode zstd payload .zstd with
  | error error => rfl
  | ok result =>
    have hcodec : result.codec = .zstd := by
      rcases CompressionPolicy.encode_eq_ok hresult with ⟨hnone, -⟩ | ⟨hzstd, -⟩
      · exact absurd ⟨result, hresult, hnone⟩ hkeeps
      · exact hzstd
    obtain ⟨error, herror⟩ := announceCompression_of_mem hcodec hmem
    simp only [herror]
    rfl

/-- Compressing a frame that was compressed before leaves it alone, or replaces
it by an ERROR; which of the two, its payload decides. -/
theorem compressFor_compressFor :
    let compressed := compressFor zstd negotiated frame
    (¬ Recompressible zstd negotiated compressed ∧
      compressFor zstd negotiated compressed = compressed) ∨
    (Recompressible zstd negotiated compressed ∧ compressed.kind ≠ .error ∧
      (compressFor zstd negotiated compressed).kind = .error) := by
  intro compressed
  -- ERROR frames are never compressed, so every failure is final
  have hfailed : compressed.kind = .error → ¬ Recompressible zstd negotiated compressed ∧
      compressFor zstd negotiated compressed = compressed :=
    fun hkind => (compressFor_of_kind_error hkind).symm
  by_cases heligible : Eligible negotiated frame
  swap
  · have hself : compressed = frame := compressFor_of_not_eligible heligible
    rw [hself]
    exact Or.inl ⟨fun h => heligible h.1, compressFor_of_not_eligible heligible⟩
  have hcompressed : compressed = _ := compressFor_of_eligible heligible
  cases hparts : outboundMetadata frame negotiated.maxMetadataLen with
  | none =>
    rw [hparts] at hcompressed
    rw [hcompressed]
    refine Or.inl ⟨?_, hcompressed⟩
    -- neither pass can read the metadata
    rintro ⟨-, metadata, payload, hsome, -⟩
    exact absurd (hparts.symm.trans hsome) (by simp)
  | some parts =>
    obtain ⟨metadata, payload⟩ := parts
    simp only [hparts] at hcompressed
    split at hcompressed
    · exact Or.inl (hfailed (by rw [hcompressed]; rfl))
    rename_i result hresult
    split at hcompressed
    · exact Or.inl (hfailed (by rw [hcompressed]; rfl))
    rename_i metadata' hmetadata'
    -- a frame was reassembled; the second pass takes it apart again
    by_cases hlarge : reassemble frame negotiated.maxMetadataLen metadata' result.bytes =
        compressionFailure frame "response metadata too large"
    · exact Or.inl (hfailed (by rw [hcompressed, hlarge]; rfl))
    have hkind : compressed.kind = frame.kind := by
      rw [hcompressed]
      exact kind_reassemble hlarge
    have heligible' : Eligible negotiated compressed := ⟨heligible.1, hkind ▸ heligible.2⟩
    rcases outboundMetadata_reassemble hlarge with hsome | hnone
    · rw [← hcompressed] at hsome
      by_cases hkeeps : (connectionCompressionPolicy negotiated).Keeps zstd result.bytes
      · refine Or.inl ⟨?_, ?_⟩
        · rintro ⟨-, metadata'', payload', hsome', hnot⟩
          obtain ⟨rfl, rfl⟩ := Prod.mk.inj (Option.mem_unique hsome hsome')
          exact hnot hkeeps
        · rw [compressFor_of_keeps heligible' hsome hkeeps, hcompressed,
            reassemble_reassemble hlarge]
      · -- the payload was compressed, so its metadata already names the codec
        have hcodec : result.codec = .zstd := by
          rcases CompressionPolicy.encode_eq_ok hresult with ⟨hnone, hbytes⟩ | ⟨hzstd, -⟩
          · rw [hbytes] at hkeeps
            exact absurd ⟨result, hresult, hnone⟩ hkeeps
          · exact hzstd
        have hmem := (announceCompression_eq_ok hcodec hmetadata').1
        refine Or.inr ⟨⟨heligible', _, _, hsome, hkeeps⟩, ?_,
          kind_compressFor_of_not_keeps heligible' hsome hkeeps hmem⟩
        intro herror
        rw [hkind] at herror
        exact absurd heligible.2 (by rw [herror]; decide)
    · rw [← hcompressed] at hnone
      refine Or.inl ⟨?_, ?_⟩
      · rintro ⟨-, metadata'', payload', hsome, -⟩
        exact absurd (hnone.symm.trans hsome) (by simp)
      · rw [compressFor_of_eligible heligible', hnone]

/-- The parts of a frame are not longer than its body. -/
theorem length_of_outboundMetadata {limit : UInt32}
    (h : outboundMetadata frame limit = some (metadata, payload)) :
    (metadata = Metadata.new ∧ payload = frame.body) ∨
      (metadata.blockLen ≤ limit.toNat ∧
        4 + metadata.blockLen + payload.length ≤ frame.body.length) := by
  unfold outboundMetadata at h
  split_ifs at h with hflag
  · split at h
    · rename_i result hdecode
      cases h
      exact Or.inr (Metadata.blockLen_of_decode hdecode)
    · cases h
  · cases h
    exact Or.inl ⟨rfl, rfl⟩

theorem validate_connectionCompressionPolicy (negotiated : Negotiated) :
    (connectionCompressionPolicy negotiated).validate = .ok () := by
  refine if_neg ?_
  rw [not_or]
  exact ⟨negotiated.valid.2.1, (by decide : ¬ (64 : UInt32) = 0)⟩

theorem length_compressionFailure_le {message : String}
    (h : (ErrorCode.compressionFailure.encode message).length ≤ 1024)
    (hlength : 1024 ≤ frame.body.length) :
    (compressionFailure frame message).body.length ≤ frame.body.length :=
  h.trans hlength

/-- Reassembling does not make a body longer, compressed or not. -/
theorem length_reassemble_le {result : CompressedPayload}
    (hparts : outboundMetadata frame negotiated.maxMetadataLen = some (metadata, payload))
    (hresult : (connectionCompressionPolicy negotiated).encode zstd payload .zstd = .ok result)
    (hmetadata' : announceCompression metadata result = .ok metadata') :
    (reassemble frame negotiated.maxMetadataLen metadata' result.bytes).body.length ≤
      frame.body.length := by
  have hlength := length_of_outboundMetadata hparts
  rcases CompressionPolicy.encode_eq_ok hresult with ⟨hcodec, hbytes⟩ | ⟨hcodec, hmin, -, hsaves⟩
  · -- kept as it was: the known entries are not longer than those that were read
    rw [announceCompression_of_none hcodec] at hmetadata'
    obtain rfl := Except.ok.inj hmetadata'
    rw [hbytes]
    by_cases hnew : metadata = Metadata.new
    · rw [hnew, reassemble_new]
      rcases hlength with ⟨-, rfl⟩ | ⟨-, hle⟩
      · exact le_rfl
      · simp only
        omega
    · rcases hlength with ⟨rfl, -⟩ | ⟨hlimit, hle⟩
      · exact absurd rfl hnew
      · have hlen := lt_of_le_of_lt hlimit negotiated.maxMetadataLen.toNat_lt
        rw [reassemble_of_le hnew hlen hlimit]
        simp only [List.length_append, metadata.length_block]
        omega
  · -- the two new entries cost less than compression must have saved
    obtain ⟨hmem, hblock⟩ := announceCompression_eq_ok hcodec hmetadata'
    have hsaved := (CompressionPolicy.isAcceptable_iff.mp hsaves).2.1
    change result.bytes.length + 64 ≤ payload.length at hsaved
    change 1024 ≤ payload.length at hmin
    have hzero : Metadata.new.blockLen = 0 := rfl
    have htotal : 23 + metadata.blockLen + result.bytes.length ≤ frame.body.length ∧
        1024 ≤ frame.body.length := by
      rcases hlength with ⟨rfl, rfl⟩ | ⟨-, hle⟩ <;> omega
    have hnew : metadata' ≠ Metadata.new := by
      rintro rfl
      exact absurd hmem List.not_mem_nil
    by_cases hlimit : metadata'.blockLen ≤ negotiated.maxMetadataLen.toNat
    · have hlen := lt_of_le_of_lt hlimit negotiated.maxMetadataLen.toNat_lt
      rw [reassemble_of_le hnew hlen hlimit]
      simp only [List.length_append, metadata'.length_block]
      omega
    · rw [reassemble_of_lt hnew (not_le.mp hlimit)]
      exact length_compressionFailure_le (by decide) htotal.2

/-- Compression never makes a body longer. -/
theorem length_compressFor_le
    (hdecoded : frame.body.length ≤ negotiated.maxDecodedBodyLen.toNat) :
    (compressFor zstd negotiated frame).body.length ≤ frame.body.length := by
  by_cases heligible : Eligible negotiated frame
  swap
  · rw [compressFor_of_not_eligible heligible]
  rw [compressFor_of_eligible heligible]
  cases hparts : outboundMetadata frame negotiated.maxMetadataLen with
  | none => exact le_rfl
  | some parts =>
    obtain ⟨metadata, payload⟩ := parts
    have hpayload : payload.length ≤ frame.body.length := by
      rcases length_of_outboundMetadata hparts with ⟨-, rfl⟩ | ⟨-, hle⟩
      · exact le_rfl
      · omega
    cases hresult : (connectionCompressionPolicy negotiated).encode zstd payload .zstd with
    | error error =>
      -- a failure is reported in fewer bytes than the threshold the payload has passed
      have hmin : 1024 ≤ payload.length := (CompressionPolicy.encode_eq_error
        (validate_connectionCompressionPolicy negotiated) (hpayload.trans hdecoded) hresult).1
      simp only [hresult]
      exact length_compressionFailure_le (by decide) (hmin.trans hpayload)
    | ok result =>
      cases hmetadata' : announceCompression metadata result with
      | error error =>
        have hmin : 1024 ≤ payload.length := by
          rcases CompressionPolicy.encode_eq_ok hresult with ⟨hcodec, -⟩ | ⟨-, hmin, -⟩
          · rw [announceCompression_of_none hcodec] at hmetadata'
            cases hmetadata'
          · exact hmin
        simp only [hresult, hmetadata']
        exact length_compressionFailure_le (by decide) (hmin.trans hpayload)
      | ok metadata' =>
        simp only [hresult, hmetadata']
        exact length_reassemble_le hparts hresult hmetadata'

end Compress

/-! ### The whole transformation -/

/-- A second pass leaves what the first one made of a frame, exactly if its
payload is one the policy keeps. -/
theorem outbound_outbound (zstd : Zstd) (negotiated : Negotiated) (frame : Frame) :
    outbound zstd negotiated (outbound zstd negotiated frame) = outbound zstd negotiated frame ↔
      ¬ Recompressible zstd negotiated (outbound zstd negotiated frame) := by
  set decoded := fitOutboundFrame frame negotiated.maxDecodedBodyLen with hdecoded
  set compressed := compressFor zstd negotiated decoded with hcompressed
  have hdecodedLen : decoded.body.length ≤ negotiated.maxDecodedBodyLen.toNat :=
    length_fitOutboundFrame_le frame _
  have hcompressedLen : compressed.body.length ≤ negotiated.maxDecodedBodyLen.toNat :=
    (length_compressFor_le hdecodedLen).trans hdecodedLen
  have houtbound : outbound zstd negotiated frame =
      fitOutboundFrame compressed negotiated.maxBodyLen := rfl
  by_cases hfits : compressed.body.length ≤ negotiated.maxBodyLen.toNat
  · rw [houtbound, fitOutboundFrame_of_le hfits, outbound, fitOutboundFrame_of_le hcompressedLen]
    rcases @compressFor_compressFor zstd negotiated decoded with
      ⟨hnot, hself⟩ | ⟨hre, hkind, herror⟩
    · rw [← hcompressed] at hnot hself
      rw [hself, fitOutboundFrame_of_le hfits]
      exact iff_of_true rfl hnot
    · rw [← hcompressed] at hre hkind herror
      refine iff_of_false (fun heq => hkind ?_) (not_not.mpr hre)
      rw [← heq]
      exact kind_fitOutboundFrame_of_error herror
  · -- an ERROR of at most two bytes, which no later step touches
    have hkind : (fitOutboundFrame compressed negotiated.maxBodyLen).kind = .error :=
      kind_fitOutboundFrame_of_lt (not_le.mp hfits)
    obtain ⟨hself, hnot⟩ := @compressFor_of_kind_error zstd negotiated _ hkind
    have hlen := length_fitOutboundFrame_le_length compressed negotiated.maxBodyLen
    rw [houtbound, outbound, fitOutboundFrame_of_le (hlen.trans hcompressedLen), hself,
      fitOutboundFrame_of_le (length_fitOutboundFrame_le compressed _)]
    exact iff_of_true rfl hnot

/-- Frames that are not compressed and fit are written as they are. -/
theorem outbound_of_not_eligible (zstd : Zstd) {negotiated : Negotiated} {frame : Frame}
    (h : ¬ Eligible negotiated frame)
    (hdecoded : frame.body.length ≤ negotiated.maxDecodedBodyLen.toNat)
    (hbody : frame.body.length ≤ negotiated.maxBodyLen.toNat) :
    outbound zstd negotiated frame = frame := by
  rw [outbound, fitOutboundFrame_of_le hdecoded, compressFor_of_not_eligible h,
    fitOutboundFrame_of_le hbody]

/-! ### Encodability -/

theorem hasKnownFlags_fitOutboundFrame {frame : Frame} (h : frame.HasKnownFlags)
    (limit : UInt32) : (fitOutboundFrame frame limit).HasKnownFlags := by
  unfold fitOutboundFrame
  split_ifs
  · exact h
  all_goals exact UInt16.zero_and

theorem hasKnownFlags_reassemble {frame : Frame} (h : frame.HasKnownFlags) (limit : UInt32)
    (metadata : Metadata) (bytes : Bytes) :
    (reassemble frame limit metadata bytes).HasKnownFlags := by
  have hflags : frame.flags &&& ~~~flagHasMetadata = 0 := h
  unfold reassemble
  split_ifs with hempty
  · change frame.flags &&& ~~~flagHasMetadata &&& ~~~flagHasMetadata = 0
    rw [hflags, UInt16.zero_and]
  · split
    · exact UInt16.zero_and
    · split_ifs
      · exact UInt16.zero_and
      · -- the only flag ever set is a known one
        change (frame.flags ||| flagHasMetadata) &&& ~~~flagHasMetadata = 0
        rw [UInt16.or_and_distrib, hflags]
        decide

theorem hasKnownFlags_compressFor {zstd : Zstd} {negotiated : Negotiated} {frame : Frame}
    (h : frame.HasKnownFlags) : (compressFor zstd negotiated frame).HasKnownFlags := by
  by_cases heligible : Eligible negotiated frame
  · rw [compressFor_of_eligible heligible]
    split
    · exact h
    · split
      · exact UInt16.zero_and
      · split
        · exact UInt16.zero_and
        · exact hasKnownFlags_reassemble h _ _ _
  · rw [compressFor_of_not_eligible heligible]
    exact h

/-- What the writer makes of a frame can be encoded. -/
theorem encodable_outbound (zstd : Zstd) (negotiated : Negotiated) {frame : Frame}
    (h : frame.HasKnownFlags) : (outbound zstd negotiated frame).Encodable := by
  refine ⟨?_, ?_⟩
  · exact hasKnownFlags_fitOutboundFrame
      (hasKnownFlags_compressFor (hasKnownFlags_fitOutboundFrame h _)) _
  · exact lt_of_le_of_lt (length_fitOutboundFrame_le _ _) negotiated.maxBodyLen.toNat_lt

/-! ### The call a frame belongs to -/

/-- A frame that stands for another one: it belongs to the same call, and it is of
the same kind or an ERROR. -/
structure Answers (original answer : Frame) : Prop where
  methodId : answer.methodId = original.methodId
  requestId : answer.requestId = original.requestId
  kind : answer.kind = original.kind ∨ answer.kind = .error

theorem Answers.refl (frame : Frame) : Answers frame frame := ⟨rfl, rfl, .inl rfl⟩

theorem Answers.trans {a b c : Frame} (hab : Answers a b) (hbc : Answers b c) : Answers a c where
  methodId := hbc.methodId.trans hab.methodId
  requestId := hbc.requestId.trans hab.requestId
  kind := by
    rcases hbc.kind with hkind | hkind
    · rw [hkind]
      exact hab.kind
    · exact .inr hkind

theorem answers_fitOutboundFrame (frame : Frame) (limit : UInt32) :
    Answers frame (fitOutboundFrame frame limit) := by
  unfold fitOutboundFrame
  split_ifs
  · exact .refl frame
  all_goals exact ⟨rfl, rfl, .inr rfl⟩

theorem answers_reassemble (frame : Frame) (limit : UInt32) (metadata : Metadata)
    (bytes : Bytes) : Answers frame (reassemble frame limit metadata bytes) := by
  unfold reassemble
  split
  · exact ⟨rfl, rfl, .inl rfl⟩
  split
  · exact ⟨rfl, rfl, .inr rfl⟩
  split
  · exact ⟨rfl, rfl, .inr rfl⟩
  · exact ⟨rfl, rfl, .inl rfl⟩

theorem answers_compressFor (zstd : Zstd) (negotiated : Negotiated) (frame : Frame) :
    Answers frame (compressFor zstd negotiated frame) := by
  by_cases h : Eligible negotiated frame
  swap
  · rw [compressFor_of_not_eligible h]
    exact .refl frame
  rw [compressFor_of_eligible h]
  split
  · exact .refl frame
  split
  · exact ⟨rfl, rfl, .inr rfl⟩
  split
  · exact ⟨rfl, rfl, .inr rfl⟩
  · exact answers_reassemble _ _ _ _

theorem answers_outbound (zstd : Zstd) (negotiated : Negotiated) (frame : Frame) :
    Answers frame (outbound zstd negotiated frame) :=
  ((answers_fitOutboundFrame frame _).trans (answers_compressFor zstd negotiated _)).trans
    (answers_fitOutboundFrame _ _)

end MoonLightBridge.Server
