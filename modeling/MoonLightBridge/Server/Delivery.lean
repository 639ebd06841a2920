import MoonLightBridge.Server.Writer

/-!
# Whether compression costs a response

A body that is compressed travels behind a metadata block that names the codec and
the original length. The encoder weighs the compressed payload against the original
before it gives the original up; the block is checked against the negotiated metadata
limit only afterwards, when all that is left to send is an ERROR.
-/

namespace MoonLightBridge.Server

open Protocol

/-- The frame is of a kind that is compressed, and the policy does not leave its body
as it is. -/
def Compresses (zstd : Zstd) (negotiated : Negotiated) (frame : Frame) : Prop :=
  Eligible negotiated frame ∧ ¬ (connectionCompressionPolicy negotiated).Keeps zstd frame.body

section Delivery

variable {zstd : Zstd} {negotiated : Negotiated} {frame : Frame}

theorem outboundMetadata_of_plain {limit : UInt32} (hplain : frame.flags &&& flagHasMetadata = 0) :
    outboundMetadata frame limit = some (Metadata.new, frame.body) :=
  if_neg (not_not.mpr hplain)

theorem ne_error_of_carriesPayload (h : carriesPayload frame.kind = true) :
    frame.kind ≠ .error := by
  intro hkind
  rw [hkind] at h
  cases h

section

variable (hplain : frame.flags &&& flagHasMetadata = 0)

include hplain

/-- A plain frame has no flag to clear. -/
theorem reassemble_new_of_plain {limit : UInt32} :
    reassemble frame limit Metadata.new frame.body = frame := by
  rw [reassemble_new, UInt16.and_not_eq_self hplain]

theorem compressFor_of_not_compresses (h : ¬ Compresses zstd negotiated frame) :
    compressFor zstd negotiated frame = frame := by
  by_cases heligible : Eligible negotiated frame
  · have hkeeps : (connectionCompressionPolicy negotiated).Keeps zstd frame.body := by
      by_contra hnot
      exact h ⟨heligible, hnot⟩
    rw [compressFor_of_keeps heligible (outboundMetadata_of_plain hplain) hkeeps,
      reassemble_new_of_plain hplain]
  · exact compressFor_of_not_eligible heligible

/-- What is not compressed is written as it was handed over. -/
theorem outbound_of_not_compresses
    (hdecoded : frame.body.length ≤ negotiated.maxDecodedBodyLen.toNat)
    (hbody : frame.body.length ≤ negotiated.maxBodyLen.toNat)
    (h : ¬ Compresses zstd negotiated frame) : outbound zstd negotiated frame = frame := by
  rw [outbound, fitOutboundFrame_of_le hdecoded, compressFor_of_not_compresses hplain h,
    fitOutboundFrame_of_le hbody]

end

/-- The block that announces a compressed body is nineteen bytes long. -/
theorem exists_announceCompression {compressed : CompressedPayload}
    (hcodec : compressed.codec = .zstd) :
    ∃ metadata, announceCompression Metadata.new compressed = .ok metadata ∧
      metadata ≠ Metadata.new ∧ metadata.blockLen = 19 := by
  have hannounced : ∃ metadata, announceCompression Metadata.new compressed = .ok metadata := by
    rw [announceCompression, if_pos hcodec]
    exact ⟨_, rfl⟩
  obtain ⟨metadata, hmetadata⟩ := hannounced
  obtain ⟨hmem, hlength⟩ := announceCompression_eq_ok hcodec hmetadata
  refine ⟨metadata, hmetadata, ?_, hlength⟩
  intro hnew
  rw [hnew] at hmem
  exact absurd hmem List.not_mem_nil

/-- Unless the library fails, what is not left alone is compressed. -/
theorem Compresses.exists_encode (h : Compresses zstd negotiated frame)
    (hdecoded : frame.body.length ≤ negotiated.maxDecodedBodyLen.toNat)
    (hzstd : zstd.compress (connectionCompressionPolicy negotiated).compressionLevel frame.body ≠
      none) :
    ∃ result, (connectionCompressionPolicy negotiated).encode zstd frame.body .zstd = .ok result ∧
      result.codec = .zstd := by
  cases hresult : (connectionCompressionPolicy negotiated).encode zstd frame.body .zstd with
  | error error =>
    have hfailed := CompressionPolicy.encode_eq_error
      (validate_connectionCompressionPolicy negotiated) hdecoded hresult
    exact absurd hfailed.2 hzstd
  | ok result =>
    rcases CompressionPolicy.encode_eq_ok hresult with ⟨hnone, -⟩ | ⟨hcodec, -⟩
    · exact absurd ⟨result, hresult, hnone⟩ h.2
    · exact ⟨result, rfl, hcodec⟩

/-- A compressed body keeps its frame's kind exactly if the block before it fits. -/
theorem Compresses.kind_eq_iff (h : Compresses zstd negotiated frame)
    (hplain : frame.flags &&& flagHasMetadata = 0)
    (hdecoded : frame.body.length ≤ negotiated.maxDecodedBodyLen.toNat)
    (hzstd : zstd.compress (connectionCompressionPolicy negotiated).compressionLevel frame.body ≠
      none) :
    (compressFor zstd negotiated frame).kind = frame.kind ↔
      19 ≤ negotiated.maxMetadataLen.toNat := by
  obtain ⟨result, hresult, hcodec⟩ := h.exists_encode hdecoded hzstd
  obtain ⟨metadata, hmetadata, hnew, hlength⟩ := exists_announceCompression hcodec
  have hparts : outboundMetadata frame negotiated.maxMetadataLen =
      some (Metadata.new, frame.body) := outboundMetadata_of_plain hplain
  rw [compressFor_eq_reassemble h.1 hparts hresult hmetadata]
  by_cases hfits : 19 ≤ negotiated.maxMetadataLen.toNat
  · have hlimit : metadata.blockLen ≤ negotiated.maxMetadataLen.toNat := hlength ▸ hfits
    rw [reassemble_of_le hnew (lt_of_le_of_lt hlimit negotiated.maxMetadataLen.toNat_lt) hlimit]
    exact iff_of_true rfl hfits
  · -- the original payload is gone by now
    rw [reassemble_of_lt hnew (by omega)]
    exact iff_of_false (ne_error_of_carriesPayload h.1.2).symm hfits

/-- The second clamp never bites where the first and the wire limit would not. -/
theorem outbound_of_le (hdecoded : frame.body.length ≤ negotiated.maxDecodedBodyLen.toNat)
    (hfits : (compressFor zstd negotiated frame).body.length ≤ negotiated.maxBodyLen.toNat) :
    outbound zstd negotiated frame = compressFor zstd negotiated frame := by
  rw [outbound, fitOutboundFrame_of_le hdecoded, fitOutboundFrame_of_le hfits]

/-- A frame without metadata whose body fits uncompressed keeps its kind exactly if
the policy leaves the body as it is or there is room for the block that announces
compression; and a body that the policy leaves as it is goes out unchanged. -/
theorem kind_outbound_eq_iff (zstd : Zstd) (negotiated : Negotiated) (frame : Frame)
    (hplain : frame.flags &&& flagHasMetadata = 0)
    (hdecoded : frame.body.length ≤ negotiated.maxDecodedBodyLen.toNat)
    (hbody : frame.body.length ≤ negotiated.maxBodyLen.toNat)
    (hzstd : zstd.compress (connectionCompressionPolicy negotiated).compressionLevel frame.body ≠
      none) :
    ((outbound zstd negotiated frame).kind = frame.kind ↔
        (Compresses zstd negotiated frame → 19 ≤ negotiated.maxMetadataLen.toNat)) ∧
      (¬ Compresses zstd negotiated frame → outbound zstd negotiated frame = frame) := by
  have hself : ¬ Compresses zstd negotiated frame → outbound zstd negotiated frame = frame :=
    outbound_of_not_compresses hplain hdecoded hbody
  refine ⟨?_, hself⟩
  by_cases h : Compresses zstd negotiated frame
  · rw [outbound_of_le hdecoded ((length_compressFor_le hdecoded).trans hbody),
      h.kind_eq_iff hplain hdecoded hzstd]
    exact ⟨fun hfits _ => hfits, fun hfits => hfits h⟩
  · rw [hself h]
    exact iff_of_true rfl fun hcompresses => absurd hcompresses h

end Delivery

/-! ### Settings that leave no room -/

/-- Settings like the defaults, with room for sixteen bytes of metadata. -/
def narrowNegotiated : Negotiated :=
  ⟨{ PeerSettings.default with maxMetadataLen := 16 }, by decide⟩

theorem compresses_zerosResponse {negotiated : Negotiated}
    (hcodecs : negotiated.compressionCodecs &&& compressionCodecZstd ≠ 0)
    (hdecoded : negotiated.maxDecodedBodyLen = Writer.defaultNegotiated.maxDecodedBodyLen) :
    Compresses Writer.halvingZstd negotiated Writer.zerosResponse := by
  apply And.intro ⟨hcodecs, rfl⟩
  rw [connectionCompressionPolicy, hdecoded]
  exact Writer.not_keeps_zeros (by omega) (by omega)

/-- Blocks of zeros are halved at every level. -/
theorem compress_zerosResponse (level : ℤ) :
    Writer.halvingZstd.compress level Writer.zerosResponse.body ≠ none := by
  simp only [Writer.halvingZstd]
  split_ifs <;> exact Option.some_ne_none _

theorem length_body_zerosResponse : Writer.zerosResponse.body.length = 4096 :=
  List.length_replicate

/-- Under the default settings a response of zeros is compressed and stays one. -/
theorem kind_outbound_eq_iff_default :
    (outbound Writer.halvingZstd Writer.defaultNegotiated Writer.zerosResponse).kind =
      .response := by
  have hiff := kind_outbound_eq_iff Writer.halvingZstd Writer.defaultNegotiated
    Writer.zerosResponse (by decide) (by rw [length_body_zerosResponse]; decide)
    (by rw [length_body_zerosResponse]; decide) (compress_zerosResponse _)
  exact hiff.1.mpr fun _ => by decide

/-- With room for sixteen bytes of metadata the same response becomes an ERROR,
though it would have fitted as it was. -/
theorem kind_outbound_narrow :
    carriesPayload Writer.zerosResponse.kind = true ∧
      Writer.zerosResponse.flags &&& flagHasMetadata = 0 ∧
      Writer.zerosResponse.body.length ≤ narrowNegotiated.maxDecodedBodyLen.toNat ∧
      Writer.zerosResponse.body.length ≤ narrowNegotiated.maxBodyLen.toNat ∧
      Writer.halvingZstd.compress (connectionCompressionPolicy narrowNegotiated).compressionLevel
        Writer.zerosResponse.body ≠ none ∧
      (outbound Writer.halvingZstd narrowNegotiated Writer.zerosResponse).kind = .error := by
  have hlength := length_body_zerosResponse
  have hdecoded : Writer.zerosResponse.body.length ≤ narrowNegotiated.maxDecodedBodyLen.toNat := by
    rw [hlength]
    decide
  have hbody : Writer.zerosResponse.body.length ≤ narrowNegotiated.maxBodyLen.toNat := by
    rw [hlength]
    decide
  have hcompresses : Compresses Writer.halvingZstd narrowNegotiated Writer.zerosResponse :=
    compresses_zerosResponse (by decide) rfl
  have hiff := hcompresses.kind_eq_iff (by decide) hdecoded (compress_zerosResponse _)
  rw [← outbound_of_le hdecoded ((length_compressFor_le hdecoded).trans hbody)] at hiff
  have hkind : (outbound Writer.halvingZstd narrowNegotiated Writer.zerosResponse).kind ≠
      Writer.zerosResponse.kind := mt hiff.mp (by decide)
  refine ⟨rfl, by decide, hdecoded, hbody, compress_zerosResponse _, ?_⟩
  exact (answers_outbound _ _ _).kind.resolve_left hkind

end MoonLightBridge.Server
