import MoonLightBridge.Client.Compression
import MoonLightBridge.Server.Writer

/-!
# Both compressors and both decompressors

What either encoder returns is an encoding in the same sense: the payload itself,
or a compressed form that the payload does not exceed by more than the expansion
ratio. That is all either decoder asks for, so whatever one side encodes under some
limits the other side decodes under the same ones. The compression level and the
savings that were asked for play no part in it.
-/

namespace MoonLightBridge

open Protocol

/-- Bytes that stand for a payload under a codec, within an expansion ratio. -/
inductive IsEncoding (zstd : Zstd) (ratio : ℕ) (payload : Bytes) : CompressionCodec → Bytes → Prop
  | retained : IsEncoding zstd ratio payload .none payload
  | compressed {level : ℤ} {bytes : Bytes} (hcompress : zstd.compress level payload = some bytes)
      (hratio : payload.length ≤ bytes.length * ratio) : IsEncoding zstd ratio payload .zstd bytes

/-- The codec that the client's constant is sent as. -/
def Client.Codec.toProtocol : Client.Codec → CompressionCodec
  | .none => .none
  | .zstd => .zstd

/-- The client's constant for a codec. -/
def Client.Codec.ofProtocol : CompressionCodec → Client.Codec
  | .none => .none
  | .zstd => .zstd

/-- Equal thresholds, ratios and decoded limits; the levels may differ. -/
structure SameLimits (policy : CompressionPolicy) (options : Client.CompressionOptions) :
    Prop where
  minPayloadBytes : options.minPayloadBytes = policy.minPayloadBytes
  minSavingsBytes : options.minSavingsBytes = policy.minSavingsBytes
  maxDecodedBodyLength : options.maxDecodedBodyLength = policy.maxDecodedBodyLen.toNat
  maxExpansionRatio : options.maxExpansionRatio = policy.maxExpansionRatio.toNat

variable {zstd : Zstd} {policy : CompressionPolicy} {options : Client.CompressionOptions}
  {payload : Bytes}

/-! ### The encoders -/

theorem encode_none {result : CompressedPayload}
    (h : policy.encode zstd payload .none = .ok result) :
    result.codec = .none ∧ result.bytes = payload := by
  unfold CompressionPolicy.encode at h
  split at h
  · cases h
  · simp only [true_or, if_true] at h
    split_ifs at h
    cases h
    exact ⟨rfl, rfl⟩

variable {codec : CompressionCodec}

theorem isEncoding_of_encode {result : CompressedPayload}
    (h : policy.encode zstd payload codec = .ok result) :
    IsEncoding zstd policy.maxExpansionRatio.toNat payload result.codec result.bytes := by
  cases codec with
  | none =>
    obtain ⟨hcodec, hbytes⟩ := encode_none h
    rw [hcodec, hbytes]
    exact .retained
  | zstd =>
    rcases CompressionPolicy.encode_eq_ok h with ⟨hcodec, hbytes⟩ | ⟨hcodec, -, hcompress, haccept⟩
    · rw [hcodec, hbytes]
      exact .retained
    · rw [hcodec]
      exact .compressed hcompress (CompressionPolicy.isAcceptable_iff.mp haccept).2.2

theorem isEncoding_of_client_encode {codec : Client.Codec} {encoded : Client.Encoded}
    (h : Client.CompressionOptions.encode zstd payload codec options = .ok encoded) :
    IsEncoding zstd options.maxExpansionRatio payload encoded.codec.toProtocol encoded.bytes := by
  obtain ⟨-, -, ⟨hcodec, hbytes⟩ | ⟨hcodec, -, hcompress, hratio⟩⟩ :=
    Client.CompressionOptions.encode_eq_ok h
  · rw [hcodec, hbytes]
    exact .retained
  · rw [hcodec]
    exact .compressed hcompress hratio

/-! ### The decoders -/

/-- The bytes a permit holds for a decoded payload. -/
def reservedFor (payload : Bytes) : CompressionCodec → Option ℕ
  | .none => none
  | .zstd => some payload.length

theorem decodeWithReservation_isEncoding {bytes : Bytes} {budget : DecodedByteBudget}
    (hvalid : policy.validate = .ok ()) (hlength : payload.length ≤ policy.maxDecodedBodyLen.toNat)
    (hencoding : IsEncoding zstd policy.maxExpansionRatio.toNat payload codec bytes)
    (hbudget : payload.length ≤ budget.available) :
    policy.decodeWithReservation zstd codec bytes (UInt32.ofNat payload.length) budget =
      .ok (payload, reservedFor payload codec) := by
  cases hencoding with
  | retained =>
    have hlen : (UInt32.ofNat payload.length).toNat = payload.length :=
      UInt32.toNat_ofNat_of_lt' (lt_of_le_of_lt hlength policy.maxDecodedBodyLen.toNat_lt)
    have hmax : ¬ policy.maxDecodedBodyLen < UInt32.ofNat payload.length := by
      rw [UInt32.lt_iff_toNat_lt, hlen]
      omega
    unfold CompressionPolicy.decodeWithReservation
    simp only [hvalid, hmax, hlen, if_false, if_true, ne_eq, not_true]
    rfl
  | compressed hcompress hratio =>
    exact CompressionPolicy.decodeWithReservation_of_compress hvalid hcompress hlength hratio
      hbudget

theorem client_decode_isEncoding {bytes : Bytes} {budget : Client.DecodedByteBudget}
    (hlength : payload.length ≤ options.maxDecodedBodyLength)
    (hencoding : IsEncoding zstd options.maxExpansionRatio payload codec bytes)
    (hbudget : payload.length ≤ budget.available) :
    Client.CompressionOptions.decode zstd ⟨.ofProtocol codec, payload.length, bytes⟩ options
      budget = .ok payload := by
  cases hencoding with
  | retained =>
    unfold Client.CompressionOptions.decode
    simp only [not_lt.mpr hlength, if_false, Client.Codec.ofProtocol, if_true, ne_eq, not_true]
  | compressed hcompress hratio =>
    exact Client.CompressionOptions.decode_of_compress hcompress hlength hratio hbudget

/-! ### Round trips -/

/-- What the server's encoder returns under a valid policy, its decoder gives back under the same
policy; and with the same limits the two sides decode what the other one encoded. The only thing
that a decoder needs besides is room for the original length in its budget. -/
theorem compression_roundTrip (zstd : Zstd) (policy : CompressionPolicy) (payload : Bytes)
    (hvalid : policy.validate = .ok ())
    (hlength : payload.length ≤ policy.maxDecodedBodyLen.toNat) :
    (∀ codec result (budget : DecodedByteBudget),
      policy.encode zstd payload codec = .ok result →
      result.originalLen.toNat ≤ budget.available →
      policy.decodeWithReservation zstd result.codec result.bytes result.originalLen budget =
        .ok (payload, reservedFor payload result.codec)) ∧
    ∀ options, SameLimits policy options →
      (∀ codec encoded (budget : DecodedByteBudget),
        Client.CompressionOptions.encode zstd payload codec options = .ok encoded →
        encoded.originalLength ≤ budget.available →
        policy.decodeWithReservation zstd encoded.codec.toProtocol encoded.bytes
          (UInt32.ofNat encoded.originalLength) budget =
            .ok (payload, reservedFor payload encoded.codec.toProtocol)) ∧
      ∀ codec result (budget : Client.DecodedByteBudget),
        policy.encode zstd payload codec = .ok result →
        result.originalLen.toNat ≤ budget.available →
        Client.CompressionOptions.decode zstd
          ⟨.ofProtocol result.codec, result.originalLen.toNat, result.bytes⟩ options budget =
            .ok payload := by
  have hlt : payload.length < 2 ^ 32 := lt_of_le_of_lt hlength policy.maxDecodedBodyLen.toNat_lt
  have hannounced {codec : CompressionCodec} {result : CompressedPayload}
      (hencode : policy.encode zstd payload codec = .ok result) :
      result.originalLen.toNat = payload.length := by
    rw [CompressionPolicy.originalLen_of_encode hencode]
    exact UInt32.toNat_ofNat_of_lt' hlt
  refine ⟨?_, fun options hsame => ⟨?_, ?_⟩⟩
  · intro codec result budget hencode hbudget
    rw [hannounced hencode] at hbudget
    rw [CompressionPolicy.originalLen_of_encode hencode]
    exact decodeWithReservation_isEncoding hvalid hlength (isEncoding_of_encode hencode) hbudget
  · intro codec encoded budget hencode hbudget
    have hencoding := isEncoding_of_client_encode hencode
    rw [hsame.maxExpansionRatio] at hencoding
    rw [(Client.CompressionOptions.encode_eq_ok hencode).2.1] at hbudget ⊢
    exact decodeWithReservation_isEncoding hvalid hlength hencoding hbudget
  · intro codec result budget hencode hbudget
    have hencoding := isEncoding_of_encode hencode
    rw [← hsame.maxExpansionRatio] at hencoding
    rw [hannounced hencode] at hbudget ⊢
    exact client_decode_isEncoding (hsame.maxDecodedBodyLength ▸ hlength) hencoding hbudget

/-- A policy under which four zeros are compressed to two. -/
def eagerPolicy : CompressionPolicy where
  minPayloadBytes := 1
  minSavingsBytes := 1
  maxDecodedBodyLen := 16
  maxExpansionRatio := 4
  compressionLevel := 1

theorem compression_roundTrip_eagerPolicy :
    eagerPolicy.validate = .ok () ∧
      eagerPolicy.encode Server.Writer.halvingZstd [0, 0, 0, 0] .zstd = .ok ⟨.zstd, 4, [0, 0]⟩ ∧
      eagerPolicy.decodeWithReservation Server.Writer.halvingZstd .zstd [0, 0] 4
          ⟨16, 12, by decide⟩ = .ok ([0, 0, 0, 0], some 4) := by
  have hencode : eagerPolicy.encode Server.Writer.halvingZstd [0, 0, 0, 0] .zstd =
      .ok ⟨.zstd, 4, [0, 0]⟩ := by decide
  refine ⟨by decide, hencode, ?_⟩
  exact (compression_roundTrip Server.Writer.halvingZstd eagerPolicy [0, 0, 0, 0] (by decide)
    (by decide)).1 .zstd _ ⟨16, 12, by decide⟩ hencode (by decide)

end MoonLightBridge
