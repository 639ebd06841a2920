import MoonLightBridge.Client.Compression
import MoonLightBridge.Client.Frames
import MoonLightBridge.Client.Metadata
import MoonLightBridge.Protocol.Settings

/-!
# Application frames in the Java client

What the client does to a RESPONSE, EVENT or STREAM_ITEM before anyone looks at
it (`MoonLightClient.decodeApplicationFrame`): the metadata prefix is taken off,
and a payload announced as compressed is decompressed.
-/

namespace MoonLightBridge.Client

open Protocol

/-- The fields the client sets from the WELCOME. A connection whose limits are
not positive as Java `int`s is closed in the handshake, so none has others. The
codecs are the bits of an `int` that is only ever masked. -/
structure Settings where
  maxBodyLength : ℕ
  maxDecodedBodyLength : ℕ
  maxMetadataLength : ℕ
  negotiatedCompressionCodecs : UInt32
  positive : 1 ≤ maxBodyLength ∧ 1 ≤ maxDecodedBodyLength ∧ 1 ≤ maxMetadataLength
  bounded : maxBodyLength < 2 ^ 31 ∧ maxDecodedBodyLength < 2 ^ 31 ∧ maxMetadataLength < 2 ^ 31

namespace Settings

/-- The client runs under the settings the server negotiated. -/
structure Matches (settings : Settings) (negotiated : PeerSettings) : Prop where
  maxBodyLength : settings.maxBodyLength = negotiated.maxBodyLen.toNat
  maxDecodedBodyLength : settings.maxDecodedBodyLength = negotiated.maxDecodedBodyLen.toNat
  maxMetadataLength : settings.maxMetadataLength = negotiated.maxMetadataLen.toNat
  compressionCodecs : settings.negotiatedCompressionCodecs = negotiated.compressionCodecs

/-- `compressionOptions`: the defaults up to the negotiated decoded limit. -/
def compressionOptions (settings : Settings) : CompressionOptions where
  minPayloadBytes := CompressionOptions.defaults.minPayloadBytes
  minSavingsBytes := CompressionOptions.defaults.minSavingsBytes
  maxDecodedBodyLength := settings.maxDecodedBodyLength
  maxExpansionRatio := CompressionOptions.defaults.maxExpansionRatio
  compressionLevel := CompressionOptions.defaults.compressionLevel
  positive := ⟨settings.positive.2.1, by decide⟩

/-- `new Limits(maxMetadataLength, 64, 8 * 1024)` -/
def metadataLimits (settings : Settings) : Limits where
  maxBytes := settings.maxMetadataLength
  maxEntries := 64
  maxValueBytes := 8 * 1024
  positive := ⟨settings.positive.2.2, by decide, by decide⟩

/-- `(negotiatedCompressionCodecs & 2) != 0` -/
def zstdNegotiated (settings : Settings) : Bool := settings.negotiatedCompressionCodecs &&& 2 != 0

/-- The argument of `readFrame` in the reader's loop. -/
def bodyLimit (settings : Settings) : Int32 := Int32.ofNat settings.maxBodyLength

theorem toNat_bodyLimit (settings : Settings) :
    settings.bodyLimit.toUInt32.toNat = settings.maxBodyLength := by
  have hlt : settings.maxBodyLength < 2 ^ 32 := settings.bounded.1.trans (by norm_num)
  exact UInt32.toNat_ofNat_of_lt' hlt

theorem one_le_bodyLimit (settings : Settings) : 1 ≤ settings.bodyLimit := by
  have hint : settings.bodyLimit.toInt = _ := settings.bodyLimit.toUInt32.toInt_toInt32
  rw [toNat_bodyLimit, if_pos settings.bounded.1] at hint
  rw [Int32.le_iff_toInt_le, hint, show (1 : Int32).toInt = 1 from rfl]
  exact_mod_cast settings.positive.1

end Settings

/-- The `IOException`s of `decodeApplicationFrame`. -/
inductive ApplicationException
  | metadata (error : DecodeException)
  | incompleteCompression
  | unknownCodec (value : UInt8)
  | codecNotNegotiated
  | negativeLength
  | compression (error : CompressionException)
  deriving DecidableEq, Repr

def ApplicationException.getMessage : ApplicationException → String
  | .metadata error => error.getMessage
  | .incompleteCompression => "incomplete compression metadata"
  | .unknownCodec value => "unknown compression codec " ++ toString value.toNat
  | .codecNotNegotiated => "compression codec was not negotiated"
  | .negativeLength => "negative original payload length"
  | .compression error => error.getMessage

/-- Decompress a payload by the two entries that announce how. -/
def Settings.decompress (zstd : Zstd) (settings : Settings) (budget : DecodedByteBudget)
    (codecByte : UInt8) (lengthBytes payload : Bytes) : Except ApplicationException Bytes :=
  match Codec.fromWire codecByte with
  | none => .error (.unknownCodec codecByte)
  | some codec =>
    if codec ≠ .zstd ∨ settings.zstdNegotiated = false then .error .codecNotNegotiated
    else
      let originalLength := (UInt32.fromBeBytes lengthBytes).toInt32
      if originalLength < 0 then .error .negativeLength
      else
        match CompressionOptions.decode zstd ⟨codec, originalLength.toInt.toNat, payload⟩
            settings.compressionOptions budget with
        | .error error => .error (.compression error)
        | .ok body => .ok body

/-- `MoonLightClient.decodeApplicationFrame` -/
def Settings.decodeApplicationFrame (zstd : Zstd) (settings : Settings)
    (budget : DecodedByteBudget) (frame : WireFrame) : Except ApplicationException WireFrame :=
  if frame.flags &&& frameHasMetadata = 0 then .ok frame
  else
    match decode frame.body settings.metadataLimits with
    | .error error => .error (.metadata error)
    | .ok (metadata, payload) =>
      match metadata.get? (.reserved .compressionCodec),
          metadata.get? (.reserved .originalLength) with
      | none, none => .ok { frame with flags := 0, body := payload }
      | some [codecByte], some lengthBytes =>
        if lengthBytes.length ≠ 4 then .error .incompleteCompression
        else
          match settings.decompress zstd budget codecByte lengthBytes payload with
          | .error error => .error error
          | .ok body => .ok { frame with flags := 0, body := body }
      | _, _ => .error .incompleteCompression

end MoonLightBridge.Client
