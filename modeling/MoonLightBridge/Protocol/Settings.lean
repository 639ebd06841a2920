import MoonLightBridge.Protocol.Frame

/-!
# Peer settings

Limits and capabilities exchanged by HELLO and WELCOME (`PeerSettingsV2`), and
the settings a connection runs under after the handshake.
-/

namespace MoonLightBridge.Protocol

/-- `COMPRESSION_CODEC_NONE`, the bit of the mandatory codec. -/
def compressionCodecNone : UInt32 := 1

/-- Credit-based server-streaming RPCs. -/
def featureServerStreaming : UInt64 := 0x40

/-- Every feature bit the bundled server implements. -/
def serverFeatures : UInt64 := 0x7f

/-- Limits and capabilities of one peer. -/
structure PeerSettings where
  maxBodyLen : UInt32
  maxDecodedBodyLen : UInt32
  maxMetadataLen : UInt32
  maxInFlight : UInt32
  maxConcurrentStreams : UInt32
  initialStreamCredit : UInt32
  compressionCodecs : UInt32
  features : UInt64
  diagnosticFeatures : UInt64
  deriving DecidableEq, Repr

namespace PeerSettings

def default : PeerSettings where
  maxBodyLen := 8 * 1024 * 1024
  maxDecodedBodyLen := 16 * 1024 * 1024
  maxMetadataLen := 16 * 1024
  maxInFlight := 256
  maxConcurrentStreams := 64
  initialStreamCredit := 32
  compressionCodecs := compressionCodecNone ||| compressionCodecZstd
  features := serverFeatures
  diagnosticFeatures := 0

def bodyLen : ℕ := 44

/-- Every field in fixed-width network byte order. -/
def encode (settings : PeerSettings) : Bytes :=
  settings.maxBodyLen.toBeBytes ++ settings.maxDecodedBodyLen.toBeBytes ++
    settings.maxMetadataLen.toBeBytes ++ settings.maxInFlight.toBeBytes ++
    settings.maxConcurrentStreams.toBeBytes ++ settings.initialStreamCredit.toBeBytes ++
    settings.compressionCodecs.toBeBytes ++ settings.features.toBeBytes ++
    settings.diagnosticFeatures.toBeBytes

/-- The safety limits are positive and the mandatory codec is offered. -/
def Valid (settings : PeerSettings) : Prop :=
  settings.maxBodyLen ≠ 0 ∧ settings.maxDecodedBodyLen ≠ 0 ∧ settings.maxMetadataLen ≠ 0 ∧
    settings.maxInFlight ≠ 0 ∧ settings.maxConcurrentStreams ≠ 0 ∧
      settings.initialStreamCredit ≠ 0 ∧ settings.compressionCodecs &&& 1 ≠ 0

instance (settings : PeerSettings) : Decidable settings.Valid :=
  inferInstanceAs (Decidable (_ ∧ _))

/-- Decode a settings body of the exact length. -/
def decode (body : Bytes) : Except ProtocolError PeerSettings :=
  -- no extension bytes are tolerated
  if body.length ≠ bodyLen then .error (.invalidSettingsLength body.length)
  else
    let settings : PeerSettings := {
      maxBodyLen := UInt32.fromBeBytes (slice body 0 4)
      maxDecodedBodyLen := UInt32.fromBeBytes (slice body 4 8)
      maxMetadataLen := UInt32.fromBeBytes (slice body 8 12)
      maxInFlight := UInt32.fromBeBytes (slice body 12 16)
      maxConcurrentStreams := UInt32.fromBeBytes (slice body 16 20)
      initialStreamCredit := UInt32.fromBeBytes (slice body 20 24)
      compressionCodecs := UInt32.fromBeBytes (slice body 24 28)
      features := UInt64.fromBeBytes (slice body 28 36)
      diagnosticFeatures := UInt64.fromBeBytes (slice body 36 44) }
    if settings.Valid then .ok settings else .error .invalidSettingsValue

/-- The settings of a connection: the smaller limits and the common bits. -/
def negotiate (client server : PeerSettings) : PeerSettings where
  maxBodyLen := min client.maxBodyLen server.maxBodyLen
  maxDecodedBodyLen := min client.maxDecodedBodyLen server.maxDecodedBodyLen
  maxMetadataLen := min client.maxMetadataLen server.maxMetadataLen
  maxInFlight := min client.maxInFlight server.maxInFlight
  maxConcurrentStreams := min client.maxConcurrentStreams server.maxConcurrentStreams
  initialStreamCredit := min client.initialStreamCredit server.initialStreamCredit
  compressionCodecs := client.compressionCodecs &&& server.compressionCodecs
  features := client.features &&& server.features
  diagnosticFeatures := client.diagnosticFeatures &&& server.diagnosticFeatures

theorem min_ne_zero {a b : UInt32} (ha : a ≠ 0) (hb : b ≠ 0) : min a b ≠ 0 := by
  change (if a ≤ b then a else b) ≠ 0
  split_ifs
  · exact ha
  · exact hb

theorem toNat_min_le_right (a b : UInt32) : (min a b).toNat ≤ b.toNat := by
  change (if a ≤ b then a else b).toNat ≤ b.toNat
  split_ifs with h
  · exact UInt32.le_iff_toNat_le.mp h
  · exact le_rfl

/-- The mandatory codec survives the intersection of two masks that offer it. -/
theorem and_and_one_ne_zero {a b : UInt32} (ha : a &&& 1 ≠ 0) (hb : b &&& 1 ≠ 0) :
    a &&& b &&& 1 ≠ 0 := by
  -- the low bit of a mask, read off its value
  have hodd : ∀ x : UInt32, x &&& 1 ≠ 0 ↔ x.toNat.testBit 0 = true := by
    intro x
    rw [ne_eq, ← UInt32.toNat_inj, UInt32.toNat_and]
    change ¬ x.toNat &&& 1 = 0 ↔ _
    rw [Nat.and_one_is_mod, Nat.testBit_zero, decide_eq_true_eq]
    omega
  rw [hodd] at ha hb ⊢
  rw [UInt32.toNat_and, Nat.testBit_and, ha, hb, Bool.and_self]

theorem Valid.negotiate {client server : PeerSettings} (hclient : client.Valid)
    (hserver : server.Valid) : (client.negotiate server).Valid := by
  obtain ⟨h₁, h₂, h₃, h₄, h₅, h₆, h₇⟩ := hclient
  obtain ⟨k₁, k₂, k₃, k₄, k₅, k₆, k₇⟩ := hserver
  exact ⟨min_ne_zero h₁ k₁, min_ne_zero h₂ k₂, min_ne_zero h₃ k₃, min_ne_zero h₄ k₄,
    min_ne_zero h₅ k₅, min_ne_zero h₆ k₆, and_and_one_ne_zero h₇ k₇⟩

end PeerSettings

/-- The settings a connection runs under: valid ones, whichever peer announced
the smaller limits. -/
structure Negotiated extends PeerSettings where
  valid : toPeerSettings.Valid

end MoonLightBridge.Protocol
