import MoonLightBridge.Protocol.Compression

/-!
# Payload compression in the Java client

`MoonLightCompression`, written from its source: the options record, `encode`,
`decode` and the decoded-byte budget. Both languages bind the same Zstandard
library, which is a parameter here as it is for the server.

The `int` quantities are natural numbers: array lengths are below `2 ^ 31`, and
the two products and sums the source forms are computed as `long`.
-/

namespace MoonLightBridge.Client

open Protocol

/-- `MoonLightCompression.Codec` -/
inductive Codec
  | none
  | zstd
  deriving DecidableEq, Repr

namespace Codec

def wireValue : Codec → UInt8
  | .none => 0
  | .zstd => 1

/-- `Codec.fromWire`, on an unsigned byte; it throws for every other value. -/
def fromWire (value : UInt8) : Option Codec := [Codec.none, .zstd].find? (·.wireValue = value)

end Codec

/-- `MoonLightCompression.Options`; its constructor refuses limits below one. -/
structure CompressionOptions where
  minPayloadBytes : ℕ
  minSavingsBytes : ℕ
  maxDecodedBodyLength : ℕ
  maxExpansionRatio : ℕ
  compressionLevel : ℤ
  positive : 1 ≤ maxDecodedBodyLength ∧ 1 ≤ maxExpansionRatio

/-- `Options.defaults()` -/
def CompressionOptions.defaults : CompressionOptions where
  minPayloadBytes := 1024
  minSavingsBytes := 64
  maxDecodedBodyLength := 16 * 1024 * 1024
  maxExpansionRatio := 64
  compressionLevel := 1
  positive := by decide

/-- `MoonLightCompression.Encoded` -/
structure Encoded where
  codec : Codec
  originalLength : ℕ
  bytes : Bytes
  deriving DecidableEq, Repr

/-- The `IOException`s of `encode`, `decode` and `reserve`. -/
inductive CompressionException
  | payloadTooLarge
  | compressionFailed
  | announcedTooLarge
  | uncompressedLengthMismatch
  | ratioExceeded
  | budgetExhausted
  | corruptPayload
  | decodedLengthMismatch
  deriving DecidableEq, Repr

def CompressionException.getMessage : CompressionException → String
  | .payloadTooLarge => "payload exceeds decoded body limit"
  | .compressionFailed => "zstd compression failed"
  | .announcedTooLarge => "announced decoded length exceeds limit"
  | .uncompressedLengthMismatch => "uncompressed payload length mismatch"
  | .ratioExceeded => "announced decoded-to-encoded ratio exceeds limit"
  | .budgetExhausted => "decoded byte budget exhausted"
  | .corruptPayload => "corrupt zstd payload"
  | .decodedLengthMismatch => "decoded payload length mismatch"

/-- `DecodedByteBudget`: what is reserved never exceeds the capacity. -/
structure DecodedByteBudget where
  capacity : ℕ
  used : ℕ
  used_le : used ≤ capacity

namespace DecodedByteBudget

/-- The bytes that can still be reserved. -/
def available (budget : DecodedByteBudget) : ℕ := budget.capacity - budget.used

/-- `reserve`, once its compare-and-set has succeeded. -/
def reserve (budget : DecodedByteBudget) (requested : ℕ) :
    Except CompressionException DecodedByteBudget :=
  if h : budget.available < requested then .error .budgetExhausted
  else .ok {
    capacity := budget.capacity
    used := budget.used + requested
    used_le := by
      have := budget.used_le
      unfold available at h
      omega }

theorem reserve_of_le {budget : DecodedByteBudget} {requested : ℕ}
    (h : requested ≤ budget.available) : ∃ reserved, budget.reserve requested = .ok reserved := by
  rw [reserve, dif_neg (not_lt.mpr h)]
  exact ⟨_, rfl⟩

end DecodedByteBudget

namespace CompressionOptions

/-- `MoonLightCompression.encode` -/
def encode (zstd : Zstd) (payload : Bytes) (codec : Codec) (options : CompressionOptions) :
    Except CompressionException Encoded :=
  if options.maxDecodedBodyLength < payload.length then .error .payloadTooLarge
  else if codec = .none ∨ payload.length < options.minPayloadBytes then
    .ok ⟨.none, payload.length, payload⟩
  else
    match zstd.compress options.compressionLevel payload with
    | none => .error .compressionFailed
    | some compressed =>
      let worthwhile := decide (compressed.length + options.minSavingsBytes ≤ payload.length)
      let withinRatio :=
        decide (payload.length ≤ compressed.length * options.maxExpansionRatio)
      if worthwhile && withinRatio then .ok ⟨codec, payload.length, compressed⟩
      else .ok ⟨.none, payload.length, payload⟩

/-- `MoonLightCompression.decode`. The reservation is closed on every path out
of it, so the budget is afterwards what it was. -/
def decode (zstd : Zstd) (encoded : Encoded) (options : CompressionOptions)
    (budget : DecodedByteBudget) : Except CompressionException Bytes :=
  if options.maxDecodedBodyLength < encoded.originalLength then .error .announcedTooLarge
  else if encoded.codec = .none then
    if encoded.bytes.length ≠ encoded.originalLength then .error .uncompressedLengthMismatch
    else .ok encoded.bytes
  else if encoded.bytes.length * options.maxExpansionRatio < encoded.originalLength then
    .error .ratioExceeded
  else
    match budget.reserve encoded.originalLength with
    | .error error => .error error
    | .ok _ =>
      match zstd.decompress encoded.bytes encoded.originalLength with
      | none => .error .corruptPayload
      | some decoded =>
        if decoded.length ≠ encoded.originalLength then .error .decodedLengthMismatch
        else .ok decoded

variable {zstd : Zstd} {options : CompressionOptions} {payload : Bytes} {encoded : Encoded}

/-- What `encode` can return: the payload as it was, or a compressed form that
is within the expansion ratio. -/
theorem encode_eq_ok {codec : Codec} (h : encode zstd payload codec options = .ok encoded) :
    payload.length ≤ options.maxDecodedBodyLength ∧ encoded.originalLength = payload.length ∧
      ((encoded.codec = .none ∧ encoded.bytes = payload) ∨
        (encoded.codec = .zstd ∧ codec = .zstd ∧
          zstd.compress options.compressionLevel payload = some encoded.bytes ∧
          payload.length ≤ encoded.bytes.length * options.maxExpansionRatio)) := by
  unfold encode at h
  split_ifs at h with hlarge hsmall
  · cases h
    exact ⟨not_lt.mp hlarge, rfl, Or.inl ⟨rfl, rfl⟩⟩
  · rw [not_or] at hsmall
    refine ⟨not_lt.mp hlarge, ?_⟩
    split at h
    · exact absurd h (by simp)
    · rename_i compressed hcompress
      dsimp only at h
      split_ifs at h with haccept
      · cases h
        rw [Bool.and_eq_true, decide_eq_true_eq, decide_eq_true_eq] at haccept
        have hcodec : codec = .zstd := by
          cases codec with
          | none => exact absurd rfl hsmall.1
          | zstd => rfl
        exact ⟨rfl, Or.inr ⟨hcodec, hcodec, hcompress, haccept.2⟩⟩
      · cases h
        exact ⟨rfl, Or.inl ⟨rfl, rfl⟩⟩

/-- A compressed payload within the limits is decompressed to what it was
compressed from. -/
theorem decode_of_compress {level : ℤ} {compressed : Bytes} {budget : DecodedByteBudget}
    (hcompress : zstd.compress level payload = some compressed)
    (hlength : payload.length ≤ options.maxDecodedBodyLength)
    (hratio : payload.length ≤ compressed.length * options.maxExpansionRatio)
    (hbudget : payload.length ≤ budget.available) :
    decode zstd ⟨.zstd, payload.length, compressed⟩ options budget = .ok payload := by
  obtain ⟨reserved, hreserve⟩ := DecodedByteBudget.reserve_of_le hbudget
  have hdecompress := zstd.decompress_compress level payload compressed hcompress
  unfold decode
  simp only [not_lt.mpr hlength, not_lt.mpr hratio, reduceCtorEq, if_false, hreserve, hdecompress,
    ne_eq, not_true]

end CompressionOptions

end MoonLightBridge.Client
