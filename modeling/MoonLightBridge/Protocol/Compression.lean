import MoonLightBridge.Protocol.Metadata

/-!
# Payload compression

The bounded compression policy of the protocol crate (`src/compression.rs`).
The Zstandard library is a parameter: a partial compressor and decompressor of
which nothing is assumed but that decompression undoes compression.
-/

namespace MoonLightBridge.Protocol

/-- The Zstandard library: `bulk::compress` at a level, and `bulk::decompress`
into a buffer of the given capacity. -/
structure Zstd where
  compress : ℤ → Bytes → Option Bytes
  decompress : Bytes → ℕ → Option Bytes
  decompress_compress : ∀ level payload compressed, compress level payload = some compressed →
    decompress compressed payload.length = some payload

/-- Compression codec of one frame payload. -/
inductive CompressionCodec
  | none
  | zstd
  deriving DecidableEq, Repr

/-- The `repr(u8)` discriminant. -/
def CompressionCodec.toU8 : CompressionCodec → UInt8
  | .none => 0
  | .zstd => 1

inductive CompressionError
  | invalidPolicy
  | invalidBudget
  | unknownCodec (value : UInt8)
  | codecFailure
  | corruptPayload
  | decodedLengthTooLarge (announced maximum : UInt32)
  | decodedLengthMismatch (announced : UInt32) (actual : ℕ)
  | expansionRatioExceeded (compressed : ℕ) (decoded maximumRatio : UInt32)
  | decodedBudgetExhausted (requested available : ℕ)
  deriving DecidableEq, Repr

/-- `CompressionCodec::try_from` -/
def CompressionCodec.tryFrom (value : UInt8) : Except CompressionError CompressionCodec :=
  if value = 0 then .ok .none
  else if value = 1 then .ok .zstd
  else .error (.unknownCodec value)

/-- Process-shared decoded-byte admission budget. -/
structure DecodedByteBudget where
  capacity : ℕ
  used : ℕ
  used_le : used ≤ capacity

namespace DecodedByteBudget

/-- The bytes that can still be reserved. -/
def available (budget : DecodedByteBudget) : ℕ := budget.capacity - budget.used

/-- `try_reserve`, once its compare-and-exchange has succeeded: the budget while
the permit is held. The sum is at most the capacity, a `usize`. -/
def tryReserve (budget : DecodedByteBudget) (requested : ℕ) :
    Except CompressionError DecodedByteBudget :=
  if h : budget.available < requested then
    .error (.decodedBudgetExhausted requested budget.available)
  else .ok {
    capacity := budget.capacity
    used := budget.used + requested
    used_le := by
      have := budget.used_le
      unfold available at h
      omega }

theorem tryReserve_of_le {budget : DecodedByteBudget} {requested : ℕ}
    (h : requested ≤ budget.available) :
    ∃ reserved, budget.tryReserve requested = .ok reserved := by
  rw [tryReserve, dif_neg (not_lt.mpr h)]
  exact ⟨_, rfl⟩

end DecodedByteBudget

/-- Bounded compression settings applied after negotiation. -/
structure CompressionPolicy where
  minPayloadBytes : ℕ
  minSavingsBytes : ℕ
  maxDecodedBodyLen : UInt32
  maxExpansionRatio : UInt32
  compressionLevel : ℤ
  deriving DecidableEq, Repr

/-- Result of applying a policy to an owned payload. -/
structure CompressedPayload where
  codec : CompressionCodec
  originalLen : UInt32
  bytes : Bytes
  deriving DecidableEq, Repr

namespace CompressionPolicy

def default : CompressionPolicy where
  minPayloadBytes := 1024
  minSavingsBytes := 64
  maxDecodedBodyLen := 16 * 1024 * 1024
  maxExpansionRatio := 64
  compressionLevel := 1

def validate (policy : CompressionPolicy) : Except CompressionError Unit :=
  if policy.maxDecodedBodyLen = 0 ∨ policy.maxExpansionRatio = 0 then .error .invalidPolicy
  else .ok ()

/-- The compressed form saves enough bytes and does not expand too much. -/
def isAcceptable (policy : CompressionPolicy) (payload compressed : Bytes) : Bool :=
  let worthwhile := (checkedAdd compressed.length policy.minSavingsBytes).any
    fun minimumOriginal => decide (minimumOriginal ≤ payload.length)
  let withinRatio :=
    decide (payload.length ≤ compressed.length * policy.maxExpansionRatio.toNat)
  worthwhile && withinRatio

/-- Compress a payload when codec, threshold and savings permit it. -/
def encode (zstd : Zstd) (policy : CompressionPolicy) (payload : Bytes)
    (codec : CompressionCodec) : Except CompressionError CompressedPayload :=
  match policy.validate with
  | .error error => .error error
  | .ok () =>
    if payload.length ≥ 2 ^ 32 then
      .error (.decodedLengthTooLarge 0xFFFFFFFF policy.maxDecodedBodyLen)
    else
      let originalLen := UInt32.ofNat payload.length
      if policy.maxDecodedBodyLen < originalLen then
        .error (.decodedLengthTooLarge originalLen policy.maxDecodedBodyLen)
      else if codec = .none ∨ payload.length < policy.minPayloadBytes then
        .ok { codec := .none, originalLen, bytes := payload }
      else
        match zstd.compress policy.compressionLevel payload with
        | none => .error .codecFailure
        | some compressed =>
          if policy.isAcceptable payload compressed then
            .ok { codec, originalLen, bytes := compressed }
          else .ok { codec := .none, originalLen, bytes := payload }

/-- Decode a payload; also returns the number of bytes the permit holds that
the caller keeps. -/
def decodeWithReservation (zstd : Zstd) (policy : CompressionPolicy) (codec : CompressionCodec)
    (encoded : Bytes) (originalLen : UInt32) (budget : DecodedByteBudget) :
    Except CompressionError (Bytes × Option ℕ) :=
  match policy.validate with
  | .error error => .error error
  | .ok () =>
    if policy.maxDecodedBodyLen < originalLen then
      .error (.decodedLengthTooLarge originalLen policy.maxDecodedBodyLen)
    else if codec = .none then
      if encoded.length ≠ originalLen.toNat then
        .error (.decodedLengthMismatch originalLen encoded.length)
      else .ok (encoded, none)
    else if encoded.length * policy.maxExpansionRatio.toNat < originalLen.toNat then
      .error (.expansionRatioExceeded encoded.length originalLen policy.maxExpansionRatio)
    else
      match budget.tryReserve originalLen.toNat with
      | .error error => .error error
      | .ok _ =>
        -- a permit that is not returned is dropped, and its bytes are free again
        match zstd.decompress encoded originalLen.toNat with
        | none => .error .corruptPayload
        | some decoded =>
          if decoded.length ≠ originalLen.toNat then
            .error (.decodedLengthMismatch originalLen decoded.length)
          else .ok (decoded, some originalLen.toNat)

/-- The policy accepts a payload and leaves it uncompressed. -/
def Keeps (zstd : Zstd) (policy : CompressionPolicy) (payload : Bytes) : Prop :=
  ∃ result, policy.encode zstd payload .zstd = .ok result ∧ result.codec = .none

variable {zstd : Zstd} {policy : CompressionPolicy} {payload : Bytes}
  {result : CompressedPayload}

theorem isAcceptable_iff {compressed : Bytes} :
    policy.isAcceptable payload compressed = true ↔
      compressed.length + policy.minSavingsBytes ≤ usizeMax ∧
        compressed.length + policy.minSavingsBytes ≤ payload.length ∧
          payload.length ≤ compressed.length * policy.maxExpansionRatio.toNat := by
  simp only [isAcceptable, checkedAdd, Bool.and_eq_true, decide_eq_true_eq]
  split_ifs with h <;> simp [h]

/-- Successful encodings are one of two: the payload as it was, or a
compressed form that is acceptable for a payload of at least the threshold. -/
theorem encode_eq_ok (h : policy.encode zstd payload .zstd = .ok result) :
    (result.codec = .none ∧ result.bytes = payload) ∨
      (result.codec = .zstd ∧ policy.minPayloadBytes ≤ payload.length ∧
        zstd.compress policy.compressionLevel payload = some result.bytes ∧
          policy.isAcceptable payload result.bytes = true) := by
  unfold encode at h
  split at h
  · cases h
  · simp only [reduceCtorEq, false_or] at h
    split_ifs at h with hlength hmax hsmall
    · cases h
      exact Or.inl ⟨rfl, rfl⟩
    · split at h
      · cases h
      · rename_i compressed hcompress
        split_ifs at h with hacceptable
        · cases h
          exact Or.inr ⟨rfl, not_lt.mp hsmall, hcompress, hacceptable⟩
        · cases h
          exact Or.inl ⟨rfl, rfl⟩

/-- The announced length is that of the payload. -/
theorem originalLen_of_encode {codec : CompressionCodec}
    (h : policy.encode zstd payload codec = .ok result) :
    result.originalLen = UInt32.ofNat payload.length := by
  unfold encode at h
  split at h
  · cases h
  · dsimp only at h
    split_ifs at h with hlength hmax hsmall
    · cases h
      rfl
    · split at h
      · cases h
      · split_ifs at h <;> obtain rfl := Except.ok.inj h <;> rfl

/-- Under a valid policy a payload within the decoded limit can only fail in
the library, and only from the threshold on. -/
theorem encode_eq_error {error : CompressionError}
    (hvalid : policy.validate = .ok ())
    (hlength : payload.length ≤ policy.maxDecodedBodyLen.toNat)
    (h : policy.encode zstd payload .zstd = .error error) :
    policy.minPayloadBytes ≤ payload.length ∧
      zstd.compress policy.compressionLevel payload = none := by
  have hlt : payload.length < 2 ^ 32 := lt_of_le_of_lt hlength policy.maxDecodedBodyLen.toNat_lt
  have hlen : ¬ policy.maxDecodedBodyLen < UInt32.ofNat payload.length := by
    rw [UInt32.lt_iff_toNat_lt, UInt32.toNat_ofNat_of_lt' hlt]
    omega
  unfold encode at h
  simp only [hvalid] at h
  rw [if_neg (not_le.mpr hlt), if_neg hlen] at h
  by_cases hsmall : payload.length < policy.minPayloadBytes
  · -- below the threshold the payload is returned as it is
    rw [if_pos (Or.inr hsmall)] at h
    cases h
  · apply And.intro (not_lt.mp hsmall)
    cases hcompress : zstd.compress policy.compressionLevel payload with
    | none => rfl
    | some compressed =>
      simp only [hsmall, reduceCtorEq, or_self, if_false, hcompress] at h
      split_ifs at h

/-- A compressed payload within the limits is decompressed to what it was
compressed from. -/
theorem decodeWithReservation_of_compress {level : ℤ} {compressed : Bytes}
    {budget : DecodedByteBudget} (hvalid : policy.validate = .ok ())
    (hcompress : zstd.compress level payload = some compressed)
    (hlength : payload.length ≤ policy.maxDecodedBodyLen.toNat)
    (hratio : payload.length ≤ compressed.length * policy.maxExpansionRatio.toNat)
    (hbudget : payload.length ≤ budget.available) :
    policy.decodeWithReservation zstd .zstd compressed (UInt32.ofNat payload.length) budget =
      .ok (payload, some payload.length) := by
  have hlt : payload.length < 2 ^ 32 := lt_of_le_of_lt hlength policy.maxDecodedBodyLen.toNat_lt
  have hlen : (UInt32.ofNat payload.length).toNat = payload.length :=
    UInt32.toNat_ofNat_of_lt' hlt
  have hmax : ¬ policy.maxDecodedBodyLen < UInt32.ofNat payload.length := by
    rw [UInt32.lt_iff_toNat_lt, hlen]
    omega
  obtain ⟨reserved, hreserve⟩ := DecodedByteBudget.tryReserve_of_le hbudget
  have hdecompress := zstd.decompress_compress level payload compressed hcompress
  unfold decodeWithReservation
  simp only [hvalid, hmax, hlen, not_lt.mpr hratio, reduceCtorEq, if_false, hreserve, hdecompress,
    ne_eq, not_true]

end CompressionPolicy

end MoonLightBridge.Protocol
