import MoonLightBridge.Protocol.Metadata

/-!
# Metadata in the Java client

The client's own metadata decoder (`MoonLightMetadata.decode`), written from its
source: positions in the wrapped buffer, a sorted tree map of wire keys, and key
checks on the `String` that `US_ASCII` makes of the name bytes.

A Java `String` is the list of its UTF-16 code units. The `int` and `long`
quantities are natural numbers: a Java array is shorter than `2 ^ 31`, and every
sum formed by the decoder is bounded by the array before it is narrowed.
-/

namespace MoonLightBridge.Client

open Protocol

/-- The UTF-16 code units of a Java string. -/
abbrev JString := List UInt16

/-- The code units of a literal. -/
def units (text : String) : JString := text.toList.map fun c => UInt16.ofNat c.toNat

/-- `new String(bytes, US_ASCII)`: bytes outside ASCII become U+FFFD. -/
def asciiString (bytes : Bytes) : JString :=
  bytes.map fun byte => if byte < 0x80 then byte.toUInt16 else 0xFFFD

/-! ### Keys -/

/-- Runtime-owned metadata keys. -/
inductive ReservedKey
  | deadlineMillis
  | traceContext
  | idempotencyKey
  | authorization
  | requiredScopes
  | compressionCodec
  | originalLength
  | logicalCallId
  | retryAttempt
  | eventCursor
  | eventSequence
  | contentType
  | diagnosticCorrelation
  deriving DecidableEq, Repr

namespace ReservedKey

def wireId : ReservedKey → ℕ
  | .deadlineMillis => 1
  | .traceContext => 2
  | .idempotencyKey => 3
  | .authorization => 4
  | .requiredScopes => 5
  | .compressionCodec => 6
  | .originalLength => 7
  | .logicalCallId => 8
  | .retryAttempt => 9
  | .eventCursor => 10
  | .eventSequence => 11
  | .contentType => 12
  | .diagnosticCorrelation => 13

/-- The constants in declaration order. -/
def values : List ReservedKey :=
  [.deadlineMillis, .traceContext, .idempotencyKey, .authorization, .requiredScopes,
    .compressionCodec, .originalLength, .logicalCallId, .retryAttempt, .eventCursor,
    .eventSequence, .contentType, .diagnosticCorrelation]

/-- `ReservedKey.fromWire`; `none` is `null`. -/
def fromWire (value : ℕ) : Option ReservedKey := values.find? fun key => key.wireId = value

theorem wireId_injective : Function.Injective wireId := by
  intro key key' h
  cases key <;> cases key' <;> first | rfl | cases h

end ReservedKey

/-- A key of the client's map. -/
inductive WireKey
  | reserved (key : ReservedKey)
  | user (name : JString)
  deriving DecidableEq, Repr

namespace WireKey

/-- `WireKey.compareTo`. -/
def compareTo : WireKey → WireKey → Ordering
  | .reserved _, .user _ => .lt
  | .user _, .reserved _ => .gt
  | .reserved key, .reserved key' => cmp key.wireId key'.wireId
  | .user name, .user name' => cmp name name'

/-- Where a key stands in the comparator's order. -/
def rank : WireKey → ℕ ×ₗ JString
  | .reserved key => toLex (key.wireId, [])
  | .user name => toLex (userKeyId.toNat, name)

theorem reserved_wireId_lt (key : ReservedKey) : key.wireId < userKeyId.toNat := by
  cases key <;> decide

theorem rank_injective : Function.Injective rank := by
  intro key key' h
  have hpair : ofLex key.rank = ofLex key'.rank := congrArg ofLex h
  cases key with
  | reserved key =>
    cases key' with
    | reserved key' => rw [ReservedKey.wireId_injective (congrArg Prod.fst hpair)]
    | user name => exact absurd (congrArg Prod.fst hpair) (reserved_wireId_lt key).ne
  | user name =>
    cases key' with
    | reserved key' => exact absurd (congrArg Prod.fst hpair) (reserved_wireId_lt key').ne'
    | user name' => rw [show name = name' from congrArg Prod.snd hpair]

instance : LinearOrder WireKey := LinearOrder.lift' rank rank_injective

theorem lt_def {key key' : WireKey} : key < key' ↔ key.rank < key'.rank := Iff.rfl

/-- The order of the map is the one its comparator defines. -/
theorem compareTo_eq_lt_iff (key key' : WireKey) : key.compareTo key' = .lt ↔ key < key' := by
  rw [lt_def]
  cases key with
  | reserved key =>
    cases key' with
    | reserved key' => simp [compareTo, rank, Prod.Lex.toLex_lt_toLex]
    | user name => simp [compareTo, rank, Prod.Lex.toLex_lt_toLex, reserved_wireId_lt key]
  | user name =>
    cases key' with
    | reserved key' =>
      have := reserved_wireId_lt key'
      simp only [compareTo, rank, Prod.Lex.toLex_lt_toLex, reduceCtorEq, false_iff]
      omega
    | user name' =>
      -- `String.compareTo` is the lexicographic order of the code units
      simp only [compareTo, rank, Prod.Lex.toLex_lt_toLex, cmp, cmpUsing]
      by_cases hlt : name < name'
      · simp [hlt]
      · simp only [hlt, if_false]
        split_ifs <;> simp

end WireKey

/-! ### The decoder -/

/-- The failures of `decode`; all are `IOException`s. -/
inductive DecodeException
  | truncatedLength
  | lengthExceedsBody
  | byteLimit
  | entryLimit
  | truncatedEntryHeader
  | entryExceedsBlock
  | valueLimit
  | duplicateKey
  | nonCanonicalOrder
  | invalidUserKey
  | reservedKeyHasName
  | unknownCriticalKey (keyId : UInt16)
  deriving DecidableEq, Repr

def DecodeException.getMessage : DecodeException → String
  | .truncatedLength => "truncated metadata length"
  | .lengthExceedsBody => "metadata length exceeds frame body"
  | .byteLimit => "metadata exceeds byte limit"
  | .entryLimit => "metadata exceeds entry limit"
  | .truncatedEntryHeader => "truncated metadata entry header"
  | .entryExceedsBlock => "metadata entry exceeds block"
  | .valueLimit => "metadata value exceeds limit"
  | .duplicateKey => "duplicate singleton metadata key"
  | .nonCanonicalOrder => "non-canonical metadata order"
  | .invalidUserKey => "invalid user metadata key"
  | .reservedKeyHasName => "reserved metadata key has a name"
  | .unknownCriticalKey keyId => "unknown critical metadata key " ++ toString keyId.toNat

/-- `record Limits`, whose constructor refuses limits below one. -/
structure Limits where
  maxBytes : ℕ
  maxEntries : ℕ
  maxValueBytes : ℕ
  positive : 1 ≤ maxBytes ∧ 1 ≤ maxEntries ∧ 1 ≤ maxValueBytes

/-- The code units a user key may contain. -/
def isUserKeyUnit (value : UInt16) : Bool :=
  (97 ≤ value && value ≤ 122) || (48 ≤ value && value ≤ 57) ||
    value == 45 || value == 95 || value == 46

/-- The namespace that user code cannot use. -/
def reservedNamespace : JString := units "moonlight-"

/-- `validateUserKey`: the message of the `IllegalArgumentException`, if any. -/
def validateUserKey (name : JString) : Except String Unit :=
  -- unlike the Rust check, this one refuses a whole namespace
  if name.isEmpty || name.length > 255 || reservedNamespace.isPrefixOf name then
    .error "invalid or reserved metadata key"
  else if !name.all isUserKeyUnit then .error "metadata key must be lowercase ASCII"
  else .ok ()

/-- Read one entry at the buffer's position: the header, and the bytes it
announces if the block has them. The source allocates them only after the value
limit was checked. -/
def readEntry (input : Bytes) (blockEnd position : ℕ) : Except DecodeException RawEntry :=
  if blockEnd - position < entryHeaderLen then .error .truncatedEntryHeader
  else
    -- the header is read off the buffer even where the entry turns out too long
    let header := slice input position (position + entryHeaderLen)
    let taggedId := UInt16.fromBeBytes (slice header 0 2)
    let nameLength := (header.getD 2 0).toNat
    let valueLength := UInt32.fromBeBytes (slice header 3 7)
    let nameStart := position + entryHeaderLen
    let entryEnd := nameStart + nameLength + valueLength.toNat
    if blockEnd < entryEnd then .error .entryExceedsBlock
    else .ok {
      keyId := taggedId &&& keyMask
      critical := taggedId &&& criticalBit ≠ 0
      name := slice input nameStart (nameStart + nameLength)
      value := slice input (nameStart + nameLength) entryEnd
      valueLen := valueLength
      stop := entryEnd }

/-- Keys strictly increase; `none` stands for a `null` previous name. -/
def checkOrder (previous : Option (UInt16 × Bytes)) (entry : RawEntry) :
    Except DecodeException Unit :=
  match previous with
  | none => .ok ()
  | some (previousKeyId, previousName) =>
    let order := (cmp previousKeyId entry.keyId).then (cmp previousName entry.name)
    if order.isGE then
      .error (if order.isEq then .duplicateKey else .nonCanonicalOrder)
    else .ok ()

/-- The key to store an entry under; `none` where the loop continues without
storing it. -/
def wireKey (entry : RawEntry) : Except DecodeException (Option WireKey) :=
  if entry.keyId = userKeyId then
    match validateUserKey (asciiString entry.name) with
    | .error _ => .error .invalidUserKey
    | .ok () => .ok (some (.user (asciiString entry.name)))
  else if entry.name.length ≠ 0 then .error .reservedKeyHasName
  else
    match ReservedKey.fromWire entry.keyId.toNat with
    -- an unknown optional key still counts and becomes the previous key
    | none => if entry.critical then .error (.unknownCriticalKey entry.keyId) else .ok none
    | some key => .ok (some (.reserved key))

theorem readEntry_stop {input : Bytes} {blockEnd position : ℕ} {entry : RawEntry}
    (h : readEntry input blockEnd position = .ok entry) :
    position < entry.stop ∧ entry.stop ≤ blockEnd := by
  unfold readEntry at h
  split_ifs at h with hheader
  simp only at h
  split_ifs at h with hend
  cases h
  refine ⟨?_, not_lt.mp hend⟩
  simp only [entryHeaderLen]
  omega

/-- The loop of `decode`. -/
def decodeEntries (input : Bytes) (limits : Limits) (blockEnd position count : ℕ)
    (previous : Option (UInt16 × Bytes)) (decoded : SortedMap WireKey Bytes) :
    Except DecodeException (SortedMap WireKey Bytes) :=
  if position < blockEnd then
    -- the count is an `int` that never gets near its maximum
    if limits.maxEntries < count + 1 then .error .entryLimit
    else
      match _h : readEntry input blockEnd position with
      | .error error => .error error
      | .ok entry =>
        if limits.maxValueBytes < entry.valueLen.toNat then .error .valueLimit
        else
          match checkOrder previous entry with
          | .error error => .error error
          | .ok () =>
            match wireKey entry with
            | .error error => .error error
            | .ok none =>
              decodeEntries input limits blockEnd entry.stop (count + 1)
                (some (entry.keyId, entry.name)) decoded
            | .ok (some key) =>
              decodeEntries input limits blockEnd entry.stop (count + 1)
                (some (entry.keyId, entry.name)) (decoded.insert key entry.value)
  else .ok decoded
termination_by blockEnd - position
decreasing_by all_goals
  have := readEntry_stop _h
  omega

/-- `MoonLightMetadata.decode`: the entries and the remaining payload. -/
def decode (input : Bytes) (limits : Limits) :
    Except DecodeException (SortedMap WireKey Bytes × Bytes) :=
  if input.length < 4 then .error .truncatedLength
  else
    let announced := (UInt32.fromBeBytes (slice input 0 4)).toNat
    let available := input.length - 4
    if available < announced then .error .lengthExceedsBody
    else if limits.maxBytes < announced then .error .byteLimit
    else
      let blockEnd := 4 + announced
      match decodeEntries input limits blockEnd 4 0 none .empty with
      | .error error => .error error
      | .ok decoded => .ok (decoded, slice input blockEnd input.length)

end MoonLightBridge.Client
