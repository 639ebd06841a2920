import MoonLightBridge.Data.SortedMap
import MoonLightBridge.Protocol.Frame

/-!
# The metadata block

The protocol crate's bounded metadata prefix (`src/metadata.rs`): an owned map
in canonical key order, its encoder, and the decoder that validates a block in
one pass and copies it in a second one. Positions, counts and lengths are those
of the source, checked additions included.

Names of user entries are Rust strings; they are represented by their UTF-8
bytes, on which both the key check and the key order of the source are defined.
-/

namespace MoonLightBridge.Protocol

def criticalBit : UInt16 := 0x8000

def keyMask : UInt16 := ~~~criticalBit

def userKeyId : UInt16 := 0x7fff

def entryHeaderLen : ℕ := 7

/-- `usize::MAX` of the 64-bit targets the runtime is built for. -/
def usizeMax : ℕ := 2 ^ 64 - 1

/-- `usize::checked_add`. -/
def checkedAdd (a b : ℕ) : Option ℕ := if a + b ≤ usizeMax then some (a + b) else none

/-- `slice::get` of a range. -/
def getRange (bytes : Bytes) (start stop : ℕ) : Option Bytes :=
  if start ≤ stop ∧ stop ≤ bytes.length then some (slice bytes start stop) else none

/-- Local limits applied before metadata values are copied. -/
structure MetadataLimits where
  maxBytes : UInt32
  maxEntries : UInt16
  maxValueBytes : UInt32
  deriving DecidableEq, Repr

def MetadataLimits.default : MetadataLimits where
  maxBytes := 16 * 1024
  maxEntries := 64
  maxValueBytes := 8 * 1024

/-! ### Keys -/

/-- Runtime-owned metadata keys with stable wire identifiers. -/
inductive ReservedMetadataKey
  | deadlineMillis
  | traceContext
  | idempotencyKey
  | authorization
  | requiredScopes
  | compressionCodec
  | originalLength
  | logicalCallId
  | retryAttempt
  | eventCursor
  | eventSequence
  | contentType
  | diagnosticCorrelation
  deriving DecidableEq, Repr

/-- The `repr(u16)` discriminant. -/
def ReservedMetadataKey.toU16 : ReservedMetadataKey → UInt16
  | .deadlineMillis => 1
  | .traceContext => 2
  | .idempotencyKey => 3
  | .authorization => 4
  | .requiredScopes => 5
  | .compressionCodec => 6
  | .originalLength => 7
  | .logicalCallId => 8
  | .retryAttempt => 9
  | .eventCursor => 10
  | .eventSequence => 11
  | .contentType => 12
  | .diagnosticCorrelation => 13

/-- `ReservedMetadataKey::try_from`; the source's error carries no data. -/
def ReservedMetadataKey.tryFrom (value : UInt16) : Option ReservedMetadataKey :=
  match value.toNat with
  | 1 => some .deadlineMillis
  | 2 => some .traceContext
  | 3 => some .idempotencyKey
  | 4 => some .authorization
  | 5 => some .requiredScopes
  | 6 => some .compressionCodec
  | 7 => some .originalLength
  | 8 => some .logicalCallId
  | 9 => some .retryAttempt
  | 10 => some .eventCursor
  | 11 => some .eventSequence
  | 12 => some .contentType
  | 13 => some .diagnosticCorrelation
  | _ => none

@[simp] theorem ReservedMetadataKey.tryFrom_toU16 (key : ReservedMetadataKey) :
    ReservedMetadataKey.tryFrom key.toU16 = some key := by
  cases key <;> rfl

theorem ReservedMetadataKey.toU16_of_tryFrom {value : UInt16} {key : ReservedMetadataKey}
    (h : ReservedMetadataKey.tryFrom value = some key) : key.toU16 = value := by
  apply UInt16.toNat_inj.mp
  unfold tryFrom at h
  split at h <;> simp only [Option.some.injEq, reduceCtorEq] at h <;> subst h <;> symm <;>
    assumption

theorem ReservedMetadataKey.toU16_injective : Function.Injective ReservedMetadataKey.toU16 := by
  intro key key' h
  have := (tryFrom_toU16 key).symm.trans ((congrArg tryFrom h).trans (tryFrom_toU16 key'))
  exact Option.some_inj.mp this

/-- A metadata key: a runtime-owned number, or an application name. -/
inductive MetadataKey
  | reserved (key : ReservedMetadataKey)
  | user (name : Bytes)
  deriving DecidableEq, Repr

namespace MetadataKey

/-- The derived `Ord` of the source: runtime keys in declaration order before
application names in byte order. -/
def lt : MetadataKey → MetadataKey → Bool
  | .reserved key, .reserved key' => key.toU16 < key'.toU16
  | .reserved _, .user _ => true
  | .user _, .reserved _ => false
  | .user name, .user name' => name < name'

/-- The numeric identifier and name under which the wire orders a key. -/
def wireOrder : MetadataKey → ℕ ×ₗ Bytes
  | .reserved key => toLex (key.toU16.toNat, [])
  | .user name => toLex (userKeyId.toNat, name)

theorem reserved_toNat_lt (key : ReservedMetadataKey) :
    key.toU16.toNat < userKeyId.toNat := by
  cases key <;> decide

theorem wireOrder_injective : Function.Injective wireOrder := by
  intro key key' h
  have hpair : ofLex key.wireOrder = ofLex key'.wireOrder := congrArg ofLex h
  cases key with
  | reserved key =>
    cases key' with
    | reserved key' =>
      have hid : key.toU16.toNat = key'.toU16.toNat := congrArg Prod.fst hpair
      rw [ReservedMetadataKey.toU16_injective (UInt16.toNat_inj.mp hid)]
    | user name =>
      exact absurd (congrArg Prod.fst hpair) (reserved_toNat_lt key).ne
  | user name =>
    cases key' with
    | reserved key' =>
      exact absurd (congrArg Prod.fst hpair) (reserved_toNat_lt key').ne'
    | user name' =>
      have hname : name = name' := congrArg Prod.snd hpair
      rw [hname]

/-- The derived order of the map's keys is the order the wire format demands. -/
theorem lt_iff_wireOrder (key key' : MetadataKey) :
    key.lt key' = true ↔ key.wireOrder < key'.wireOrder := by
  cases key with
  | reserved key =>
    cases key' with
    | reserved key' =>
      simp [lt, wireOrder, Prod.Lex.toLex_lt_toLex, UInt16.lt_iff_toNat_lt]
    | user name =>
      simp [lt, wireOrder, Prod.Lex.toLex_lt_toLex, reserved_toNat_lt key]
  | user name =>
    cases key' with
    | reserved key' =>
      -- no runtime key has the number under which user entries travel
      have := reserved_toNat_lt key'
      simp only [lt, wireOrder, Prod.Lex.toLex_lt_toLex, Bool.false_eq_true, false_iff]
      omega
    | user name' =>
      simp [lt, wireOrder, Prod.Lex.toLex_lt_toLex]

instance : LT MetadataKey := ⟨fun key key' => key.lt key' = true⟩

instance : LE MetadataKey := ⟨fun key key' => ¬ key' < key⟩

instance : DecidableLT MetadataKey := fun key key' =>
  inferInstanceAs (Decidable (key.lt key' = true))

instance : DecidableLE MetadataKey := fun key key' =>
  inferInstanceAs (Decidable (¬ key' < key))

theorem lt_def {key key' : MetadataKey} : key < key' ↔ key.wireOrder < key'.wireOrder :=
  lt_iff_wireOrder key key'

theorem le_def {key key' : MetadataKey} : key ≤ key' ↔ key.wireOrder ≤ key'.wireOrder :=
  (not_congr lt_def).trans not_lt

instance : LinearOrder MetadataKey where
  le_refl _ := le_def.mpr le_rfl
  le_trans _ _ _ h h' := le_def.mpr ((le_def.mp h).trans (le_def.mp h'))
  lt_iff_le_not_ge _ _ := by rw [lt_def, le_def, le_def, lt_iff_le_not_ge]
  le_antisymm _ _ h h' := wireOrder_injective ((le_def.mp h).antisymm (le_def.mp h'))
  le_total _ _ := by rw [le_def, le_def]; exact le_total _ _
  toDecidableLE := inferInstance
  toDecidableEq := inferInstance

end MetadataKey

/-! ### User keys -/

/-- Bytes a user key may contain: `a`–`z`, `0`–`9`, `-`, `_` and `.`. -/
def isUserKeyByte (byte : UInt8) : Bool :=
  (97 ≤ byte && byte ≤ 122) || (48 ≤ byte && byte ≤ 57) ||
    byte == 45 || byte == 95 || byte == 46

/-- `validate_user_key`. -/
def validateUserKey (name : Bytes) : Except ProtocolError Unit :=
  if name.isEmpty || name.length > 255 || !name.all isUserKeyByte then
    .error .invalidUserMetadataKey
  else .ok ()

/-- The name of a user entry passes `validate_user_key`. -/
def ValidUserKey (name : Bytes) : Prop :=
  name ≠ [] ∧ name.length ≤ 255 ∧ ∀ byte ∈ name, isUserKeyByte byte = true

theorem validateUserKey_eq_ok {name : Bytes} :
    validateUserKey name = .ok () ↔ ValidUserKey name := by
  unfold validateUserKey ValidUserKey
  split_ifs with h
  · simp only [false_iff]
    rintro ⟨hne, hlen, hbytes⟩
    simp only [Bool.or_eq_true, List.isEmpty_iff, decide_eq_true_eq, Bool.not_eq_eq_eq_not,
      Bool.not_true, List.all_eq_false] at h
    rcases h with (rfl | h) | ⟨byte, hmem, hbyte⟩
    · exact hne rfl
    · omega
    · exact hbyte (hbytes byte hmem)
  · simp only [true_iff]
    simp only [Bool.or_eq_true, List.isEmpty_iff, decide_eq_true_eq, Bool.not_eq_eq_eq_not,
      Bool.not_true, List.all_eq_false, not_or, not_exists, not_and] at h
    exact ⟨h.1.1, by omega, fun byte hmem => by simpa using h.2 byte hmem⟩

theorem validateUserKey_eq_error {name : Bytes} (h : ¬ ValidUserKey name) :
    validateUserKey name = .error .invalidUserMetadataKey := by
  have hne := mt validateUserKey_eq_ok.mp h
  unfold validateUserKey at hne ⊢
  split_ifs at hne ⊢ with hbad
  · rfl
  · exact absurd rfl hne

/-- `std::str::from_utf8`, keeping the bytes of the string. -/
def fromUtf8 (bytes : Bytes) : Option Bytes :=
  if (ByteArray.mk bytes.toArray).validateUTF8 then some bytes else none

/-! ### The owned map -/

/-- Canonically ordered metadata attached to one frame body. Entries only come
from `insertReserved` and `insertUser`, so every user key is valid. -/
@[ext] structure Metadata where
  entries : SortedMap MetadataKey Bytes
  validUserKeys : ∀ name, .user name ∈ entries.keys → ValidUserKey name

namespace Metadata

instance : DecidableEq Metadata := fun m m' =>
  decidable_of_iff (m.entries = m'.entries) Metadata.ext_iff.symm

/-- An empty metadata block. -/
def new : Metadata where
  entries := .empty
  validUserKeys := by
    intro name h
    exact absurd h List.not_mem_nil

def isEmpty (m : Metadata) : Bool := m.entries.toList.isEmpty

/-- The raw value for a key. -/
def get (m : Metadata) (key : MetadataKey) : Option Bytes := m.entries.get? key

/-- The private `insert`, on keys that are valid. -/
def insert (m : Metadata) (key : MetadataKey) (value : Bytes)
    (hkey : ∀ name, key = .user name → ValidUserKey name) : Except ProtocolError Metadata :=
  if (m.entries.get? key).isSome then .error .duplicateMetadataKey
  else .ok {
    entries := m.entries.insert key value
    validUserKeys := by
      intro name hmem
      rcases SortedMap.mem_keys_insert.mp hmem with hnew | hold
      · exact hkey name hnew.symm
      · exact m.validUserKeys name hold }

/-- Add one runtime-owned singleton value. -/
def insertReserved (m : Metadata) (key : ReservedMetadataKey) (value : Bytes) :
    Except ProtocolError Metadata :=
  m.insert (.reserved key) value (by simp)

/-- Add one application value after validating its key. -/
def insertUser (m : Metadata) (name : Bytes) (value : Bytes) : Except ProtocolError Metadata :=
  match h : validateUserKey name with
  | .error error => .error error
  | .ok () => m.insert (.user name) value (by
      rintro name' hname
      cases hname
      exact validateUserKey_eq_ok.mp h)

/-! ### Encoding -/

/-- The bytes of the name an entry carries; runtime keys carry none. -/
def keyName : MetadataKey → Bytes
  | .reserved _ => []
  | .user name => name

/-- The identifier an entry carries; runtime keys are marked critical. -/
def taggedId : MetadataKey → UInt16
  | .reserved key => criticalBit ||| key.toU16
  | .user _ => userKeyId

/-- The encoded length of the entries, added to `total` by checked additions. -/
def encodedLen : ℕ → List (MetadataKey × Bytes) → Except ProtocolError ℕ
  | total, [] => .ok total
  | total, (key, value) :: entries =>
    match ((checkedAdd total entryHeaderLen).bind fun length =>
        checkedAdd length (keyName key).length).bind fun length =>
        checkedAdd length value.length with
    | some length => encodedLen length entries
    | none => .error .invalidMetadataEntryLength

/-- Append the entries to `output`. The result also holds what was appended
before a failure, as the source's buffer does. -/
def encodeEntries : List (MetadataKey × Bytes) → Bytes → Bytes × Except ProtocolError Unit
  | [], output => (output, .ok ())
  | (key, value) :: entries, output =>
    -- `u8::try_from(name.len())`, then `u32::try_from(value.len())`
    if (keyName key).length > 255 then (output, .error .invalidUserMetadataKey)
    else if value.length ≥ 2 ^ 32 then (output, .error .invalidMetadataEntryLength)
    else encodeEntries entries (output ++ (taggedId key).toBeBytes ++
      [UInt8.ofNat (keyName key).length] ++ (UInt32.ofNat value.length).toBeBytes ++
      keyName key ++ value)

/-- Append a length-prefixed canonical metadata block to `output`, returning
the buffer as it is left and the outcome. -/
def encodePrefix (m : Metadata) (output : Bytes) : Bytes × Except ProtocolError Unit :=
  match encodedLen 0 m.entries.toList with
  | .error error => (output, .error error)
  | .ok length =>
    if length ≥ 2 ^ 32 then (output, .error (.metadataTooLarge 0xFFFFFFFF))
    else encodeEntries m.entries.toList (output ++ (UInt32.ofNat length).toBeBytes)

end Metadata

/-! ### Decoding -/

/-- One entry of a block as it stands in the wire buffer. -/
structure RawEntry where
  keyId : UInt16
  critical : Bool
  name : Bytes
  value : Bytes
  valueLen : UInt32
  stop : ℕ
  deriving DecidableEq, Repr

/-- The body of `raw_entry` up to the error, which is the same at every `?`. -/
def parseEntry (block : Bytes) (position : ℕ) : Option RawEntry := do
  let headerEnd ← checkedAdd position entryHeaderLen
  let header ← getRange block position headerEnd
  -- tagged identifier, name length and value length share the seven bytes
  let tagged := UInt16.fromBeBytes (slice header 0 2)
  let nameLen := (header.getD 2 0).toNat
  let valueLen := UInt32.fromBeBytes (slice header 3 7)
  let valueStart ← checkedAdd headerEnd nameLen
  let stop ← checkedAdd valueStart valueLen.toNat
  let name ← getRange block headerEnd valueStart
  let value ← getRange block valueStart stop
  return {
    keyId := tagged &&& keyMask
    critical := tagged &&& criticalBit ≠ 0
    name, value, valueLen, stop }

/-- `raw_entry`: the entry of `block` that starts at `position`. -/
def rawEntry (block : Bytes) (position : ℕ) : Except ProtocolError RawEntry :=
  match parseEntry block position with
  | some entry => .ok entry
  | none => .error .invalidMetadataEntryLength

variable {block : Bytes} {entry : RawEntry} {position : ℕ}

theorem rawEntry_eq_ok :
    rawEntry block position = .ok entry ↔ parseEntry block position = some entry := by
  unfold rawEntry
  cases parseEntry block position <;> simp

theorem parseEntry_eq_some :
    parseEntry block position = some entry ↔
      let header := slice block position (position + entryHeaderLen)
      let nameStart := position + entryHeaderLen
      let valueStart := nameStart + (header.getD 2 0).toNat
      let stop := valueStart + (UInt32.fromBeBytes (slice header 3 7)).toNat
      stop ≤ usizeMax ∧ stop ≤ block.length ∧
        entry = {
          keyId := UInt16.fromBeBytes (slice header 0 2) &&& keyMask
          critical := UInt16.fromBeBytes (slice header 0 2) &&& criticalBit ≠ 0
          name := slice block nameStart valueStart
          value := slice block valueStart stop
          valueLen := UInt32.fromBeBytes (slice header 3 7)
          stop } := by
  simp only [parseEntry, bind, pure, Option.bind_eq_some_iff, checkedAdd, getRange,
    Option.ite_none_right_eq_some, Option.some.injEq]
  constructor
  · rintro ⟨_, ⟨_, rfl⟩, _, ⟨_, rfl⟩, _, ⟨_, rfl⟩, _, ⟨hmax, rfl⟩, _, ⟨_, rfl⟩, _, ⟨hstop, rfl⟩,
      rfl⟩
    exact ⟨hmax, hstop.2, rfl⟩
  · -- the bound on `stop` implies the bounds on all earlier positions
    rintro ⟨hmax, hstop, rfl⟩
    refine ⟨_, ⟨by omega, rfl⟩, _, ⟨by omega, rfl⟩, _, ⟨by omega, rfl⟩, _, ⟨hmax, rfl⟩,
      _, ⟨by omega, rfl⟩, _, ⟨by omega, rfl⟩, rfl⟩

/-- An entry the parser returns lies after `position` and inside the block, so
both decoding loops make progress. -/
theorem rawEntry_stop (h : rawEntry block position = .ok entry) :
    position < entry.stop ∧ entry.stop ≤ block.length := by
  obtain ⟨-, hstop, rfl⟩ := parseEntry_eq_some.mp (rawEntry_eq_ok.mp h)
  refine ⟨?_, hstop⟩
  simp only [entryHeaderLen]
  omega

/-- The check of one entry against its predecessor: keys strictly increase. -/
def checkOrder (previous : Option (UInt16 × Bytes)) (entry : RawEntry) :
    Except ProtocolError Unit :=
  match previous with
  | none => .ok ()
  | some (previousId, previousName) =>
    -- `(previous_id, previous_name).cmp(&(key_id, name))`
    let order := (cmp previousId entry.keyId).then (cmp previousName entry.name)
    if order.isGE then
      .error (if order.isEq then .duplicateMetadataKey else .nonCanonicalMetadataOrder)
    else .ok ()

/-- The check of one entry's own key. -/
def checkKey (entry : RawEntry) : Except ProtocolError Unit :=
  if entry.keyId = userKeyId then
    match fromUtf8 entry.name with
    | none => .error .invalidUserMetadataKey
    | some name => validateUserKey name
  else if !entry.name.isEmpty then .error .invalidUserMetadataKey
  else
    match ReservedMetadataKey.tryFrom entry.keyId with
    | some _ => .ok ()
    | none =>
      -- an unknown key is an error only if its sender marked it critical
      if entry.critical then .error (.unknownCriticalMetadataKey entry.keyId) else .ok ()

/-- The validation loop: the entries from `position` on, after `count` entries
of which the last had the given key. -/
def validateEntries (block : Bytes) (limits : MetadataLimits) (position : ℕ) (count : UInt16)
    (previous : Option (UInt16 × Bytes)) : Except ProtocolError Unit :=
  if position < block.length then
    -- `count.checked_add(1)`
    if count = 0xFFFF then .error (.tooManyMetadataEntries 0xFFFF)
    else if limits.maxEntries < count + 1 then .error (.tooManyMetadataEntries (count + 1))
    else
      match _h : rawEntry block position with
      | .error error => .error error
      | .ok entry =>
        if limits.maxValueBytes < entry.valueLen then
          .error (.metadataValueTooLarge entry.valueLen)
        else
          match checkOrder previous entry with
          | .error error => .error error
          | .ok () =>
            match checkKey entry with
            | .error error => .error error
            | .ok () =>
              validateEntries block limits entry.stop (count + 1) (some (entry.keyId, entry.name))
  else .ok ()
termination_by block.length - position
decreasing_by
  have := rawEntry_stop _h
  omega

/-- A validated block that still borrows its wire buffer. -/
structure ValidatedMetadata where
  block : Bytes
  deriving DecidableEq, Repr

/-- Validate a bounded metadata prefix; also returns the application payload. -/
def Metadata.validate (input : Bytes) (limits : MetadataLimits) :
    Except ProtocolError (ValidatedMetadata × Bytes) :=
  match getRange input 0 4 with
  | none => .error (.invalidMetadataLength 0 input.length)
  | some lengthBytes =>
    let announced := UInt32.fromBeBytes lengthBytes
    let available := input.length - 4
    if available < announced.toNat then .error (.invalidMetadataLength announced available)
    else if limits.maxBytes < announced then .error (.metadataTooLarge announced)
    else
      let block := slice input 4 (4 + announced.toNat)
      match validateEntries block limits 0 0 none with
      | .error error => .error error
      | .ok () => .ok (⟨block⟩, input.drop (4 + announced.toNat))

/-- The entries `reserved_entries` yields from `position` on. -/
def reservedEntriesFrom (block : Bytes) (position : ℕ) : List (ReservedMetadataKey × Bytes) :=
  if position < block.length then
    match _h : rawEntry block position with
    -- `.ok()?` ends the iteration
    | .error _ => []
    | .ok entry =>
      match ReservedMetadataKey.tryFrom entry.keyId with
      | some key => (key, entry.value) :: reservedEntriesFrom block entry.stop
      | none => reservedEntriesFrom block entry.stop
  else []
termination_by block.length - position
decreasing_by all_goals
  have := rawEntry_stop _h
  omega

/-- The known runtime-owned values of a validated block. -/
def ValidatedMetadata.reservedEntries (validated : ValidatedMetadata) :
    List (ReservedMetadataKey × Bytes) :=
  reservedEntriesFrom validated.block 0

/-- The owned key of an entry; unknown optional entries have none. -/
def RawEntry.key? (entry : RawEntry) : Except ProtocolError (Option MetadataKey) :=
  if entry.keyId = userKeyId then
    match fromUtf8 entry.name with
    | none => .error .invalidUserMetadataKey
    | some name => .ok (some (.user name))
  -- `Err(_) => None`: the entry is skipped
  else .ok ((ReservedMetadataKey.tryFrom entry.keyId).map .reserved)

/-- The copying loop of `into_metadata`. The names it inserts were validated
before; the owned map checks them once more when it takes them. -/
def copyEntries (block : Bytes) (position : ℕ) (metadata : Metadata) :
    Except ProtocolError Metadata :=
  if position < block.length then
    match _h : rawEntry block position with
    | .error error => .error error
    | .ok entry =>
      match entry.key? with
      | .error error => .error error
      | .ok none => copyEntries block entry.stop metadata
      | .ok (some (.reserved key)) =>
        match metadata.insertReserved key entry.value with
        | .error error => .error error
        | .ok metadata => copyEntries block entry.stop metadata
      | .ok (some (.user name)) =>
        match metadata.insertUser name entry.value with
        | .error error => .error error
        | .ok metadata => copyEntries block entry.stop metadata
  else .ok metadata
termination_by block.length - position
decreasing_by all_goals
  have := rawEntry_stop _h
  omega

/-- Copy the validated entries into an owned metadata block. -/
def ValidatedMetadata.intoMetadata (validated : ValidatedMetadata) :
    Except ProtocolError Metadata :=
  copyEntries validated.block 0 Metadata.new

/-- Decode a bounded metadata prefix and return the remaining payload. -/
def Metadata.decode (input : Bytes) (limits : MetadataLimits) :
    Except ProtocolError (Metadata × Bytes) :=
  match Metadata.validate input limits with
  | .error error => .error error
  | .ok (validated, payload) =>
    match validated.intoMetadata with
    | .error error => .error error
    | .ok metadata => .ok (metadata, payload)

end MoonLightBridge.Protocol
