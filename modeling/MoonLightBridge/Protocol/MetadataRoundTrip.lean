import MoonLightBridge.Protocol.MetadataGrammar

/-!
# Encoding and decoding metadata

The encoder writes a block of the grammar or leaves its output alone, and the
decoder reads that block back exactly when its limits admit it.
-/

namespace MoonLightBridge.Protocol

namespace Metadata

/-- The encoded length of one entry. -/
def entryLen (pair : MetadataKey × Bytes) : ℕ :=
  entryHeaderLen + (keyName pair.1).length + pair.2.length

/-- The encoded length of all entries, without the length prefix. -/
def blockLen (m : Metadata) : ℕ := (m.entries.toList.map entryLen).sum

/-- The three limits admit the block that `m` is encoded to. -/
def Admitted (limits : MetadataLimits) (m : Metadata) : Prop :=
  m.blockLen ≤ limits.maxBytes.toNat ∧ m.entries.toList.length ≤ limits.maxEntries.toNat ∧
    ∀ pair ∈ m.entries.toList, pair.2.length ≤ limits.maxValueBytes.toNat

instance (limits : MetadataLimits) (m : Metadata) : Decidable (m.Admitted limits) :=
  inferInstanceAs (Decidable (_ ∧ _ ∧ _))

/-! ### The length pass -/

/-- Checked additions one after the other fail exactly if their sum does. -/
theorem checkedAdd_bind_bind (a b c d : ℕ) :
    ((checkedAdd a b).bind fun length => checkedAdd length c).bind
      (fun length => checkedAdd length d) = checkedAdd a (b + c + d) := by
  unfold checkedAdd
  by_cases hsum : a + (b + c + d) ≤ usizeMax
  · rw [if_pos (by omega), Option.bind_some, if_pos (by omega), Option.bind_some,
      if_pos (by omega), if_pos hsum]
    simp only [Option.some.injEq]
    omega
  · -- if all three additions succeeded, so would their sum
    rw [if_neg hsum, Option.eq_none_iff_forall_ne_some]
    intro length hlength
    simp only [Option.bind_eq_some_iff, Option.ite_none_right_eq_some,
      Option.some.injEq] at hlength
    obtain ⟨_, ⟨_, ⟨_, rfl⟩, _, rfl⟩, _, rfl⟩ := hlength
    omega

theorem encodedLen_eq (entries : List (MetadataKey × Bytes)) (total : ℕ)
    (htotal : total ≤ usizeMax) :
    encodedLen total entries =
      if total + (entries.map entryLen).sum ≤ usizeMax then
        .ok (total + (entries.map entryLen).sum)
      else .error .invalidMetadataEntryLength := by
  induction entries generalizing total with
  | nil => simp [encodedLen, htotal]
  | cons pair entries ih =>
    obtain ⟨key, value⟩ := pair
    rw [encodedLen, checkedAdd_bind_bind, checkedAdd, List.map_cons, List.sum_cons,
      show entryLen (key, value) = entryHeaderLen + (keyName key).length + value.length from rfl]
    by_cases hfits : total + (entryHeaderLen + (keyName key).length + value.length) ≤ usizeMax
    · rw [if_pos hfits]
      simp only
      rw [ih _ hfits, add_assoc]
    · rw [if_neg hfits, if_neg (by omega)]

/-! ### The writing pass -/

/-- An entry whose lengths fit their fields. -/
def Encodable (pair : MetadataKey × Bytes) : Prop :=
  (∀ name, pair.1 = .user name → ValidUserKey name) ∧ pair.2.length < 2 ^ 32

theorem Encodable.length_keyName_lt {pair : MetadataKey × Bytes} (h : Encodable pair) :
    (keyName pair.1).length < 2 ^ 8 := by
  obtain ⟨key, value⟩ := pair
  cases key with
  | reserved key => simp [keyName]
  | user name =>
    have := (h.1 name rfl).2.1
    simp only [keyName]
    omega

/-- The entry of the grammar that a map entry is written as. -/
def wireEntry (pair : MetadataKey × Bytes) (h : Encodable pair) : Entry where
  taggedId := taggedId pair.1
  name := keyName pair.1
  value := pair.2
  name_lt := h.length_keyName_lt
  value_lt := h.2

theorem length_wire_wireEntry (pair : MetadataKey × Bytes) (h : Encodable pair) :
    (wireEntry pair h).wire.length = entryLen pair :=
  Entry.length_wire _

/-- The identifier of a key on the wire. -/
def wireId : MetadataKey → UInt16
  | .reserved key => key.toU16
  | .user _ => userKeyId

theorem wireId_reserved_ne (key : ReservedMetadataKey) : wireId (.reserved key) ≠ userKeyId :=
  fun heq => (MetadataKey.reserved_toNat_lt key).ne (congrArg UInt16.toNat heq)

theorem keyId_wireEntry (pair : MetadataKey × Bytes) (h : Encodable pair) :
    (wireEntry pair h).keyId = wireId pair.1 := by
  have hmask : ∀ key : MetadataKey, taggedId key &&& keyMask = wireId key := by
    intro key
    cases key with
    | reserved key => cases key <;> decide
    | user name => exact (by decide : userKeyId &&& keyMask = userKeyId)
  exact hmask pair.1

theorem keyOk_wireEntry (pair : MetadataKey × Bytes) (h : Encodable pair) :
    (wireEntry pair h).KeyOk := by
  unfold Entry.KeyOk
  rw [keyId_wireEntry]
  obtain ⟨key, value⟩ := pair
  cases key with
  | reserved key =>
    rw [if_neg (wireId_reserved_ne key)]
    simp [wireEntry, keyName, wireId]
  | user name => exact h.1 name rfl

/-- Decoding an entry that was written gives the map entry back. -/
theorem owned_wireEntry (pair : MetadataKey × Bytes) (h : Encodable pair) :
    (wireEntry pair h).owned = some pair := by
  unfold Entry.owned
  rw [keyId_wireEntry]
  obtain ⟨key, value⟩ := pair
  cases key with
  | reserved key =>
    rw [if_neg (wireId_reserved_ne key)]
    simp [wireEntry, wireId]
  | user name => rfl

theorem sortKey_wireEntry (pair : MetadataKey × Bytes) (h : Encodable pair) :
    (wireEntry pair h).sortKey = pair.1.wireOrder :=
  (wireOrder_of_mem_owned (keyOk_wireEntry pair h) (owned_wireEntry pair h)).1.symm

/-- The grammar's entries of a list of map entries. -/
def wireEntries (pairs : List (MetadataKey × Bytes)) (h : ∀ pair ∈ pairs, Encodable pair) :
    List Entry :=
  pairs.pmap wireEntry h

theorem encodeEntries_eq (pairs : List (MetadataKey × Bytes))
    (h : ∀ pair ∈ pairs, Encodable pair) (output : Bytes) :
    encodeEntries pairs output = (output ++ (wireEntries pairs h).flatMap Entry.wire, .ok ()) := by
  induction pairs generalizing output with
  | nil => simp [encodeEntries, wireEntries]
  | cons pair pairs ih =>
    obtain ⟨key, value⟩ := pair
    obtain ⟨hpair, hpairs⟩ := List.forall_mem_cons.mp h
    have hname : ¬ (keyName key).length > 255 := by
      have := hpair.length_keyName_lt
      simp only at this
      omega
    rw [encodeEntries, if_neg hname, if_neg (not_le.mpr hpair.2), ih hpairs]
    simp [wireEntries, wireEntry, Entry.wire, Entry.header]

theorem length_flatMap_wireEntries (pairs : List (MetadataKey × Bytes))
    (h : ∀ pair ∈ pairs, Encodable pair) :
    ((wireEntries pairs h).flatMap Entry.wire).length = (pairs.map entryLen).sum := by
  induction pairs with
  | nil => rfl
  | cons pair pairs ih =>
    obtain ⟨hpair, hpairs⟩ := List.forall_mem_cons.mp h
    have htail := ih hpairs
    simp only [wireEntries, List.pmap_cons, List.flatMap_cons, List.length_append,
      length_wire_wireEntry, List.map_cons, List.sum_cons] at htail ⊢
    rw [htail]

/-! ### The encoder -/

variable {m : Metadata}

/-- Entries of a block shorter than 4 GiB are encodable. -/
theorem encodable_of_blockLen_lt (hlen : m.blockLen < 2 ^ 32) :
    ∀ pair ∈ m.entries.toList, Encodable pair := by
  intro pair hmem
  refine ⟨fun name hname => m.validUserKeys name ?_, ?_⟩
  · exact hname ▸ List.mem_map_of_mem hmem
  · have hle : entryLen pair ≤ m.blockLen :=
      List.single_le_sum (by simp) _ (List.mem_map_of_mem hmem)
    have : pair.2.length ≤ entryLen pair := by
      rw [entryLen]
      omega
    omega

/-- The block appended by the encoder: a length and the entries. -/
def block (m : Metadata) (hlen : m.blockLen < 2 ^ 32) : Bytes :=
  (UInt32.ofNat m.blockLen).toBeBytes ++
    (wireEntries m.entries.toList (encodable_of_blockLen_lt hlen)).flatMap Entry.wire

theorem length_block (m : Metadata) (hlen : m.blockLen < 2 ^ 32) :
    (m.block hlen).length = 4 + m.blockLen := by
  rw [block, List.length_append, UInt32.length_toBeBytes, length_flatMap_wireEntries]
  rfl

theorem encodePrefix_eq_ok (hlen : m.blockLen < 2 ^ 32) (output : Bytes) :
    m.encodePrefix output = (output ++ m.block hlen, .ok ()) := by
  unfold encodePrefix
  rw [encodedLen_eq _ 0 (Nat.zero_le _), zero_add]
  -- a 32-bit length never overflows `usize`
  change (m.entries.toList.map entryLen).sum < 2 ^ 32 at hlen
  rw [if_pos (by rw [usizeMax]; omega)]
  simp only
  rw [if_neg (by omega), encodeEntries_eq _ (encodable_of_blockLen_lt hlen), List.append_assoc]
  rfl

theorem encodePrefix_eq_error (hlen : 2 ^ 32 ≤ m.blockLen) :
    ∃ error, ∀ output, m.encodePrefix output = (output, .error error) := by
  unfold encodePrefix
  rw [encodedLen_eq _ 0 (Nat.zero_le _), zero_add]
  by_cases hmax : (m.entries.toList.map entryLen).sum ≤ usizeMax
  · -- the length is computed, but does not fit its field
    refine ⟨.metadataTooLarge 0xFFFFFFFF, fun output => ?_⟩
    simp only [if_pos hmax]
    exact if_pos hlen
  · exact ⟨.invalidMetadataEntryLength, fun output => by simp only [if_neg hmax]⟩

/-! ### The round trip -/

theorem block_append (hlen : m.blockLen < 2 ^ 32) (payload : Bytes) :
    m.block hlen ++ payload =
      (UInt32.ofNat ((wireEntries m.entries.toList (encodable_of_blockLen_lt hlen)).flatMap
        Entry.wire).length).toBeBytes ++
      ((wireEntries m.entries.toList (encodable_of_blockLen_lt hlen)).flatMap Entry.wire ++
        payload) := by
  rw [length_flatMap_wireEntries, block, List.append_assoc]
  rfl

/-- The limits admit a block exactly if it belongs to the grammar under them. -/
theorem isBlock_iff_admitted (hlen : m.blockLen < 2 ^ 32) (limits : MetadataLimits)
    (payload : Bytes) :
    IsBlock limits (wireEntries m.entries.toList (encodable_of_blockLen_lt hlen)) payload
      (m.block hlen ++ payload) ↔ m.Admitted limits := by
  have hencodable := encodable_of_blockLen_lt hlen
  have hlength := length_flatMap_wireEntries m.entries.toList hencodable
  constructor
  · rintro ⟨-, hbytes, hcount, hcanonical⟩
    rw [hlength] at hbytes
    refine ⟨hbytes, by simpa [wireEntries] using hcount, fun pair hmem => ?_⟩
    exact (hcanonical.admissible (wireEntry pair (hencodable pair hmem))
      (List.mem_pmap.mpr ⟨pair, hmem, rfl⟩)).1
  · rintro ⟨hbytes, hcount, hvalues⟩
    refine ⟨?_, by rw [hlength]; exact hbytes, by simpa [wireEntries] using hcount, ?_, ?_⟩
    · exact block_append hlen payload
    · intro e he
      obtain ⟨pair, hmem, rfl⟩ := List.mem_pmap.mp he
      exact ⟨hvalues pair hmem, keyOk_wireEntry pair _⟩
    · -- the map's own key order is the order of the wire
      have hkeys : (wireEntries m.entries.toList hencodable).map Entry.sortKey =
          (m.entries.toList.map Prod.fst).map MetadataKey.wireOrder := by
        simp [wireEntries, List.map_pmap, sortKey_wireEntry, List.pmap_eq_map]
      rw [hkeys, List.pairwise_map]
      exact m.entries.increasing.imp fun h => MetadataKey.lt_def.mp h

theorem filterMap_owned_wireEntries (pairs : List (MetadataKey × Bytes))
    (h : ∀ pair ∈ pairs, Encodable pair) :
    (wireEntries pairs h).filterMap Entry.owned = pairs := by
  induction pairs with
  | nil => rfl
  | cons pair pairs ih =>
    obtain ⟨hpair, hpairs⟩ := List.forall_mem_cons.mp h
    have htail := ih hpairs
    simp only [wireEntries, List.pmap_cons] at htail ⊢
    rw [List.filterMap_cons_some (owned_wireEntry pair hpair), htail]

/-- The runtime-owned part of a map entry. -/
def reservedPair : MetadataKey × Bytes → Option (ReservedMetadataKey × Bytes)
  | (.reserved key, value) => some (key, value)
  | (.user _, _) => none

theorem reserved_wireEntry (pair : MetadataKey × Bytes) (h : Encodable pair) :
    (wireEntry pair h).reserved = reservedPair pair := by
  unfold Entry.reserved
  rw [keyId_wireEntry]
  obtain ⟨key, value⟩ := pair
  cases key with
  | reserved key => simp [wireId, reservedPair, wireEntry]
  | user name => rfl

theorem filterMap_reserved_wireEntries (pairs : List (MetadataKey × Bytes))
    (h : ∀ pair ∈ pairs, Encodable pair) :
    (wireEntries pairs h).filterMap Entry.reserved = pairs.filterMap reservedPair := by
  induction pairs with
  | nil => rfl
  | cons pair pairs ih =>
    obtain ⟨hpair, hpairs⟩ := List.forall_mem_cons.mp h
    have htail := ih hpairs
    simp only [wireEntries, List.pmap_cons] at htail ⊢
    rw [List.filterMap_cons, List.filterMap_cons, reserved_wireEntry, htail]

/-- A block within the limits is validated, and the validated view gives the
runtime values and, copied, the whole map. -/
theorem validate_block (hlen : m.blockLen < 2 ^ 32) {limits : MetadataLimits}
    (hadmitted : m.Admitted limits) (payload : Bytes) :
    ∃ validated, validate (m.block hlen ++ payload) limits = .ok (validated, payload) ∧
      validated.reservedEntries = m.entries.toList.filterMap reservedPair ∧
      validated.intoMetadata = .ok m := by
  have hblock := (isBlock_iff_admitted hlen limits payload).mpr hadmitted
  have hencodable := encodable_of_blockLen_lt hlen
  refine ⟨⟨(wireEntries m.entries.toList hencodable).flatMap Entry.wire⟩,
    validate_eq_ok_iff.mpr ⟨_, hblock, rfl⟩, ?_, ?_⟩
  · have hsize := lt_of_le_of_lt hblock.length_le limits.maxBytes.toNat_lt
    rw [ValidatedMetadata.reservedEntries,
      reservedEntriesFrom_flatMap_wire (by rw [usizeMax]; omega) List.drop_zero,
      filterMap_reserved_wireEntries]
  · obtain ⟨m', hcopy, hlist⟩ := hblock.copyEntries_eq_ok
    rw [filterMap_owned_wireEntries] at hlist
    rw [ValidatedMetadata.intoMetadata, hcopy, Metadata.ext (SortedMap.ext hlist)]

/-- Decoding what was encoded succeeds exactly under the limits that admit the
block, and then gives back the map and the payload. -/
theorem decode_block_eq_ok_iff (hlen : m.blockLen < 2 ^ 32) (limits : MetadataLimits)
    (payload : Bytes) (result : Metadata × Bytes) :
    decode (m.block hlen ++ payload) limits = .ok result ↔
      m.Admitted limits ∧ result = (m, payload) := by
  obtain ⟨m', payload'⟩ := result
  rw [decode_eq_ok_iff, ← isBlock_iff_admitted hlen limits payload]
  constructor
  · rintro ⟨entries, hblock, hlist⟩
    -- the input is this map's block, so every reading of it is
    obtain ⟨rfl, rfl⟩ := hblock.unique
      (by rw [length_flatMap_wireEntries]; exact hlen) (block_append hlen payload)
    rw [filterMap_owned_wireEntries] at hlist
    obtain rfl : m' = m := Metadata.ext (SortedMap.ext hlist)
    exact ⟨hblock, rfl⟩
  · rintro ⟨hblock, hresult⟩
    cases hresult
    exact ⟨_, hblock, (filterMap_owned_wireEntries _ _).symm⟩

/-- The encoder fails and leaves its output as it was, or appends one block:
the length of the entries and the entries. The decoder gives the map and the
payload back if the limits admit the block, and fails otherwise. -/
theorem encodePrefix_decode (m : Metadata) :
    (2 ^ 32 ≤ m.blockLen ∧ ∃ error, ∀ output, m.encodePrefix output = (output, .error error)) ∨
      ∃ body : Bytes, body.length = m.blockLen ∧
        (∀ output, m.encodePrefix output =
          (output ++ ((UInt32.ofNat m.blockLen).toBeBytes ++ body), .ok ())) ∧
        ∀ payload limits,
          (m.Admitted limits →
            decode ((UInt32.ofNat m.blockLen).toBeBytes ++ body ++ payload) limits =
              .ok (m, payload)) ∧
          (¬ m.Admitted limits → ∃ error,
            decode ((UInt32.ofNat m.blockLen).toBeBytes ++ body ++ payload) limits =
              .error error) := by
  by_cases hlen : m.blockLen < 2 ^ 32
  · right
    refine ⟨_, length_flatMap_wireEntries _ (encodable_of_blockLen_lt hlen),
      encodePrefix_eq_ok hlen, fun payload limits => ⟨fun hadmitted => ?_, fun hadmitted => ?_⟩⟩
    · exact (decode_block_eq_ok_iff hlen limits payload _).mpr ⟨hadmitted, rfl⟩
    · cases hdecode : decode (m.block hlen ++ payload) limits with
      | error error => exact ⟨error, hdecode⟩
      | ok result =>
        exact absurd ((decode_block_eq_ok_iff hlen limits payload result).mp hdecode).1 hadmitted
  · exact Or.inl ⟨not_lt.mp hlen, encodePrefix_eq_error (not_lt.mp hlen)⟩

/-! ### Insertions and re-encoding -/

theorem isEmpty_iff : m.isEmpty = true ↔ m = new := by
  rw [isEmpty, List.isEmpty_iff]
  constructor
  · intro h
    exact Metadata.ext (SortedMap.ext h)
  · rintro rfl
    rfl

variable {key : MetadataKey} {m' : Metadata} {value : Bytes}

/-- Insertion fails exactly on keys that are present; otherwise it makes the
block longer by the new entry. -/
theorem insert_eq_ok_iff {hkey : ∀ name, key = .user name → ValidUserKey name} :
    m.insert key value hkey = .ok m' ↔
      key ∉ m.entries.keys ∧ m'.entries = m.entries.insert key value := by
  unfold insert
  by_cases hmem : key ∈ m.entries.keys
  · have hsome : (m.entries.get? key).isSome = true := by
      rw [Option.isSome_iff_ne_none, ne_eq, SortedMap.get?_eq_none_iff, not_not]
      exact hmem
    simp [hsome, hmem]
  · have hnone : m.entries.get? key = none := SortedMap.get?_eq_none_iff.mpr hmem
    simp only [hnone, Option.isSome_none, Bool.false_eq_true, if_false, Except.ok.injEq, hmem,
      not_false_eq_true, true_and]
    constructor
    · rintro rfl
      rfl
    · intro h
      exact Metadata.ext h.symm

theorem mem_keys_of_insert {hkey : ∀ name, key = .user name → ValidUserKey name}
    (h : m.insert key value hkey = .ok m') {x : MetadataKey} :
    x ∈ m'.entries.keys ↔ x = key ∨ x ∈ m.entries.keys := by
  rw [(insert_eq_ok_iff.mp h).2]
  exact SortedMap.mem_keys_insert

theorem blockLen_of_insert {hkey : ∀ name, key = .user name → ValidUserKey name}
    (h : m.insert key value hkey = .ok m') : m'.blockLen = entryLen (key, value) + m.blockLen := by
  obtain ⟨hnew, hentries⟩ := insert_eq_ok_iff.mp h
  -- wherever the entry is put, the entries are the old ones and it
  have hperm := (SortedMap.insertEntry_perm (v := value) hnew).map entryLen
  rw [blockLen, hentries, SortedMap.insert]
  exact hperm.sum_eq

theorem entryLen_of_mem_owned {e : Entry} (h : e.KeyOk) {pair : MetadataKey × Bytes}
    (hmem : pair ∈ e.owned) : entryLen pair = e.wire.length := by
  unfold Entry.owned at hmem
  unfold Entry.KeyOk at h
  rw [Entry.length_wire]
  by_cases huser : e.keyId = userKeyId
  · simp only [huser, if_true, Option.mem_def, Option.some.injEq] at hmem
    subst hmem
    rfl
  · -- runtime entries have no name on the wire either
    simp only [huser, if_false, Option.mem_def, Option.map_eq_some_iff] at hmem h
    obtain ⟨key, -, rfl⟩ := hmem
    simp [entryLen, keyName, h.1]

/-- Only unknown optional entries are dropped, so the known ones are never
longer than all of them. -/
theorem sum_entryLen_owned_le {entries : List Entry} (hkeys : ∀ e ∈ entries, e.KeyOk) :
    ((entries.filterMap Entry.owned).map entryLen).sum ≤
      (entries.flatMap Entry.wire).length := by
  induction entries with
  | nil => simp
  | cons e entries ih =>
    obtain ⟨hkey, hkeys⟩ := List.forall_mem_cons.mp hkeys
    have htail := ih hkeys
    rw [List.flatMap_cons, List.length_append]
    cases howned : e.owned with
    | none =>
      rw [List.filterMap_cons_none howned]
      omega
    | some pair =>
      rw [List.filterMap_cons_some howned, List.map_cons, List.sum_cons,
        entryLen_of_mem_owned hkey howned]
      omega

/-- What the decoder returns is within its limits and, encoded again, not
longer than what it read. -/
theorem blockLen_of_decode {input payload : Bytes} {limits : MetadataLimits}
    (h : decode input limits = .ok (m, payload)) :
    m.blockLen ≤ limits.maxBytes.toNat ∧ 4 + m.blockLen + payload.length ≤ input.length := by
  obtain ⟨entries, hblock, hlist⟩ := decode_eq_ok_iff.mp h
  have hle : m.blockLen ≤ (entries.flatMap Entry.wire).length := by
    rw [blockLen, hlist]
    exact sum_entryLen_owned_le fun e he => (hblock.canonical.admissible e he).2
  have hlength := congrArg List.length hblock.input_eq
  simp only [List.length_append, UInt32.length_toBeBytes] at hlength
  exact ⟨hle.trans hblock.length_le, by omega⟩

end Metadata

end MoonLightBridge.Protocol
