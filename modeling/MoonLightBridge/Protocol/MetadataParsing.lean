import MoonLightBridge.Protocol.MetadataGrammar

/-!
# What the metadata parser accepts

The grammar of metadata blocks in terms of the bytes alone: which identifiers,
names and tags an entry may have, without reference to the tables of the
parser. `Metadata.validate` accepts exactly the inputs that begin with such a
block, and its loop ends on every input, because each iteration reads at least
the header of an entry.
-/

namespace MoonLightBridge.Protocol

/-! ### The grammar -/

/-- The characters of a user key. -/
def userKeyCharacters : Bytes := "abcdefghijklmnopqrstuvwxyz0123456789._-".toUTF8.data.toList

/-- The entries that a block may consist of. -/
structure WellFormed (limits : MetadataLimits) (entries : List Entry) : Prop where
  count_le : entries.length ≤ limits.maxEntries.toNat
  value_le : ∀ e ∈ entries, e.value.length ≤ limits.maxValueBytes.toNat
  /-- keys strictly increase, by identifier and then by name -/
  increasing : entries.Pairwise fun e e' =>
    e.keyId < e'.keyId ∨ e.keyId = e'.keyId ∧ e.name < e'.name
  user_name : ∀ e ∈ entries, e.keyId = 0x7fff →
    1 ≤ e.name.length ∧ e.name.length ≤ 255 ∧ ∀ byte ∈ e.name, byte ∈ userKeyCharacters
  other_name : ∀ e ∈ entries, e.keyId ≠ 0x7fff → e.name = []
  /-- an identifier that is not known must not be critical -/
  optional : ∀ e ∈ entries, e.keyId ≠ 0x7fff → ¬ (1 ≤ e.keyId ∧ e.keyId ≤ 13) →
    e.taggedId &&& 0x8000 = 0

theorem mem_userKeyCharacters {byte : UInt8} :
    byte ∈ userKeyCharacters ↔ isUserKeyByte byte = true := by
  have hall : ∀ n : Fin 256, UInt8.ofNat n ∈ userKeyCharacters ↔
      isUserKeyByte (UInt8.ofNat n) = true := by
    decide +kernel
  simpa using hall ⟨byte.toNat, byte.toNat_lt⟩

/-- The table of runtime keys has the identifiers from 1 to 13. -/
theorem ReservedMetadataKey.tryFrom_eq_none_iff {value : UInt16} :
    ReservedMetadataKey.tryFrom value = none ↔ ¬ (1 ≤ value ∧ value ≤ 13) := by
  rw [UInt16.le_iff_toNat_le, UInt16.le_iff_toNat_le]
  change _ ↔ ¬ (1 ≤ value.toNat ∧ value.toNat ≤ 13)
  unfold ReservedMetadataKey.tryFrom
  generalize value.toNat = id
  constructor
  · rintro hnone ⟨hlow, hhigh⟩
    interval_cases id <;> cases hnone
  · intro hrange
    split
    case h_14 => rfl
    all_goals exact absurd ⟨by decide, by decide⟩ hrange

theorem critical_eq_false_iff {e : Entry} : e.critical = false ↔ e.taggedId &&& 0x8000 = 0 := by
  rw [Entry.critical, decide_eq_false_iff_not, not_not]
  rfl

/-- The parser's conditions on one entry, read off its identifier. -/
theorem keyOk_iff {e : Entry} :
    e.KeyOk ↔ (e.keyId = 0x7fff →
        1 ≤ e.name.length ∧ e.name.length ≤ 255 ∧ ∀ byte ∈ e.name, byte ∈ userKeyCharacters) ∧
      (e.keyId ≠ 0x7fff → e.name = []) ∧
      (e.keyId ≠ 0x7fff → ¬ (1 ≤ e.keyId ∧ e.keyId ≤ 13) → e.taggedId &&& 0x8000 = 0) := by
  simp only [mem_userKeyCharacters, ← ReservedMetadataKey.tryFrom_eq_none_iff,
    ← critical_eq_false_iff]
  unfold Entry.KeyOk ValidUserKey
  by_cases huser : e.keyId = userKeyId
  · rw [if_pos huser]
    have hid : e.keyId = 0x7fff := huser
    simp [hid, Nat.one_le_iff_ne_zero]
  · rw [if_neg huser]
    have hid : e.keyId ≠ 0x7fff := huser
    simp [hid]

theorem sortKey_lt_iff {e e' : Entry} :
    e.sortKey < e'.sortKey ↔ e.keyId < e'.keyId ∨ e.keyId = e'.keyId ∧ e.name < e'.name := by
  rw [Entry.sortKey, Entry.sortKey, Prod.Lex.toLex_lt_toLex]
  simp only [UInt16.lt_iff_toNat_lt, UInt16.toNat_inj]

theorem wellFormed_iff {limits : MetadataLimits} {entries : List Entry} :
    WellFormed limits entries ↔
      entries.length ≤ limits.maxEntries.toNat ∧ Canonical limits entries := by
  constructor
  · intro h
    refine ⟨h.count_le, fun e he => ⟨h.value_le e he, keyOk_iff.mpr ?_⟩, ?_⟩
    · exact ⟨h.user_name e he, h.other_name e he, h.optional e he⟩
    · rw [List.pairwise_map]
      exact h.increasing.imp sortKey_lt_iff.mpr
  · rintro ⟨hcount, hadmissible, hincreasing⟩
    rw [List.pairwise_map] at hincreasing
    have hkey (e : Entry) (he : e ∈ entries) := keyOk_iff.mp (hadmissible e he).2
    exact {
      count_le := hcount
      value_le := fun e he => (hadmissible e he).1
      increasing := hincreasing.imp sortKey_lt_iff.mp
      user_name := fun e he => (hkey e he).1
      other_name := fun e he => (hkey e he).2.1
      optional := fun e he => (hkey e he).2.2 }

/-! ### The loop -/

/-- One iteration of the loop of `Metadata::validate`. -/
def validateEntry (block : Bytes) (limits : MetadataLimits) (position : ℕ) (count : UInt16)
    (previous : Option (UInt16 × Bytes)) : Except ProtocolError RawEntry :=
  if count = 0xFFFF then .error (.tooManyMetadataEntries 0xFFFF)
  else if limits.maxEntries < count + 1 then .error (.tooManyMetadataEntries (count + 1))
  else
    match rawEntry block position with
    | .error error => .error error
    | .ok entry =>
      if limits.maxValueBytes < entry.valueLen then
        .error (.metadataValueTooLarge entry.valueLen)
      else
        match checkOrder previous entry with
        | .error error => .error error
        | .ok () =>
          match checkKey entry with
          | .error error => .error error
          | .ok () => .ok entry

/-- The loop, for at most `fuel` tests of its condition; `none` if it has not ended then. -/
def validateWithin (block : Bytes) (limits : MetadataLimits) :
    ℕ → ℕ → UInt16 → Option (UInt16 × Bytes) → Option (Except ProtocolError Unit)
  | 0, _, _, _ => none
  | fuel + 1, position, count, previous =>
    if position < block.length then
      match validateEntry block limits position count previous with
      | .error error => some (.error error)
      | .ok entry =>
        validateWithin block limits fuel entry.stop (count + 1) (some (entry.keyId, entry.name))
    else some (.ok ())

section Loop

variable {block : Bytes} {limits : MetadataLimits} {position : ℕ} {count : UInt16}
  {previous : Option (UInt16 × Bytes)} {entry : RawEntry}

/-- The loop is its iterations, one after the other. -/
theorem validateEntries_of_lt (hposition : position < block.length) :
    validateEntries block limits position count previous =
      match validateEntry block limits position count previous with
      | .error error => .error error
      | .ok entry =>
        validateEntries block limits entry.stop (count + 1) (some (entry.keyId, entry.name)) := by
  rw [validateEntries, if_pos hposition]
  unfold validateEntry
  split_ifs
  · rfl
  · rfl
  · split
    · rename_i hraw
      rw [hraw]
    · rename_i entry hraw
      rw [hraw]
      dsimp only
      split_ifs
      · rfl
      · cases checkOrder previous entry with
        | error error => rfl
        | ok _ => cases checkKey entry <;> rfl

/-- An iteration reads at least the header of an entry. -/
theorem stop_of_validateEntry
    (h : validateEntry block limits position count previous = .ok entry) :
    position + entryHeaderLen ≤ entry.stop ∧ entry.stop ≤ block.length := by
  have hraw : rawEntry block position = .ok entry := by
    unfold validateEntry at h
    split_ifs at h
    cases hraw : rawEntry block position with
    | error error =>
      rw [hraw] at h
      cases h
    | ok other =>
      rw [hraw] at h
      dsimp only at h
      split_ifs at h
      cases horder : checkOrder previous other with
      | error error =>
        rw [horder] at h
        cases h
      | ok _ =>
        cases hkey : checkKey other with
        | error error =>
          rw [horder, hkey] at h
          cases h
        | ok _ =>
          rw [horder, hkey] at h
          exact h
  obtain ⟨-, hstop, rfl⟩ := parseEntry_eq_some.mp (rawEntry_eq_ok.mp hraw)
  refine ⟨?_, hstop⟩
  simp only
  omega

/-- The loop ends: it tests its condition at most once more than there are bytes. -/
theorem validateWithin_eq_some {fuel : ℕ} (h : block.length - position < fuel) :
    validateWithin block limits fuel position count previous =
      some (validateEntries block limits position count previous) := by
  induction fuel generalizing position count previous with
  | zero => exact absurd h (Nat.not_lt_zero _)
  | succ fuel ih =>
    rw [validateWithin]
    by_cases hposition : position < block.length
    · rw [if_pos hposition, validateEntries_of_lt hposition]
      cases hentry : validateEntry block limits position count previous with
      | error error => rfl
      | ok entry =>
        -- the rest of the block is shorter by a header at least
        obtain ⟨hstart, hstop⟩ := stop_of_validateEntry hentry
        apply ih
        rw [entryHeaderLen] at hstart
        omega
    · rw [if_neg hposition, validateEntries, if_neg hposition]

end Loop

/-! ### Acceptance -/

/-- The parser accepts exactly the inputs that consist of a length within the limit, that many
bytes of well-formed entries, and any payload. On every input its loop ends. -/
theorem validate_accepts_grammar (input : Bytes) (limits : MetadataLimits) :
    ((∃ result, Metadata.validate input limits = .ok result) ↔
      ∃ (length : UInt32) (entries : List Entry) (payload : Bytes),
        input = length.toBeBytes ++ entries.flatMap Entry.wire ++ payload ∧
          length ≤ limits.maxBytes ∧ (entries.flatMap Entry.wire).length = length.toNat ∧
            WellFormed limits entries) ∧
      ∀ block : Bytes, validateWithin block limits (block.length + 1) 0 0 none =
        some (validateEntries block limits 0 0 none) := by
  refine ⟨?_, fun block => validateWithin_eq_some (Nat.lt_succ_of_le (Nat.sub_le _ _))⟩
  constructor
  · rintro ⟨⟨validated, payload⟩, hok⟩
    obtain ⟨entries, hblock, -⟩ := validate_eq_ok_iff.mp hok
    have hlt := lt_of_le_of_lt hblock.length_le limits.maxBytes.toNat_lt
    have hlength : (UInt32.ofNat (entries.flatMap Entry.wire).length).toNat =
        (entries.flatMap Entry.wire).length := Nat.mod_eq_of_lt hlt
    refine ⟨UInt32.ofNat (entries.flatMap Entry.wire).length, entries, payload, ?_, ?_,
      hlength.symm, wellFormed_iff.mpr ⟨hblock.count_le, hblock.canonical⟩⟩
    · rw [List.append_assoc]
      exact hblock.input_eq
    · rw [UInt32.le_iff_toNat_le, hlength]
      exact hblock.length_le
  · rintro ⟨length, entries, payload, rfl, hmax, hlength, hwellFormed⟩
    obtain ⟨hcount, hcanonical⟩ := wellFormed_iff.mp hwellFormed
    refine ⟨(⟨entries.flatMap Entry.wire⟩, payload), validate_eq_ok_iff.mpr ⟨entries, ?_, rfl⟩⟩
    refine ⟨?_, ?_, hcount, hcanonical⟩
    · rw [hlength, UInt32.ofNat_toNat, List.append_assoc]
    · rw [hlength]
      exact UInt32.le_iff_toNat_le.mp hmax

end MoonLightBridge.Protocol
