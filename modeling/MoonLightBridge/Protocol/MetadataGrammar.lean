import MoonLightBridge.Protocol.Metadata

/-!
# The grammar of metadata blocks

What a metadata prefix is, independently of either decoder: a length, a
concatenation of self-delimiting entries in strictly increasing key order, and
the payload after them. The Rust decoder is then characterised completely: it
accepts exactly the blocks of the grammar and returns their known entries.
-/

namespace MoonLightBridge.Protocol

/-! ### User keys are ASCII -/

theorem toNat_lt_of_isUserKeyByte {byte : UInt8} (h : isUserKeyByte byte = true) :
    byte.toNat < 128 := by
  simp only [isUserKeyByte, Bool.or_eq_true, Bool.and_eq_true, decide_eq_true_eq, beq_iff_eq,
    UInt8.le_iff_toNat_le] at h
  rcases h with (((⟨-, h⟩ | ⟨-, h⟩) | rfl) | rfl) | rfl
  · exact lt_of_le_of_lt h (by decide)
  · exact lt_of_le_of_lt h (by decide)
  all_goals decide

/-- A byte string of ASCII characters is UTF-8. -/
theorem isValidUTF8_of_forall_lt {bytes : Bytes} (h : ∀ byte ∈ bytes, byte.toNat < 128) :
    (ByteArray.mk bytes.toArray).IsValidUTF8 := by
  induction bytes using List.reverseRecOn with
  | nil => exact ByteArray.isValidUTF8_empty
  | append_singleton bytes byte ih =>
    -- an ASCII byte is the whole encoding of its character
    have hbyte : byte.toNat < 128 := h byte (by simp)
    have hsize : (Char.ofUInt8 byte).utf8Size = 1 := by
      simp only [Char.utf8Size_eq_one_iff, UInt32.le_iff_toNat_le, Char.ofUInt8,
        UInt8.toNat_toUInt32, UInt32.reduceToNat]
      omega
    have hpush := (ih fun b hb => h b (by simp [hb])).push hsize
    have hchar : (Char.ofUInt8 byte).toUInt8 = byte := by
      simp [Char.toUInt8, Char.ofUInt8]
    rwa [hchar, ByteArray.push, List.push_toArray] at hpush

theorem fromUtf8_of_validUserKey {name : Bytes} (h : ValidUserKey name) :
    fromUtf8 name = some name :=
  if_pos (ByteArray.validateUTF8_eq_true_iff.mpr
    (isValidUTF8_of_forall_lt fun byte hbyte => toNat_lt_of_isUserKeyByte (h.2.2 byte hbyte)))

theorem eq_of_fromUtf8 {bytes name : Bytes} (h : fromUtf8 bytes = some name) : name = bytes := by
  unfold fromUtf8 at h
  split_ifs at h
  exact (Option.some_inj.mp h).symm

/-! ### Entries -/

/-- One entry of a block, with the bounds its two length fields impose. -/
@[ext] structure Entry where
  taggedId : UInt16
  name : Bytes
  value : Bytes
  name_lt : name.length < 2 ^ 8
  value_lt : value.length < 2 ^ 32

namespace Entry

/-- The identifier without the critical bit. -/
def keyId (e : Entry) : UInt16 := e.taggedId &&& keyMask

/-- A receiver that does not know the identifier must reject the block. -/
def critical (e : Entry) : Bool := e.taggedId &&& criticalBit ≠ 0

/-- The seven bytes before the name. -/
def header (e : Entry) : Bytes :=
  e.taggedId.toBeBytes ++ (UInt8.ofNat e.name.length :: (UInt32.ofNat e.value.length).toBeBytes)

/-- The bytes of an entry. -/
def wire (e : Entry) : Bytes := e.header ++ (e.name ++ e.value)

@[simp] theorem length_header (e : Entry) : e.header.length = entryHeaderLen := by
  simp [header, entryHeaderLen]

@[simp] theorem length_wire (e : Entry) :
    e.wire.length = entryHeaderLen + e.name.length + e.value.length := by
  simp only [wire, List.length_append, length_header]
  omega

theorem length_wire_pos (e : Entry) : 0 < e.wire.length := by
  rw [length_wire, entryHeaderLen]
  omega

theorem toNat_nameLength (e : Entry) : (UInt8.ofNat e.name.length).toNat = e.name.length :=
  Nat.mod_eq_of_lt e.name_lt

theorem toNat_valueLength (e : Entry) : (UInt32.ofNat e.value.length).toNat = e.value.length :=
  Nat.mod_eq_of_lt e.value_lt

/-- The entry as the parser reports it, read at `position`. -/
def raw (e : Entry) (position : ℕ) : RawEntry where
  keyId := e.keyId
  critical := e.critical
  name := e.name
  value := e.value
  valueLen := UInt32.ofNat e.value.length
  stop := position + e.wire.length

/-- The key under which entries of a block are ordered. -/
def sortKey (e : Entry) : ℕ ×ₗ Bytes := toLex (e.keyId.toNat, e.name)

/-- User entries have a valid name; the others none, and are known unless they
are optional. -/
def KeyOk (e : Entry) : Prop :=
  if e.keyId = userKeyId then ValidUserKey e.name
  else e.name = [] ∧ (ReservedMetadataKey.tryFrom e.keyId = none → e.critical = false)

/-- The map entry that a decoded entry stands for. Unknown optional entries are
skipped. -/
def owned (e : Entry) : Option (MetadataKey × Bytes) :=
  if e.keyId = userKeyId then some (.user e.name, e.value)
  else (ReservedMetadataKey.tryFrom e.keyId).map fun key => (.reserved key, e.value)

/-- The runtime-owned value an entry carries, if it carries one. -/
def reserved (e : Entry) : Option (ReservedMetadataKey × Bytes) :=
  (ReservedMetadataKey.tryFrom e.keyId).map fun key => (key, e.value)

/-- The header determines the tagged identifier and both lengths. -/
theorem slice_header (e : Entry) :
    UInt16.fromBeBytes (slice e.header 0 2) = e.taggedId ∧
      (e.header.getD 2 0).toNat = e.name.length ∧
        (UInt32.fromBeBytes (slice e.header 3 7)) = UInt32.ofNat e.value.length := by
  -- two bytes of identifier, one of name length, four of value length
  have h2 : e.taggedId.toBeBytes.length = 2 := UInt16.length_toBeBytes _
  have h4 : (UInt32.ofNat e.value.length).toBeBytes.length = 4 := UInt32.length_toBeBytes _
  refine ⟨?_, ?_, ?_⟩
  · have : slice e.header 0 2 = e.taggedId.toBeBytes := by
      rw [header, slice, List.drop_zero, List.take_left' (by simp)]
    rw [this, UInt16.fromBeBytes_toBeBytes]
  · rw [← e.toNat_nameLength, header, List.getD_eq_getElem?_getD,
      List.getElem?_append_right h2.le, h2]
    simp
  · have : slice e.header 3 7 = (UInt32.ofNat e.value.length).toBeBytes := by
      have hdrop : e.header.drop 3 = (UInt32.ofNat e.value.length).toBeBytes := by
        rw [header, List.drop_append, List.drop_of_length_le (by omega), h2]
        simp
      rw [slice, hdrop, List.take_of_length_le (by omega)]
    rw [this, UInt32.fromBeBytes_toBeBytes]

/-- Entries delimit themselves. -/
theorem prefixCode : PrefixCode (fun _ : Entry => True) wire where
  append_inj {e e' rest rest'} _ _ heq := by
    simp only [wire, List.append_assoc] at heq
    -- equal headers announce equal lengths, which split name and value off what follows
    obtain ⟨hheader, heq⟩ := List.append_inj heq (by simp)
    obtain ⟨htag, hname, hvalue⟩ := e.slice_header
    obtain ⟨htag', hname', hvalue'⟩ := e'.slice_header
    rw [hheader] at htag hname hvalue
    have hvalueLen : e.value.length = e'.value.length := by
      rw [← e.toNat_valueLength, ← e'.toNat_valueLength, ← hvalue, hvalue']
    obtain ⟨hnameEq, heq⟩ := List.append_inj heq (hname.symm.trans hname')
    obtain ⟨hvalueEq, hrest⟩ := List.append_inj heq hvalueLen
    exact ⟨Entry.ext (htag.symm.trans htag') hnameEq hvalueEq, hrest⟩
  encode_ne_nil e := List.ne_nil_of_length_pos e.length_wire_pos

end Entry

/-! ### Parsing one entry -/

variable {block rest : Bytes} {e : Entry} {position : ℕ}

/-- The parser reads an entry off the front of what is left of the block. -/
theorem parseEntry_wire (hsize : block.length ≤ usizeMax)
    (hdrop : block.drop position = e.wire ++ rest) :
    parseEntry block position = some (e.raw position) := by
  have hlen : block.length = position + e.wire.length + rest.length := by
    have := congrArg List.length hdrop
    have := e.length_wire_pos
    simp only [List.length_drop, List.length_append] at *
    omega
  -- each field is the slice that begins where the fields before it end
  have hslice : ∀ a b c : Bytes, block.drop position = a ++ b ++ c →
      slice block (position + a.length) (position + a.length + b.length) = b := by
    intro a b c h
    rw [slice, ← List.drop_drop, h]
    simp
  have hheader : slice block position (position + entryHeaderLen) = e.header := by
    have := hslice [] e.header (e.name ++ e.value ++ rest) (by simp [hdrop, Entry.wire])
    simpa using this
  have hname : slice block (position + entryHeaderLen)
      (position + entryHeaderLen + e.name.length) = e.name := by
    have := hslice e.header e.name (e.value ++ rest) (by simp [hdrop, Entry.wire])
    simpa using this
  have hvalue : slice block (position + entryHeaderLen + e.name.length)
      (position + entryHeaderLen + e.name.length + e.value.length) = e.value := by
    have := hslice (e.header ++ e.name) e.value rest (by simp [hdrop, Entry.wire])
    simpa [← add_assoc] using this
  obtain ⟨htag, hnameLen, hvalueLen⟩ := e.slice_header
  rw [parseEntry_eq_some]
  simp only [hheader, htag, hnameLen, hvalueLen, e.toNat_valueLength, hname, hvalue]
  rw [Entry.length_wire] at hlen
  refine ⟨by omega, by omega, ?_⟩
  simp [Entry.raw, Entry.keyId, Entry.critical, add_assoc]

theorem eq_of_length_eq_seven {header : Bytes} (h : header.length = 7) :
    header = slice header 0 2 ++ (header.getD 2 0 :: slice header 3 7) := by
  match header, h with
  | [_, _, _, _, _, _, _], _ => rfl

/-- Whatever the parser returns is an entry that stands at that position. -/
theorem exists_wire_of_parseEntry {entry : RawEntry} (h : parseEntry block position = some entry) :
    ∃ e : Entry, entry = e.raw position ∧
      block.drop position = e.wire ++ block.drop (position + e.wire.length) := by
  rw [parseEntry_eq_some] at h
  obtain ⟨-, hstop, rfl⟩ := h
  set header := slice block position (position + entryHeaderLen) with hheader
  set nameLen := header.getD 2 0 with hnameLen
  set valueLen := UInt32.fromBeBytes (slice header 3 7) with hvalueLen
  set name := slice block (position + entryHeaderLen)
    (position + entryHeaderLen + nameLen.toNat) with hname
  set value := slice block (position + entryHeaderLen + nameLen.toNat)
    (position + entryHeaderLen + nameLen.toNat + valueLen.toNat) with hvalue
  have hheaderLength : header.length = 7 := by
    rw [hheader, length_slice (by omega), entryHeaderLen]
    omega
  have hnameLength : name.length = nameLen.toNat := by
    rw [hname, length_slice (by omega)]
    omega
  have hvalueLength : value.length = valueLen.toNat := by
    rw [hvalue, length_slice (by omega)]
    omega
  -- the entry is read off the slices; its bounds are those of the two length fields
  let e : Entry := {
    taggedId := UInt16.fromBeBytes (slice header 0 2)
    name := name
    value := value
    name_lt := by rw [hnameLength]; exact UInt8.toNat_lt _
    value_lt := by rw [hvalueLength]; exact UInt32.toNat_lt _ }
  have heHeader : e.header = header := by
    have h2 : (slice header 0 2).length = 2 := length_slice (by omega)
    have h4 : (slice header 3 7).length = 4 := length_slice (by omega)
    rw [Entry.header, UInt16.toBeBytes_fromBeBytes h2, hnameLength, hvalueLength,
      UInt8.ofNat_toNat, UInt32.ofNat_toNat, UInt32.toBeBytes_fromBeBytes h4]
    exact (eq_of_length_eq_seven hheaderLength).symm
  have hwireLength : position + e.wire.length =
      position + entryHeaderLen + nameLen.toNat + valueLen.toNat := by
    rw [Entry.length_wire, hnameLength, hvalueLength]
    omega
  refine ⟨e, ?_, ?_⟩
  · rw [Entry.raw, hwireLength, hvalueLength, UInt32.ofNat_toNat]
    rfl
  · -- header, name, value and the rest are consecutive slices of the block
    rw [hwireLength, Entry.wire, heHeader, List.append_assoc, List.append_assoc,
      slice_append_drop (by omega), slice_append_drop (by omega), slice_append_drop (by omega)]

/-! ### The checks of one entry -/

/-- Where an entry stands among the keys seen before it. -/
def Follows (previous : Option (UInt16 × Bytes)) (e : Entry) : Prop :=
  ∀ p ∈ previous, toLex (p.1.toNat, p.2) < e.sortKey

theorem checkOrder_raw_eq_ok {previous : Option (UInt16 × Bytes)} :
    checkOrder previous (e.raw position) = .ok () ↔ Follows previous e := by
  cases previous with
  | none => simp [checkOrder, Follows]
  | some p =>
    obtain ⟨id, name⟩ := p
    have hcmp : ((cmp id e.keyId).then (cmp name e.name)).isGE = false ↔
        toLex (id.toNat, name) < e.sortKey := by
      rw [Entry.sortKey, Prod.Lex.toLex_lt_toLex]
      simp only [cmp, cmpUsing]
      -- identifiers are compared first, and names only under equal ones
      rcases lt_trichotomy id e.keyId with hlt | heq | hgt
      · simp [hlt, UInt16.lt_iff_toNat_lt.mp hlt, Ordering.then]
      · subst heq
        rcases lt_trichotomy name e.name with hlt | rfl | hgt
        · simp [hlt, Ordering.then]
        · simp [Ordering.then]
        · simp [hgt, hgt.not_gt, Ordering.then]
      · have hne : id.toNat ≠ e.keyId.toNat := fun h => hgt.ne' (UInt16.toNat_inj.mp h)
        have hle := UInt16.lt_iff_toNat_lt.mp hgt
        simp [hgt, hgt.not_gt, hne, hle.le, Ordering.then]
    have hfollows : Follows (some (id, name)) e ↔ toLex (id.toNat, name) < e.sortKey := by
      simp [Follows]
    rw [hfollows, ← hcmp]
    simp only [checkOrder, Entry.raw]
    split_ifs with h <;> simp [h]

theorem checkKey_raw_eq_ok : checkKey (e.raw position) = .ok () ↔ e.KeyOk := by
  unfold checkKey Entry.KeyOk Entry.raw
  by_cases huser : e.keyId = userKeyId
  · simp only [huser, if_true]
    by_cases hvalid : ValidUserKey e.name
    · simp [fromUtf8_of_validUserKey hvalid, validateUserKey_eq_ok.mpr hvalid, hvalid]
    · -- the name may fail either check, of its encoding or of its characters
      simp only [hvalid, iff_false]
      cases hutf : fromUtf8 e.name with
      | none => simp
      | some name => simp [eq_of_fromUtf8 hutf, validateUserKey_eq_error hvalid]
  · simp only [huser, if_false]
    cases hname : e.name with
    | cons byte name => simp
    | nil =>
      cases hkey : ReservedMetadataKey.tryFrom e.keyId with
      | some key => simp
      | none => cases hcritical : e.critical <;> simp

theorem key?_raw (h : e.KeyOk) : (e.raw position).key? = .ok (e.owned.map Prod.fst) := by
  unfold Entry.KeyOk at h
  unfold RawEntry.key? Entry.owned Entry.raw
  by_cases huser : e.keyId = userKeyId
  · simp only [huser, if_true] at h ⊢
    simp [fromUtf8_of_validUserKey h]
  · simp [huser, Option.map_map, Function.comp_def]

/-- A well-formed entry is ordered by the key it is owned under. -/
theorem wireOrder_of_mem_owned (h : e.KeyOk) {key : MetadataKey} {value : Bytes}
    (hmem : (key, value) ∈ e.owned) : key.wireOrder = e.sortKey ∧ value = e.value := by
  unfold Entry.owned at hmem
  unfold Entry.KeyOk at h
  by_cases huser : e.keyId = userKeyId
  · simp only [huser, if_true, Option.mem_def, Option.some.injEq, Prod.mk.injEq] at hmem
    obtain ⟨rfl, rfl⟩ := hmem
    simp [MetadataKey.wireOrder, Entry.sortKey, huser]
  · simp only [huser, if_false, Option.mem_def, Option.map_eq_some_iff, Prod.mk.injEq] at hmem h
    obtain ⟨reserved, hkey, rfl, rfl⟩ := hmem
    simp [MetadataKey.wireOrder, Entry.sortKey, ReservedMetadataKey.toU16_of_tryFrom hkey, h.1]

/-! ### The validation loop -/

theorem lt_of_drop_eq_wire (hdrop : block.drop position = e.wire ++ rest) :
    position < block.length := by
  have hlen := congrArg List.length hdrop
  have := e.length_wire_pos
  simp only [List.length_drop, List.length_append] at hlen
  omega

theorem drop_add_of_drop_eq (hdrop : block.drop position = e.wire ++ rest) :
    block.drop (position + e.wire.length) = rest := by
  rw [← List.drop_drop, hdrop, List.drop_left]

theorem toNat_add_one_of_lt {count : UInt16} (h : count.toNat + 1 < 2 ^ 16) :
    (count + 1).toNat = count.toNat + 1 := by
  rw [UInt16.toNat_add, UInt16.toNat_one]
  exact Nat.mod_eq_of_lt h

/-- The entry counter does not wrap while it stays below a limit. -/
theorem toNat_add_one_of_le {count limit : UInt16} (h : count.toNat + 1 ≤ limit.toNat) :
    (count + 1).toNat = count.toNat + 1 :=
  toNat_add_one_of_lt (lt_of_le_of_lt h limit.toNat_lt)

/-- One iteration of the validation loop, on an entry. -/
theorem validateEntries_wire (limits : MetadataLimits) (count : UInt16)
    (previous : Option (UInt16 × Bytes)) (hsize : block.length ≤ usizeMax)
    (hdrop : block.drop position = e.wire ++ rest) :
    validateEntries block limits position count previous = .ok () ↔
      count.toNat + 1 ≤ limits.maxEntries.toNat ∧
        e.value.length ≤ limits.maxValueBytes.toNat ∧ Follows previous e ∧ e.KeyOk ∧
          validateEntries block limits (position + e.wire.length) (count + 1)
            (some (e.keyId, e.name)) = .ok () := by
  rw [validateEntries, if_pos (lt_of_drop_eq_wire hdrop)]
  have hmaxEntries : limits.maxEntries.toNat < 2 ^ 16 := UInt16.toNat_lt _
  -- The limit is a 16-bit number too, so the counter fails there at the latest.
  by_cases hlast : count = 0xFFFF
  · simp only [hlast, if_true, reduceCtorEq, false_iff, not_and]
    intro h
    have : (0xFFFF : UInt16).toNat = 2 ^ 16 - 1 := rfl
    omega
  have hcount : (count + 1).toNat = count.toNat + 1 := by
    have hne : count.toNat ≠ 2 ^ 16 - 1 := fun h => hlast (UInt16.toNat_inj.mp h)
    have := count.toNat_lt
    exact toNat_add_one_of_lt (by omega)
  rw [if_neg hlast]
  by_cases hmax : limits.maxEntries < count + 1
  · have := UInt16.lt_iff_toNat_lt.mp hmax
    simp only [hmax, if_true, reduceCtorEq, false_iff, not_and]
    omega
  have hmaxNat : count.toNat + 1 ≤ limits.maxEntries.toNat := by
    rw [← hcount]
    exact not_lt.mp hmax
  rw [if_neg hmax]
  have hraw := rawEntry_eq_ok.mpr (parseEntry_wire hsize hdrop)
  split
  · rename_i herror
    exact absurd (herror.symm.trans hraw) (by simp)
  · rename_i entry hentry
    obtain rfl : entry = e.raw position := Except.ok.inj (hentry.symm.trans hraw)
    have hvalueIff : limits.maxValueBytes < (e.raw position).valueLen ↔
        ¬ e.value.length ≤ limits.maxValueBytes.toNat := by
      rw [UInt32.lt_iff_toNat_lt, Entry.raw, e.toNat_valueLength, not_le]
    by_cases hvalue : e.value.length ≤ limits.maxValueBytes.toNat
    · rw [if_neg (by rw [hvalueIff]; exact not_not.mpr hvalue)]
      simp only [hmaxNat, hvalue, true_and]
      -- the two checks of the entry, and then the rest of the loop
      rw [← @checkOrder_raw_eq_ok e position previous, ← @checkKey_raw_eq_ok e position]
      cases checkOrder previous (e.raw position) with
      | error error => simp
      | ok _ =>
        cases checkKey (e.raw position) with
        | error error => simp
        | ok _ => simp [Entry.raw]
    · simp [hvalueIff, hvalue]

/-- What the grammar and the limits ask of each entry by itself. -/
def Entry.Admissible (limits : MetadataLimits) (e : Entry) : Prop :=
  e.value.length ≤ limits.maxValueBytes.toNat ∧ e.KeyOk

/-- Entries that may stand next to each other in a block. -/
structure Canonical (limits : MetadataLimits) (entries : List Entry) : Prop where
  admissible : ∀ e ∈ entries, e.Admissible limits
  increasing : (entries.map Entry.sortKey).Pairwise (· < ·)

variable {entries : List Entry} {limits : MetadataLimits}

theorem canonical_cons :
    Canonical limits (e :: entries) ↔
      e.Admissible limits ∧ (∀ e' ∈ entries, Follows (some (e.keyId, e.name)) e') ∧
        Canonical limits entries := by
  constructor
  · rintro ⟨hadmissible, hincreasing⟩
    simp only [List.map_cons, List.pairwise_cons, List.mem_map, forall_exists_index, and_imp,
      forall_apply_eq_imp_iff₂] at hincreasing
    simp only [List.forall_mem_cons] at hadmissible
    refine ⟨hadmissible.1, fun e' he' p hp => ?_, hadmissible.2, hincreasing.2⟩
    cases hp
    exact hincreasing.1 e' he'
  · rintro ⟨hhead, hfollows, htail⟩
    refine ⟨List.forall_mem_cons.mpr ⟨hhead, htail.admissible⟩, ?_⟩
    simp only [List.map_cons, List.pairwise_cons, List.mem_map, forall_exists_index, and_imp,
      forall_apply_eq_imp_iff₂]
    exact ⟨fun e' he' => hfollows e' he' _ rfl, htail.increasing⟩

/-- The loop only compares neighbours; the order is transitive, so the first
entry's place decides that of all. -/
theorem Canonical.follows (h : Canonical limits (e :: entries)) {previous : Option (UInt16 × Bytes)}
    (hfollows : Follows previous e) : ∀ e' ∈ e :: entries, Follows previous e' := by
  intro e' he' p hp
  rcases List.mem_cons.mp he' with rfl | hmem
  · exact hfollows p hp
  · exact (hfollows p hp).trans ((canonical_cons.mp h).2.1 e' hmem _ rfl)

/-- The validation loop accepts what is left of a block exactly if it is a
sequence of canonical entries that the remaining count admits. -/
theorem validateEntries_eq_ok_iff (hsize : block.length ≤ usizeMax) (position : ℕ) (count : UInt16)
    (previous : Option (UInt16 × Bytes)) (hcount : count.toNat ≤ limits.maxEntries.toNat) :
    validateEntries block limits position count previous = .ok () ↔
      ∃ entries : List Entry, block.drop position = entries.flatMap Entry.wire ∧
        count.toNat + entries.length ≤ limits.maxEntries.toNat ∧ Canonical limits entries ∧
          ∀ e ∈ entries, Follows previous e := by
  -- induction on the number of bytes that are left
  induction hleft : block.length - position using Nat.strong_induction_on
    generalizing position count previous with
  | _ left ih =>
  by_cases hend : position < block.length
  · constructor
    · intro hok
      -- whatever the loop got past is an entry
      obtain ⟨e, hdrop⟩ : ∃ e : Entry,
          block.drop position = e.wire ++ block.drop (position + e.wire.length) := by
        rw [validateEntries, if_pos hend] at hok
        cases hraw : rawEntry block position with
        | error error =>
          split_ifs at hok
          split at hok
          · cases hok
          · rename_i hentry
            exact absurd (hentry.symm.trans hraw) (by simp)
        | ok entry =>
          obtain ⟨e, -, hdrop⟩ := exists_wire_of_parseEntry (rawEntry_eq_ok.mp hraw)
          exact ⟨e, hdrop⟩
      obtain ⟨hcount', hvalue, hfollows, hkey, hrest⟩ :=
        (validateEntries_wire limits count previous hsize hdrop).mp hok
      have hpos := e.length_wire_pos
      have hnext := toNat_add_one_of_le hcount'
      obtain ⟨entries, hentries, hlen, hcanonical, hall⟩ :=
        (ih _ (by omega) (position + e.wire.length) (count + 1) _ (by omega) rfl).mp hrest
      have hcons : Canonical limits (e :: entries) :=
        canonical_cons.mpr ⟨⟨hvalue, hkey⟩, hall, hcanonical⟩
      refine ⟨e :: entries, ?_, ?_, hcons, hcons.follows hfollows⟩
      · rw [hdrop, hentries, List.flatMap_cons]
      · rw [List.length_cons]
        omega
    · rintro ⟨entries, hentries, hlen, hcanonical, hall⟩
      cases entries with
      | nil =>
        rw [List.flatMap_nil, List.drop_eq_nil_iff] at hentries
        omega
      | cons e entries =>
        rw [List.flatMap_cons] at hentries
        rw [List.length_cons] at hlen
        obtain ⟨⟨hvalue, hkey⟩, htail, hcanonical'⟩ := canonical_cons.mp hcanonical
        have hpos := e.length_wire_pos
        have hcount' : count.toNat + 1 ≤ limits.maxEntries.toNat := by omega
        have hnext := toNat_add_one_of_le hcount'
        refine (validateEntries_wire limits count previous hsize hentries).mpr
          ⟨hcount', hvalue, hall e (by simp), hkey, ?_⟩
        refine (ih _ (by omega) (position + e.wire.length) (count + 1) _ (by omega) rfl).mpr
          ⟨entries, drop_add_of_drop_eq hentries, by omega, hcanonical', htail⟩
  · rw [validateEntries, if_neg hend]
    refine iff_of_true rfl ⟨[], ?_, by simpa using hcount, ⟨by simp, by simp⟩, by simp⟩
    rw [List.flatMap_nil, List.drop_eq_nil_iff]
    omega

/-! ### The copying loop -/

variable {m : Metadata}

/-- A key above all others is new, and goes to the end. -/
theorem Metadata.insert_of_forall_lt {key : MetadataKey} {value : Bytes}
    (hkey : ∀ name, key = .user name → ValidUserKey name)
    (h : ∀ key' ∈ m.entries.keys, key' < key) :
    ∃ m', m.insert key value hkey = .ok m' ∧
      m'.entries.toList = m.entries.toList ++ [(key, value)] := by
  have hnew : m.entries.get? key = none :=
    SortedMap.get?_eq_none_iff.mpr fun hmem => lt_irrefl _ (h key hmem)
  unfold Metadata.insert
  rw [if_neg (by simp [hnew])]
  exact ⟨_, rfl, SortedMap.toList_insert_of_forall_lt h⟩

/-- One iteration of the copying loop: an entry above all keys is appended if
it is known and skipped otherwise. -/
theorem copyEntries_wire (hsize : block.length ≤ usizeMax)
    (hdrop : block.drop position = e.wire ++ rest) (hkey : e.KeyOk)
    (habove : ∀ key ∈ m.entries.keys, key.wireOrder < e.sortKey) :
    ∃ m', copyEntries block position m = copyEntries block (position + e.wire.length) m' ∧
      m'.entries.toList = m.entries.toList ++ e.owned.toList := by
  have hraw := rawEntry_eq_ok.mpr (parseEntry_wire hsize hdrop)
  have hstep : ∀ {entry : RawEntry}, rawEntry block position = .ok entry →
      entry = e.raw position := fun h => Except.ok.inj (h.symm.trans hraw)
  rw [copyEntries, if_pos (lt_of_drop_eq_wire hdrop)]
  split
  · rename_i herror
    exact absurd (herror.symm.trans hraw) (by simp)
  rename_i entry hentry
  obtain rfl := hstep hentry
  have hstop : (e.raw position).stop = position + e.wire.length := rfl
  -- from here on the entry is the one of the grammar
  rw [key?_raw hkey, hstop]
  cases howned : e.owned with
  | none => exact ⟨m, rfl, by simp⟩
  | some pair =>
    obtain ⟨key, value⟩ := pair
    obtain ⟨horder, hvalue⟩ := wireOrder_of_mem_owned hkey howned
    have hlt : ∀ key' ∈ m.entries.keys, key' < key := fun key' hmem =>
      MetadataKey.lt_def.mpr (horder ▸ habove key' hmem)
    have hvalue' : (e.raw position).value = value := hvalue.symm
    cases key with
    | reserved key =>
      obtain ⟨m', hinsert, hlist⟩ :=
        @Metadata.insert_of_forall_lt m _ value (by simp) hlt
      refine ⟨m', ?_, by simpa using hlist⟩
      simp only [Option.map_some, hvalue', Metadata.insertReserved, hinsert]
    | user name =>
      have hvalid : ValidUserKey name := by
        unfold Entry.owned at howned
        unfold Entry.KeyOk at hkey
        split_ifs at howned hkey with huser
        · simp only [Option.some.injEq, Prod.mk.injEq, MetadataKey.user.injEq] at howned
          exact howned.1 ▸ hkey
        · simp at howned
      obtain ⟨m', hinsert, hlist⟩ := @Metadata.insert_of_forall_lt m _ value
        (fun name' hname => MetadataKey.user.inj hname ▸ hvalid) hlt
      refine ⟨m', ?_, by simpa using hlist⟩
      have hinsertUser : m.insertUser name value = .ok m' := by
        unfold Metadata.insertUser
        split
        · rename_i herror
          exact absurd (herror.symm.trans (validateUserKey_eq_ok.mpr hvalid)) (by simp)
        · exact hinsert
      simp only [Option.map_some, hvalue', hinsertUser]

/-- The copying loop appends the known entries of what is left of the block. -/
theorem copyEntries_flatMap_wire (hsize : block.length ≤ usizeMax)
    (hdrop : block.drop position = entries.flatMap Entry.wire)
    (hcanonical : Canonical limits entries)
    (habove : ∀ e ∈ entries, ∀ key ∈ m.entries.keys, key.wireOrder < e.sortKey) :
    ∃ m', copyEntries block position m = .ok m' ∧
      m'.entries.toList = m.entries.toList ++ entries.filterMap Entry.owned := by
  induction entries generalizing position m with
  | nil =>
    rw [List.flatMap_nil, List.drop_eq_nil_iff] at hdrop
    rw [copyEntries, if_neg (by omega)]
    exact ⟨m, rfl, by simp⟩
  | cons e entries ih =>
    rw [List.flatMap_cons] at hdrop
    obtain ⟨hadmissible, htail, hcanonical'⟩ := canonical_cons.mp hcanonical
    obtain ⟨m', hstep, hlist⟩ :=
      copyEntries_wire hsize hdrop hadmissible.2 (habove e (by simp))
    have habove' : ∀ e' ∈ entries, ∀ key ∈ m'.entries.keys, key.wireOrder < e'.sortKey := by
      intro e' he' key hmem
      rw [SortedMap.keys, hlist, List.map_append, List.mem_append] at hmem
      rcases hmem with hold | hnew
      · exact habove e' (by simp [he']) key hold
      · -- the entry just copied lies below every later one
        obtain ⟨⟨key', value⟩, howned, rfl⟩ := List.mem_map.mp hnew
        rw [Option.mem_toList] at howned
        rw [(wireOrder_of_mem_owned hadmissible.2 howned).1]
        exact htail e' he' _ rfl
    obtain ⟨m'', hrest, hlist'⟩ := ih (drop_add_of_drop_eq hdrop) hcanonical' habove'
    refine ⟨m'', hstep.trans hrest, ?_⟩
    rw [hlist', hlist, List.append_assoc]
    cases howned : e.owned <;> simp [howned]

/-- The iterator over runtime values meets them in the order of the block. -/
theorem reservedEntriesFrom_flatMap_wire (hsize : block.length ≤ usizeMax)
    (hdrop : block.drop position = entries.flatMap Entry.wire) :
    reservedEntriesFrom block position = entries.filterMap Entry.reserved := by
  induction entries generalizing position with
  | nil =>
    rw [List.flatMap_nil, List.drop_eq_nil_iff] at hdrop
    rw [reservedEntriesFrom, if_neg (by omega), List.filterMap_nil]
  | cons e entries ih =>
    rw [List.flatMap_cons] at hdrop
    have hraw := rawEntry_eq_ok.mpr (parseEntry_wire hsize hdrop)
    have hrest := ih (drop_add_of_drop_eq hdrop)
    rw [reservedEntriesFrom, if_pos (lt_of_drop_eq_wire hdrop)]
    split
    · rename_i herror
      exact absurd (herror.symm.trans hraw) (by simp)
    · rename_i entry hentry
      obtain rfl := Except.ok.inj (hentry.symm.trans hraw)
      have hkey : (e.raw position).keyId = e.keyId := rfl
      have hstop : (e.raw position).stop = position + e.wire.length := rfl
      rw [hkey, hstop, hrest]
      cases htry : ReservedMetadataKey.tryFrom e.keyId with
      | none => simp [Entry.reserved, htry]
      | some key => simp [Entry.reserved, htry, Entry.raw]

/-! ### Whole blocks -/

/-- The input is a metadata block with the given entries and within the limits,
followed by the payload. -/
structure IsBlock (limits : MetadataLimits) (entries : List Entry) (payload input : Bytes) :
    Prop where
  input_eq : input = (UInt32.ofNat (entries.flatMap Entry.wire).length).toBeBytes ++
    (entries.flatMap Entry.wire ++ payload)
  length_le : (entries.flatMap Entry.wire).length ≤ limits.maxBytes.toNat
  count_le : entries.length ≤ limits.maxEntries.toNat
  canonical : Canonical limits entries

variable {input payload : Bytes}

/-- An input has at most one reading as a block. -/
theorem IsBlock.unique {entries' : List Entry} {payload' : Bytes}
    (h : IsBlock limits entries payload input)
    (hlt' : (entries'.flatMap Entry.wire).length < 2 ^ 32)
    (h' : input = (UInt32.ofNat (entries'.flatMap Entry.wire).length).toBeBytes ++
      (entries'.flatMap Entry.wire ++ payload')) : entries = entries' ∧ payload = payload' := by
  have hlt := lt_of_le_of_lt h.length_le limits.maxBytes.toNat_lt
  -- the length prefix fixes where the entries stop, and they delimit themselves
  obtain ⟨hlen, heq⟩ := List.append_inj (h.input_eq.symm.trans h') (by simp)
  have hlength : (entries.flatMap Entry.wire).length = (entries'.flatMap Entry.wire).length := by
    have hnum := congrArg (UInt32.toNat ∘ UInt32.fromBeBytes) hlen
    simp only [Function.comp_apply, UInt32.fromBeBytes_toBeBytes, UInt32.toNat_ofNat',
      Nat.mod_eq_of_lt hlt, Nat.mod_eq_of_lt hlt'] at hnum
    exact hnum
  obtain ⟨hwire, hpayload⟩ := List.append_inj heq hlength
  exact ⟨Entry.prefixCode.flatMap_injective (by simp) (by simp) hwire, hpayload⟩

/-- Blocks in the decoders' terms: the announced length is within the input
and the limit, and that many bytes are a sequence of canonical entries. -/
theorem isBlock_iff :
    IsBlock limits entries payload input ↔
      let announced := (UInt32.fromBeBytes (slice input 0 4)).toNat
      4 + announced ≤ input.length ∧ announced ≤ limits.maxBytes.toNat ∧
        slice input 4 (4 + announced) = entries.flatMap Entry.wire ∧
          payload = input.drop (4 + announced) ∧
            entries.length ≤ limits.maxEntries.toNat ∧ Canonical limits entries := by
  constructor
  · rintro ⟨rfl, hlen, hcount, hcanonical⟩
    set wire := entries.flatMap Entry.wire
    have hfour : (UInt32.ofNat wire.length).toBeBytes.length = 4 := UInt32.length_toBeBytes _
    have hslice : slice ((UInt32.ofNat wire.length).toBeBytes ++ (wire ++ payload)) 0 4 =
        (UInt32.ofNat wire.length).toBeBytes := by
      rw [slice, List.drop_zero, List.take_left' hfour]
    have hannounced : (UInt32.ofNat wire.length).toNat = wire.length :=
      Nat.mod_eq_of_lt (lt_of_le_of_lt hlen limits.maxBytes.toNat_lt)
    simp only [hslice, UInt32.fromBeBytes_toBeBytes, hannounced]
    refine ⟨?_, hlen, slice_append_append hfour rfl, ?_, hcount, hcanonical⟩
    · rw [List.length_append, hfour, List.length_append]
      omega
    · rw [← List.append_assoc, List.drop_left' (by rw [List.length_append, hfour])]
  · -- the announced length is the length of the entries, so the prefix is theirs
    intro h
    generalize hannounced : UInt32.fromBeBytes (slice input 0 4) = announced at h
    obtain ⟨havailable, hmax, hwire, rfl, hcount, hcanonical⟩ := h
    have hfour : (slice input 0 4).length = 4 := length_slice (by omega)
    have hlength : (entries.flatMap Entry.wire).length = announced.toNat := by
      rw [← hwire, length_slice havailable]
      omega
    refine ⟨?_, by rw [hlength]; exact hmax, hcount, hcanonical⟩
    rw [hlength, UInt32.ofNat_toNat, ← hwire, ← hannounced, UInt32.toBeBytes_fromBeBytes hfour,
      slice_append_drop (by omega), slice_append_drop (by omega), List.drop_zero]

/-- The validator accepts exactly the blocks of the grammar. -/
theorem validate_eq_ok_iff {validated : ValidatedMetadata} :
    Metadata.validate input limits = .ok (validated, payload) ↔
      ∃ entries, IsBlock limits entries payload input ∧
        validated.block = entries.flatMap Entry.wire := by
  simp only [isBlock_iff]
  unfold Metadata.validate getRange
  by_cases hfour : 4 ≤ input.length
  · rw [if_pos ⟨Nat.zero_le _, hfour⟩]
    simp only
    generalize UInt32.fromBeBytes (slice input 0 4) = announced
    split_ifs with havailable hmax
    · -- fewer bytes than announced
      simp only [false_iff, not_exists]
      omega
    · -- more bytes announced than the limit
      have := UInt32.lt_iff_toNat_lt.mp hmax
      simp only [false_iff, not_exists]
      omega
    · have hmaxNat : announced.toNat ≤ limits.maxBytes.toNat := not_lt.mp hmax
      have hlength : (slice input 4 (4 + announced.toNat)).length = announced.toNat := by
        rw [length_slice (by omega)]
        omega
      have hsize : (slice input 4 (4 + announced.toNat)).length ≤ usizeMax := by
        have := announced.toNat_lt
        rw [hlength, usizeMax]
        omega
      have hloop := validateEntries_eq_ok_iff hsize 0 0 none (Nat.zero_le limits.maxEntries.toNat)
      simp only [List.drop_zero, Follows, Option.mem_def, reduceCtorEq, false_implies,
        implies_true, and_true, UInt16.toNat_zero, zero_add] at hloop
      constructor
      · intro hok
        split at hok
        · cases hok
        · rename_i hvalid
          obtain ⟨rfl, rfl⟩ := Prod.mk.inj (Except.ok.inj hok)
          obtain ⟨entries, hentries, hcount, hcanonical⟩ := hloop.mp hvalid
          exact ⟨entries, ⟨by omega, hmaxNat, hentries, rfl, hcount, hcanonical⟩, hentries⟩
      · rintro ⟨entries, ⟨-, -, hentries, rfl, hcount, hcanonical⟩, hvalidated⟩
        rw [hloop.mpr ⟨entries, hentries, hcount, hcanonical⟩, hentries, ← hvalidated]
  · -- not even a length
    rw [if_neg (by omega)]
    simp only [reduceCtorEq, false_iff, not_exists]
    omega

/-- Copying a block of the grammar does not fail. -/
theorem IsBlock.copyEntries_eq_ok (hblock : IsBlock limits entries payload input) :
    ∃ m : Metadata, copyEntries (entries.flatMap Entry.wire) 0 Metadata.new = .ok m ∧
      m.entries.toList = entries.filterMap Entry.owned := by
  have hlt := lt_of_le_of_lt hblock.length_le limits.maxBytes.toNat_lt
  refine copyEntries_flatMap_wire (by rw [usizeMax]; omega) List.drop_zero hblock.canonical ?_
  intro e _ key hmem
  exact absurd hmem List.not_mem_nil

/-- The decoder accepts exactly the blocks of the grammar, and returns their
known entries and the payload after them. -/
theorem decode_eq_ok_iff :
    Metadata.decode input limits = .ok (m, payload) ↔
      ∃ entries, IsBlock limits entries payload input ∧
        m.entries.toList = entries.filterMap Entry.owned := by
  unfold Metadata.decode
  constructor
  · intro hok
    cases hvalidate : Metadata.validate input limits with
    | error error => simp [hvalidate] at hok
    | ok result =>
      obtain ⟨validated, payload'⟩ := result
      obtain ⟨entries, hblock, hvalidated⟩ := validate_eq_ok_iff.mp hvalidate
      obtain ⟨m', hm', hlist⟩ := hblock.copyEntries_eq_ok
      rw [← hvalidated] at hm'
      simp only [hvalidate, ValidatedMetadata.intoMetadata, hm', Except.ok.injEq,
        Prod.mk.injEq] at hok
      obtain ⟨rfl, rfl⟩ := hok
      exact ⟨entries, hblock, hlist⟩
  · rintro ⟨entries, hblock, hlist⟩
    obtain ⟨m', hm', hlist'⟩ := hblock.copyEntries_eq_ok
    obtain rfl : m' = m := Metadata.ext (SortedMap.ext (hlist'.trans hlist.symm))
    have hvalidate : Metadata.validate input limits =
        .ok (⟨entries.flatMap Entry.wire⟩, payload) :=
      validate_eq_ok_iff.mpr ⟨entries, hblock, rfl⟩
    simp only [hvalidate, ValidatedMetadata.intoMetadata, hm']

end MoonLightBridge.Protocol
