import MoonLightBridge.Client.Metadata
import MoonLightBridge.Protocol.MetadataRoundTrip

/-!
# The two metadata decoders agree

The Rust and the Java decoder are compared through the grammar of metadata
blocks. They read the same entries; the client additionally refuses user names
in its reserved namespace.
-/

namespace MoonLightBridge

open Protocol

/-! ### Keys on both sides -/

/-- The client's constant for a runtime key. -/
def Client.ReservedKey.ofProtocol : ReservedMetadataKey → Client.ReservedKey
  | .deadlineMillis => .deadlineMillis
  | .traceContext => .traceContext
  | .idempotencyKey => .idempotencyKey
  | .authorization => .authorization
  | .requiredScopes => .requiredScopes
  | .compressionCodec => .compressionCodec
  | .originalLength => .originalLength
  | .logicalCallId => .logicalCallId
  | .retryAttempt => .retryAttempt
  | .eventCursor => .eventCursor
  | .eventSequence => .eventSequence
  | .contentType => .contentType
  | .diagnosticCorrelation => .diagnosticCorrelation

/-- The Java string with the characters of an ASCII Rust string. -/
def Client.ofAscii (name : Bytes) : Client.JString := name.map UInt8.toUInt16

/-- The client's form of a key. -/
def Client.WireKey.ofKey : MetadataKey → Client.WireKey
  | .reserved key => .reserved (.ofProtocol key)
  | .user name => .user (Client.ofAscii name)

theorem Client.wireId_ofProtocol (key : ReservedMetadataKey) :
    (Client.ReservedKey.ofProtocol key).wireId = key.toU16.toNat := by
  cases key <;> rfl

/-- Both sides number the runtime keys alike. -/
theorem Client.fromWire_toNat (value : UInt16) :
    Client.ReservedKey.fromWire value.toNat =
      (ReservedMetadataKey.tryFrom value).map Client.ReservedKey.ofProtocol := by
  unfold ReservedMetadataKey.tryFrom
  split
  case h_14 => simp_all [Client.ReservedKey.fromWire, Client.ReservedKey.values,
    Client.ReservedKey.wireId, eq_comm]
  all_goals
    rename_i h
    rw [h]
    rfl

theorem Client.isUserKeyUnit_eq (byte : UInt8) :
    Client.isUserKeyUnit (if byte < 0x80 then byte.toUInt16 else 0xFFFD) = isUserKeyByte byte := by
  have hall : ∀ n : Fin 256, Client.isUserKeyUnit
      (if UInt8.ofNat n < 0x80 then (UInt8.ofNat n).toUInt16 else 0xFFFD) =
        isUserKeyByte (UInt8.ofNat n) := by
    decide +kernel
  simpa using hall ⟨byte.toNat, byte.toNat_lt⟩

variable {name : Bytes}

theorem Client.asciiString_eq_ofAscii (h : ∀ byte ∈ name, isUserKeyByte byte = true) :
    Client.asciiString name = Client.ofAscii name := by
  refine List.map_congr_left fun byte hbyte => if_pos ?_
  exact UInt8.lt_iff_toNat_lt.mpr (toNat_lt_of_isUserKeyByte (h byte hbyte))

/-- The bytes of the client's reserved namespace. -/
def namespaceBytes : Bytes := "moonlight-".toUTF8.data.toList

theorem Client.reservedNamespace_eq : Client.reservedNamespace = Client.ofAscii namespaceBytes := by
  decide +kernel

theorem Client.toUInt16_injective : Function.Injective UInt8.toUInt16 := by
  intro byte byte' h
  have := congrArg UInt16.toNat h
  simpa [UInt8.toNat_inj] using this

/-- The client accepts the valid user names outside its reserved namespace. -/
theorem Client.validateUserKey_eq_ok :
    Client.validateUserKey (Client.asciiString name) = .ok () ↔
      ValidUserKey name ∧ ¬ namespaceBytes <+: name := by
  have hall : (Client.asciiString name).all Client.isUserKeyUnit = name.all isUserKeyByte := by
    rw [Client.asciiString, List.all_map]
    exact List.all_congr rfl fun byte => Client.isUserKeyUnit_eq byte
  have hlength : (Client.asciiString name).length = name.length := List.length_map _
  have hempty : (Client.asciiString name).isEmpty = name.isEmpty := List.isEmpty_map
  unfold Client.validateUserKey ValidUserKey
  rw [hall, hlength, hempty]
  by_cases hbytes : ∀ byte ∈ name, isUserKeyByte byte = true
  · have hhead : Client.reservedNamespace.isPrefixOf (Client.asciiString name) = true ↔
        namespaceBytes <+: name := by
      rw [List.isPrefixOf_iff_prefix, Client.asciiString_eq_ofAscii hbytes,
        Client.reservedNamespace_eq]
      exact List.prefix_map_iff_of_injective Client.toUInt16_injective
    have hvalid : name.all isUserKeyByte = true := List.all_eq_true.mpr hbytes
    by_cases hreserved : namespaceBytes <+: name
    · simp [hhead.mpr hreserved, hreserved]
    · simpa [Bool.eq_false_iff.mpr (mt hhead.mp hreserved), hreserved, hvalid] using
        fun _ _ => hbytes
  · have hvalid : name.all isUserKeyByte = false := by
      rw [← Bool.not_eq_true, List.all_eq_true]
      exact hbytes
    simp only [hvalid, hbytes, and_false, false_and, iff_false, Bool.not_false, if_true]
    split_ifs <;> simp

/-! ### Entries on both sides -/

theorem slice_take {α : Type*} {l : List α} {start stop n : ℕ} (h : stop ≤ n) :
    slice (l.take n) start stop = slice l start stop := by
  rw [slice, slice, List.drop_take, List.take_take, min_eq_left (by omega)]

variable {blockEnd position : ℕ} {input : Bytes}

/-- Both parsers read the same entry. -/
theorem Client.readEntry_eq_ok_iff {entry : RawEntry} (hend : blockEnd ≤ input.length)
    (hmax : blockEnd ≤ usizeMax) :
    Client.readEntry input blockEnd position = .ok entry ↔
      parseEntry (input.take blockEnd) position = some entry := by
  have hlength : (input.take blockEnd).length = blockEnd := by simpa using hend
  rw [parseEntry_eq_some, hlength]
  simp only [Client.readEntry]
  by_cases hheader : position + entryHeaderLen ≤ blockEnd
  · rw [if_neg (by omega), slice_take hheader]
    split_ifs with hexceeds
    · refine iff_of_false (by simp) fun h => ?_
      omega
    · have hstop := not_lt.mp hexceeds
      rw [slice_take (by omega), slice_take hstop]
      constructor
      · intro h
        exact ⟨by omega, hstop, (Except.ok.inj h).symm⟩
      · rintro ⟨-, -, rfl⟩
        rfl
  · rw [if_pos (by rw [entryHeaderLen] at *; omega)]
    refine iff_of_false (by simp) fun h => ?_
    omega

/-- A user entry whose name lies in the client's reserved namespace. -/
def InNamespace (e : Entry) : Prop := e.keyId = userKeyId ∧ namespaceBytes <+: e.name

variable {e : Entry}

theorem Client.checkOrder_raw_eq_ok {previous : Option (UInt16 × Bytes)} :
    Client.checkOrder previous (e.raw position) = .ok () ↔ Follows previous e := by
  rw [← @Protocol.checkOrder_raw_eq_ok e position previous]
  cases previous with
  | none => simp [Client.checkOrder, Protocol.checkOrder]
  | some p =>
    simp only [Client.checkOrder, Protocol.checkOrder]
    split_ifs <;> simp

/-- The client stores an entry under the client's form of its key, unless the
name is reserved. -/
theorem Client.wireKey_raw_eq_ok {key : Option Client.WireKey} :
    Client.wireKey (e.raw position) = .ok key ↔
      e.KeyOk ∧ ¬ InNamespace e ∧ key = e.owned.map fun pair => .ofKey pair.1 := by
  unfold Client.wireKey Entry.KeyOk InNamespace Entry.owned Entry.raw
  by_cases huser : e.keyId = userKeyId
  · simp only [huser, if_true, true_and]
    cases hcheck : Client.validateUserKey (Client.asciiString e.name) with
    | error message =>
      have := mt Client.validateUserKey_eq_ok.mpr (by rw [hcheck]; simp)
      simp only [reduceCtorEq, false_iff]
      tauto
    | ok _ =>
      obtain ⟨hvalid, hname⟩ := Client.validateUserKey_eq_ok.mp hcheck
      simp [hvalid, hname, Client.WireKey.ofKey, Client.asciiString_eq_ofAscii hvalid.2.2, eq_comm]
  · simp only [huser, if_false, false_and, not_false_eq_true, true_and]
    by_cases hname : e.name = []
    · simp only [hname, List.length_nil, ne_eq, not_true_eq_false, if_false, true_and,
        Client.fromWire_toNat]
      cases hkey : ReservedMetadataKey.tryFrom e.keyId with
      | none => cases hcritical : e.critical <;> simp [eq_comm]
      | some reserved =>
        simp only [Option.map_some, Except.ok.injEq, reduceCtorEq, false_implies, true_and,
          Client.WireKey.ofKey]
        exact eq_comm
    · simp [hname]

/-! ### The client's loop -/

/-- The map after an entry was stored, or skipped. -/
def Client.store (decoded : SortedMap Client.WireKey Bytes) (e : Entry) :
    SortedMap Client.WireKey Bytes :=
  match e.owned with
  | none => decoded
  | some (key, value) => decoded.insert (.ofKey key) value

/-- One iteration of the client's loop, on an entry. -/
theorem Client.decodeEntries_wire {rest : Bytes} {limits : Client.Limits}
    (hend : blockEnd ≤ input.length) (hmax : blockEnd ≤ usizeMax)
    (hdrop : (input.take blockEnd).drop position = e.wire ++ rest) (count : ℕ)
    (previous : Option (UInt16 × Bytes)) (decoded result : SortedMap Client.WireKey Bytes) :
    Client.decodeEntries input limits blockEnd position count previous decoded = .ok result ↔
      count + 1 ≤ limits.maxEntries ∧ e.value.length ≤ limits.maxValueBytes ∧
        Follows previous e ∧ e.KeyOk ∧ ¬ InNamespace e ∧
          Client.decodeEntries input limits blockEnd (position + e.wire.length) (count + 1)
            (some (e.keyId, e.name)) (Client.store decoded e) = .ok result := by
  have hlength : (input.take blockEnd).length = blockEnd := by simpa using hend
  have hposition : position < blockEnd := hlength ▸ lt_of_drop_eq_wire hdrop
  rw [Client.decodeEntries, if_pos hposition]
  -- the checks in the client's order: number, entry, value, order, key
  by_cases hcount : count + 1 ≤ limits.maxEntries
  · rw [if_neg (not_lt.mpr hcount)]
    have hread := (Client.readEntry_eq_ok_iff hend hmax).mpr
      (parseEntry_wire (hlength.trans_le hmax) hdrop)
    split
    · rename_i herror
      exact absurd (herror.symm.trans hread) (by simp)
    · rename_i entry hentry
      obtain rfl : entry = e.raw position := Except.ok.inj (hentry.symm.trans hread)
      have hvalueLen : (e.raw position).valueLen.toNat = e.value.length := e.toNat_valueLength
      rw [hvalueLen, ← @Client.checkOrder_raw_eq_ok position e previous]
      by_cases hvalue : e.value.length ≤ limits.maxValueBytes
      · rw [if_neg (not_lt.mpr hvalue)]
        cases Client.checkOrder previous (e.raw position) with
        | error error => simp
        | ok _ =>
          have hkey := fun key => @Client.wireKey_raw_eq_ok position e key
          cases hwireKey : Client.wireKey (e.raw position) with
          | error error =>
            have : ¬ (e.KeyOk ∧ ¬ InNamespace e) := by
              rintro ⟨hok, hname⟩
              exact absurd ((hkey _).mpr ⟨hok, hname, rfl⟩) (by simp [hwireKey])
            simp only [reduceCtorEq, false_iff]
            tauto
          | ok key =>
            obtain ⟨hok, hname, rfl⟩ := (hkey _).mp hwireKey
            simp only [hcount, hvalue, hok, hname, true_and, not_false_eq_true]
            unfold Client.store
            cases howned : e.owned with
            | none => simp [Entry.raw]
            | some pair =>
              obtain ⟨key, value⟩ := pair
              obtain ⟨-, rfl⟩ := wireOrder_of_mem_owned hok howned
              simp [Entry.raw]
      · rw [if_pos (not_le.mp hvalue)]
        simp [hvalue]
  · rw [if_pos (not_le.mp hcount)]
    simp [hcount]

/-! ### Shared limits -/

/-- The same three limits, in the client's types and in those of the crate. -/
structure Client.Limits.Matches (limits : Client.Limits) (limits' : MetadataLimits) : Prop where
  maxBytes : limits'.maxBytes.toNat = limits.maxBytes
  maxEntries : limits'.maxEntries.toNat = limits.maxEntries
  maxValueBytes : limits'.maxValueBytes.toNat = limits.maxValueBytes

/-- Limits that both decoders accept in their own types. -/
structure SharedLimits where
  maxBytes : ℕ
  maxEntries : ℕ
  maxValueBytes : ℕ
  positive : 1 ≤ maxBytes ∧ 1 ≤ maxEntries ∧ 1 ≤ maxValueBytes
  bounded : maxBytes ≤ 2 ^ 15 ∧ maxEntries ≤ 2 ^ 15 ∧ maxValueBytes ≤ 2 ^ 15

namespace SharedLimits

def toClient (limits : SharedLimits) : Client.Limits where
  maxBytes := limits.maxBytes
  maxEntries := limits.maxEntries
  maxValueBytes := limits.maxValueBytes
  positive := limits.positive

def toProtocol (limits : SharedLimits) : MetadataLimits where
  maxBytes := UInt32.ofNat limits.maxBytes
  maxEntries := UInt16.ofNat limits.maxEntries
  maxValueBytes := UInt32.ofNat limits.maxValueBytes

variable (limits : SharedLimits)

theorem matches_toProtocol : limits.toClient.Matches limits.toProtocol where
  maxBytes := Nat.mod_eq_of_lt (lt_of_le_of_lt limits.bounded.1 (by omega))
  maxEntries := Nat.mod_eq_of_lt (lt_of_le_of_lt limits.bounded.2.1 (by omega))
  maxValueBytes := Nat.mod_eq_of_lt (lt_of_le_of_lt limits.bounded.2.2 (by omega))

end SharedLimits

variable {limits' : MetadataLimits}

/-- The client's loop accepts what the grammar accepts, less the reserved
names, and stores the known entries one after the other. -/
theorem Client.decodeEntries_eq_ok_iff {limits : Client.Limits} (hlimits : limits.Matches limits')
    (hend : blockEnd ≤ input.length) (hmax : blockEnd ≤ usizeMax) (position count : ℕ)
    (previous : Option (UInt16 × Bytes)) (decoded result : SortedMap Client.WireKey Bytes)
    (hcount : count ≤ limits.maxEntries) :
    Client.decodeEntries input limits blockEnd position count previous decoded = .ok result ↔
      ∃ entries : List Entry, (input.take blockEnd).drop position = entries.flatMap Entry.wire ∧
        count + entries.length ≤ limits.maxEntries ∧ Canonical limits' entries ∧
          (∀ e ∈ entries, Follows previous e) ∧ (∀ e ∈ entries, ¬ InNamespace e) ∧
            result = entries.foldl Client.store decoded := by
  have hlength : (input.take blockEnd).length = blockEnd := by simpa using hend
  -- induction on the number of bytes that are left
  induction hleft : blockEnd - position using Nat.strong_induction_on
    generalizing position count previous decoded with
  | _ left ih =>
  by_cases hposition : position < blockEnd
  · constructor
    · intro hok
      obtain ⟨e, hdrop⟩ : ∃ e : Entry, (input.take blockEnd).drop position =
          e.wire ++ (input.take blockEnd).drop (position + e.wire.length) := by
        rw [Client.decodeEntries, if_pos hposition] at hok
        cases hread : Client.readEntry input blockEnd position with
        | error error =>
          split_ifs at hok
          split at hok
          · cases hok
          · rename_i hentry
            exact absurd (hentry.symm.trans hread) (by simp)
        | ok entry =>
          obtain ⟨e, -, hdrop⟩ :=
            exists_wire_of_parseEntry ((Client.readEntry_eq_ok_iff hend hmax).mp hread)
          exact ⟨e, hdrop⟩
      obtain ⟨hcount', hvalue, hfollows, hkey, hname, hrest⟩ :=
        (Client.decodeEntries_wire hend hmax hdrop count previous decoded result).mp hok
      have hpos := e.length_wire_pos
      obtain ⟨entries, hentries, hlen, hcanonical, hall, hnames, rfl⟩ :=
        (ih _ (by omega) (position + e.wire.length) (count + 1) _ _ hcount' rfl).mp hrest
      have hcons : Canonical limits' (e :: entries) := canonical_cons.mpr
        ⟨⟨by rw [hlimits.maxValueBytes]; exact hvalue, hkey⟩, hall, hcanonical⟩
      refine ⟨e :: entries, ?_, ?_, hcons, hcons.follows hfollows, ?_, rfl⟩
      · rw [hdrop, hentries, List.flatMap_cons]
      · rw [List.length_cons]
        omega
      · exact List.forall_mem_cons.mpr ⟨hname, hnames⟩
    · rintro ⟨entries, hentries, hlen, hcanonical, hall, hnames, rfl⟩
      cases entries with
      | nil =>
        rw [List.flatMap_nil, List.drop_eq_nil_iff] at hentries
        omega
      | cons e entries =>
        rw [List.flatMap_cons] at hentries
        rw [List.length_cons] at hlen
        obtain ⟨⟨hvalue, hkey⟩, htail, hcanonical'⟩ := canonical_cons.mp hcanonical
        obtain ⟨hname, hnames'⟩ := List.forall_mem_cons.mp hnames
        rw [hlimits.maxValueBytes] at hvalue
        have hpos := e.length_wire_pos
        have hcount' : count + 1 ≤ limits.maxEntries := by omega
        refine (Client.decodeEntries_wire hend hmax hentries count previous decoded _).mpr
          ⟨hcount', hvalue, hall e (by simp), hkey, hname, ?_⟩
        exact (ih _ (by omega) (position + e.wire.length) (count + 1) _ _ hcount' rfl).mpr
          ⟨entries, drop_add_of_drop_eq hentries, by omega, hcanonical', htail, hnames', rfl⟩
  · rw [Client.decodeEntries, if_neg hposition]
    have hnil : (input.take blockEnd).drop position = [] :=
      List.drop_eq_nil_iff.mpr (by omega)
    constructor
    · intro hok
      cases hok
      exact ⟨[], hnil, by simpa using hcount, ⟨by simp, by simp⟩, by simp, by simp, rfl⟩
    · rintro ⟨entries, hentries, -, -, -, -, rfl⟩
      cases entries with
      | nil => rfl
      | cons e entries =>
        rw [hnil, List.flatMap_cons] at hentries
        exact absurd hentries.symm (List.append_ne_nil_of_left_ne_nil
          (List.ne_nil_of_length_pos e.length_wire_pos) _)

/-! ### The decoded maps -/

theorem Client.ofAscii_lt_ofAscii {name' : Bytes} (h : name < name') :
    Client.ofAscii name < Client.ofAscii name' := by
  induction name generalizing name' with
  | nil =>
    cases name' with
    | nil => exact absurd h (lt_irrefl _)
    | cons byte name' => exact List.nil_lt_cons _ _
  | cons byte name ih =>
    cases name' with
    | nil => exact absurd h (List.not_lt_nil _)
    | cons byte' name' =>
      rw [List.cons_lt_cons_iff] at h
      refine List.cons_lt_cons_iff.mpr (h.imp (fun hlt => ?_) fun heq => ⟨?_, ih heq.2⟩)
      · rw [UInt16.lt_iff_toNat_lt, UInt8.toNat_toUInt16, UInt8.toNat_toUInt16]
        exact UInt8.lt_iff_toNat_lt.mp hlt
      · rw [heq.1]

/-- The client orders its keys as the Rust map does. -/
theorem Client.WireKey.ofKey_lt_ofKey {key key' : MetadataKey} (h : key < key') :
    Client.WireKey.ofKey key < Client.WireKey.ofKey key' := by
  rw [MetadataKey.lt_def] at h
  rw [Client.WireKey.lt_def]
  cases key <;> cases key' <;>
    simp only [MetadataKey.wireOrder, Client.WireKey.ofKey, Client.WireKey.rank,
      Client.wireId_ofProtocol, Prod.Lex.toLex_lt_toLex, lt_irrefl, false_or, and_false,
      or_false, true_and] at h ⊢
  · exact h
  · exact Or.inl (MetadataKey.reserved_toNat_lt _)
  · rename_i key'
    have := MetadataKey.reserved_toNat_lt key'
    omega
  · exact Client.ofAscii_lt_ofAscii h

/-- Java's comparator orders keys as the derived `Ord` of the Rust keys does. -/
theorem compareTo_ofKey_eq_lt_iff (key key' : MetadataKey) :
    (Client.WireKey.ofKey key).compareTo (.ofKey key') = .lt ↔ key.lt key' = true := by
  rw [Client.WireKey.compareTo_eq_lt_iff]
  exact StrictMono.lt_iff_lt fun _ _ => Client.WireKey.ofKey_lt_ofKey

/-- The client's form of a map entry. -/
def Client.ofPair (pair : MetadataKey × Bytes) : Client.WireKey × Bytes := (.ofKey pair.1, pair.2)

variable {entries : List Entry}

/-- Storing canonical entries above every key appends them. -/
theorem Client.toList_foldl_store {limits : MetadataLimits} (hcanonical : Canonical limits entries)
    {decoded : SortedMap Client.WireKey Bytes}
    (habove : ∀ e ∈ entries, ∀ pair ∈ e.owned, ∀ key ∈ decoded.keys, key < .ofKey pair.1) :
    (entries.foldl Client.store decoded).toList =
      decoded.toList ++ (entries.filterMap Entry.owned).map Client.ofPair := by
  induction entries generalizing decoded with
  | nil => simp
  | cons e entries ih =>
    obtain ⟨⟨-, hkey⟩, htail, hcanonical'⟩ := canonical_cons.mp hcanonical
    obtain ⟨hhead, habove'⟩ := List.forall_mem_cons.mp habove
    rw [List.foldl_cons]
    cases howned : e.owned with
    | none =>
      rw [Client.store, howned, List.filterMap_cons_none howned]
      exact ih hcanonical' habove'
    | some pair =>
      obtain ⟨key, value⟩ := pair
      have hlist : (Client.store decoded e).toList =
          decoded.toList ++ [(.ofKey key, value)] := by
        rw [Client.store, howned]
        exact SortedMap.toList_insert_of_forall_lt (hhead (key, value) howned)
      rw [ih hcanonical', hlist, List.filterMap_cons_some howned, List.map_cons,
        List.append_assoc, List.singleton_append]
      · rfl
      intro e' he' pair hpair key' hmem
      rw [SortedMap.keys, hlist, List.map_append, List.mem_append] at hmem
      rcases hmem with hold | hnew
      · exact habove' e' he' pair hpair key' hold
      · -- the key just stored lies below those of the later entries
        obtain rfl : key' = .ofKey key := by simpa using hnew
        apply Client.WireKey.ofKey_lt_ofKey
        have hkey' := (hcanonical'.admissible e' he').2
        rw [MetadataKey.lt_def, (wireOrder_of_mem_owned hkey howned).1,
          (wireOrder_of_mem_owned hkey' hpair).1]
        exact htail e' he' _ rfl

theorem Client.toList_foldl_store_empty {limits : MetadataLimits}
    (hcanonical : Canonical limits entries) :
    (entries.foldl Client.store .empty).toList =
      (entries.filterMap Entry.owned).map Client.ofPair := by
  refine (Client.toList_foldl_store hcanonical ?_).trans (List.nil_append _)
  intro e _ pair _ key hmem
  exact absurd hmem List.not_mem_nil

/-! ### The decoders -/

/-- The client's decoder against the grammar. -/
theorem Client.decode_eq_ok_iff {payload : Bytes} {limits : Client.Limits}
    (hlimits : limits.Matches limits') {decoded : SortedMap Client.WireKey Bytes} :
    Client.decode input limits = .ok (decoded, payload) ↔
      ∃ entries, IsBlock limits' entries payload input ∧
        (∀ e ∈ entries, ¬ InNamespace e) ∧
          decoded.toList = (entries.filterMap Entry.owned).map Client.ofPair := by
  simp only [isBlock_iff, hlimits.maxBytes, hlimits.maxEntries]
  unfold Client.decode
  by_cases hfour : input.length < 4
  · rw [if_pos hfour]
    simp only [reduceCtorEq, false_iff, not_exists]
    omega
  rw [if_neg hfour]
  simp only
  generalize UInt32.fromBeBytes (slice input 0 4) = announced
  split_ifs with havailable hmax
  · simp only [false_iff, not_exists]
    omega
  · have : limits.maxBytes < announced.toNat := hmax
    simp only [false_iff, not_exists]
    omega
  · have hmaxNat : announced.toNat ≤ limits.maxBytes := not_lt.mp hmax
    have hend : 4 + announced.toNat ≤ input.length := by omega
    have hpayload : slice input (4 + announced.toNat) input.length =
        input.drop (4 + announced.toNat) := by
      rw [slice, List.take_of_length_le (by rw [List.length_drop])]
    have hblock : (input.take (4 + announced.toNat)).drop 4 =
        slice input 4 (4 + announced.toNat) := by
      rw [slice, List.drop_take]
    -- a length of four bytes is far below the largest position
    have hsize : 4 + announced.toNat ≤ usizeMax := by
      have := announced.toNat_lt
      rw [usizeMax]
      omega
    -- the loop starts behind the length, with no entry before the first
    have hloop := fun result => Client.decodeEntries_eq_ok_iff hlimits hend hsize 4 0 none .empty
      result (Nat.zero_le _)
    simp only [hblock, zero_add, Follows, Option.mem_def, reduceCtorEq, false_implies,
      implies_true, true_and] at hloop
    rw [hpayload]
    constructor
    · intro hok
      split at hok
      · cases hok
      · rename_i hvalid
        obtain ⟨rfl, rfl⟩ := Prod.mk.inj (Except.ok.inj hok)
        obtain ⟨entries, hentries, hcount, hcanonical, hnames, rfl⟩ := (hloop _).mp hvalid
        exact ⟨entries, ⟨hend, hmaxNat, hentries, rfl, hcount, hcanonical⟩, hnames,
          Client.toList_foldl_store_empty hcanonical⟩
    · rintro ⟨entries, ⟨-, -, hentries, rfl, hcount, hcanonical⟩, hnames, hlist⟩
      obtain rfl : entries.foldl Client.store .empty = decoded :=
        SortedMap.ext ((Client.toList_foldl_store_empty hcanonical).trans hlist.symm)
      rw [(hloop _).mpr ⟨entries, hentries, hcount, hcanonical, hnames, rfl⟩]

theorem mem_keys_user_iff {m : Metadata}
    (hlist : m.entries.toList = entries.filterMap Entry.owned) :
    .user name ∈ m.entries.keys ↔ ∃ e ∈ entries, e.keyId = userKeyId ∧ e.name = name := by
  have howned : ∀ e : Entry, (∃ value, e.owned = some (.user name, value)) ↔
      e.keyId = userKeyId ∧ e.name = name := by
    intro e
    unfold Entry.owned
    by_cases huser : e.keyId = userKeyId
    · simp [huser]
    · simp [huser]
  simp only [SortedMap.keys, hlist, List.mem_map, List.mem_filterMap, ← howned]
  constructor
  · rintro ⟨⟨key, value⟩, ⟨e, he, hpair⟩, rfl⟩
    exact ⟨e, he, value, hpair⟩
  · rintro ⟨e, he, value, hpair⟩
    exact ⟨(.user name, value), ⟨e, he, hpair⟩, rfl⟩

/-- The client reads back what the crate's encoder wrote, unless a name lies in
its reserved namespace. -/
theorem Client.decode_block {m : Metadata} (hlen : m.blockLen < 2 ^ 32) {limits : Client.Limits}
    (hlimits : limits.Matches limits') (hadmitted : m.Admitted limits')
    (hnames : ∀ name, .user name ∈ m.entries.keys → ¬ namespaceBytes <+: name) (payload : Bytes) :
    ∃ decoded, Client.decode (m.block hlen ++ payload) limits = .ok (decoded, payload) ∧
      decoded.toList = m.entries.toList.map Client.ofPair := by
  have hblock := (Metadata.isBlock_iff_admitted hlen limits' payload).mpr hadmitted
  have howned := Metadata.filterMap_owned_wireEntries m.entries.toList
    (Metadata.encodable_of_blockLen_lt hlen)
  have hlist := Client.toList_foldl_store_empty hblock.canonical
  refine ⟨_, (Client.decode_eq_ok_iff hlimits).mpr ⟨_, hblock, ?_, hlist⟩, hlist.trans ?_⟩
  · rintro e he ⟨huser, hname⟩
    exact hnames e.name ((mem_keys_user_iff howned.symm).mpr ⟨e, he, huser, rfl⟩) hname
  · rw [howned]

/-- The client accepts an input exactly if the Rust decoder does and no user
name lies in the client's reserved namespace. What both accept they decode to
the same entries and the same payload. -/
theorem client_decode_agrees (input : Bytes) (limits : SharedLimits) :
    ((∃ decoded payload, Client.decode input limits.toClient = .ok (decoded, payload)) ↔
      ∃ m payload, Metadata.decode input limits.toProtocol = .ok (m, payload) ∧
        ∀ name, .user name ∈ m.entries.keys → ¬ namespaceBytes <+: name) ∧
    ∀ decoded payload m payload',
      Client.decode input limits.toClient = .ok (decoded, payload) →
      Metadata.decode input limits.toProtocol = .ok (m, payload') →
        decoded.toList = m.entries.toList.map Client.ofPair ∧ payload = payload' := by
  simp only [Client.decode_eq_ok_iff limits.matches_toProtocol, Protocol.decode_eq_ok_iff]
  refine ⟨⟨?_, ?_⟩, ?_⟩
  · rintro ⟨decoded, payload, entries, hblock, hnames, -⟩
    obtain ⟨m, -, hlist⟩ := hblock.copyEntries_eq_ok
    refine ⟨m, payload, ⟨entries, hblock, hlist⟩, fun name hmem hname => ?_⟩
    obtain ⟨e, he, huser, rfl⟩ := (mem_keys_user_iff hlist).mp hmem
    exact hnames e he ⟨huser, hname⟩
  · rintro ⟨m, payload, ⟨entries, hblock, hlist⟩, hnames⟩
    refine ⟨_, payload, entries, hblock, ?_, Client.toList_foldl_store_empty hblock.canonical⟩
    rintro e he ⟨huser, hname⟩
    exact hnames e.name ((mem_keys_user_iff hlist).mpr ⟨e, he, huser, rfl⟩) hname
  · rintro decoded payload m payload' ⟨entries, hblock, -, hdecoded⟩ ⟨entries', hblock', hlist⟩
    have hlt := lt_of_le_of_lt hblock'.length_le limits.toProtocol.maxBytes.toNat_lt
    obtain ⟨rfl, rfl⟩ := hblock.unique hlt hblock'.input_eq
    exact ⟨by rw [hdecoded, hlist], rfl⟩

/-- A block with one user entry, named `moonlight-x`, without a value. -/
def reservedNameInput : Bytes :=
  (18 : UInt32).toBeBytes ++ (userKeyId.toBeBytes ++ [11] ++ (0 : UInt32).toBeBytes ++
    "moonlight-x".toUTF8.data.toList)

def smallLimits : SharedLimits where
  maxBytes := 64
  maxEntries := 4
  maxValueBytes := 16
  positive := by decide
  bounded := by decide

/-- Only the Rust decoder accepts a user name in the client's namespace. -/
theorem client_decode_reservedNameInput :
    (∃ result, Metadata.decode reservedNameInput smallLimits.toProtocol = .ok result) ∧
      ¬ ∃ result, Client.decode reservedNameInput smallLimits.toClient = .ok result := by
  have hrust : (Metadata.decode reservedNameInput smallLimits.toProtocol).isOk = true := by
    decide +kernel
  have hclient : Client.decode reservedNameInput smallLimits.toClient =
      .error .invalidUserKey := by
    decide +kernel
  constructor
  · cases h : Metadata.decode reservedNameInput smallLimits.toProtocol with
    | error error => simp [h, Except.isOk, Except.toBool] at hrust
    | ok result => exact ⟨result, rfl⟩
  · rintro ⟨result, hresult⟩
    exact absurd (hclient.symm.trans hresult) (by simp)

end MoonLightBridge
