import MoonLightBridge.Client.RequestPrefix
import MoonLightBridge.Server.RequestPayload
import MoonLightBridge.System.OutboundPath

/-!
# From a Java call to a Rust handler

The client merges generated and user entries into a metadata prefix, compresses
the body where that was negotiated and pays off, and writes one frame. The server
reads the frame, validates the prefix in place, shifts and decompresses the
payload. This module composes the two.

The middle of the argument is one value: the crate's own metadata map that has the
entries of the client's prefix. The client's bytes are the block this map is
encoded to, so everything known about the crate's decoder applies to them.
-/

namespace MoonLightBridge.RequestPath

open Protocol Server

/-! ### Keys -/

/-- The crate's form of a runtime key. -/
def reservedKey : Client.ReservedKey → ReservedMetadataKey
  | .deadlineMillis => .deadlineMillis
  | .traceContext => .traceContext
  | .idempotencyKey => .idempotencyKey
  | .authorization => .authorization
  | .requiredScopes => .requiredScopes
  | .compressionCodec => .compressionCodec
  | .originalLength => .originalLength
  | .logicalCallId => .logicalCallId
  | .retryAttempt => .retryAttempt
  | .eventCursor => .eventCursor
  | .eventSequence => .eventSequence
  | .contentType => .contentType
  | .diagnosticCorrelation => .diagnosticCorrelation

/-- The crate's form of a client key. -/
def metadataKey : Client.WireKey → MetadataKey
  | .reserved key => .reserved (reservedKey key)
  | .user name => .user (Client.asciiBytes name)

/-- The crate's form of an entry. -/
def metadataPair (entry : Client.WireKey × Bytes) : MetadataKey × Bytes :=
  (metadataKey entry.1, entry.2)

/-- A runtime key, or a name that passed the client's check. -/
def ValidKey (key : Client.WireKey) : Prop :=
  ∀ name, key = .user name → Client.validateUserKey name = .ok ()

theorem toNat_lt_of_isUserKeyUnit {value : UInt16} (h : Client.isUserKeyUnit value = true) :
    value.toNat < 128 := by
  simp only [Client.isUserKeyUnit, Bool.or_eq_true, Bool.and_eq_true, decide_eq_true_eq,
    beq_iff_eq, UInt16.le_iff_toNat_le] at h
  rcases h with (((⟨-, h⟩ | ⟨-, h⟩) | rfl) | rfl) | rfl
  · exact lt_of_le_of_lt h (by decide)
  · exact lt_of_le_of_lt h (by decide)
  all_goals decide

variable {name : Client.JString}

section

variable (h : Client.validateUserKey name = .ok ())

include h

theorem isUserKeyUnit_of_validateUserKey : ∀ unit ∈ name, Client.isUserKeyUnit unit = true := by
  unfold Client.validateUserKey at h
  split_ifs at h with hshape hunits
  rw [Bool.not_eq_true, Bool.not_eq_false', List.all_eq_true] at hunits
  exact hunits

/-- The name bytes of a valid key are its characters. -/
theorem asciiString_asciiBytes : Client.asciiString (Client.asciiBytes name) = name := by
  rw [Client.asciiString, Client.asciiBytes, List.map_map]
  refine (List.map_congr_left fun unit hunit => ?_).trans (List.map_id name)
  have hlt := toNat_lt_of_isUserKeyUnit (isUserKeyUnit_of_validateUserKey h unit hunit)
  have hnat : unit.toUInt8.toNat = unit.toNat := by
    rw [UInt16.toNat_toUInt8]
    omega
  have hascii : unit.toUInt8 < 0x80 := by
    rw [UInt8.lt_iff_toNat_lt, hnat]
    exact hlt
  simp only [Function.comp_apply, if_pos hascii, id]
  apply UInt16.toNat_inj.mp
  rw [UInt8.toNat_toUInt16, hnat]

theorem validUserKey_asciiBytes : ValidUserKey (Client.asciiBytes name) := by
  rw [← asciiString_asciiBytes h] at h
  exact (Client.validateUserKey_eq_ok.mp h).1

end

theorem ofKey_metadataKey {key : Client.WireKey} (h : ValidKey key) :
    Client.WireKey.ofKey (metadataKey key) = key := by
  cases key with
  | reserved key => cases key <;> rfl
  | user name =>
    have hvalid := h name rfl
    have hbytes := (validUserKey_asciiBytes hvalid).2.2
    rw [metadataKey, Client.WireKey.ofKey, ← Client.asciiString_eq_ofAscii hbytes,
      asciiString_asciiBytes hvalid]

/-- The two sides order their keys alike. -/
theorem metadataKey_lt_metadataKey {key key' : Client.WireKey} (h : ValidKey key)
    (h' : ValidKey key') (hlt : key < key') : metadataKey key < metadataKey key' := by
  rcases lt_trichotomy (metadataKey key) (metadataKey key') with hcase | hcase | hcase
  · exact hcase
  · have := congrArg Client.WireKey.ofKey hcase
    rw [ofKey_metadataKey h, ofKey_metadataKey h'] at this
    exact absurd this hlt.ne
  · have := Client.WireKey.ofKey_lt_ofKey hcase
    rw [ofKey_metadataKey h, ofKey_metadataKey h'] at this
    exact absurd this hlt.not_gt

/-! ### The prefix as a block of the crate -/

/-- An entry is written as the crate writes it. -/
theorem writeEntry_eq_wire (entry : Client.WireKey × Bytes)
    (h : Metadata.Encodable (metadataPair entry)) :
    Client.writeEntry entry = (Metadata.wireEntry (metadataPair entry) h).wire := by
  obtain ⟨key, value⟩ := entry
  have hname : Client.asciiBytes key.name = Metadata.keyName (metadataKey key) := by
    cases key <;> rfl
  have htagged : key.taggedId = Metadata.taggedId (metadataKey key) := by
    cases key with
    | reserved key => cases key <;> rfl
    | user name => rfl
  simp only [Client.writeEntry, Client.writeEntryHeader, hname, htagged, Entry.wire, Entry.header,
    Metadata.wireEntry, metadataPair, List.append_assoc, List.cons_append, List.nil_append]

theorem flatMap_writeEntry {entries : List (Client.WireKey × Bytes)}
    (h : ∀ pair ∈ entries.map metadataPair, Metadata.Encodable pair) :
    entries.flatMap Client.writeEntry =
      (Metadata.wireEntries (entries.map metadataPair) h).flatMap Entry.wire := by
  induction entries with
  | nil => rfl
  | cons entry entries ih =>
    obtain ⟨hentry, hentries⟩ := List.forall_mem_cons.mp h
    rw [List.flatMap_cons, ih hentries, writeEntry_eq_wire entry hentry]
    rfl

theorem entryLen_metadataPair (entry : Client.WireKey × Bytes) :
    Metadata.entryLen (metadataPair entry) = Client.entryLength entry := by
  obtain ⟨key, value⟩ := entry
  cases key <;> simp [Metadata.entryLen, metadataPair, metadataKey, Metadata.keyName,
    Client.entryLength, Client.WireKey.name, Client.asciiBytes]

section Merge

variable {userMetadata : Client.MoonLightMetadata} {context : Client.RequestContext}

theorem validKey_of_mem_merge {entry : Client.WireKey × Bytes}
    (h : entry ∈ Client.mergeEntries userMetadata.entries.toList
      (context.generated Client.requestKeys)) : ValidKey entry.1 := by
  rintro name hname
  rcases List.mem_append.mp ((Client.merge_perm _ _).mem_iff.mp h) with huser | hgenerated
  · exact userMetadata.validUserKeys name (hname ▸ List.mem_map_of_mem huser)
  · obtain ⟨key, -, rfl⟩ := List.mem_map.mp hgenerated
    cases hname

theorem increasing_metadataPair
    (hdisjoint : ∀ entry ∈ context.generated Client.requestKeys,
      entry.1 ∉ userMetadata.entries.keys) :
    (((Client.mergeEntries userMetadata.entries.toList
      (context.generated Client.requestKeys)).map metadataPair).map Prod.fst).Pairwise
        (· < ·) := by
  have hkeys := List.pairwise_map.mp (Client.increasing_merge hdisjoint)
  rw [List.map_map, List.pairwise_map]
  exact hkeys.imp_of_mem fun ha hb hab =>
    metadataKey_lt_metadataKey (validKey_of_mem_merge ha) (validKey_of_mem_merge hb) hab

/-- The map of the crate that holds the entries of a request. -/
def mergedMetadata (userMetadata : Client.MoonLightMetadata) (context : Client.RequestContext)
    (hdisjoint : ∀ entry ∈ context.generated Client.requestKeys,
      entry.1 ∉ userMetadata.entries.keys) : Metadata where
  entries := ⟨_, increasing_metadataPair hdisjoint⟩
  validUserKeys := by
    intro name hmem
    obtain ⟨pair, hpair, hname⟩ := List.mem_map.mp hmem
    obtain ⟨⟨key, value⟩, hentry, rfl⟩ := List.mem_map.mp hpair
    cases key with
    | reserved key => cases hname
    | user name' =>
      cases hname
      exact validUserKey_asciiBytes (validKey_of_mem_merge hentry name' rfl)

/-- The prefix the client writes is the block of a map of the crate, which holds the
user entries and the generated ones. -/
theorem exists_metadata {prefixLength : ℕ}
    (h : userMetadata.requestPrefixLength context = .ok prefixLength)
    (hlt : prefixLength - 4 < 2 ^ 32) :
    ∃ (m : Metadata) (hlen : m.blockLen < 2 ^ 32),
      m.entries.toList.Perm ((userMetadata.entries.toList ++
        context.generated Client.requestKeys).map metadataPair) ∧
      m.blockLen = prefixLength - 4 ∧ prefixLength = 4 + m.blockLen ∧
      userMetadata.writeRequestPrefix prefixLength context = m.block hlen := by
  obtain ⟨hlength, hdisjoint⟩ := Client.requestPrefixLength_eq_ok h
  have hperm := Client.merge_perm userMetadata.entries.toList (context.generated Client.requestKeys)
  have hblockLen : (mergedMetadata userMetadata context hdisjoint).blockLen = prefixLength - 4 := by
    have hsum := (hperm.map Client.entryLength).sum_eq
    rw [List.map_append, List.sum_append] at hsum
    rw [Metadata.blockLen, mergedMetadata, List.map_map,
      show Metadata.entryLen ∘ metadataPair = Client.entryLength from
        funext entryLen_metadataPair, hsum, hlength, Nat.add_sub_cancel_left]
  have hlen := hblockLen.trans_lt hlt
  refine ⟨mergedMetadata userMetadata context hdisjoint, hlen, hperm.map metadataPair, hblockLen,
    by omega, ?_⟩
  rw [Client.writeRequestPrefix_eq, Metadata.block, hblockLen,
    flatMap_writeEntry (Metadata.encodable_of_blockLen_lt hlen)]
  rfl

end Merge

/-! ### What the client generates -/

/-- The crate's form of a trace context. -/
def traceContext (trace : Client.MoonLightTraceContext) : TraceContext where
  traceId := trace.traceId
  parentSpanId := trace.parentSpanId
  sampled := trace.sampled
  length_traceId := trace.length_traceId
  length_parentSpanId := trace.length_parentSpanId

/-- The runtime entries of a request: its deadline, its trace context if it has one,
and, if its body was compressed, the codec and the length of the body. -/
def runtimeEntries (request : Client.Request) (compressed : Bool) : List (MetadataKey × Bytes) :=
  [(.reserved .deadlineMillis, request.timeoutMillis.toUInt32.toBeBytes)] ++
    (match request.traceContext with
      | none => []
      | some trace => [(.reserved .traceContext, (traceContext trace).encodeInto [])]) ++
    if compressed then
      [(.reserved .compressionCodec, [CompressionCodec.zstd.toU8]),
        (.reserved .originalLength, (UInt32.ofNat request.body.length).toBeBytes)]
    else []

theorem map_generated {request : Client.Request} {encoded : Client.Encoded}
    (horiginal : encoded.originalLength = request.body.length) :
    ((request.context encoded).generated Client.requestKeys).map metadataPair =
      runtimeEntries request (encoded.codec = .zstd) := by
  rw [Client.generated_requestKeys, runtimeEntries, List.map_append, List.map_append]
  congr 1
  · congr 1
    cases htrace : request.traceContext with
    | none => simp [Client.Request.context, htrace]
    | some trace =>
      simp only [Client.Request.context, Client.RequestContext.writeValue, htrace,
        Option.isSome_some, if_true]
      rfl
  · simp only [Client.Request.context, Client.RequestContext.writeValue, horiginal]
    by_cases hzstd : encoded.codec = .zstd
    · simp only [hzstd, if_true, decide_true]
      rfl
    · simp only [hzstd, if_false, decide_false]
      rfl

/-! ### What the server finds -/

section Server

variable {m : Metadata} {request : Client.Request} {compressed : Bool}
  {user : List (MetadataKey × Bytes)}

/-- The runtime values of a map have different keys. -/
theorem nodup_reservedPair (m : Metadata) :
    ((m.entries.toList.filterMap Metadata.reservedPair).map Prod.fst).Nodup := by
  have hincreasing := List.pairwise_map.mp m.entries.increasing
  rw [List.Nodup, List.pairwise_map, List.pairwise_filterMap]
  refine hincreasing.imp fun {pair pair'} hlt entry hentry entry' hentry' heq => ?_
  obtain ⟨key, value⟩ := pair
  obtain ⟨key', value'⟩ := pair'
  cases key with
  | user name => cases hentry
  | reserved key =>
    cases key' with
    | user name => cases hentry'
    | reserved key' =>
      cases hentry
      obtain rfl := Option.some_inj.mp hentry'
      exact absurd (congrArg MetadataKey.reserved heq) hlt.ne

theorem mem_reservedPair {pairs : List (MetadataKey × Bytes)} {key : ReservedMetadataKey}
    {value : Bytes} :
    (key, value) ∈ pairs.filterMap Metadata.reservedPair ↔ (.reserved key, value) ∈ pairs := by
  rw [List.mem_filterMap]
  constructor
  · rintro ⟨⟨key', value'⟩, hmem, hpair⟩
    cases key' with
    | user name => cases hpair
    | reserved key' =>
      cases hpair
      exact hmem
  · intro hmem
    exact ⟨_, hmem, rfl⟩

section

variable (hperm : m.entries.toList.Perm (user ++ runtimeEntries request compressed))

include hperm

/-- The value of a runtime entry that the client generated. -/
theorem get_of_mem_runtimeEntries (key : ReservedMetadataKey) (hkey : key ∈ RequestValues.keys)
    {value : Bytes} (hmem : (.reserved key, value) ∈ runtimeEntries request compressed) :
    (RequestValues.ofEntries (m.entries.toList.filterMap Metadata.reservedPair)).get key =
      some value := by
  apply RequestValues.get_ofEntries hkey (nodup_reservedPair m)
  exact mem_reservedPair.mpr (hperm.mem_iff.mpr (List.mem_append_right _ hmem))

/-- A runtime value that neither the client generated nor the user supplied. -/
theorem get_of_notMem_runtimeEntries (key : ReservedMetadataKey) (hkey : key ∈ RequestValues.keys)
    (huser : .reserved key ∉ user.map Prod.fst)
    (hmem : .reserved key ∉ (runtimeEntries request compressed).map Prod.fst) :
    (RequestValues.ofEntries (m.entries.toList.filterMap Metadata.reservedPair)).get key =
      none := by
  apply RequestValues.get_ofEntries_of_notMem hkey
  intro hkeys
  obtain ⟨⟨key', value⟩, hpair, rfl⟩ := List.mem_map.mp hkeys
  rcases List.mem_append.mp (hperm.mem_iff.mp (mem_reservedPair.mp hpair)) with hold | hnew
  · exact huser (List.mem_map_of_mem hold)
  · exact hmem (List.mem_map_of_mem hnew)

/-- The deadline arrives. -/
theorem deadline_of_perm (htimeout : 1 ≤ request.timeoutMillis) :
    (RequestValues.ofEntries (m.entries.toList.filterMap Metadata.reservedPair)).deadline =
      .ok (some request.timeoutMillis.toInt.toNat) := by
  have hvalue : (RequestValues.ofEntries _).deadlineValue = _ :=
    get_of_mem_runtimeEntries hperm .deadlineMillis (by decide)
      (List.mem_append_left _ (List.mem_append_left _ (List.mem_singleton_self _)))
  have hnonneg : (0 : Int32) ≤ request.timeoutMillis.toUInt32.toInt32 :=
    Int32.le_trans (by decide) htimeout
  -- zero is the one value that the server refuses
  have hne : request.timeoutMillis.toUInt32 ≠ 0 := by
    intro hzero
    have : request.timeoutMillis = 0 := congrArg UInt32.toInt32 hzero
    rw [this] at htimeout
    exact absurd htimeout (by decide)
  rw [RequestValues.deadline, hvalue]
  simp only [UInt32.length_toBeBytes, ne_eq, not_true, if_false, UInt32.fromBeBytes_toBeBytes, hne]
  rw [← UInt32.toNat_toInt_toInt32 hnonneg]
  rfl

/-- The trace context arrives, and none is invented. -/
theorem traceContext_of_perm
    (huser : ∀ key ∈ RequestValues.keys, .reserved key ∉ user.map Prod.fst) :
    (RequestValues.ofEntries (m.entries.toList.filterMap Metadata.reservedPair)).traceContext =
      .ok (request.traceContext.map traceContext) := by
  rw [RequestValues.traceContext]
  cases htrace : request.traceContext with
  | none =>
    have hvalue : (RequestValues.ofEntries _).traceValue = _ :=
      get_of_notMem_runtimeEntries hperm .traceContext (by decide) (huser _ (by decide)) (by
        cases compressed <;> simp [runtimeEntries, htrace])
    rw [hvalue]
    rfl
  | some trace =>
    have hvalue : (RequestValues.ofEntries _).traceValue =
        some ((traceContext trace).encodeInto []) :=
      get_of_mem_runtimeEntries hperm .traceContext (by decide) (by
        simp [runtimeEntries, htrace])
    rw [hvalue]
    simp only [TraceContext.length_encodeInto_nil, ne_eq, not_true, if_false,
      TraceContext.decode_encodeInto_nil, Option.map_some]

/-- The announcement of a compressed body arrives, and none is invented. -/
theorem compression_of_perm
    (huser : ∀ key ∈ RequestValues.keys, .reserved key ∉ user.map Prod.fst) :
    (RequestValues.ofEntries (m.entries.toList.filterMap Metadata.reservedPair)).compression =
      .ok (if compressed then some (.zstd, UInt32.ofNat request.body.length) else none) := by
  rw [RequestValues.compression]
  cases compressed with
  | false =>
    have hkeys : ∀ key ∈ [ReservedMetadataKey.compressionCodec, .originalLength],
        .reserved key ∉ (runtimeEntries request false).map Prod.fst := by
      intro key hkey
      unfold runtimeEntries
      cases request.traceContext <;> simp at hkey ⊢ <;> rcases hkey with rfl | rfl <;> simp
    have hcodec : (RequestValues.ofEntries _).codecValue = _ :=
      get_of_notMem_runtimeEntries hperm .compressionCodec (by decide) (huser _ (by decide))
        (hkeys _ (by decide))
    have horiginal : (RequestValues.ofEntries _).originalValue = _ :=
      get_of_notMem_runtimeEntries hperm .originalLength (by decide) (huser _ (by decide))
        (hkeys _ (by decide))
    rw [hcodec, horiginal]
    rfl
  | true =>
    have hcodec : (RequestValues.ofEntries _).codecValue = some [CompressionCodec.zstd.toU8] :=
      get_of_mem_runtimeEntries hperm .compressionCodec (by decide) (by simp [runtimeEntries])
    have horiginal : (RequestValues.ofEntries _).originalValue =
        some (UInt32.ofNat request.body.length).toBeBytes :=
      get_of_mem_runtimeEntries hperm .originalLength (by decide) (by simp [runtimeEntries])
    rw [hcodec, horiginal]
    simp only [show CompressionCodec.tryFrom CompressionCodec.zstd.toU8 = .ok .zstd from rfl,
      UInt32.length_toBeBytes, ne_eq, not_true, if_false, UInt32.fromBeBytes_toBeBytes, if_true]

end

end Server

/-! ### The composition -/

section Composition

variable {zstd : Zstd} {negotiated : Negotiated} {settings : Client.Settings}
  {request : Client.Request} {encoded : Client.Encoded}

/-- The frame of a request, as the server sees it. -/
def requestFrame (request : Client.Request) (body : Bytes) : Frame where
  kind := .request
  flags := flagHasMetadata
  methodId := request.methodId.toUInt32
  requestId := request.requestId.toUInt64
  body

/-- The client writes a frame the way the crate does. -/
theorem frameBytes_eq_wire (prefixLength : ℕ) {bodyLength : ℕ}
    (h : bodyLength = (request.userMetadata.writeRequestPrefix prefixLength
      (request.context encoded) ++ encoded.bytes).length) :
    request.frameBytes encoded prefixLength bodyLength =
      (requestFrame request (request.userMetadata.writeRequestPrefix prefixLength
        (request.context encoded) ++ encoded.bytes)).wire := by
  rw [Client.Request.frameBytes, h, Frame.wire, List.append_assoc]
  rfl

/-- How the server is set up to decompress the requests of a connection. -/
def requestCompression (negotiated : Negotiated) (budget : DecodedByteBudget) :
    RequestCompression where
  codecs := negotiated.compressionCodecs
  policy := connectionCompressionPolicy negotiated
  budget

/-- The server gets the body back, compressed or not. -/
theorem decode_encodeBody {budget : DecodedByteBudget}
    (hsettings : settings.Matches negotiated.toPeerSettings)
    (hencoded : request.encodeBody zstd settings = .ok encoded)
    (hbudget : request.body.length ≤ budget.available) :
    ∃ permit, (requestCompression negotiated budget).decode zstd
      (if decide (encoded.codec = .zstd) = true then
        some (.zstd, UInt32.ofNat request.body.length) else none) encoded.bytes =
      .ok (request.body, permit) := by
  obtain ⟨-, ⟨hcodec, hbytes⟩ | ⟨hcodec, hnegotiated, hmax, hcompress, hratio⟩⟩ :=
    Client.encodeBody_eq_ok hencoded
  -- a plain body is passed on, without a reservation
  · rw [hcodec, hbytes]
    exact ⟨none, rfl⟩
  · have hdecode := CompressionPolicy.decodeWithReservation_of_compress
      (validate_connectionCompressionPolicy negotiated) hcompress
      (hmax.trans_eq hsettings.maxDecodedBodyLength) hratio hbudget
    have hbit : ¬ (requestCompression negotiated budget).codecs &&& compressionCodecZstd = 0 := by
      rw [Client.Settings.zstdNegotiated, hsettings.compressionCodecs, bne_iff_ne] at hnegotiated
      exact hnegotiated
    refine ⟨some request.body.length, ?_⟩
    rw [if_pos (decide_eq_true hcodec)]
    unfold RequestCompression.decode
    simp only [ne_eq, not_true, hbit, or_self, if_false]
    rw [show (requestCompression negotiated budget).policy = connectionCompressionPolicy negotiated
      from rfl, show (requestCompression negotiated budget).budget = budget from rfl, hdecode]

/-- Generated values are short. -/
theorem length_le_of_mem_runtimeEntries {compressed : Bool} {pair : MetadataKey × Bytes}
    (h : pair ∈ runtimeEntries request compressed) : pair.2.length ≤ 8 * 1024 := by
  have htrace : ∀ trace : Client.MoonLightTraceContext,
      ((traceContext trace).encodeInto []).length = 25 :=
    fun trace => TraceContext.length_encodeInto_nil _
  unfold runtimeEntries at h
  cases request.traceContext <;> cases compressed <;>
    simp only [List.append_nil, List.mem_append, List.mem_cons, List.not_mem_nil, or_false, if_true,
      Bool.false_eq_true, if_false] at h <;>
    rcases h with h <;> aesop

/-- The limits of the server admit the metadata of a request. -/
theorem admitted_of_perm {m : Metadata} {compressed : Bool} {user : List (MetadataKey × Bytes)}
    (hperm : m.entries.toList.Perm (user ++ runtimeEntries request compressed))
    (hbytes : m.blockLen ≤ negotiated.maxMetadataLen.toNat)
    (hentries : user.length + (runtimeEntries request compressed).length ≤ 64)
    (hvalues : ∀ pair ∈ user, pair.2.length ≤ 8 * 1024) :
    m.Admitted { MetadataLimits.default with maxBytes := negotiated.maxMetadataLen } := by
  refine ⟨hbytes, ?_, ?_⟩
  · rw [hperm.length_eq, List.length_append]
    exact hentries
  · intro pair hpair
    rcases List.mem_append.mp (hperm.mem_iff.mp hpair) with huser | hruntime
    · exact hvalues pair huser
    · exact length_le_of_mem_runtimeEntries hruntime

end Composition

/-- What calls of the builder put into the metadata of a request. -/
def userEntries (calls : List Client.Builder.Call) : List (MetadataKey × Bytes) :=
  calls.map fun call => metadataPair call.entry

theorem userEntries_perm {calls : List Client.Builder.Call} {metadata : Client.MoonLightMetadata}
    (h : Client.Builder.run calls = .ok metadata) :
    (metadata.entries.toList.map metadataPair).Perm (userEntries calls) := by
  have := (Client.Builder.toList_run_perm h).map metadataPair
  rwa [List.map_map] at this

/-- Calls that leave the generated keys alone put none of the values the server looks
for. -/
theorem reserved_notMem_userEntries {calls : List Client.Builder.Call}
    (hcalls : ∀ key value, .putReserved key value ∈ calls → key ∉ Client.requestKeys) :
    ∀ key ∈ RequestValues.keys, .reserved key ∉ (userEntries calls).map Prod.fst := by
  have hkeys : ∀ key, reservedKey key ∈ RequestValues.keys → key ∈ Client.requestKeys := by
    intro key
    cases key <;> decide
  intro key hkey hmem
  obtain ⟨pair, hpair, hfst⟩ := List.mem_map.mp hmem
  obtain ⟨call, hcall, rfl⟩ := List.mem_map.mp hpair
  cases call with
  | put name value => cases hfst
  | putReserved key' value =>
    cases hfst
    exact hcalls key' value hcall (hkeys key' hkey)

/-- A request that the client accepts reaches the server as one frame. If its
metadata respects the server's limits on entries and values, the server reads
exactly the payload, the deadline and the trace context out of it and, where it
keeps the metadata, exactly what was put into the builder and the generated
entries. -/
theorem request_roundTrip (zstd : Zstd) (negotiated : Negotiated) (settings : Client.Settings)
    (hsettings : settings.Matches negotiated.toPeerSettings) (request : Client.Request)
    (htimeout : 1 ≤ request.timeoutMillis) (calls : List Client.Builder.Call)
    (hbuild : Client.Builder.run calls = .ok request.userMetadata)
    (hcalls : ∀ key value, .putReserved key value ∈ calls → key ∉ Client.requestKeys)
    (outgoing : Client.Outgoing) (wire : Bytes)
    (haccepted : Client.enqueueRequestFrame zstd settings outgoing request = .ok wire) :
    ∃ frame encoded,
      readFrame negotiated.maxBodyLen wire = .ok (frame, []) ∧
      frame.kind = .request ∧ frame.methodId = request.methodId.toUInt32 ∧
      frame.requestId = request.requestId.toUInt64 ∧
      request.encodeBody zstd settings = .ok encoded ∧
      ((userEntries calls).length +
          (runtimeEntries request (encoded.codec = .zstd)).length ≤ 64 →
        (∀ pair ∈ userEntries calls, pair.2.length ≤ 8 * 1024) →
        ∀ (budget : DecodedByteBudget), request.body.length ≤ budget.available →
        ∀ retainMetadata : Bool, ∃ parsed,
          requestPayload zstd frame negotiated.maxMetadataLen
            (requestCompression negotiated budget) retainMetadata = .ok parsed ∧
          parsed.payload = request.body ∧
          parsed.deadline = some request.timeoutMillis.toInt.toNat ∧
          parsed.traceContext = request.traceContext.map traceContext ∧
          (retainMetadata = false → parsed.metadata = none) ∧
          (retainMetadata = true → ∃ m, parsed.metadata = some m ∧
            m.entries.toList.Perm
              (userEntries calls ++ runtimeEntries request (encoded.codec = .zstd)))) := by
  obtain ⟨encoded, prefixLength, hencoded, hprefixed, hmetadata, hbody, rfl⟩ :=
    Client.enqueueRequestFrame_eq_ok haccepted
  -- the block that was written is one of the crate's maps, so the crate's own round trip applies
  obtain ⟨horiginal, -⟩ := Client.encodeBody_eq_ok hencoded
  have hmetadata' : prefixLength - 4 ≤ negotiated.maxMetadataLen.toNat :=
    hmetadata.trans_eq hsettings.maxMetadataLength
  obtain ⟨m, hlen, hperm, hblockLen, hprefixLength, hblock⟩ := exists_metadata hprefixed
    (lt_of_le_of_lt hmetadata' negotiated.maxMetadataLen.toNat_lt)
  -- from here on only the contents of the map count, not the order of the merge
  rw [List.map_append, map_generated horiginal] at hperm
  replace hperm := hperm.trans ((userEntries_perm hbuild).append_right _)
  have hown := reserved_notMem_userEntries hcalls
  have hlength : (m.block hlen ++ encoded.bytes).length = encoded.bytes.length + prefixLength := by
    rw [List.length_append, m.length_block, hprefixLength, Nat.add_comm]
  refine ⟨requestFrame request (m.block hlen ++ encoded.bytes), encoded, ?_, rfl, rfl, rfl,
    hencoded, ?_⟩
  · rw [frameBytes_eq_wire prefixLength (by rw [hblock, hlength]), hblock,
      ← List.append_nil (Frame.wire _)]
    apply readFrame_wire
    · show flagHasMetadata &&& ~~~knownFlags = 0
      decide
    · exact hlength.trans_le (hbody.trans_eq hsettings.maxBodyLength)
  · intro hentries hvalues budget hbudget retainMetadata
    obtain ⟨permit, hdecode⟩ := decode_encodeBody hsettings hencoded hbudget
    have hadmitted := admitted_of_perm hperm (hblockLen.trans_le hmetadata') hentries hvalues
    have hflags : (requestFrame request (m.block hlen ++ encoded.bytes)).flags &&&
        flagHasMetadata ≠ 0 := by
      show flagHasMetadata &&& flagHasMetadata ≠ 0
      decide
    have hparsed := requestPayload_block hflags rfl hadmitted (deadline_of_perm hperm htimeout)
      (traceContext_of_perm hperm hown) (compression_of_perm hperm hown) hdecode retainMetadata
    refine ⟨_, hparsed, rfl, rfl, rfl, ?_, ?_⟩
    · rintro rfl
      rfl
    · rintro rfl
      exact ⟨m, rfl, hperm⟩

/-- One entry under the name `a`. -/
def smallMetadata : Client.MoonLightMetadata where
  entries := ⟨[(.user [97], [1])], List.pairwise_singleton _ _⟩
  validUserKeys := by
    intro name h
    obtain rfl := Client.WireKey.user.inj (List.mem_singleton.mp h)
    rfl

/-- A small request with a trace context and one user entry. -/
def smallRequest : Client.Request where
  methodId := 7
  requestId := 1
  timeoutMillis := 1500
  traceContext := some ⟨List.replicate 16 1, List.replicate 8 2, true, rfl, rfl⟩
  body := [10, 20, 30]
  compression := .default
  userMetadata := smallMetadata
  unary := true

/-- The round trip of a small request on a connection with the default limits. -/
theorem request_roundTrip_smallRequest :
    ∃ wire frame parsed,
      Client.enqueueRequestFrame Writer.halvingZstd OutboundPath.defaultSettings
        ⟨4096, .written, false⟩ smallRequest = .ok wire ∧
      readFrame Writer.defaultNegotiated.maxBodyLen wire = .ok (frame, []) ∧
      requestPayload Writer.halvingZstd frame Writer.defaultNegotiated.maxMetadataLen
        (requestCompression Writer.defaultNegotiated ⟨1024, 0, Nat.zero_le _⟩) true = .ok parsed ∧
      parsed.payload = [10, 20, 30] ∧ parsed.deadline = some 1500 := by
  have haccepted : Client.enqueueRequestFrame Writer.halvingZstd OutboundPath.defaultSettings
      ⟨4096, .written, false⟩ smallRequest =
        .ok (smallRequest.frameBytes ⟨.none, 3, [10, 20, 30]⟩ 56 59) := by
    rfl
  obtain ⟨frame, encoded, hframe, -, -, -, hencoded, hparsed⟩ :=
    request_roundTrip Writer.halvingZstd Writer.defaultNegotiated OutboundPath.defaultSettings
      ⟨rfl, rfl, rfl, rfl⟩ smallRequest (by decide) [.put [97] [1]] rfl
      (fun _ _ h => absurd h (by simp)) _ _ haccepted
  obtain rfl : ⟨.none, 3, [10, 20, 30]⟩ = encoded := Except.ok.inj hencoded
  obtain ⟨parsed, hpayload, hbody, hdeadline, -⟩ :=
    hparsed (by decide) (by decide) ⟨1024, 0, Nat.zero_le _⟩ (by decide) true
  exact ⟨_, frame, parsed, haccepted, hframe, hpayload, hbody, hdeadline⟩

end MoonLightBridge.RequestPath
