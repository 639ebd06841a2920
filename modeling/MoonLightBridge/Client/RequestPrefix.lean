import MoonLightBridge.Client.Requests

/-!
# The request prefix and the generic encoder

`MoonLightMetadata.encodePrefix` computes and writes a metadata prefix in two
loops over the tree map. For requests the client does not build a second map with
the entries it generates, but merges them while it writes. Both ways give the same
bytes: merged entries are the entries of the map that the generated ones were put
into.
-/

namespace MoonLightBridge.Client

open Protocol

/-! ### Merged entries -/

theorem increasing_generated (context : RequestContext) :
    ((context.generated requestKeys).map Prod.fst).Pairwise (· < ·) := by
  have hkeys : requestKeys.Pairwise fun key key' =>
      WireKey.reserved key < WireKey.reserved key' := by decide
  rw [RequestContext.generated, List.map_map, List.pairwise_map]
  exact hkeys.filter _

theorem merge_perm (entries generated : List (WireKey × Bytes)) :
    (mergeEntries entries generated).Perm (entries ++ generated) :=
  List.merge_perm_append _

/-- Merged entries of different keys strictly increase. -/
theorem increasing_merge {metadata : MoonLightMetadata} {context : RequestContext}
    (hdisjoint : ∀ entry ∈ context.generated requestKeys, entry.1 ∉ metadata.entries.keys) :
    ((mergeEntries metadata.entries.toList (context.generated requestKeys)).map
      Prod.fst).Pairwise (· < ·) := by
  have huser := metadata.entries.increasing
  have hgenerated := increasing_generated context
  have hnodup : ((mergeEntries metadata.entries.toList
      (context.generated requestKeys)).map Prod.fst).Nodup := by
    have huserNodup : (metadata.entries.toList.map Prod.fst).Nodup := huser.imp ne_of_lt
    have hgeneratedNodup : ((context.generated requestKeys).map Prod.fst).Nodup :=
      hgenerated.imp ne_of_lt
    apply ((merge_perm _ _).map Prod.fst).nodup_iff.mpr
    rw [List.map_append]
    apply huserNodup.append hgeneratedNodup
    intro key hkey hkey'
    obtain ⟨entry, hentry, rfl⟩ := List.mem_map.mp hkey'
    exact hdisjoint entry hentry hkey
  rw [List.Nodup, List.pairwise_map] at hnodup
  rw [List.pairwise_map] at huser hgenerated ⊢
  -- the library's merge keeps the order, and no key occurs twice
  have hle : (mergeEntries metadata.entries.toList
      (context.generated requestKeys)).Pairwise fun entry entry' =>
        decide (entry.1 ≤ entry'.1) = true := by
    apply List.pairwise_merge
    · intro a b c hab hbc
      exact decide_eq_true ((of_decide_eq_true hab).trans (of_decide_eq_true hbc))
    · intro a b
      simpa using le_total a.1 b.1
    · exact huser.imp fun h => decide_eq_true h.le
    · exact hgenerated.imp fun h => decide_eq_true h.le
  exact (hle.and hnodup).imp fun h => lt_of_le_of_ne (of_decide_eq_true h.1) h.2

/-! ### The extended map -/

/-- The runtime entries of a request: the deadline, the trace context if there is one, and codec
and original length of a compressed body. -/
def RequestContext.entries (context : RequestContext) : List (WireKey × Bytes) :=
  [(.reserved .deadlineMillis, context.timeoutMillis.toUInt32.toBeBytes)] ++
    (match context.traceContext with
      | none => []
      | some trace => [(.reserved .traceContext, trace.writeTo)]) ++
    if context.compressionCodec = .zstd then
      [(.reserved .compressionCodec, [context.compressionCodec.wireValue]),
        (.reserved .originalLength, (UInt32.ofNat context.originalLength).toBeBytes)]
    else []

theorem generated_eq_entries (context : RequestContext) :
    context.generated requestKeys = context.entries := by
  rw [generated_requestKeys, RequestContext.entries]
  congr 2
  cases htrace : context.traceContext with
  | none => rfl
  | some trace => simp [RequestContext.writeValue, htrace]

namespace MoonLightMetadata

/-- The metadata with the runtime entries of a request put into its map. -/
def extend (metadata : MoonLightMetadata) (context : RequestContext) : MoonLightMetadata where
  entries := Builder.toMap context.entries metadata.entries
  validUserKeys name h := by
    rcases SortedMap.mem_keys_foldl_insert.mp h with hruntime | hold
    · rw [← generated_eq_entries] at hruntime
      obtain ⟨entry, hentry, hname⟩ := List.mem_map.mp hruntime
      obtain ⟨key, -, rfl⟩ := List.mem_map.mp hentry
      cases hname
    · exact metadata.validUserKeys name hold

/-- `encodePrefix`; an error is the message of the `ArithmeticException`. -/
def encodePrefix (metadata : MoonLightMetadata) : Except String Bytes :=
  match entriesLength metadata.entries.toList 0 with
  | none => .error "integer overflow"
  | some encodedLength =>
    match addExact 4 encodedLength with
    | none => .error "integer overflow"
    | some _ =>
      .ok ((UInt32.ofNat encodedLength).toBeBytes ++ metadata.entries.toList.flatMap writeEntry)

end MoonLightMetadata

/-- The merge is the extended map, entry by entry. -/
theorem mergeEntries_eq_extend {metadata : MoonLightMetadata} {context : RequestContext}
    (hdisjoint : ∀ entry ∈ context.entries, entry.1 ∉ metadata.entries.keys) :
    mergeEntries metadata.entries.toList (context.generated requestKeys) =
      (metadata.extend context).entries.toList := by
  have hnodup : (context.entries.map Prod.fst).Nodup := by
    rw [← generated_eq_entries]
    exact (increasing_generated context).imp ne_of_lt
  have hperm : (mergeEntries metadata.entries.toList (context.generated requestKeys)).Perm
      (metadata.extend context).entries.toList := by
    refine (merge_perm _ _).trans ?_
    rw [generated_eq_entries]
    refine (Builder.toList_toMap_perm hnodup ?_).symm
    intro key hkey
    obtain ⟨entry, hentry, rfl⟩ := List.mem_map.mp hkey
    exact hdisjoint entry hentry
  -- two increasing lists of the same entries
  rw [← generated_eq_entries] at hdisjoint
  refine hperm.eq_of_pairwise ?_ (List.pairwise_map.mp (increasing_merge hdisjoint))
    (List.pairwise_map.mp (metadata.extend context).entries.increasing)
  intro entry entry' _ _ hlt hlt'
  exact absurd hlt' hlt.not_gt

/-! ### Lengths -/

variable {a b : ℕ}

theorem addExact_of_lt (h : a + b < 2 ^ 31) : addExact a b = some (a + b) := if_pos h

theorem length_writeEntry (entry : WireKey × Bytes) :
    (writeEntry entry).length = entryLength entry := by
  simp [writeEntry, writeEntryHeader, entryLength, entryHeaderLen, asciiBytes]
  omega

theorem length_flatMap_writeEntry (entries : List (WireKey × Bytes)) :
    (entries.flatMap writeEntry).length = (entries.map entryLength).sum := by
  rw [List.length_flatMap]
  simp only [length_writeEntry]

variable {entries : List (WireKey × Bytes)} {length : ℕ}

theorem entriesLength_of_lt (h : length + (entries.map entryLength).sum < 2 ^ 31) :
    MoonLightMetadata.entriesLength entries length =
      some (length + (entries.map entryLength).sum) := by
  induction entries generalizing length with
  | nil => rfl
  | cons entry entries ih =>
    obtain ⟨key, value⟩ := entry
    rw [List.map_cons, List.sum_cons, ← Nat.add_assoc] at h ⊢
    have hentry : length + entryLength (key, value) < 2 ^ 31 := by omega
    rw [← ih h]
    simp only [entryLength] at hentry ⊢
    rw [MoonLightMetadata.entriesLength, addExact_of_lt (by omega), Option.bind_some,
      addExact_of_lt (by omega), Option.bind_some, addExact_of_lt (by omega), Option.bind_some]
    congr 1
    omega

theorem lt_of_addExact {c : ℕ} (h : addExact a b = some c) : c < 2 ^ 31 := by
  unfold addExact at h
  split_ifs at h with hlt
  exact Option.some_inj.mp h ▸ hlt

theorem lt_of_entriesLength {total : ℕ} (hlength : length < 2 ^ 31)
    (h : MoonLightMetadata.entriesLength entries length = some total) : total < 2 ^ 31 := by
  induction entries generalizing length with
  | nil => exact Option.some_inj.mp h ▸ hlength
  | cons entry entries ih =>
    obtain ⟨key, value⟩ := entry
    simp only [MoonLightMetadata.entriesLength, Option.bind_eq_some_iff] at h
    obtain ⟨next, ⟨_, -, _, -, hnext⟩, hrest⟩ := h
    exact ih (lt_of_addExact hnext) hrest

/-- A sum that is no positive `int` is not computed. -/
theorem entriesLength_of_le (hlength : length < 2 ^ 31)
    (h : 2 ^ 31 ≤ length + (entries.map entryLength).sum) :
    MoonLightMetadata.entriesLength entries length = none := by
  cases hsum : MoonLightMetadata.entriesLength entries length with
  | none => rfl
  | some total =>
    have htotal := lt_of_entriesLength hlength hsum
    rw [entriesLength_eq_some hsum] at htotal
    exact absurd h (not_le.mpr htotal)

/-- Both sums of lengths end with the four bytes of the block's length. -/
theorem entriesLength_bind_addExact (hlength : length < 2 ^ 31) :
    (MoonLightMetadata.entriesLength entries length).bind (addExact 4) =
      if 4 + (length + (entries.map entryLength).sum) < 2 ^ 31 then
        some (4 + (length + (entries.map entryLength).sum))
      else none := by
  by_cases hsum : length + (entries.map entryLength).sum < 2 ^ 31
  · rw [entriesLength_of_lt hsum]
    rfl
  · rw [entriesLength_of_le hlength (not_lt.mp hsum), if_neg (by omega)]
    rfl

/-! ### The generic encoder -/

/-- The generic encoder writes the block unless its length is no `int`. -/
theorem encodePrefix_eq (metadata : MoonLightMetadata) :
    metadata.encodePrefix =
      if 4 + (metadata.entries.toList.map entryLength).sum < 2 ^ 31 then
        .ok ((UInt32.ofNat (metadata.entries.toList.map entryLength).sum).toBeBytes ++
          metadata.entries.toList.flatMap writeEntry)
      else .error "integer overflow" := by
  have hbind : (MoonLightMetadata.entriesLength metadata.entries.toList 0).bind (addExact 4) = _ :=
    entriesLength_bind_addExact (by decide)
  rw [Nat.zero_add] at hbind
  unfold MoonLightMetadata.encodePrefix
  by_cases hfits : 4 + (metadata.entries.toList.map entryLength).sum < 2 ^ 31
  · rw [if_pos hfits, entriesLength_of_lt (by omega)]
    simp only [Nat.zero_add]
    rw [addExact_of_lt hfits]
  · rw [if_neg hfits] at hbind ⊢
    cases hlength : MoonLightMetadata.entriesLength metadata.entries.toList 0 with
    | none => rfl
    | some length =>
      rw [hlength, Option.bind_some] at hbind
      simp only [hbind]

/-! ### The length of the prefix -/

section PrefixLength

variable {metadata : MoonLightMetadata} {context : RequestContext}

/-- The generated entries take at most 68 bytes. -/
theorem sum_entryLength_generated_le (context : RequestContext) :
    ((context.generated requestKeys).map entryLength).sum ≤ 68 := by
  rw [generated_requestKeys, List.map_append, List.map_append, List.sum_append, List.sum_append,
    List.map_singleton, List.sum_singleton,
    entryLength_generated (valueLength_deadlineMillis_ne context),
    sum_entryLength_traceContext, sum_entryLength_compression]
  simp only [RequestContext.valueLength, entryHeaderLen, MoonLightTraceContext.wireLength]
  split_ifs <;> decide

theorem generatedLength_of_disjoint {keys : List ReservedKey}
    (hdisjoint : ∀ entry ∈ context.generated keys, entry.1 ∉ metadata.entries.keys)
    (hlt : length + ((context.generated keys).map entryLength).sum < 2 ^ 31) :
    metadata.generatedLength context keys length =
      .ok (length + ((context.generated keys).map entryLength).sum) := by
  induction keys generalizing length with
  | nil => rfl
  | cons key keys ih =>
    unfold MoonLightMetadata.generatedLength
    by_cases hzero : context.valueLength key = 0
    · rw [generated_cons_of_eq hzero] at hdisjoint hlt ⊢
      rw [if_pos hzero]
      exact ih hdisjoint hlt
    · rw [generated_cons_of_ne hzero] at hdisjoint hlt ⊢
      obtain ⟨hkey, hdisjoint⟩ := List.forall_mem_cons.mp hdisjoint
      rw [List.map_cons, List.sum_cons, entryLength_generated hzero, ← Nat.add_assoc] at hlt ⊢
      rw [if_neg hzero, if_neg hkey, addExact_of_lt (by omega)]
      exact ih hdisjoint hlt

/-- The first generated key that the user metadata has is reported: what was
added before it is no overflow. -/
theorem generatedLength_of_mem {keys : List ReservedKey}
    (hmem : ∃ entry ∈ context.generated keys, entry.1 ∈ metadata.entries.keys)
    (hlt : length + ((context.generated keys).map entryLength).sum < 2 ^ 31) :
    metadata.generatedLength context keys length =
      .error "duplicate singleton metadata key" := by
  induction keys generalizing length with
  | nil =>
    obtain ⟨entry, hentry, -⟩ := hmem
    exact absurd hentry List.not_mem_nil
  | cons key keys ih =>
    unfold MoonLightMetadata.generatedLength
    by_cases hzero : context.valueLength key = 0
    · rw [generated_cons_of_eq hzero] at hmem hlt
      rw [if_pos hzero]
      exact ih hmem hlt
    · rw [generated_cons_of_ne hzero] at hmem hlt
      rw [if_neg hzero]
      by_cases hkey : .reserved key ∈ metadata.entries.keys
      · rw [if_pos hkey]
      · rw [List.map_cons, List.sum_cons, entryLength_generated hzero, ← Nat.add_assoc] at hlt
        rw [if_neg hkey, addExact_of_lt (by omega)]
        refine ih ?_ hlt
        obtain ⟨entry, hentry, hused⟩ := hmem
        rcases List.mem_cons.mp hentry with rfl | hrest
        · exact absurd hused hkey
        · exact ⟨entry, hrest, hused⟩

theorem requestPrefixLength_of_mem
    (hmem : ∃ entry ∈ context.generated requestKeys, entry.1 ∈ metadata.entries.keys) :
    metadata.requestPrefixLength context = .error "duplicate singleton metadata key" := by
  obtain ⟨entry, hentry, hused⟩ := hmem
  have hsum := sum_entryLength_generated_le context
  have hempty : ¬ metadata.entries.toList.isEmpty = true := by
    intro hempty
    rw [SortedMap.keys, List.isEmpty_iff.mp hempty] at hused
    exact absurd hused List.not_mem_nil
  unfold MoonLightMetadata.requestPrefixLength
  rw [if_neg hempty, generatedLength_of_mem ⟨entry, hentry, hused⟩ (by omega)]

theorem requestPrefixLength_of_disjoint
    (hdisjoint : ∀ entry ∈ context.generated requestKeys, entry.1 ∉ metadata.entries.keys) :
    metadata.requestPrefixLength context =
      if 4 + ((metadata.entries.toList.map entryLength).sum +
          ((context.generated requestKeys).map entryLength).sum) < 2 ^ 31 then
        .ok (4 + ((metadata.entries.toList.map entryLength).sum +
          ((context.generated requestKeys).map entryLength).sum))
      else .error "integer overflow" := by
  have hsum := sum_entryLength_generated_le context
  by_cases hempty : metadata.entries.toList.isEmpty = true
  · -- the shortcut does not check, and need not
    have hok : ∃ length, metadata.requestPrefixLength context = .ok length :=
      ⟨_, if_pos hempty⟩
    obtain ⟨length, hlength⟩ := hok
    have heq := (requestPrefixLength_eq_ok hlength).1
    have hentries : (metadata.entries.toList.map entryLength).sum = 0 := by
      rw [List.isEmpty_iff.mp hempty]
      rfl
    rw [hlength, heq, if_pos (by omega)]
  · unfold MoonLightMetadata.requestPrefixLength
    rw [if_neg hempty, generatedLength_of_disjoint hdisjoint (by omega)]
    simp only
    rw [entriesLength_bind_addExact (by omega), Nat.zero_add, Nat.add_comm
      ((context.generated requestKeys).map entryLength).sum]
    split_ifs <;> rfl

end PrefixLength

/-! ### The two encoders -/

/-- Unless a runtime key of the request is already in the metadata, the prefix of the request is
the encoding of the metadata with the runtime entries in it, and its length is computed first;
or both encoders find that there is no `int` for it. -/
theorem requestPrefix_eq_encodePrefix (metadata : MoonLightMetadata) (context : RequestContext) :
    ((∃ entry ∈ context.entries, entry.1 ∈ metadata.entries.keys) ∧
      metadata.requestPrefixLength context = .error "duplicate singleton metadata key") ∨
    ((∀ entry ∈ context.entries, entry.1 ∉ metadata.entries.keys) ∧
      2 ^ 31 ≤ 4 + ((metadata.extend context).entries.toList.map entryLength).sum ∧
      metadata.requestPrefixLength context = .error "integer overflow" ∧
      (metadata.extend context).encodePrefix = .error "integer overflow") ∨
    ((∀ entry ∈ context.entries, entry.1 ∉ metadata.entries.keys) ∧
      4 + ((metadata.extend context).entries.toList.map entryLength).sum < 2 ^ 31 ∧
      ∃ prefixLength, metadata.requestPrefixLength context = .ok prefixLength ∧
        (metadata.writeRequestPrefix prefixLength context).length = prefixLength ∧
        (metadata.extend context).encodePrefix =
          .ok (metadata.writeRequestPrefix prefixLength context)) := by
  by_cases hmem : ∃ entry ∈ context.entries, entry.1 ∈ metadata.entries.keys
  · left
    refine ⟨hmem, requestPrefixLength_of_mem ?_⟩
    rw [generated_eq_entries]
    exact hmem
  · right
    have hdisjoint : ∀ entry ∈ context.entries, entry.1 ∉ metadata.entries.keys :=
      fun entry hentry hused => hmem ⟨entry, hentry, hused⟩
    have hmerge := mergeEntries_eq_extend hdisjoint
    have hsum : ((metadata.extend context).entries.toList.map entryLength).sum =
        (metadata.entries.toList.map entryLength).sum +
          ((context.generated requestKeys).map entryLength).sum := by
      rw [← hmerge, ((merge_perm _ _).map entryLength).sum_eq, List.map_append, List.sum_append]
    have hlength : metadata.requestPrefixLength context = _ :=
      requestPrefixLength_of_disjoint (generated_eq_entries context ▸ hdisjoint)
    have hencode := encodePrefix_eq (metadata.extend context)
    rw [← hsum] at hlength
    by_cases hfits : 4 + ((metadata.extend context).entries.toList.map entryLength).sum < 2 ^ 31
    · right
      rw [if_pos hfits] at hlength hencode
      refine ⟨hdisjoint, hfits, _, hlength, ?_, ?_⟩
      · rw [writeRequestPrefix_eq, hmerge, List.length_append, UInt32.length_toBeBytes,
          length_flatMap_writeEntry]
      · rw [writeRequestPrefix_eq, hmerge, Nat.add_sub_cancel_left]
        exact hencode
    · left
      rw [if_neg hfits] at hlength hencode
      exact ⟨hdisjoint, not_lt.mp hfits, hlength, hencode⟩

end MoonLightBridge.Client
