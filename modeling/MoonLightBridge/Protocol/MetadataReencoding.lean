import MoonLightBridge.Protocol.MetadataParsing
import MoonLightBridge.Protocol.MetadataViews

/-!
# Encoding decoded metadata again

The decoder forgives three things: an optional entry that it does not know, a
runtime entry that is not marked critical, and a user entry that is. The
encoder writes none of them, so a frame that is decoded and encoded again is
the same frame exactly if it had none, and never a longer one.
-/

namespace MoonLightBridge.Protocol

/-- An entry that means something, and is critical exactly if it is a runtime entry. -/
structure Entry.Verbatim (e : Entry) : Prop where
  /-- it is no unknown optional entry -/
  known : e.keyId = 0x7fff ∨ 1 ≤ e.keyId ∧ e.keyId ≤ 13
  reserved_critical : 1 ≤ e.keyId ∧ e.keyId ≤ 13 → e.taggedId &&& 0x8000 ≠ 0
  user_optional : e.keyId = 0x7fff → e.taggedId &&& 0x8000 = 0

/-! ### Tagged identifiers -/

theorem and_criticalBit (id : UInt16) :
    id &&& criticalBit = 0 ∨ id &&& criticalBit = criticalBit := by
  have hbit := Nat.and_two_pow id.toNat 15
  have hnat : (id &&& criticalBit).toNat = id.toNat &&& 2 ^ 15 := UInt16.toNat_and id criticalBit
  cases htest : id.toNat.testBit 15 with
  | false =>
    left
    rw [← UInt16.toNat_inj, hnat, hbit, htest]
    rfl
  | true =>
    right
    rw [← UInt16.toNat_inj, hnat, hbit, htest]
    rfl

/-- An identifier is put together from the critical bit and the rest. -/
theorem critical_or_keyId (e : Entry) : (e.taggedId &&& criticalBit) ||| e.keyId = e.taggedId :=
  calc (e.taggedId &&& criticalBit) ||| e.keyId
    _ = e.taggedId &&& (criticalBit ||| keyMask) :=
      UInt16.toBitVec_inj.mp BitVec.and_or_distrib_left.symm
    _ = e.taggedId &&& -1 := rfl
    _ = e.taggedId := UInt16.and_neg_one

variable {e : Entry}

/-- The tag that the encoder writes for a key. -/
theorem taggedId_eq_iff {key : MetadataKey} (hid : e.keyId = Metadata.wireId key) :
    e.taggedId = Metadata.taggedId key ↔
      (e.keyId ≠ userKeyId → e.taggedId &&& criticalBit ≠ 0) ∧
        (e.keyId = userKeyId → e.taggedId &&& criticalBit = 0) := by
  cases key with
  | user name =>
    have huser : e.keyId = userKeyId := hid
    simp only [huser, ne_eq, not_true_eq_false, false_implies, true_implies, true_and,
      Metadata.taggedId]
    constructor
    · intro htag
      rw [htag]
      decide
    · intro hbit
      rw [← critical_or_keyId e, hbit, huser, UInt16.zero_or]
  | reserved key =>
    have hne : e.keyId ≠ userKeyId := hid ▸ Metadata.wireId_reserved_ne key
    simp only [hne, ne_eq, not_false_eq_true, true_implies, false_implies, and_true]
    constructor
    · intro htag
      rw [htag]
      cases key <;> decide
    · intro hbit
      rw [← critical_or_keyId e, (and_criticalBit e.taggedId).resolve_left hbit, hid]
      rfl

/-! ### Verbatim entries -/

theorem range_or_userKeyId (key : MetadataKey) :
    1 ≤ Metadata.wireId key ∧ Metadata.wireId key ≤ 13 ↔ Metadata.wireId key ≠ userKeyId := by
  cases key with
  | reserved key => cases key <;> decide
  | user name => exact (by decide : 1 ≤ userKeyId ∧ userKeyId ≤ 13 ↔ userKeyId ≠ userKeyId)

/-- What an entry stands for: its identifier, name and value. -/
theorem Entry.of_owned (hkey : e.KeyOk) {pair : MetadataKey × Bytes}
    (howned : e.owned = some pair) :
    e.keyId = Metadata.wireId pair.1 ∧ e.name = Metadata.keyName pair.1 ∧ e.value = pair.2 ∧
      Metadata.Encodable pair := by
  unfold Entry.owned at howned
  unfold Entry.KeyOk at hkey
  by_cases huser : e.keyId = userKeyId
  · rw [if_pos huser] at hkey howned
    cases howned
    refine ⟨huser, rfl, rfl, ?_, e.value_lt⟩
    intro name hname
    cases hname
    exact hkey
  · rw [if_neg huser] at hkey howned
    obtain ⟨key, htry, rfl⟩ := Option.map_eq_some_iff.mp howned
    refine ⟨(ReservedMetadataKey.toU16_of_tryFrom htry).symm, hkey.1, rfl, ?_, e.value_lt⟩
    intro name hname
    cases hname

theorem Entry.owned_ne_none (h : e.keyId = 0x7fff ∨ 1 ≤ e.keyId ∧ e.keyId ≤ 13) :
    e.owned ≠ none := by
  unfold Entry.owned
  by_cases huser : e.keyId = userKeyId
  · rw [if_pos huser]
    exact Option.some_ne_none _
  · rw [if_neg huser, ne_eq, Option.map_eq_none_iff, ReservedMetadataKey.tryFrom_eq_none_iff,
      not_not]
    exact h.resolve_left huser

theorem Entry.verbatim_iff (hkey : e.KeyOk) :
    e.Verbatim ↔ ∃ pair hpair, e = Metadata.wireEntry pair hpair := by
  constructor
  · rintro ⟨hknown, hcritical, hoptional⟩
    obtain ⟨pair, howned⟩ := Option.ne_none_iff_exists'.mp (Entry.owned_ne_none hknown)
    obtain ⟨hid, hname, hvalue, hpair⟩ := Entry.of_owned hkey howned
    refine ⟨pair, hpair, Entry.ext ?_ hname hvalue⟩
    refine (taggedId_eq_iff hid).mpr ⟨fun hne => hcritical ?_, hoptional⟩
    rw [hid] at hne ⊢
    exact (range_or_userKeyId pair.1).mpr hne
  · rintro ⟨pair, hpair, rfl⟩
    have hid := Metadata.keyId_wireEntry pair hpair
    obtain ⟨hcritical, hoptional⟩ := (taggedId_eq_iff hid).mp rfl
    refine ⟨?_, fun hrange => hcritical ?_, hoptional⟩
    · rw [hid]
      exact (em (Metadata.wireId pair.1 = userKeyId)).imp_right (range_or_userKeyId pair.1).mpr
    · rw [hid] at hrange ⊢
      exact (range_or_userKeyId pair.1).mp hrange

namespace Metadata

/-- Entries that were written are written again from what they stand for. -/
theorem wireEntries_of_forall {entries : List Entry} {pairs : List (MetadataKey × Bytes)}
    (hwritten : ∀ e ∈ entries, ∃ pair hpair, e = wireEntry pair hpair)
    (hpairs : pairs = entries.filterMap Entry.owned) (h : ∀ pair ∈ pairs, Encodable pair) :
    wireEntries pairs h = entries := by
  induction entries generalizing pairs with
  | nil =>
    subst hpairs
    rfl
  | cons e entries ih =>
    obtain ⟨⟨pair, hpair, rfl⟩, hrest⟩ := List.forall_mem_cons.mp hwritten
    rw [List.filterMap_cons_some (owned_wireEntry pair hpair)] at hpairs
    subst hpairs
    have htail := ih hrest rfl (List.forall_mem_cons.mp h).2
    simp only [wireEntries, List.pmap_cons] at htail ⊢
    rw [htail]

/-- What was decoded is within the limits. -/
theorem admitted_of_decode {input payload : Bytes} {limits : MetadataLimits} {m : Metadata}
    (h : decode input limits = .ok (m, payload)) : m.Admitted limits := by
  obtain ⟨entries, hblock, hlist⟩ := decode_eq_ok_iff.mp h
  refine ⟨(blockLen_of_decode h).1, ?_, ?_⟩
  · rw [hlist]
    exact (List.length_filterMap_le _ _).trans hblock.count_le
  · intro pair hmem
    rw [hlist, List.mem_filterMap] at hmem
    obtain ⟨e, he, howned⟩ := hmem
    obtain ⟨hvalue, hkey⟩ := hblock.canonical.admissible e he
    rw [← (Entry.of_owned hkey howned).2.2.1]
    exact hvalue

/-- The block that is written for decoded metadata is the one that was read,
exactly if all its entries are verbatim. -/
theorem block_append_eq_iff {input payload : Bytes} {limits : MetadataLimits} {m : Metadata}
    {entries : List Entry} (hblock : IsBlock limits entries payload input)
    (hlist : m.entries.toList = entries.filterMap Entry.owned) (hlen : m.blockLen < 2 ^ 32) :
    m.block hlen ++ payload = input ↔ ∀ e ∈ entries, e.Verbatim := by
  have hverbatim (e : Entry) (he : e ∈ entries) :=
    Entry.verbatim_iff (hblock.canonical.admissible e he).2
  constructor
  · intro heq e he
    -- the input has one reading, and it is the block's own entries
    obtain ⟨rfl, -⟩ := hblock.unique (by rw [length_flatMap_wireEntries]; exact hlen)
      (heq.symm.trans (block_append hlen payload))
    obtain ⟨pair, hmem, rfl⟩ := List.mem_pmap.mp he
    exact (hverbatim _ he).mpr ⟨pair, _, rfl⟩
  · intro hall
    rw [block_append hlen payload, hblock.input_eq,
      wireEntries_of_forall (fun e he => (hverbatim e he).mp (hall e he)) hlist]

/-- Metadata that was decoded can be encoded. Followed by the same payload it is decoded to the
same result under the same limits, and is not longer than the input was; it is the input exactly
if each entry of the input's block is as the encoder writes it. -/
theorem encodePrefix_of_decode {input payload : Bytes} {limits : MetadataLimits} {m : Metadata}
    (h : decode input limits = .ok (m, payload)) :
    ∃ encoded : Bytes, (∀ output, m.encodePrefix output = (output ++ encoded, .ok ())) ∧
      decode (encoded ++ payload) limits = .ok (m, payload) ∧
      (encoded ++ payload).length ≤ input.length ∧
      ∃ entries : List Entry, IsBlock limits entries payload input ∧
        (encoded ++ payload = input ↔ ∀ e ∈ entries, e.Verbatim) := by
  obtain ⟨hbytes, hlength⟩ := blockLen_of_decode h
  have hlen : m.blockLen < 2 ^ 32 := lt_of_le_of_lt hbytes limits.maxBytes.toNat_lt
  obtain ⟨entries, hblock, hlist⟩ := decode_eq_ok_iff.mp h
  refine ⟨m.block hlen, encodePrefix_eq_ok hlen, ?_, ?_, entries, hblock, ?_⟩
  · exact (decode_block_eq_ok_iff hlen limits payload _).mpr ⟨admitted_of_decode h, rfl⟩
  · rw [List.length_append, length_block]
    exact hlength
  · exact block_append_eq_iff hblock hlist hlen

/-- The entry that nobody knows is not written again. -/
theorem encodePrefix_of_decode_mixedEntries :
    ∃ m encoded, decode ([0, 0, 0, 28] ++ mixedEntries.flatMap Entry.wire) .default = .ok (m, []) ∧
      m.encodePrefix [] = (encoded, .ok ()) ∧ decode (encoded ++ []) .default = .ok (m, []) ∧
      encoded ++ [] ≠ [0, 0, 0, 28] ++ mixedEntries.flatMap Entry.wire := by
  obtain ⟨m, -, hlist⟩ := isBlock_mixedEntries.copyEntries_eq_ok
  have hdecode : decode ([0, 0, 0, 28] ++ mixedEntries.flatMap Entry.wire) .default =
      .ok (m, []) := decode_eq_ok_iff.mpr ⟨mixedEntries, isBlock_mixedEntries, hlist⟩
  obtain ⟨encoded, hencode, hagain, -, entries, hblock, hiff⟩ := encodePrefix_of_decode hdecode
  obtain ⟨rfl, -⟩ := hblock.unique (by decide) isBlock_mixedEntries.input_eq
  refine ⟨m, encoded, hdecode, hencode [], hagain, fun heq => ?_⟩
  have hverbatim := hiff.mp heq ⟨0x0020, [], [1], by decide, by decide⟩
    (List.mem_cons_of_mem _ List.mem_cons_self)
  exact absurd hverbatim.known (by decide)

end Metadata

end MoonLightBridge.Protocol
