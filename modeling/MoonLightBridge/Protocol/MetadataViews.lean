import MoonLightBridge.Protocol.MetadataRoundTrip

/-!
# The two views of validated metadata

A validated block is read in three ways: a lookup that stops at the first larger
identifier, an iterator over the runtime values, and the copy into an owned map.
The server takes deadlines and compression from the first two, and hands the
third to authorization. On every block that was validated they agree, because
validation has made sure that the identifiers increase.
-/

namespace MoonLightBridge.Protocol

/-- The loop of `get_reserved`, from `position` on. -/
def getReservedFrom (block : Bytes) (wanted : UInt16) (position : ℕ) : Option Bytes :=
  if position < block.length then
    match _h : rawEntry block position with
    -- `.ok()?`
    | .error _ => none
    | .ok entry =>
      if entry.keyId = wanted then some entry.value
      else if wanted < entry.keyId then none
      else getReservedFrom block wanted entry.stop
  else none
termination_by block.length - position
decreasing_by
  have := rawEntry_stop _h
  omega

/-- One borrowed runtime-owned value. -/
def ValidatedMetadata.getReserved (validated : ValidatedMetadata) (key : ReservedMetadataKey) :
    Option Bytes :=
  getReservedFrom validated.block key.toU16 0

variable {e : Entry} {value : Bytes}

section Lookup

variable {block : Bytes} {limits : MetadataLimits} {entries : List Entry} {position : ℕ}
  {wanted : UInt16}

theorem getReservedFrom_nil (hdrop : block.drop position = []) :
    getReservedFrom block wanted position = none := by
  rw [List.drop_eq_nil_iff] at hdrop
  rw [getReservedFrom, if_neg (not_lt.mpr hdrop)]

theorem getReservedFrom_wire {rest : Bytes} (hsize : block.length ≤ usizeMax)
    (hdrop : block.drop position = e.wire ++ rest) :
    getReservedFrom block wanted position =
      if e.keyId = wanted then some e.value
      else if wanted < e.keyId then none
      else getReservedFrom block wanted (position + e.wire.length) := by
  have hraw := rawEntry_eq_ok.mpr (parseEntry_wire hsize hdrop)
  rw [getReservedFrom, if_pos (lt_of_drop_eq_wire hdrop)]
  split
  · rename_i herror
    exact absurd (herror.symm.trans hraw) (by simp)
  · rename_i entry hentry
    obtain rfl := Except.ok.inj (hentry.symm.trans hraw)
    rfl

/-- Identifiers do not decrease along a block. -/
theorem Canonical.keyId_le (h : Canonical limits (e :: entries)) :
    ∀ e' ∈ entries, e.keyId ≤ e'.keyId := by
  intro e' he'
  have hfollows := (canonical_cons.mp h).2.1 e' he' _ rfl
  rw [Entry.sortKey, Prod.Lex.toLex_lt_toLex] at hfollows
  rw [UInt16.le_iff_toNat_le]
  rcases hfollows with hlt | ⟨heq, -⟩
  · exact hlt.le
  · exact heq.le

/-- Runtime entries have no names, so each identifier occurs once. -/
theorem Canonical.keyId_ne (h : Canonical limits (e :: entries)) (hid : e.keyId ≠ userKeyId) :
    ∀ e' ∈ entries, e'.keyId ≠ e.keyId := by
  intro e' he' heq
  obtain ⟨hadmissible, hfollows, htail⟩ := canonical_cons.mp h
  have hname (e : Entry) (hkey : e.KeyOk) (hid : e.keyId ≠ userKeyId) : e.name = [] := by
    rw [Entry.KeyOk, if_neg hid] at hkey
    exact hkey.1
  have hlt := hfollows e' he' _ rfl
  rw [Entry.sortKey, Prod.Lex.toLex_lt_toLex, heq, hname e hadmissible.2 hid,
    hname e' (htail.admissible e' he').2 (heq ▸ hid)] at hlt
  simp at hlt

/-- The lookup finds the entry with the identifier, although it does not look past a larger
one. -/
theorem getReservedFrom_eq_some_iff (hsize : block.length ≤ usizeMax)
    (hdrop : block.drop position = entries.flatMap Entry.wire)
    (hcanonical : Canonical limits entries) (hwanted : wanted ≠ userKeyId) :
    getReservedFrom block wanted position = some value ↔
      ∃ e ∈ entries, e.keyId = wanted ∧ e.value = value := by
  induction entries generalizing position with
  | nil =>
    rw [getReservedFrom_nil hdrop]
    simp
  | cons e entries ih =>
    rw [List.flatMap_cons] at hdrop
    rw [getReservedFrom_wire hsize hdrop]
    by_cases hfound : e.keyId = wanted
    · have hothers := hcanonical.keyId_ne (hfound ▸ hwanted)
      rw [if_pos hfound, Option.some.injEq]
      constructor
      · exact fun hvalue => ⟨e, List.mem_cons_self, hfound, hvalue⟩
      · rintro ⟨e', he', hid, hvalue⟩
        rcases List.mem_cons.mp he' with rfl | hmem
        · exact hvalue
        · exact absurd (hid.trans hfound.symm) (hothers e' hmem)
    · rw [if_neg hfound]
      by_cases hpast : wanted < e.keyId
      · -- all identifiers that follow are larger still
        rw [if_pos hpast]
        refine iff_of_false (Option.some_ne_none _).symm ?_
        rintro ⟨e', he', hid, -⟩
        rcases List.mem_cons.mp he' with rfl | hmem
        · exact hfound hid
        · exact absurd (hcanonical.keyId_le e' hmem) (not_le.mpr (hid ▸ hpast))
      · rw [if_neg hpast, ih (drop_add_of_drop_eq hdrop) (canonical_cons.mp hcanonical).2.2]
        simp [hfound]

end Lookup

theorem Entry.reserved_eq_some_iff {key : ReservedMetadataKey} :
    e.reserved = some (key, value) ↔ e.keyId = key.toU16 ∧ e.value = value := by
  rw [Entry.reserved, Option.map_eq_some_iff]
  constructor
  · rintro ⟨key', htry, heq⟩
    cases heq
    exact ⟨(ReservedMetadataKey.toU16_of_tryFrom htry).symm, rfl⟩
  · rintro ⟨hid, rfl⟩
    exact ⟨key, hid ▸ ReservedMetadataKey.tryFrom_toU16 key, rfl⟩

theorem toU16_ne_userKeyId (key : ReservedMetadataKey) : key.toU16 ≠ userKeyId :=
  fun heq => (MetadataKey.reserved_toNat_lt key).ne (congrArg UInt16.toNat heq)

/-- The runtime values of an entry are those of the map entry it stands for. -/
theorem Entry.owned_bind_reservedPair (e : Entry) :
    e.owned.bind Metadata.reservedPair = e.reserved := by
  unfold Entry.owned Entry.reserved
  by_cases huser : e.keyId = userKeyId
  · rw [if_pos huser, huser]
    rfl
  · rw [if_neg huser]
    cases ReservedMetadataKey.tryFrom e.keyId <;> rfl

namespace Metadata

theorem mem_filterMap_reservedPair {m : Metadata} {key : ReservedMetadataKey} :
    (key, value) ∈ m.entries.toList.filterMap reservedPair ↔
      m.get (.reserved key) = some value := by
  rw [get, SortedMap.get?_eq_some_iff, List.mem_filterMap]
  constructor
  · rintro ⟨⟨key' | name, value'⟩, hmem, hpair⟩
    · cases hpair
      exact hmem
    · cases hpair
  · exact fun hmem => ⟨_, hmem, rfl⟩

/-- The map holds its runtime entries in the order of their identifiers. -/
theorem increasing_reservedPair (m : Metadata) :
    (m.entries.toList.filterMap reservedPair).Pairwise
      fun pair pair' => pair.1.toU16 < pair'.1.toU16 := by
  have hincreasing := m.entries.increasing
  rw [List.pairwise_map] at hincreasing
  refine hincreasing.filterMap reservedPair ?_
  rintro ⟨key | name, value⟩ ⟨key' | name', value'⟩ hlt pair hpair pair' hpair'
  · cases hpair
    obtain rfl := Option.some.inj hpair'
    have hbool : MetadataKey.lt (.reserved key) (.reserved key') = true := hlt
    simpa [MetadataKey.lt] using hbool
  · cases hpair'
  · cases hpair
  · cases hpair

end Metadata

/-- Whatever else a validated block contains, the lookup, the iterator and the owned map give
the same runtime values. -/
theorem ValidatedMetadata.views_agree {input payload : Bytes} {limits : MetadataLimits}
    {validated : ValidatedMetadata}
    (h : Metadata.validate input limits = .ok (validated, payload)) :
    ∃ m, validated.intoMetadata = .ok m ∧
      (∀ key, validated.getReserved key = m.get (.reserved key)) ∧
      (∀ key value, (key, value) ∈ validated.reservedEntries ↔
        m.get (.reserved key) = some value) ∧
      validated.reservedEntries.Pairwise fun entry entry' => entry.1.toU16 < entry'.1.toU16 := by
  obtain ⟨entries, hblock, hvalidated⟩ := validate_eq_ok_iff.mp h
  obtain ⟨m, hcopy, hlist⟩ := hblock.copyEntries_eq_ok
  have hlt := lt_of_le_of_lt hblock.length_le limits.maxBytes.toNat_lt
  have hsize : validated.block.length ≤ usizeMax := by
    rw [hvalidated, usizeMax]
    omega
  have hdrop : validated.block.drop 0 = entries.flatMap Entry.wire := by
    rw [List.drop_zero, hvalidated]
  have hreserved :
      validated.reservedEntries = m.entries.toList.filterMap Metadata.reservedPair := by
    rw [reservedEntries, reservedEntriesFrom_flatMap_wire hsize hdrop, hlist,
      List.filterMap_filterMap]
    congr 1
    funext e
    exact e.owned_bind_reservedPair.symm
  refine ⟨m, ?_, ?_, ?_, ?_⟩
  · rw [intoMetadata, hvalidated]
    exact hcopy
  · intro key
    ext value
    rw [getReserved, getReservedFrom_eq_some_iff hsize hdrop hblock.canonical
      (toU16_ne_userKeyId key), ← Metadata.mem_filterMap_reservedPair, ← hreserved,
      reservedEntries, reservedEntriesFrom_flatMap_wire hsize hdrop, List.mem_filterMap]
    simp only [Entry.reserved_eq_some_iff]
  · intro key value
    rw [hreserved]
    exact Metadata.mem_filterMap_reservedPair
  · rw [hreserved]
    exact m.increasing_reservedPair

/-- A deadline, an optional entry that nobody knows, and a user entry. -/
def mixedEntries : List Entry :=
  [⟨0x8001, [], [0, 0, 0, 5], by decide, by decide⟩, ⟨0x0020, [], [1], by decide, by decide⟩,
    ⟨0x7fff, [97], [9], by decide, by decide⟩]

theorem isBlock_mixedEntries :
    IsBlock .default mixedEntries [] ([0, 0, 0, 28] ++ mixedEntries.flatMap Entry.wire) := by
  refine ⟨?_, by decide, by decide, ?_, by decide⟩
  · rw [List.append_nil]
    rfl
  · intro e he
    simp only [mixedEntries, List.mem_cons, List.not_mem_nil, or_false] at he
    rcases he with rfl | rfl | rfl
    all_goals
      refine ⟨by decide, ?_⟩
      unfold Entry.KeyOk
    · rw [if_neg (by decide)]
      exact ⟨rfl, fun hnone => absurd hnone (by decide)⟩
    · rw [if_neg (by decide)]
      exact ⟨rfl, fun _ => by decide⟩
    · rw [if_pos (by decide)]
      exact ⟨by decide, by decide, List.forall_mem_singleton.mpr (by decide)⟩

theorem ValidatedMetadata.views_agree_mixedEntries :
    ∃ m, (⟨mixedEntries.flatMap Entry.wire⟩ : ValidatedMetadata).intoMetadata = .ok m ∧
      (⟨mixedEntries.flatMap Entry.wire⟩ : ValidatedMetadata).getReserved .deadlineMillis =
        m.get (.reserved .deadlineMillis) := by
  obtain ⟨m, hm, hget, -⟩ := ValidatedMetadata.views_agree
    (validate_eq_ok_iff.mpr ⟨mixedEntries, isBlock_mixedEntries, rfl⟩)
  exact ⟨m, hm, hget _⟩

end MoonLightBridge.Protocol
