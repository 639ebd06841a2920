import MoonLightBridge.Codegen.Compatibility

/-!
# Compatibility along a history of schemas

Every version of a schema is checked against the one before it only. That is enough: a
number that is given up is reserved from then on, however its range is split or merged
with others later, and no later version can use it again. So the check is a preorder on
the messages of the snapshots that `protoc` lets through.
-/

namespace MoonLightBridge.Codegen.Evolution

open Schema Compatibility

/-- A number is in one of the reserved ranges of a message. -/
def Reserves (message : Schema.LockedMessage) (number : ℤ) : Prop :=
  ∃ range ∈ message.reservedRanges, range.Contains number

instance decidableReserves (message : Schema.LockedMessage) (number : ℤ) :
    Decidable (Reserves message number) := inferInstanceAs (Decidable (∃ _ ∈ _, _))

/-- What `protoc` guarantees: no reserved range is empty, and no field has a number or a
name that the message reserves. -/
def KeepsApart (message : Schema.LockedMessage) : Prop :=
  (∀ range ∈ message.reservedRanges, range.start < range.stop) ∧
    ∀ entry ∈ message.fields.toList,
      ¬ Reserves message entry.1 ∧ entry.2.name ∉ message.reservedNames

instance decidableKeepsApart (message : Schema.LockedMessage) : Decidable (KeepsApart message) :=
  inferInstanceAs (Decidable (_ ∧ _))

/-- A lock of messages that `protoc` accepts. -/
structure Snapshot where
  lock : SchemaLock
  keepsApart : ∀ entry ∈ lock.messages.toList, KeepsApart entry.2

/-- A later version of a message: all that was reserved still is, and a field is the same,
or is gone with its number and its name reserved. -/
structure Evolves (old new : Schema.LockedMessage) : Prop where
  numbers : ∀ number, Reserves old number → Reserves new number
  names : ∀ name ∈ old.reservedNames, name ∈ new.reservedNames
  fields : ∀ number field, old.fields.get? number = some field →
    new.fields.get? number = some field ∨
      new.fields.get? number = none ∧ Reserves new number ∧ field.name ∈ new.reservedNames

/-- The check has nothing to report about a message. -/
def MessagesKept (old new : Snapshot) : Prop :=
  ∀ error ∈ compatibilityErrors old.lock new.lock, error.message? = none

/-! ### Two versions of a message -/

section Message

variable {old new newer : Schema.LockedMessage} {name : String}

theorem evolves_refl (message : Schema.LockedMessage) : Evolves message message where
  numbers _ := id
  names _ := id
  fields _ _ := .inl

/-- A number that was given up is still reserved, so it is not used again. -/
theorem Evolves.trans (h : Evolves old new) (h' : Evolves new newer) (hnewer : KeepsApart newer) :
    Evolves old newer where
  numbers number hreserved := h'.numbers number (h.numbers number hreserved)
  names name hreserved := h'.names name (h.names name hreserved)
  fields number field hfield := by
    rcases h.fields number field hfield with hkept | ⟨-, hnumber, hname⟩
    · exact h'.fields number field hkept
    · have hnumber' := h'.numbers number hnumber
      refine .inr ⟨?_, hnumber', h'.names field.name hname⟩
      apply Option.eq_none_iff_forall_ne_some.mpr
      intro field' hget
      exact (hnewer.2 _ (SortedMap.get?_eq_some_iff.mp hget)).1 hnumber'

/-- A number has one field in all versions. -/
theorem Evolves.field_eq (h : Evolves old new) {number : ℤ} {field field' : LockedField}
    (hfield : old.fields.get? number = some field)
    (hfield' : new.fields.get? number = some field') : field' = field := by
  rcases h.fields number field hfield with hkept | ⟨hnone, -⟩
  · exact Option.mem_unique hfield' hkept
  · cases hnone.symm.trans hfield'

theorem reservations_eq_nil_iff (hold : KeepsApart old) :
    checkPreservedReservations .message name old.reservedRanges old.reservedNames
        new.reservedRanges new.reservedNames = [] ↔
      (∀ number, Reserves old number → Reserves new number) ∧
        ∀ reservedName ∈ old.reservedNames, reservedName ∈ new.reservedNames := by
  rw [checkPreservedReservations, List.append_eq_nil_iff, List.map_eq_nil_iff,
    List.map_eq_nil_iff, List.filter_eq_nil_iff, List.filter_eq_nil_iff]
  refine and_congr ?_ (forall₂_congr fun reservedName _ => by simp)
  constructor
  · rintro h number ⟨range, hrange, hnumber⟩
    have hcovered : rangeIsCovered range new.reservedRanges = true := by simpa using h range hrange
    exact (rangeIsCovered_iff (hold.1 range hrange) _).mp hcovered number hnumber
  · intro h range hrange
    have hcovered := (rangeIsCovered_iff (hold.1 range hrange) new.reservedRanges).mpr
      fun number hnumber => h number ⟨range, hrange, hnumber⟩
    simpa using hcovered

theorem fieldErrors_eq_nil_iff_kept {number : ℤ} {field : LockedField} :
    fieldErrors name new (number, field) = [] ↔
      new.fields.get? number = some field ∨
        new.fields.get? number = none ∧ Reserves new number ∧ field.name ∈ new.reservedNames := by
  unfold fieldErrors
  cases hget : new.fields.get? number with
  | none =>
    simp only [reduceCtorEq, true_and, false_or, ← isReserved_iff, Reserves]
    split_ifs with hreserved
    · exact iff_of_true rfl hreserved
    · exact iff_of_false not_false hreserved
  | some newField =>
    simp only [reduceCtorEq, false_and, or_false, Option.some.injEq]
    split_ifs with hne
    · exact iff_of_false not_false hne
    · exact iff_of_true rfl (not_not.mp hne)

/-- What the check asks of a message. -/
theorem messageErrors_eq_nil_iff_evolves {lock : SchemaLock} (hold : KeepsApart old) :
    messageErrors lock (name, old) = [] ↔
      ∃ new, lock.messages.get? name = some new ∧ Evolves old new := by
  unfold messageErrors
  cases hget : lock.messages.get? name with
  | none =>
    refine iff_of_false (List.cons_ne_nil _ _) ?_
    rintro ⟨new, hnew, -⟩
    cases hnew
  | some new =>
    simp only [Option.some.injEq, exists_eq_left']
    rw [List.append_eq_nil_iff, reservations_eq_nil_iff hold, List.flatMap_eq_nil_iff]
    constructor
    · rintro ⟨⟨hnumbers, hnames⟩, hfields⟩
      refine ⟨hnumbers, hnames, fun number field hfield => ?_⟩
      exact fieldErrors_eq_nil_iff_kept.mp (hfields _ (SortedMap.get?_eq_some_iff.mp hfield))
    · intro h
      refine ⟨⟨h.numbers, h.names⟩, fun entry hentry => ?_⟩
      exact fieldErrors_eq_nil_iff_kept.mpr
        (h.fields entry.1 entry.2 (SortedMap.get?_eq_some_iff.mpr hentry))

end Message

/-! ### Two versions of a schema -/

section Schemas

variable {old new newer : Snapshot}

theorem Snapshot.keepsApart_of_get? (snapshot : Snapshot) {name : String}
    {message : Schema.LockedMessage} (h : snapshot.lock.messages.get? name = some message) :
    KeepsApart message :=
  snapshot.keepsApart _ (SortedMap.get?_eq_some_iff.mp h)

/-- Every message has a later version. -/
theorem messagesKept_iff : MessagesKept old new ↔
    ∀ name message, old.lock.messages.get? name = some message →
      ∃ message', new.lock.messages.get? name = some message' ∧ Evolves message message' := by
  constructor
  · intro h name message hmessage
    rw [← messageErrors_eq_nil_iff_evolves (old.keepsApart_of_get? hmessage),
      List.eq_nil_iff_forall_not_mem]
    intro error herror
    obtain ⟨hmem, hname⟩ := (mem_messageErrors hmessage).mpr herror
    cases (h error hmem).symm.trans hname
  · intro h error hmem
    refine Option.eq_none_iff_forall_ne_some.mpr fun subject hsubject => ?_
    rw [Schema.CompatibilityError.message?_eq_some_iff] at hsubject
    rcases List.mem_append.mp hmem with hmem | hservice
    · rcases List.mem_append.mp hmem with hmessage | henum
      · obtain ⟨⟨name, message⟩, hmessage, herror⟩ := List.mem_flatMap.mp hmessage
        have hget := SortedMap.get?_eq_some_iff.mpr hmessage
        rw [(messageErrors_eq_nil_iff_evolves (old.keepsApart_of_get? hget)).mpr
          (h name message hget)] at herror
        cases herror
      · obtain ⟨entry, -, herror⟩ := List.mem_flatMap.mp henum
        cases (subject?_of_mem_enumErrors herror).symm.trans hsubject
    · obtain ⟨entry, -, herror⟩ := List.mem_flatMap.mp hservice
      cases (subject?_of_mem_serviceErrors herror).symm.trans hsubject

theorem messagesKept_refl (snapshot : Snapshot) : MessagesKept snapshot snapshot :=
  messagesKept_iff.mpr fun _ message hmessage => ⟨message, hmessage, evolves_refl message⟩

theorem MessagesKept.trans (h : MessagesKept old new) (h' : MessagesKept new newer) :
    MessagesKept old newer := by
  rw [messagesKept_iff] at h h' ⊢
  intro name message hmessage
  obtain ⟨message', hmessage', hevolves⟩ := h name message hmessage
  obtain ⟨message'', hmessage'', hevolves'⟩ := h' name message' hmessage'
  exact ⟨message'', hmessage'',
    hevolves.trans hevolves' (newer.keepsApart_of_get? hmessage'')⟩

/-- The versions of a history from one to any later one. -/
theorem messagesKept_of_chain {s : ℕ → Snapshot} {n i j : ℕ}
    (hchain : ∀ k < n, compatibilityErrors (s k).lock (s (k + 1)).lock = []) (hij : i ≤ j)
    (hj : j ≤ n) : MessagesKept (s i) (s j) := by
  induction j, hij using Nat.le_induction with
  | base => exact messagesKept_refl (s i)
  | succ j hij ih =>
    refine (ih (by omega)).trans fun error herror => ?_
    rw [hchain j (by omega)] at herror
    cases herror

end Schemas

/-- In a history whose every version is compatible with the one before it, no message is
ever lost, and a number of a message has the same field wherever it occurs. The check is
reflexive and transitive as far as it is about messages. -/
theorem compatible_along_chain (s : ℕ → Snapshot) (n : ℕ)
    (hchain : ∀ k < n, compatibilityErrors (s k).lock (s (k + 1)).lock = []) :
    (∀ i j, i ≤ j → j ≤ n → ∀ name message, (s i).lock.messages.get? name = some message →
      ∃ message', (s j).lock.messages.get? name = some message' ∧
        ∀ number field field', message.fields.get? number = some field →
          message'.fields.get? number = some field' → field' = field) ∧
      (∀ snapshot, MessagesKept snapshot snapshot) ∧
      ∀ old new newer, MessagesKept old new → MessagesKept new newer → MessagesKept old newer := by
  refine ⟨fun i j hij hj name message hmessage => ?_, messagesKept_refl,
    fun _ _ _ => MessagesKept.trans⟩
  obtain ⟨message', hmessage', hevolves⟩ :=
    messagesKept_iff.mp (messagesKept_of_chain hchain hij hj) name message hmessage
  exact ⟨message', hmessage', fun _ _ _ => hevolves.field_eq⟩

/-- A schema of one message. -/
def schemaOf (message : Schema.LockedMessage) : SchemaLock :=
  { SchemaLock.empty with messages := SortedMap.empty.insert "example.v1.Player" message }

/-- The rank of a player is given up, and then the range that it was reserved with is
split. -/
def rankHistory : ℕ → Snapshot
  | 0 => ⟨schemaOf ⟨.ofList [(1, lockedOption "id" 1 0), (2, lockedOption "rank" 2 1)], [], []⟩,
    by decide +kernel⟩
  | 1 => ⟨schemaOf ⟨.ofList [(1, lockedOption "id" 1 0)], [⟨2, 4⟩], ["rank"]⟩, by decide +kernel⟩
  | _ => ⟨schemaOf ⟨.ofList [(1, lockedOption "id" 1 0), (4, lockedOption "level" 4 1)],
    [⟨3, 4⟩, ⟨2, 3⟩], ["rank"]⟩, by decide +kernel⟩

theorem compatible_along_chain_rankHistory :
    (∀ k < 2, compatibilityErrors (rankHistory k).lock (rankHistory (k + 1)).lock = []) ∧
      MessagesKept (rankHistory 0) (rankHistory 2) := by
  have hchain : ∀ k < 2,
      compatibilityErrors (rankHistory k).lock (rankHistory (k + 1)).lock = [] := by
    decide +kernel
  have hkept : ∀ k < 2, MessagesKept (rankHistory k) (rankHistory (k + 1)) := by
    intro k hk error herror
    rw [hchain k hk] at herror
    cases herror
  have htrans := (compatible_along_chain rankHistory 2 hchain).2.2
  exact ⟨hchain, htrans _ _ _ (hkept 0 (by decide)) (hkept 1 (by decide))⟩

end MoonLightBridge.Codegen.Evolution
