import Mathlib

/-!
# Maps of shared lists

A concurrent map whose values are mutable lists without duplicates. A thread that wants
to edit the list of a key gets a reference to it from the map first, and edits it later;
by then the list may no longer be the one the map holds. So the lists have an identity
here: a cell, which stays when the key is removed from the map.

The two ways to edit such a map are to add an element to the list of a key, creating the
list if there is none, and to remove an element and then the list, if it is empty. Each
takes several steps, given by `Adding.step` and `Removing.step`.

## Main definitions

* `SharedLists` — cells and a table from keys to cells
* `SharedLists.get` — the elements a reader finds for a key
* `Adding`, `Removing` — the places a thread can be at that adds or removes an element
* `SharedLists.SafeToDrop` — nothing is lost when a key is removed
* `SharedLists.Tracks` — the map as its threads see it

## Main results

* `get_computeIfAbsent`, `mem_get_addIfAbsent`, `mem_get_remove`, `get_removeIfEqual` —
  what each operation does to what readers find
* `Tracks.compute`, `Tracks.add`, `Tracks.remove`, `Tracks.drop` — the map stays what its
  threads take it for
-/

/-- A table from keys to cells, which hold lists without duplicates. -/
structure SharedLists (κ ι : Type*) [DecidableEq κ] where
  /-- every list that was ever created -/
  cells : List (List ι)
  table : AList fun _ : κ => ℕ
  lookup_lt : ∀ key c, table.lookup key = some c → c < cells.length
  lookup_inj : ∀ key key' c, table.lookup key = some c → table.lookup key' = some c → key = key'
  nodup : ∀ l ∈ cells, l.Nodup

namespace SharedLists

variable {κ ι : Type*} [DecidableEq κ] {m : SharedLists κ ι} {key key' : κ} {c : ℕ} {x y : ι}

/-- The elements of a cell. -/
def list (m : SharedLists κ ι) (c : ℕ) : List ι := m.cells.getD c []

def lookup (m : SharedLists κ ι) (key : κ) : Option ℕ := m.table.lookup key

/-- What a reader finds for a key. -/
def get (m : SharedLists κ ι) (key : κ) : List ι := (m.lookup key).elim [] m.list

theorem mem_get : x ∈ m.get key ↔ ∃ c, m.lookup key = some c ∧ x ∈ m.list c := by
  unfold get
  cases m.lookup key <;> simp

theorem get_eq (h : m.lookup key = some c) : m.get key = m.list c := by
  rw [get, h, Option.elim_some]

theorem get_eq_nil (h : m.lookup key = none) : m.get key = [] := by
  rw [get, h, Option.elim_none]

theorem nodup_list (m : SharedLists κ ι) (c : ℕ) : (m.list c).Nodup := by
  rw [list, List.getD_eq_getElem?_getD]
  cases h : m.cells[c]? with
  | none => exact List.nodup_nil
  | some l => exact m.nodup l (List.mem_of_getElem? h)

theorem lookup_unique (h : m.lookup key = some c) (h' : m.lookup key' = some c) : key = key' :=
  m.lookup_inj key key' c h h'

/-! ### Operations -/

def empty : SharedLists κ ι where
  cells := []
  table := ∅
  lookup_lt _ c h := absurd h (Option.some_ne_none c ∘ Eq.symm)
  lookup_inj _ _ c h := absurd h (Option.some_ne_none c ∘ Eq.symm)
  nodup _ h := absurd h List.not_mem_nil

theorem lookup_insert_new (m : SharedLists κ ι) (key key' : κ) :
    (m.table.insert key m.cells.length).lookup key' =
      if key' = key then some m.cells.length else m.lookup key' := by
  split_ifs with h
  · rw [h, AList.lookup_insert]
  · exact AList.lookup_insert_ne h

theorem lookup_lt_insert_new (m : SharedLists κ ι) (key key' : κ) (c : ℕ)
    (h : (m.table.insert key m.cells.length).lookup key' = some c) :
    c < (m.cells ++ [[]]).length := by
  rw [lookup_insert_new] at h
  rw [List.length_append, List.length_singleton]
  split_ifs at h with hkey
  · exact (Option.some_inj.mp h) ▸ Nat.lt_succ_self _
  · exact (m.lookup_lt key' c h).trans (Nat.lt_succ_self _)

theorem lookup_inj_insert_new (m : SharedLists κ ι) (key key₁ key₂ : κ) (c : ℕ)
    (h₁ : (m.table.insert key m.cells.length).lookup key₁ = some c)
    (h₂ : (m.table.insert key m.cells.length).lookup key₂ = some c) : key₁ = key₂ := by
  have hfresh (key' : κ) : m.lookup key' ≠ some m.cells.length :=
    fun h => (m.lookup_lt key' _ h).ne rfl
  rw [lookup_insert_new] at h₁ h₂
  split_ifs at h₁ h₂ with hkey₁ hkey₂ hkey₂
  · rw [hkey₁, hkey₂]
  · exact absurd (h₂.trans h₁.symm) (hfresh key₂)
  · exact absurd (h₁.trans h₂.symm) (hfresh key₁)
  · exact m.lookup_inj key₁ key₂ c h₁ h₂

/-- Map the key to a new empty list. -/
def create (m : SharedLists κ ι) (key : κ) : SharedLists κ ι where
  cells := m.cells ++ [[]]
  table := m.table.insert key m.cells.length
  lookup_lt := m.lookup_lt_insert_new key
  lookup_inj := m.lookup_inj_insert_new key
  nodup := List.forall_mem_append.mpr ⟨m.nodup, List.forall_mem_singleton.mpr List.nodup_nil⟩

@[simp] theorem lookup_create (m : SharedLists κ ι) (key key' : κ) :
    (m.create key).lookup key' = if key' = key then some m.cells.length else m.lookup key' :=
  m.lookup_insert_new key key'

/-- The list of the key, created if there is none. -/
def computeIfAbsent (m : SharedLists κ ι) (key : κ) : SharedLists κ ι × ℕ :=
  match m.lookup key with
  | some c => (m, c)
  | none => (m.create key, m.cells.length)

theorem nodup_modify {l : List (List ι)} (h : ∀ a ∈ l, a.Nodup) (c : ℕ) {f : List ι → List ι}
    (hf : ∀ a : List ι, a.Nodup → (f a).Nodup) : ∀ a ∈ l.modify c f, a.Nodup := by
  intro a ha
  obtain ⟨i, hi⟩ := List.mem_iff_getElem?.mp ha
  rw [List.getElem?_modify] at hi
  obtain ⟨b, hb, rfl⟩ := Option.map_eq_some_iff.mp hi
  have hnodup := h b (List.mem_of_getElem? hb)
  split_ifs
  · exact hf b hnodup
  · exact hnodup

/-- Change the list in a cell. -/
def modify (m : SharedLists κ ι) (c : ℕ) (f : List ι → List ι)
    (hf : ∀ a : List ι, a.Nodup → (f a).Nodup) : SharedLists κ ι where
  cells := m.cells.modify c f
  table := m.table
  lookup_lt key c' h := (m.lookup_lt key c' h).trans_eq (List.length_modify ..).symm
  lookup_inj := m.lookup_inj
  nodup := nodup_modify m.nodup c hf

theorem lookup_of_erase {entries : AList fun _ : κ => ℕ}
    (h : (entries.erase key).lookup key' = some c) : entries.lookup key' = some c := by
  by_cases heq : key' = key
  · rw [heq, AList.lookup_erase] at h
    cases h
  · rw [← AList.lookup_erase_ne heq]
    exact h

/-- Remove the key from the map. -/
def drop (m : SharedLists κ ι) (key : κ) : SharedLists κ ι where
  cells := m.cells
  table := m.table.erase key
  lookup_lt key' c h := m.lookup_lt key' c (lookup_of_erase h)
  lookup_inj key₁ key₂ c h₁ h₂ := m.lookup_inj key₁ key₂ c (lookup_of_erase h₁) (lookup_of_erase h₂)
  nodup := m.nodup

theorem lookup_drop (m : SharedLists κ ι) (key key' : κ) :
    (m.drop key).lookup key' = if key' = key then none else m.lookup key' := by
  split_ifs with h
  · rw [h]
    exact AList.lookup_erase key m.table
  · exact AList.lookup_erase_ne h

theorem list_modify (m : SharedLists κ ι) {c c' : ℕ} (h : m.lookup key = some c')
    (f : List ι → List ι) (hf : ∀ a : List ι, a.Nodup → (f a).Nodup) :
    (m.modify c f hf).list c' = if c = c' then f (m.list c') else m.list c' := by
  have hlt := m.lookup_lt key c' h
  simp only [list, modify, List.getD_eq_getElem?_getD, List.getElem?_modify,
    List.getElem?_eq_getElem hlt, Option.map_eq_map, Option.map_some, Option.getD_some]

/-- The new list is the one of the key, and no list that was there is lost. -/
theorem lookup_computeIfAbsent_self (m : SharedLists κ ι) (key : κ) :
    (m.computeIfAbsent key).1.lookup key = some (m.computeIfAbsent key).2 := by
  unfold computeIfAbsent
  cases h : m.lookup key with
  | some c => exact h
  | none => simp

theorem lookup_computeIfAbsent (h : m.lookup key' = some c) (key : κ) :
    (m.computeIfAbsent key).1.lookup key' = some c := by
  unfold computeIfAbsent
  cases hkey : m.lookup key with
  | some c' => exact h
  | none =>
    rw [lookup_create, if_neg, h]
    rintro rfl
    rw [hkey] at h
    cases h

theorem get_computeIfAbsent (m : SharedLists κ ι) (key key' : κ) :
    (m.computeIfAbsent key).1.get key' = m.get key' := by
  unfold computeIfAbsent
  cases hkey : m.lookup key with
  | some c' => rfl
  | none =>
    by_cases heq : key' = key
    · subst heq
      have hnew : (m.create key').lookup key' = some m.cells.length := by simp
      rw [get_eq_nil hkey, get_eq hnew]
      simp [list, create]
    · cases hlookup : m.lookup key' with
      | none =>
        rw [get_eq_nil hlookup, get_eq_nil]
        rw [lookup_create, if_neg heq, hlookup]
      | some c =>
        have hold : (m.create key).lookup key' = some c := by
          rw [lookup_create, if_neg heq, hlookup]
        rw [get_eq hlookup, get_eq hold]
        have hlt := m.lookup_lt key' c hlookup
        simp [list, create, List.getElem?_append_left hlt]

variable [DecidableEq ι]

theorem nodup_concat_of_notMem (x : ι) (l : List ι) (h : l.Nodup) :
    (if x ∈ l then l else l ++ [x]).Nodup := by
  split_ifs with hx
  · exact h
  · exact List.nodup_append.mpr ⟨h, List.nodup_singleton x, by simp; grind⟩

def addIfAbsent (m : SharedLists κ ι) (c : ℕ) (x : ι) : SharedLists κ ι :=
  m.modify c (fun l => if x ∈ l then l else l ++ [x]) (nodup_concat_of_notMem x)

def remove (m : SharedLists κ ι) (c : ℕ) (x : ι) : SharedLists κ ι :=
  m.modify c (·.erase x) fun _ h => h.erase x

/-- Remove the key if its list has the same elements as the cell. -/
def removeIfEqual (m : SharedLists κ ι) (key : κ) (c : ℕ) : SharedLists κ ι :=
  match m.lookup key with
  | some c' => if m.list c' = m.list c then m.drop key else m
  | none => m

@[simp] theorem lookup_addIfAbsent (m : SharedLists κ ι) (c : ℕ) (x : ι) (key : κ) :
    (m.addIfAbsent c x).lookup key = m.lookup key := rfl

@[simp] theorem lookup_remove (m : SharedLists κ ι) (c : ℕ) (x : ι) (key : κ) :
    (m.remove c x).lookup key = m.lookup key := rfl

theorem mem_get_addIfAbsent :
    y ∈ (m.addIfAbsent c x).get key ↔ y ∈ m.get key ∨ m.lookup key = some c ∧ y = x := by
  rw [mem_get, mem_get, lookup_addIfAbsent]
  cases h : m.lookup key with
  | none => simp
  | some c' =>
    have hlist := m.list_modify h (c := c) (fun l => if x ∈ l then l else l ++ [x])
      (nodup_concat_of_notMem x)
    simp only [Option.some_inj, exists_eq_left', addIfAbsent, hlist]
    split_ifs with hc hx
    · subst hc
      constructor
      · exact .inl
      · rintro (hy | ⟨-, rfl⟩)
        · exact hy
        · exact hx
    · subst hc
      simp
    · simp [Ne.symm hc]

/-- Adding to the list of a key. -/
theorem mem_get_addIfAbsent_iff (hkey : m.lookup key = some c) {key' : κ} :
    y ∈ (m.addIfAbsent c x).get key' ↔ y ∈ m.get key' ∨ key' = key ∧ y = x := by
  rw [mem_get_addIfAbsent]
  refine or_congr_right (and_congr_left fun _ => ?_)
  exact ⟨fun heq => lookup_unique heq hkey, fun heq => heq ▸ hkey⟩

theorem mem_get_remove :
    y ∈ (m.remove c x).get key ↔ y ∈ m.get key ∧ ¬ (m.lookup key = some c ∧ y = x) := by
  rw [mem_get, mem_get, lookup_remove]
  cases h : m.lookup key with
  | none => simp
  | some c' =>
    have hlist := m.list_modify h (c := c) (·.erase x) fun _ h => h.erase x
    simp only [Option.some_inj, exists_eq_left', remove, hlist]
    split_ifs with hc
    · subst hc
      rw [(m.nodup_list c).mem_erase_iff]
      tauto
    · simp [Ne.symm hc]

/-- If the key is removed, then its list is empty and nobody is about to add to it. -/
def SafeToDrop (m : SharedLists κ ι) (key : κ) (c : ℕ) (pending : Prop) : Prop :=
  (m.removeIfEqual key c).lookup key ≠ m.lookup key → m.get key = [] ∧ ¬ pending

instance decidableSafeToDrop (m : SharedLists κ ι) (key : κ) (c : ℕ) (pending : Prop)
    [Decidable pending] : Decidable (m.SafeToDrop key c pending) :=
  inferInstanceAs (Decidable (_ → _))

theorem list_removeIfEqual (m : SharedLists κ ι) (key : κ) (c c' : ℕ) :
    (m.removeIfEqual key c).list c' = m.list c' := by
  unfold removeIfEqual
  cases m.lookup key with
  | none => rfl
  | some _ =>
    dsimp only
    split_ifs <;> rfl

theorem lookup_removeIfEqual_of_ne (h : key' ≠ key) :
    (m.removeIfEqual key c).lookup key' = m.lookup key' := by
  unfold removeIfEqual
  cases m.lookup key with
  | none => rfl
  | some c' =>
    dsimp only
    split_ifs
    · rw [lookup_drop, if_neg h]
    · rfl

/-- A list that has an element, or that somebody will add to, stays. -/
theorem lookup_removeIfEqual {pending : Prop} (hsafe : m.SafeToDrop key c pending)
    (h : pending ∨ m.get key ≠ []) : (m.removeIfEqual key c).lookup key = m.lookup key := by
  by_contra hdropped
  obtain ⟨hempty, hnot⟩ := hsafe hdropped
  exact h.elim hnot (· hempty)

theorem get_removeIfEqual {pending : Prop} (hsafe : m.SafeToDrop key c pending) (key' : κ) :
    (m.removeIfEqual key c).get key' = m.get key' := by
  by_cases heq : (m.removeIfEqual key c).lookup key' = m.lookup key'
  · rw [get, get, heq]
    cases m.lookup key' with
    | none => rfl
    | some c' => exact list_removeIfEqual m key c c'
  · obtain rfl : key' = key := by
      by_contra hne
      exact heq (lookup_removeIfEqual_of_ne hne)
    rw [(hsafe heq).1, get]
    -- the key has left the map
    unfold removeIfEqual at heq ⊢
    cases hkey : m.lookup key' with
    | none => simp [hkey] at heq ⊢
    | some c' =>
      rw [hkey] at heq
      dsimp only at heq ⊢
      split_ifs at heq ⊢
      · rw [lookup_drop, if_pos rfl, Option.elim_none]
      · exact absurd hkey heq

/-! ### Threads that edit the map -/

/-- Where a thread is that adds an element to the list of a key. -/
inductive Adding where
  /-- before `computeIfAbsent` -/
  | compute
  /-- before `addIfAbsent` on the list it got -/
  | add (c : ℕ)
  deriving DecidableEq, Repr

/-- Where a thread is that removes an element from the list of a key. -/
inductive Removing where
  /-- before the list is looked up -/
  | get
  /-- before the element is removed from the list -/
  | remove (c : ℕ)
  /-- before the list is tested for emptiness -/
  | check (c : ℕ)
  /-- before the key is removed, if it still has an equal list -/
  | drop (c : ℕ)
  deriving DecidableEq, Repr

/-- The list a thread is about to drop. -/
def Removing.dropping : Removing → Option ℕ
  | .drop c => some c
  | .get | .remove _ | .check _ => none

/-- The element is still to be removed. -/
def Removing.WillRemove : Removing → Prop
  | .get | .remove _ => True
  | .check _ | .drop _ => False

/-- A step of a thread that adds `x`, and where it is afterwards. -/
def Adding.step (m : SharedLists κ ι) (key : κ) (x : ι) :
    Adding → SharedLists κ ι × Option Adding
  | .compute => ((m.computeIfAbsent key).1, some (.add (m.computeIfAbsent key).2))
  | .add c => (m.addIfAbsent c x, none)

/-- A step of a thread that removes `x`, and where it is afterwards. -/
def Removing.step (m : SharedLists κ ι) (key : κ) (x : ι) :
    Removing → SharedLists κ ι × Option Removing
  | .get => (m, (m.lookup key).map .remove)
  | .remove c => (m.remove c x, some (.check c))
  | .check c => (m, if m.list c = [] then some (.drop c) else none)
  | .drop c => (m.removeIfEqual key c, none)

/-- Removing takes nothing in. -/
theorem mem_get_of_mem_removing_step {place : Removing}
    (h : y ∈ (place.step m key x).1.get key') : y ∈ m.get key' := by
  cases place with
  | get | check => exact h
  | remove c => exact (mem_get_remove.mp h).1
  | drop c =>
    have hlist (c' : ℕ) : (m.removeIfEqual key c).list c' = m.list c' := list_removeIfEqual ..
    obtain ⟨c', hlookup, hy⟩ := mem_get.mp h
    refine mem_get.mpr ⟨c', ?_, hlist c' ▸ hy⟩
    have hlookup' : (m.removeIfEqual key c).lookup key' = some c' := hlookup
    unfold removeIfEqual at hlookup'
    split at hlookup'
    · split_ifs at hlookup'
      · exact lookup_of_erase hlookup'
      · exact hlookup'
    · exact hlookup'

/-- A map as its threads see it. Readers find what is `here`. A thread with a `pending`
addition holds the list of its key. One with a reference for removing an element holds
the list of its key as long as the element is there. -/
structure Tracks (m : SharedLists κ ι) (here : κ → ι → Prop) (pending : κ → ℕ → Prop)
    (refs : κ → ι → ℕ → Prop) : Prop where
  mem : ∀ key x, x ∈ m.get key ↔ here key x
  pending : ∀ key c, pending key c → m.lookup key = some c
  refs : ∀ key x c, refs key x c → here key x → m.lookup key = some c

section Tracks

variable {here here' : κ → ι → Prop} {pending pending' : κ → ℕ → Prop}
  {refs refs' : κ → ι → ℕ → Prop}

omit [DecidableEq ι] in
theorem tracks_empty (hhere : ∀ key x, ¬ here key x) (hpending : ∀ key c, ¬ pending key c) :
    Tracks (empty : SharedLists κ ι) here pending refs := by
  refine ⟨fun key x => ?_, fun key c h => absurd h (hpending key c),
    fun key x c _ h => absurd h (hhere key x)⟩
  exact iff_of_false List.not_mem_nil (hhere key x)

variable (h : Tracks m here pending refs)

include h

omit [DecidableEq ι] in
theorem Tracks.self : Tracks m (fun key x => x ∈ m.get key) pending refs where
  mem _ _ := Iff.rfl
  pending := h.pending
  refs key x c hc hx := h.refs key x c hc ((h.mem key x).mp hx)

omit [DecidableEq ι] in
/-- The threads change, and hold no more than before. -/
theorem Tracks.mono (hhere : ∀ key x, here' key x ↔ here key x)
    (hpending : ∀ key c, pending' key c → pending key c)
    (hrefs : ∀ key x c, refs' key x c → here key x → refs key x c ∨ m.lookup key = some c) :
    Tracks m here' pending' refs' where
  mem key x := (h.mem key x).trans (hhere key x).symm
  pending key c hc := h.pending key c (hpending key c hc)
  refs key x c hc hx :=
    (hrefs key x c hc ((hhere key x).mp hx)).elim
      (fun hc => h.refs key x c hc ((hhere key x).mp hx)) id

omit [DecidableEq ι] in
theorem Tracks.compute (hhere : ∀ key x, here' key x ↔ here key x)
    (hpending : ∀ key' c, pending' key' c →
      pending key' c ∨ key' = key ∧ c = (m.computeIfAbsent key).2)
    (hrefs : ∀ key x c, refs' key x c → refs key x c) :
    Tracks (m.computeIfAbsent key).1 here' pending' refs' := by
  refine ⟨fun key' x => ?_, fun key' c hc => ?_, fun key' x c hc hx => ?_⟩
  · rw [get_computeIfAbsent, h.mem, hhere]
  · rcases hpending key' c hc with hold | ⟨rfl, rfl⟩
    · exact lookup_computeIfAbsent (h.pending key' c hold) key
    · exact m.lookup_computeIfAbsent_self key'
  · exact lookup_computeIfAbsent (h.refs key' x c (hrefs key' x c hc) ((hhere key' x).mp hx)) key

theorem Tracks.add (hkey : m.lookup key = some c)
    (hhere : ∀ key' y, here' key' y ↔ here key' y ∨ key' = key ∧ y = x)
    (hpending : ∀ key' c', pending' key' c' → pending key' c')
    (hrefs : ∀ key' y c', refs' key' y c' →
      refs key' y c' ∧ ¬ (key' = key ∧ y = x) ∨ key' = key ∧ c' = c) :
    Tracks (m.addIfAbsent c x) here' pending' refs' := by
  refine ⟨fun key' y => ?_, fun key' c' hc => h.pending key' c' (hpending key' c' hc),
    fun key' y c' hc hy => ?_⟩
  · rw [mem_get_addIfAbsent_iff hkey, h.mem, hhere]
  · rcases hrefs key' y c' hc with ⟨hold, hne⟩ | ⟨rfl, rfl⟩
    · exact h.refs key' y c' hold (((hhere key' y).mp hy).resolve_right hne)
    · exact hkey

theorem Tracks.remove (hkey : here key x → m.lookup key = some c)
    (hunique : ∀ key', here key' x → key' = key)
    (hhere : ∀ key' y, here' key' y ↔ here key' y ∧ ¬ (key' = key ∧ y = x))
    (hpending : ∀ key' c', pending' key' c' → pending key' c')
    (hrefs : ∀ key' y c', refs' key' y c' → refs key' y c') :
    Tracks (m.remove c x) here' pending' refs' := by
  refine ⟨fun key' y => ?_, fun key' c' hc => h.pending key' c' (hpending key' c' hc),
    fun key' y c' hc hy => h.refs key' y c' (hrefs key' y c' hc) ((hhere key' y).mp hy).1⟩
  rw [mem_get_remove, h.mem, hhere]
  refine and_congr_right fun hy => not_congr (and_congr_left fun heq => ?_)
  subst heq
  obtain rfl := hunique key' hy
  exact iff_of_true (hkey hy) rfl

theorem Tracks.drop (hsafe : m.SafeToDrop key c (∃ c', pending key c'))
    (hhere : ∀ key x, here' key x ↔ here key x)
    (hpending : ∀ key' c', pending' key' c' → pending key' c')
    (hrefs : ∀ key' y c', refs' key' y c' → refs key' y c') :
    Tracks (m.removeIfEqual key c) here' pending' refs' := by
  have hkeep {key' : κ} {c' : ℕ} (hold : m.lookup key' = some c')
      (hneeded : key' = key → (∃ c', pending key c') ∨ m.get key ≠ []) :
      (m.removeIfEqual key c).lookup key' = some c' := by
    by_cases heq : key' = key
    · subst heq
      rw [lookup_removeIfEqual hsafe (hneeded rfl), hold]
    · rw [lookup_removeIfEqual_of_ne heq, hold]
  refine ⟨fun key' x => ?_, fun key' c' hc => ?_, fun key' y c' hc hy => ?_⟩
  · rw [get_removeIfEqual hsafe, h.mem, hhere]
  · have hold := hpending key' c' hc
    exact hkeep (h.pending key' c' hold) fun heq => .inl ⟨c', heq ▸ hold⟩
  · have hold := (hhere key' y).mp hy
    refine hkeep (h.refs key' y c' (hrefs key' y c' hc) hold) fun heq => .inr ?_
    exact List.ne_nil_of_mem ((h.mem key y).mpr (heq ▸ hold))

end Tracks

end SharedLists
