import Mathlib

/-!
# Lists of which one element changes

The parties of a system are kept as a list, and a step of one of them exchanges one
element of it. This file says what that does to sums over the list, to counts, and to
what holds of all elements.
-/

namespace List

variable {α : Type*} {l : List α} {i : ℕ} {a : α}

/-- A sum loses the summand of the old element and gains that of the new one. -/
theorem sum_map_set_add {M : Type*} [AddCommMonoid M] (f : α → M) (h : l[i]? = some a) (b : α) :
    ((l.set i b).map f).sum + f a = (l.map f).sum + f b := by
  induction l generalizing i with
  | nil => cases h
  | cons head l ih =>
    cases i with
    | zero =>
      cases h
      simp only [set_cons_zero, map_cons, sum_cons]
      abel
    | succ i =>
      simp only [set_cons_succ, map_cons, sum_cons]
      rw [add_assoc, ih h, add_assoc]

/-- A sum loses the summand of an element that is removed. -/
theorem sum_map_eraseIdx_add {M : Type*} [AddCommMonoid M] (f : α → M) (h : l[i]? = some a) :
    ((l.eraseIdx i).map f).sum + f a = (l.map f).sum := by
  induction l generalizing i with
  | nil => cases h
  | cons head l ih =>
    cases i with
    | zero =>
      cases h
      simp only [eraseIdx_cons_zero, map_cons, sum_cons]
      abel
    | succ i =>
      simp only [eraseIdx_cons_succ, map_cons, sum_cons]
      rw [add_assoc, ih h]

theorem countP_set_add (p : α → Bool) (h : l[i]? = some a) (b : α) :
    (l.set i b).countP p + (if p a then 1 else 0) = l.countP p + (if p b then 1 else 0) := by
  have hcount : ∀ l : List α, l.countP p = (l.map fun a => if p a then 1 else 0).sum := by
    intro l
    induction l with
    | nil => rfl
    | cons head l ih => rw [countP_cons, map_cons, sum_cons, ih, Nat.add_comm]
  rw [hcount, hcount]
  exact sum_map_set_add _ h b

variable {b : α}

/-- An exchange that the predicate does not see. -/
theorem countP_set_of_eq {p : α → Bool} (h : l[i]? = some a) (heq : p b = p a) :
    (l.set i b).countP p = l.countP p := by
  have := countP_set_add p h b
  rw [heq] at this
  exact Nat.add_right_cancel this

/-- An element is exchanged for one with the same image. -/
theorem map_set_of_eq {β : Type*} {f : α → β} (h : l[i]? = some a) (heq : f b = f a) :
    (l.set i b).map f = l.map f := by
  obtain ⟨hlt, rfl⟩ := getElem?_eq_some_iff.mp h
  rw [map_set, heq, ← getElem_map f (h := (length_map f).symm ▸ hlt), set_getElem_self]

variable {c : α}

/-- The new element takes the place of the old one. -/
theorem getElem?_set_of_eq_some (h : l[i]? = some a) (b : α) : (l.set i b)[i]? = some b :=
  getElem?_set_self (getElem?_eq_some_iff.mp h).1

/-- An element of the new list is the new one or an old one. -/
theorem getElem?_set_eq_some {j : ℕ} (h : l[i]? = some a) (hj : (l.set i b)[j]? = some c) :
    j = i ∧ b = c ∨ l[j]? = some c := by
  by_cases hji : j = i
  · subst hji
    rw [getElem?_set_of_eq_some h] at hj
    exact .inl ⟨rfl, Option.some_inj.mp hj⟩
  · rw [getElem?_set_ne (Ne.symm hji)] at hj
    exact .inr hj

/-- An element of a list that grew at its end. -/
theorem getElem?_concat_eq_some :
    (l ++ [b])[i]? = some a ↔ l[i]? = some a ∨ i = l.length ∧ b = a := by
  rcases Nat.lt_trichotomy i l.length with hlt | rfl | hgt
  · simp [getElem?_append_left hlt, hlt.ne]
  · simp
  · have hlength : (l ++ [b]).length ≤ i := by
      rw [length_append]
      exact hgt
    rw [getElem?_eq_none hlength, getElem?_eq_none hgt.le]
    simp [hgt.ne']

/-- What holds of the old elements and of the new one. -/
theorem forall_mem_set {q : α → Prop} (h : ∀ c ∈ l, q c) (hb : q b) : ∀ c ∈ l.set i b, q c := by
  intro c hc
  rcases mem_or_eq_of_mem_set hc with hold | rfl
  · exact h c hold
  · exact hb

theorem forall_mem_concat {q : α → Prop} (h : ∀ c ∈ l, q c) (hb : q b) : ∀ c ∈ l ++ [b], q c :=
  forall_mem_append.mpr ⟨h, forall_mem_singleton.mpr hb⟩

/-- An element other than the one that is exchanged stays. -/
theorem mem_set_of_ne {j : ℕ} (hj : l[j]? = some c) (hne : i ≠ j) : c ∈ l.set i b := by
  apply mem_of_getElem? (i := j)
  rw [getElem?_set_ne hne]
  exact hj

/-- An element is exchanged for one of which the same is true. -/
theorem forall_mem_set_iff {q : α → Prop} (h : l[i]? = some a) (hiff : q b ↔ q a) :
    (∀ c ∈ l.set i b, q c) ↔ ∀ c ∈ l, q c := by
  have hset : (l.set i b).set i a = l := by
    obtain ⟨hlt, rfl⟩ := getElem?_eq_some_iff.mp h
    rw [set_set, set_getElem_self]
  refine ⟨fun hall => ?_, fun hall => forall_mem_set hall (hiff.mpr (hall a (mem_of_getElem? h)))⟩
  have hb : q b := hall b (mem_set (getElem?_eq_some_iff.mp h).1 b)
  exact hset ▸ forall_mem_set hall (hiff.mp hb)

/-- An element is the one that is exchanged, or it stays. -/
theorem eq_or_mem_set (h : l[i]? = some a) (hc : c ∈ l) : c = a ∨ c ∈ l.set i b := by
  obtain ⟨j, hj⟩ := mem_iff_getElem?.mp hc
  by_cases heq : i = j
  · subst heq
    exact .inl (Option.mem_unique hj h)
  · exact .inr (mem_set_of_ne hj heq)

/-- After an exchange there are the new element and the others. -/
theorem eq_or_mem_eraseIdx_of_mem_set (h : c ∈ l.set i b) : c = b ∨ c ∈ l.eraseIdx i := by
  obtain ⟨j, hj⟩ := mem_iff_getElem?.mp h
  by_cases heq : i = j
  · subst heq
    rw [getElem?_set_self' ] at hj
    obtain ⟨-, -, rfl⟩ := Option.map_eq_some_iff.mp hj
    exact .inl rfl
  · rw [getElem?_set_ne heq] at hj
    exact .inr (mem_eraseIdx_iff_getElem?.mpr ⟨j, Ne.symm heq, hj⟩)

theorem mem_set_self (h : l[i]? = some a) : b ∈ l.set i b :=
  mem_set (getElem?_eq_some_iff.mp h).1 b

end List
