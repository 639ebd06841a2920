import Mathlib

/-!
# Sequences that end at most once

A stream of signals is well formed if it consists of items, followed by at most one
signal that ends it. The notion is closed under prefixes, which is what makes it an
invariant of a run.
-/

namespace Signals

variable {α β : Type*} {isItem isLast : α → Prop} {l : List α}

/-- Items, and then at most one last signal. -/
def WellFormed (isItem isLast : α → Prop) (l : List α) : Prop :=
  ∃ items last, l = items ++ last ∧ (∀ x ∈ items, isItem x) ∧ last.length ≤ 1 ∧
    ∀ x ∈ last, isLast x

theorem wellFormed_of_forall (h : ∀ x ∈ l, isItem x) : WellFormed isItem isLast l :=
  ⟨l, [], (List.append_nil l).symm, h, Nat.zero_le 1, fun _ hx => absurd hx List.not_mem_nil⟩

/-- As long as nothing but items was sent, any signal may follow. -/
theorem wellFormed_concat (h : ∀ x ∈ l, isItem x) {x : α} (hx : isItem x ∨ isLast x) :
    WellFormed isItem isLast (l ++ [x]) := by
  rcases hx with hitem | hlast
  · apply wellFormed_of_forall
    exact List.forall_mem_append.mpr ⟨h, List.forall_mem_singleton.mpr hitem⟩
  · exact ⟨l, [x], rfl, h, le_rfl, fun y hy => List.mem_singleton.mp hy ▸ hlast⟩

theorem WellFormed.of_isPrefix (h : WellFormed isItem isLast l) {l' : List α} (hl : l' <+: l) :
    WellFormed isItem isLast l' := by
  obtain ⟨items, last, rfl, hitems, hlen, hlast⟩ := h
  rcases List.prefix_or_prefix_of_prefix hl (List.prefix_append items last) with hshort | hlong
  · -- the cut is before the last signal
    exact wellFormed_of_forall fun x hx => hitems x (hshort.subset hx)
  · -- the cut is after the items, inside a list of at most one signal
    obtain ⟨rest, rfl⟩ := hlong
    have hrest : rest <+: last := (List.prefix_append_right_inj items).mp hl
    exact ⟨items, rest, rfl, hitems, hrest.length_le.trans hlen,
      fun x hx => hlast x (hrest.subset hx)⟩

/-- Nothing follows a signal that is not an item. -/
theorem WellFormed.eq_nil {xs ys : List α} {x : α} (h : WellFormed isItem isLast (xs ++ x :: ys))
    (hx : ¬ isItem x) : ys = [] := by
  obtain ⟨items, last, heq, hitems, hlen, -⟩ := h
  -- `x` is not among the items, so it is the last signal itself
  rcases List.append_eq_append_iff.mp heq with ⟨rest, hrest, hlast⟩ | ⟨rest, rfl, hlast⟩
  · rcases rest with _ | ⟨y, rest⟩
    · rw [List.nil_append] at hlast
      rw [← hlast] at hlen
      exact List.length_eq_zero_iff.mp (by simpa using hlen)
    · obtain rfl := (List.cons.inj hlast).1
      exact absurd (hitems x (hrest ▸ by simp)) hx
  · rw [hlast] at hlen
    exact List.length_eq_zero_iff.mp (by simp at hlen; omega)

theorem wellFormed_map {f : β → α} {l : List β} :
    WellFormed isItem isLast (l.map f) ↔ WellFormed (isItem ∘ f) (isLast ∘ f) l := by
  constructor
  · rintro ⟨items, last, hl, hitems, hlen, hlast⟩
    obtain ⟨items, last, rfl, rfl, rfl⟩ := List.map_eq_append_iff.mp hl
    refine ⟨items, last, rfl, ?_, by simpa using hlen, ?_⟩
    · exact fun x hx => hitems _ (List.mem_map_of_mem hx)
    · exact fun x hx => hlast _ (List.mem_map_of_mem hx)
  · rintro ⟨items, last, rfl, hitems, hlen, hlast⟩
    refine ⟨items.map f, last.map f, List.map_append, ?_, by simpa using hlen, ?_⟩
    · exact List.forall_mem_map.mpr hitems
    · exact List.forall_mem_map.mpr hlast

end Signals
