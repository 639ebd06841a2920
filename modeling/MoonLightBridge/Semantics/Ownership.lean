import MoonLightBridge.Semantics.Threads

/-!
# What threads own

Threads hold things, such as memory or places in a sequence, that are told apart by a number.
A thing is held in the shared state or by a pending instruction. If every instruction passes
on only what it takes or what it has issued itself, nothing is ever held twice.

## Main definitions

* `Threads.Holding` — where things are held, and how many have been issued
* `Threads.Holding.Exclusive` — nothing is held twice
* `Threads.Holding.Passes` — an instruction passes on what it takes

## Main results

* `Threads.Holding.Exclusive.advance` — a step keeps things exclusive
* `Threads.Holding.Exclusive.not_mem_of_instruction` — what an instruction holds, nobody else
  does
-/

namespace Threads

/-- Where things are held. Those below `issued` have been issued. -/
structure Holding (σ ι : Type*) where
  shared : σ → List ℕ
  instruction : ι → List ℕ
  issued : σ → ℕ

namespace Holding

variable {σ ι κ : Type*} (holding : Holding σ ι)

/-- How often a thing is held. -/
def count (s : System σ ι) (b : ℕ) : ℕ :=
  (holding.shared s.shared).count b + (s.threads.flatten.flatMap holding.instruction).count b

/-- The things at all places. -/
def places (s : System σ ι) : List ℕ :=
  holding.shared s.shared ++ s.threads.flatten.flatMap holding.instruction

/-- Nothing is held twice, nor before it is issued. -/
def Exclusive (s : System σ ι) : Prop :=
  ∀ b, holding.count s b ≤ 1 ∧ (0 < holding.count s b → b < holding.issued s.shared)

/-- How often a thing is held after an instruction, the other instructions apart. -/
def countAfter (effect : Effect σ ι) (b : ℕ) : ℕ :=
  (holding.shared effect.shared).count b + (effect.next.flatMap holding.instruction).count b +
    (effect.started.flatten.flatMap holding.instruction).count b

/-- The instruction passes on what it takes, or has issued. -/
structure Passes (s : σ) (instruction : ι) (effect : Effect σ ι) : Prop where
  issued_le : holding.issued s ≤ holding.issued effect.shared
  count_le : ∀ b,
    holding.countAfter effect b ≤
        (holding.shared s).count b + (holding.instruction instruction).count b ∨
      (holding.issued s ≤ b ∧ b < holding.issued effect.shared) ∧ holding.countAfter effect b ≤
        (holding.shared s).count b + (holding.instruction instruction).count b + 1

namespace Exclusive

variable {holding} {s : System σ ι} {thread b : ℕ} {instruction : ι} {rest : List ι}
  {effect : Effect σ ι}

/-- What one instruction holds, and what the others do. -/
theorem count_eq (hthread : s.threads[thread]? = some (instruction :: rest)) (b : ℕ) :
    holding.count s b = (holding.shared s.shared).count b +
      (holding.instruction instruction).count b +
      ((s.others thread rest).flatMap holding.instruction).count b := by
  have hperm := ((perm_others hthread).flatMap_right holding.instruction).count_eq b
  rw [List.flatMap_cons, List.count_append] at hperm
  unfold Holding.count
  omega

variable (h : holding.Exclusive s)

include h

theorem advance (hthread : s.threads[thread]? = some (instruction :: rest))
    (hpasses : holding.Passes s.shared instruction effect) :
    holding.Exclusive (s.advance thread rest effect) := by
  intro b
  have hbefore := h b
  rw [count_eq hthread] at hbefore
  have hperm := perm_advance s thread (lt_length_of_getElem? hthread) rest effect
  have hafter := (hperm.flatMap_right holding.instruction).count_eq b
  simp only [List.flatMap_append, List.count_append] at hafter
  have hcount := hpasses.count_le b
  have hissued := hpasses.issued_le
  unfold Holding.countAfter at hcount
  simp only [Holding.count, hafter]
  change (holding.shared effect.shared).count b + _ ≤ 1 ∧
    (0 < (holding.shared effect.shared).count b + _ → b < holding.issued effect.shared)
  omega

theorem start {program : List ι} (hprogram : ∀ i ∈ program, holding.instruction i = []) :
    holding.Exclusive { s with threads := s.threads ++ [program] } := by
  intro b
  have hnone : program.flatMap holding.instruction = [] := List.flatMap_eq_nil_iff.mpr hprogram
  have hb := h b
  simpa [Holding.count, List.flatMap_append, hnone] using hb

/-- What an instruction holds is not held in the shared state, nor by another. -/
theorem not_mem_of_instruction (hthread : s.threads[thread]? = some (instruction :: rest))
    (hb : b ∈ holding.instruction instruction) :
    b ∉ holding.shared s.shared ∧ ∀ i ∈ s.others thread rest, b ∉ holding.instruction i := by
  have hcount := (h b).1
  rw [count_eq hthread] at hcount
  have hpos := List.count_pos_iff.mpr hb
  constructor
  · rw [← List.count_eq_zero]
    omega
  · intro i hi hmem
    have hother : 0 < ((s.others thread rest).flatMap holding.instruction).count b :=
      List.count_pos_iff.mpr (List.mem_flatMap.mpr ⟨i, hi, hmem⟩)
    omega

/-- What is held in the shared state, no instruction holds. -/
theorem not_mem_of_shared (hb : b ∈ holding.shared s.shared) :
    ∀ i ∈ s.threads.flatten, b ∉ holding.instruction i := by
  intro i hi hmem
  have hcount := (h b).1
  have hpos := List.count_pos_iff.mpr hb
  have hinstruction : 0 < (s.threads.flatten.flatMap holding.instruction).count b :=
    List.count_pos_iff.mpr (List.mem_flatMap.mpr ⟨i, hi, hmem⟩)
  unfold Holding.count at hcount
  omega

theorem nodup_places : (holding.places s).Nodup := by
  rw [List.nodup_iff_count_le_one]
  intro b
  rw [places, List.count_append]
  exact (h b).1

theorem nodup : (holding.shared s.shared).Nodup :=
  h.nodup_places.of_append_left

end Exclusive

end Holding

end Threads
