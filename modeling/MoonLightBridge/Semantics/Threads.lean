import MoonLightBridge.Semantics.Transition

/-!
# Threads that share a state

A thread is the list of instructions it has still to execute, and one instruction changes
the state that all threads share, puts further instructions before the rest of its own
thread, and may start other threads. The threads of a system take their steps in any
order.

A thread that is in the middle of something shows it by the instructions that are left to
it, so invariants speak of how many instructions of a kind are pending.

## Main definitions

* `Threads.System`, `Threads.step` — one thread executes its next instruction
* `Threads.System.pending` — how many instructions of a kind are left
* `Threads.Effect.Covers` — an instruction that makes a condition true brings along one that
  takes care of it

## Main results

* `Threads.pending_advance` — how a step changes the number of pending instructions
* `Threads.pending_pos_advance` — as long as all instructions do, one that takes care of the
  condition is pending
-/

namespace Threads

variable {σ ι χ κ : Type*}

/-- The shared state, and what each thread has still to execute. -/
structure System (σ ι : Type*) where
  shared : σ
  threads : List (List ι)
  deriving DecidableEq

/-- What executing an instruction does. -/
structure Effect (σ ι : Type*) where
  shared : σ
  /-- instructions that come before the rest of the thread -/
  next : List ι := []
  /-- threads that are started -/
  started : List (List ι) := []

inductive Label (κ χ : Type*) where
  /-- a new thread makes a call -/
  | start (call : κ)
  /-- a thread executes its next instruction; the choice is made by its environment -/
  | step (thread : ℕ) (choice : χ)

/-- The system after a thread with the given rest has executed an instruction. -/
def System.advance (s : System σ ι) (thread : ℕ) (rest : List ι) (effect : Effect σ ι) :
    System σ ι where
  shared := effect.shared
  threads := s.threads.set thread (effect.next ++ rest) ++ effect.started

/-- `none` if the thread has nothing left, or if its next instruction blocks. -/
def step (program : κ → List ι) (exec : ℕ → χ → σ → ι → Option (Effect σ ι))
    (s : System σ ι) : Label κ χ → Option (System σ ι)
  | .start call => some { s with threads := s.threads ++ [program call] }
  | .step thread choice =>
    match s.threads[thread]? with
    | some (instruction :: rest) =>
      (exec thread choice s.shared instruction).map (s.advance thread rest)
    | _ => none

/-- How many pending instructions satisfy `p`. -/
def System.pending (s : System σ ι) (p : ι → Bool) : ℕ := s.threads.flatten.countP p

/-- If the condition `P` holds after an instruction, then the instruction brings along one of
the kind `p`, unless `P` has held before and the instruction is not of this kind itself. -/
def Effect.Covers (effect : Effect σ ι) (P : σ → Prop) (p : ι → Bool) (s : σ) (instruction : ι) :
    Prop :=
  P effect.shared → effect.next.any p = true ∨ P s ∧ p instruction = false

section Steps

variable {program : κ → List ι} {exec : ℕ → χ → σ → ι → Option (Effect σ ι)}
  {s t : System σ ι} {thread : ℕ} {choice : χ} {instruction : ι} {rest : List ι}
  {effect : Effect σ ι} {p : ι → Bool}

theorem step_eq_some (h : step program exec s (.step thread choice) = some t) :
    ∃ instruction rest effect, s.threads[thread]? = some (instruction :: rest) ∧
      exec thread choice s.shared instruction = some effect ∧
      s.advance thread rest effect = t := by
  simp only [step] at h
  split at h
  · rename_i instruction rest hthread
    obtain ⟨effect, heffect, rfl⟩ := Option.map_eq_some_iff.mp h
    exact ⟨instruction, rest, effect, hthread, heffect, rfl⟩
  · cases h

/-- What remains pending besides the next instruction of a thread. -/
def System.others (s : System σ ι) (thread : ℕ) (rest : List ι) : List ι :=
  (s.threads.set thread rest).flatten

section

variable (hthread : s.threads[thread]? = some (instruction :: rest))

include hthread

theorem perm_others : s.threads.flatten.Perm (instruction :: s.others thread rest) := by
  unfold System.others
  generalize s.threads = threads at hthread ⊢
  induction threads generalizing thread with
  | nil => cases hthread
  | cons head threads ih =>
    cases thread with
    | zero =>
      cases hthread
      exact .refl _
    | succ thread =>
      rw [List.set_cons_succ, List.flatten_cons, List.flatten_cons]
      exact ((ih hthread).append_left head).trans List.perm_middle

theorem mem_flatten : instruction ∈ s.threads.flatten :=
  (perm_others hthread).mem_iff.mpr List.mem_cons_self

theorem mem_flatten_of_mem_others {i : ι} (hi : i ∈ s.others thread rest) : i ∈ s.threads.flatten :=
  (perm_others hthread).mem_iff.mpr (List.mem_cons_of_mem _ hi)

end

/-- After the instruction the others are pending, and those it has brought along. -/
theorem perm_advance (s : System σ ι) (thread : ℕ) (hthread : thread < s.threads.length)
    (rest : List ι) (effect : Effect σ ι) :
    (s.advance thread rest effect).threads.flatten.Perm
      (effect.next ++ (s.others thread rest ++ effect.started.flatten)) := by
  unfold System.others System.advance
  simp only [List.flatten_append]
  rw [← List.append_assoc]
  apply List.Perm.append_right
  generalize s.threads = threads at hthread ⊢
  induction threads generalizing thread with
  | nil => cases hthread
  | cons head threads ih =>
    cases thread with
    | zero =>
      simp only [List.set_cons_zero, List.flatten_cons, List.append_assoc]
      exact .refl _
    | succ thread =>
      simp only [List.set_cons_succ, List.flatten_cons]
      apply ((ih thread (Nat.lt_of_succ_lt_succ hthread)).append_left head).trans
      rw [← List.append_assoc, ← List.append_assoc]
      exact List.perm_append_comm.append_right _

theorem pending_start (s : System σ ι) (call : κ) (p : ι → Bool) :
    System.pending { s with threads := s.threads ++ [program call] } p =
      s.pending p + (program call).countP p := by
  simp [System.pending]

section

variable (hthread : s.threads[thread]? = some (instruction :: rest))

include hthread

theorem lt_length_of_getElem? : thread < s.threads.length := by
  obtain ⟨hlt, -⟩ := List.getElem?_eq_some_iff.mp hthread
  exact hlt

/-- The instruction is no longer pending, and those it brings along are. -/
theorem pending_advance (effect : Effect σ ι) (p : ι → Bool) :
    (s.advance thread rest effect).pending p + (if p instruction then 1 else 0) =
      s.pending p + effect.next.countP p + effect.started.flatten.countP p := by
  have hbefore := (perm_others hthread).countP_eq p
  have hafter := (perm_advance s thread (lt_length_of_getElem? hthread) rest effect).countP_eq p
  simp only [List.countP_append, List.countP_cons] at hbefore hafter
  simp only [System.pending]
  omega

/-- What holds of all pending instructions, if the step keeps it for the others. -/
theorem forall_advance {Q : σ → ι → Prop} (hs : ∀ i ∈ s.threads.flatten, Q s.shared i)
    (hothers : ∀ i ∈ s.others thread rest, Q s.shared i → Q effect.shared i)
    (hnext : ∀ i ∈ effect.next, Q effect.shared i) (hstarted : effect.started = []) :
    ∀ i ∈ (s.advance thread rest effect).threads.flatten, Q effect.shared i := by
  intro i hi
  have hperm := perm_advance s thread (lt_length_of_getElem? hthread) rest effect
  rw [hperm.mem_iff, hstarted, List.flatten_nil, List.append_nil, List.mem_append] at hi
  rcases hi with hi | hi
  · exact hnext i hi
  · exact hothers i hi (hs i (mem_flatten_of_mem_others hthread hi))

end

/-- A pending instruction is one that some thread has still to execute. -/
theorem exists_of_pending_pos (h : 0 < s.pending p) :
    ∃ stack ∈ s.threads, ∃ instruction ∈ stack, p instruction = true := by
  obtain ⟨instruction, hmem, hp⟩ := List.countP_pos_iff.mp h
  obtain ⟨stack, hstack, hinstruction⟩ := List.mem_flatten.mp hmem
  exact ⟨stack, hstack, instruction, hinstruction, hp⟩

theorem pending_pos (hthread : s.threads[thread]? = some (instruction :: rest))
    (hp : p instruction = true) : 0 < s.pending p :=
  List.countP_pos_iff.mpr ⟨instruction, mem_flatten hthread, hp⟩

variable {P : σ → Prop}

theorem Effect.Covers.of_imp {s : σ} (h : P effect.shared → P s) (hp : p instruction = false) :
    effect.Covers P p s instruction :=
  fun hP => .inr ⟨h hP, hp⟩

theorem Effect.Covers.of_next {s : σ} (h : effect.next.any p = true) :
    effect.Covers P p s instruction :=
  fun _ => .inl h

theorem Effect.Covers.of_not {s : σ} (h : ¬ P effect.shared) : effect.Covers P p s instruction :=
  fun hP => absurd hP h

/-- Whenever the condition holds, an instruction of its kind is pending. -/
theorem pending_pos_advance (hthread : s.threads[thread]? = some (instruction :: rest))
    (hcovers : effect.Covers P p s.shared instruction) (hs : P s.shared → 0 < s.pending p)
    (ht : P effect.shared) : 0 < (s.advance thread rest effect).pending p := by
  have hpending := pending_advance hthread effect p
  rcases hcovers ht with hnext | ⟨hP, hp⟩
  · have hnext : 0 < effect.next.countP p := List.countP_pos_iff.mpr (List.any_eq_true.mp hnext)
    split_ifs at hpending with hp
    · -- the instruction itself was pending before
      have hbefore := pending_pos hthread hp
      omega
    · omega
  · have hbefore := hs hP
    rw [hp] at hpending
    simp only [Bool.false_eq_true, if_false] at hpending
    omega

end Steps

end Threads
