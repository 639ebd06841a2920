import Mathlib

/-!
# Counting semaphores whose waiters are served first

A semaphore has free permits, acquires that wait for one, and acquires that have been
assigned one and have not been polled since. Permits that are added go to the waiters in
their order, and only what is left over becomes free. An acquire that is dropped gives back
the permit it was assigned. The free permits must not exceed a maximum; adding more panics,
which is `none` here.

What matters for the maximum is not the number of free permits but the free and the assigned
permits together.
-/

/-- A counting semaphore, with the acquires that are pending. -/
structure Semaphore (ι : Type*) where
  permits : ℕ
  /-- waiting for a permit, in order -/
  queued : List ι
  /-- assigned a permit, and not polled since -/
  assigned : List ι
  deriving DecidableEq

namespace Semaphore

variable {ι : Type*} {s t : Semaphore ι} {bound n : ℕ}

/-- A semaphore nobody waits for. -/
def new (permits : ℕ) : Semaphore ι := ⟨permits, [], []⟩

/-- The permits that are free or assigned. -/
def total (s : Semaphore ι) : ℕ := s.permits + s.assigned.length

/-- Add permits. The waiters are served first. -/
def addPermits (bound n : ℕ) (s : Semaphore ι) : Option (Semaphore ι) :=
  if s.permits + (n - s.queued.length) ≤ bound then
    some ⟨s.permits + (n - s.queued.length), s.queued.drop n, s.assigned ++ s.queued.take n⟩
  else none

/-- Poll an acquire for the first time: it takes a permit, or waits. -/
def acquire (i : ι) (s : Semaphore ι) : Semaphore ι :=
  if 0 < s.permits then { s with permits := s.permits - 1 }
  else { s with queued := s.queued ++ [i] }

section Pending

variable [DecidableEq ι]

/-- Poll an acquire that was assigned a permit: it takes it. -/
def collect (i : ι) (s : Semaphore ι) : Option (Semaphore ι) :=
  if i ∈ s.assigned then some { s with assigned := s.assigned.erase i } else none

/-- Drop an acquire, pending or not. -/
def abandon (bound : ℕ) (i : ι) (s : Semaphore ι) : Option (Semaphore ι) :=
  if i ∈ s.assigned then { s with assigned := s.assigned.erase i }.addPermits bound 1
  else some { s with queued := s.queued.erase i }

end Pending

theorem permits_le_total (s : Semaphore ι) : s.permits ≤ s.total := Nat.le_add_right _ _

/-- Added permits are free or assigned. -/
theorem total_of_addPermits (h : s.addPermits bound n = some t) : t.total = s.total + n := by
  unfold addPermits at h
  split_ifs at h
  cases h
  simp only [total, List.length_append, List.length_take]
  omega

theorem exists_addPermits (h : s.total + n ≤ bound) : ∃ t, s.addPermits bound n = some t := by
  have hfits : s.permits + (n - s.queued.length) ≤ bound := by
    have hpermits := s.permits_le_total
    omega
  exact ⟨_, if_pos hfits⟩

theorem total_acquire_le (i : ι) (s : Semaphore ι) : (s.acquire i).total ≤ s.total := by
  unfold acquire
  split_ifs
  · simp only [total]
    omega
  · exact le_rfl

variable [DecidableEq ι] {i : ι}

theorem total_erase_assigned (h : i ∈ s.assigned) :
    total { s with assigned := s.assigned.erase i } + 1 = s.total := by
  have hpos := List.length_pos_of_mem h
  simp only [total, List.length_erase_of_mem h]
  omega

theorem total_of_collect (h : s.collect i = some t) : t.total + 1 = s.total := by
  unfold collect at h
  split_ifs at h with hmem
  cases h
  exact total_erase_assigned hmem

/-- A permit that is given back is not lost. -/
theorem total_of_abandon (h : s.abandon bound i = some t) : t.total = s.total := by
  unfold abandon at h
  split_ifs at h with hmem
  · exact (total_of_addPermits h).trans (total_erase_assigned hmem)
  · cases h
    rfl

theorem exists_abandon (i : ι) (h : s.total ≤ bound) : ∃ t, s.abandon bound i = some t := by
  unfold abandon
  by_cases hmem : i ∈ s.assigned
  · rw [if_pos hmem]
    exact exists_addPermits ((total_erase_assigned hmem).le.trans h)
  · rw [if_neg hmem]
    exact ⟨_, rfl⟩

end Semaphore
