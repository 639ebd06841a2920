import Mathlib

/-!
# The client's pool of byte arrays

`ByteArrayPool` keeps arrays whose length is a power of two, in one bucket for each length. An
array is told apart by its identity, not by its contents. All buckets are one list here, in
which the arrays of each length stand in the order of their queue.

How many bytes the pool retains is not modelled: whether an array that is given back is kept
is decided by the environment.
-/

namespace MoonLightBridge.Client

/-- A byte array. -/
structure Buffer where
  id : ℕ
  length : ℕ
  deriving DecidableEq, Repr

structure ByteArrayPool where
  enabled : Bool
  /-- the arrays in the buckets -/
  arrays : List Buffer
  /-- arrays allocated so far -/
  allocated : ℕ
  deriving DecidableEq, Repr

namespace ByteArrayPool

/-- `MIN_BUCKET_SHIFT` -/
def minBucketShift : ℕ := 8

/-- `MAX_BUCKET_SHIFT` -/
def maxBucketShift : ℕ := 20

/-- `bucket`; the shift is the number of bits of the size less one. -/
def bucket (length : ℕ) : Option ℕ :=
  if length = 0 ∨ 2 ^ maxBucketShift < length then none
  else some (Nat.log2 (max length (2 ^ minBucketShift) - 1) + 1 - minBucketShift)

/-- The length of the arrays in a bucket. -/
def bucketLength (index : ℕ) : ℕ := 2 ^ (index + minBucketShift)

/-- `new byte[length]` -/
def allocate (pool : ByteArrayPool) (length : ℕ) : Buffer × ByteArrayPool :=
  (⟨pool.allocated, length⟩, { pool with allocated := pool.allocated + 1 })

def acquire (pool : ByteArrayPool) (minimumLength : ℕ) : Buffer × ByteArrayPool :=
  match bucket minimumLength with
  | some index =>
    if pool.enabled then
      match pool.arrays.find? (·.length = bucketLength index) with
      | some value => (value, { pool with arrays := pool.arrays.erase value })
      | none => pool.allocate (bucketLength index)
    else pool.allocate minimumLength
  | none => pool.allocate minimumLength

/-- `release`; an array that belongs to no bucket is never kept. -/
def release (pool : ByteArrayPool) (keeps : Bool) (value : Buffer) : ByteArrayPool :=
  if pool.enabled ∧ keeps ∧ (bucket value.length).map bucketLength = some value.length then
    { pool with arrays := pool.arrays ++ [value] }
  else pool

/-- The arrays in the pool, by their identity. -/
def ids (pool : ByteArrayPool) : List ℕ := pool.arrays.map Buffer.id

section Proofs

variable {pool : ByteArrayPool} {minimumLength index : ℕ}

theorem le_bucketLength (h : bucket minimumLength = some index) :
    minimumLength ≤ bucketLength index := by
  unfold bucket at h
  split_ifs at h
  cases h
  set size := max minimumLength (2 ^ minBucketShift) with hsize
  have hmin : 2 ^ minBucketShift ≤ size := le_max_right _ _
  have hle : minimumLength ≤ size := le_max_left _ _
  have hlog : minBucketShift - 1 ≤ Nat.log2 (size - 1) := by
    rw [Nat.le_log2 (by unfold minBucketShift at hmin; omega)]
    unfold minBucketShift at hmin ⊢
    omega
  have hlt : size - 1 < 2 ^ (Nat.log2 (size - 1) + 1) := Nat.lt_log2_self
  have hshift : Nat.log2 (size - 1) + 1 - minBucketShift + minBucketShift =
      Nat.log2 (size - 1) + 1 := by
    unfold minBucketShift at hlog ⊢
    omega
  rw [bucketLength, hshift]
  omega

/-- An array taken from a bucket, or a new one. -/
theorem acquire_cases (pool : ByteArrayPool) (minimumLength : ℕ) :
    (∃ value ∈ pool.arrays, minimumLength ≤ value.length ∧
      pool.acquire minimumLength = (value, { pool with arrays := pool.arrays.erase value })) ∨
    ∃ length, minimumLength ≤ length ∧ pool.acquire minimumLength = pool.allocate length := by
  unfold acquire
  split
  · rename_i index hindex
    split_ifs
    · split
      · rename_i value hfind
        have hlength : value.length = bucketLength index := by
          simpa using List.find?_some hfind
        refine .inl ⟨value, List.mem_of_find?_eq_some hfind, ?_, rfl⟩
        rw [hlength]
        exact le_bucketLength hindex
      · exact .inr ⟨_, le_bucketLength hindex, rfl⟩
    · exact .inr ⟨_, le_rfl, rfl⟩
  · exact .inr ⟨_, le_rfl, rfl⟩

theorem allocated_le_acquire (pool : ByteArrayPool) (minimumLength : ℕ) :
    pool.allocated ≤ (pool.acquire minimumLength).2.allocated := by
  rcases acquire_cases pool minimumLength with ⟨value, -, -, heq⟩ | ⟨length, -, heq⟩
  · rw [heq]
  · rw [heq]
    exact Nat.le_succ _

/-- The acquired array was in the pool, or is new. -/
theorem count_acquire (pool : ByteArrayPool) (minimumLength b : ℕ) :
    let acquired := pool.acquire minimumLength
    acquired.2.ids.count b + [acquired.1.id].count b ≤ pool.ids.count b ∨
      (pool.allocated ≤ b ∧ b < acquired.2.allocated) ∧
        acquired.2.ids.count b + [acquired.1.id].count b ≤ pool.ids.count b + 1 := by
  rcases acquire_cases pool minimumLength with ⟨value, hmem, -, heq⟩ | ⟨length, -, heq⟩
  · rw [heq]
    left
    have hperm := ((List.perm_cons_erase hmem).map Buffer.id).count_eq b
    simp only [List.map_cons, List.count_cons, List.count_nil, ids] at hperm ⊢
    omega
  · rw [heq]
    simp only [allocate, ids, List.count_cons, List.count_nil, beq_iff_eq]
    by_cases hb : pool.allocated = b
    · right
      rw [if_pos hb]
      omega
    · left
      rw [if_neg hb]
      omega

theorem count_release (pool : ByteArrayPool) (keeps : Bool) (value : Buffer) (b : ℕ) :
    (pool.release keeps value).ids.count b ≤ pool.ids.count b + [value.id].count b := by
  unfold release
  split_ifs
  · simp [ids]
  · exact Nat.le_add_right _ _

@[simp] theorem allocated_release (pool : ByteArrayPool) (keeps : Bool) (value : Buffer) :
    (pool.release keeps value).allocated = pool.allocated := by
  unfold release
  split_ifs <;> rfl

end Proofs

end ByteArrayPool

end MoonLightBridge.Client
