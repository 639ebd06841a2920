import MoonLightBridge.Semantics.Semaphore
import MoonLightBridge.Server.StreamTask

/-!
# The credits of a stream

The credits of a streaming request are the permits of a semaphore. The STREAM_CREDIT handler
reads how many are free and adds no more than there is room for. The task of the stream
acquires a permit for each item, and may be dropped while it waits, even after a permit has
been assigned to it. That permit is not among the free ones the handler reads, so a grant
that fills the semaphore leaves no room for it to come back.
-/

namespace MoonLightBridge.Server

open Transition

/-- The credit semaphore of a streaming request, and who uses it. -/
structure CreditState where
  semaphore : Semaphore Unit
  /-- what the STREAM_CREDIT handler, having read the free permits, is going to add -/
  adding : Option ℕ
  /-- the request is in the table of active requests -/
  isActive : Bool
  /-- the task has not been dropped -/
  isRunning : Bool
  hasPanicked : Bool
  deriving DecidableEq

inductive CreditLabel where
  /-- the handler of STREAM_CREDIT reads the free permits -/
  | streamCredit (count : UInt64)
  /-- and adds what there was room for -/
  | addPermits
  /-- the task has an item and acquires a permit -/
  | acquire
  /-- the task is polled and finds that a permit was assigned to it, which it forgets -/
  | poll
  /-- the request leaves the table: CANCEL, or the task itself at its end -/
  | cancel
  /-- the task, or its acquire, is dropped: it was aborted, or its deadline has passed -/
  | drop

namespace Credits

/-- A new request has no credits. -/
def init : CreditState := ⟨.new 0, none, true, true, false⟩

/-- The semaphore after an operation on it, which may have panicked. -/
def attempt (s : CreditState) : Option (Semaphore Unit) → CreditState
  | some semaphore => { s with semaphore }
  | none => { s with hasPanicked := true }

/-- `None` for a step that is not possible. Nothing happens after a panic. -/
def step (s : CreditState) (label : CreditLabel) : Option CreditState :=
  if s.hasPanicked then none
  else
    match label with
    | .streamCredit count =>
      -- one frame is handled at a time
      if s.isActive ∧ s.adding = none ∧ count ≠ 0 then
        some { s with adding := some (min count.toNat (maxPermits - s.semaphore.permits)) }
      else none
    | .addPermits =>
      match s.adding with
      | some n => some (attempt { s with adding := none } (s.semaphore.addPermits maxPermits n))
      | none => none
    | .acquire =>
      if s.isRunning ∧ s.semaphore.queued = [] ∧ s.semaphore.assigned = [] then
        some { s with semaphore := s.semaphore.acquire () }
      else none
    | .poll =>
      if s.isRunning then (s.semaphore.collect ()).map fun semaphore => { s with semaphore }
      else none
    | .cancel => if s.isActive ∧ s.adding = none then some { s with isActive := false } else none
    | .drop =>
      if s.isRunning then
        some (attempt { s with isRunning := false } (s.semaphore.abandon maxPermits ()))
      else none

/-- What each step does. -/
inductive Steps (s : CreditState) : CreditLabel → CreditState → Prop where
  | streamCredit {count : UInt64} : s.adding = none → Steps s (.streamCredit count)
      { s with adding := some (min count.toNat (maxPermits - s.semaphore.permits)) }
  | addPermits {n : ℕ} : s.adding = some n → Steps s .addPermits
      (attempt { s with adding := none } (s.semaphore.addPermits maxPermits n))
  | acquire : Steps s .acquire { s with semaphore := s.semaphore.acquire () }
  | poll {semaphore : Semaphore Unit} : s.semaphore.collect () = some semaphore →
      Steps s .poll { s with semaphore }
  | cancel : Steps s .cancel { s with isActive := false }
  | drop : Steps s .drop
      (attempt { s with isRunning := false } (s.semaphore.abandon maxPermits ()))

/-- A grant finds no permit assigned, or leaves room for it. -/
def Unsaturated (s : CreditState) : CreditLabel → Prop
  | .streamCredit count =>
    s.semaphore.assigned = [] ∨ s.semaphore.total + count.toNat ≤ maxPermits
  | _ => True

/-- The credits that a step grants. -/
def granted : CreditLabel → ℕ
  | .streamCredit count => count.toNat
  | _ => 0

/-- The permits that a step gives to an item. -/
def taken (s : CreditState) : CreditLabel → ℕ
  | .acquire => if 0 < s.semaphore.permits then 1 else 0
  | .poll => 1
  | _ => 0

/-- All permits: free, assigned, or about to be added. -/
def outstanding (s : CreditState) : ℕ := s.semaphore.total + s.adding.getD 0

/-- All permits fit into the semaphore. -/
structure Fits (s : CreditState) : Prop where
  noPanic : s.hasPanicked = false
  outstanding : outstanding s ≤ maxPermits

section Steps

variable {s t : CreditState} {label : CreditLabel}

theorem steps_of_step (h : step s label = some t) : s.hasPanicked = false ∧ Steps s label t := by
  unfold step at h
  by_cases hpanic : s.hasPanicked = true
  · rw [if_pos hpanic] at h
    cases h
  rw [if_neg hpanic] at h
  refine ⟨Bool.eq_false_iff.mpr hpanic, ?_⟩
  cases label with
  | streamCredit count =>
    simp only at h
    split_ifs at h with henabled
    cases h
    exact .streamCredit henabled.2.1
  | addPermits =>
    simp only at h
    split at h
    · rename_i n hadding
      cases h
      exact .addPermits hadding
    · cases h
  | acquire =>
    simp only at h
    split_ifs at h
    cases h
    exact .acquire
  | poll =>
    simp only at h
    split_ifs at h
    obtain ⟨semaphore, hsemaphore, rfl⟩ := Option.map_eq_some_iff.mp h
    exact .poll hsemaphore
  | cancel =>
    simp only at h
    split_ifs at h
    cases h
    exact .cancel
  | drop =>
    simp only at h
    split_ifs at h
    cases h
    exact .drop

/-- A step makes no more permits than it grants. -/
theorem outstanding_step_le (h : Steps s label t) :
    outstanding t ≤ outstanding s + granted label := by
  cases h with
  | streamCredit hadding =>
    simp only [outstanding, granted, hadding, Option.getD_some, Option.getD_none]
    omega
  | addPermits hadding =>
    rename_i n
    cases hadd : s.semaphore.addPermits maxPermits n with
    | some semaphore =>
      have htotal := Semaphore.total_of_addPermits hadd
      simp only [attempt, outstanding, hadding, Option.getD_some, Option.getD_none]
      omega
    | none =>
      simp only [attempt, outstanding, Option.getD_none]
      omega
  | acquire =>
    have htotal := Semaphore.total_acquire_le () s.semaphore
    simp only [outstanding]
    omega
  | poll hcollect =>
    have htotal := Semaphore.total_of_collect hcollect
    simp only [outstanding]
    omega
  | cancel => exact Nat.le_add_right _ _
  | drop =>
    cases habandon : s.semaphore.abandon maxPermits () with
    | some semaphore =>
      have htotal := Semaphore.total_of_abandon habandon
      simp only [attempt, outstanding]
      omega
    | none => exact Nat.le_add_right _ _

theorem taken_add_outstanding_le (h : Steps s label t) :
    taken s label + outstanding t ≤ outstanding s + granted label := by
  have hle := outstanding_step_le h
  cases h with
  | acquire =>
    simp only [taken, outstanding, Semaphore.acquire, Semaphore.total]
    split_ifs <;> dsimp only <;> omega
  | poll hcollect =>
    have htotal := Semaphore.total_of_collect hcollect
    simp only [taken, outstanding, granted]
    omega
  | streamCredit | addPermits | cancel | drop => exact (Nat.zero_add _).trans_le hle

/-- Permits that fit can be added and given back. -/
theorem noPanic_step (hs : Fits s) (h : Steps s label t) : t.hasPanicked = false := by
  have hfits : s.semaphore.total + s.adding.getD 0 ≤ maxPermits := hs.outstanding
  cases h with
  | addPermits hadding =>
    rw [hadding, Option.getD_some] at hfits
    obtain ⟨semaphore, hsemaphore⟩ := Semaphore.exists_addPermits hfits
    rw [hsemaphore]
    exact hs.noPanic
  | drop =>
    obtain ⟨semaphore, hsemaphore⟩ :=
      Semaphore.exists_abandon () ((Nat.le_add_right _ _).trans hfits)
    rw [hsemaphore]
    exact hs.noPanic
  | streamCredit | acquire | poll | cancel => exact hs.noPanic

/-- A grant that leaves room for what is assigned adds as many credits as a semaphore has
room for that nobody waits for. -/
theorem total_add_of_unsaturated {count : UInt64} (hguard : Unsaturated s (.streamCredit count)) :
    s.semaphore.total + min count.toNat (maxPermits - s.semaphore.permits) =
      addCredits s.semaphore.total count.toNat := by
  unfold addCredits
  rcases hguard with hnone | hroom
  · -- with no permit assigned, the free permits are all there are
    have hpermits : s.semaphore.total = s.semaphore.permits := by
      rw [Semaphore.total, hnone]
      rfl
    rw [hpermits]
  · have hpermits := s.semaphore.permits_le_total
    omega

theorem fits_step (hguard : Unsaturated s label) (hs : Fits s)
    (hstep : step s label = some t) : Fits t := by
  obtain ⟨-, h⟩ := steps_of_step hstep
  refine ⟨noPanic_step hs h, ?_⟩
  have hfits := hs.outstanding
  cases h with
  | streamCredit hadding =>
    simp only [outstanding, hadding, Option.getD_none, Option.getD_some] at hfits ⊢
    rw [total_add_of_unsaturated hguard]
    unfold addCredits
    omega
  -- no other step grants anything
  | addPermits hadding => exact (outstanding_step_le (.addPermits hadding)).trans hfits
  | acquire => exact (outstanding_step_le .acquire).trans hfits
  | poll hcollect => exact (outstanding_step_le (.poll hcollect)).trans hfits
  | cancel => exact hfits
  | drop => exact (outstanding_step_le .drop).trans hfits

/-- A client that grants no more than fits in all never fills the semaphore. -/
theorem meetsGuard_of_sum_le {w : List CreditLabel}
    (h : outstanding s + (w.map granted).sum ≤ maxPermits) : MeetsGuard step Unsaturated s w := by
  induction w generalizing s with
  | nil => trivial
  | cons label w ih =>
    rw [List.map_cons, List.sum_cons] at h
    refine ⟨?_, fun t hstep => ih ?_⟩
    · cases label with
      | streamCredit count =>
        simp only [outstanding, granted] at h
        exact .inr (by omega)
      | addPermits | acquire | poll | cancel | drop => trivial
    · have hle := outstanding_step_le (steps_of_step hstep).2
      omega

/-- The coarser model counts the free and the assigned permits as credits, and a grant does
to them what it says. -/
theorem total_of_grant {count : UInt64} (hguard : Unsaturated s (.streamCredit count))
    (hs : s.semaphore.total ≤ maxPermits)
    (hrun : run step s [.streamCredit count, .addPermits] = some t) :
    t.semaphore.total = addCredits s.semaphore.total count.toNat := by
  obtain ⟨u, hcredit, hrun⟩ := run_cons_eq_some.mp hrun
  obtain ⟨v, hadd, hnil⟩ := run_cons_eq_some.mp hrun
  cases hnil
  rw [← total_add_of_unsaturated hguard]
  cases (steps_of_step hcredit).2 with
  | streamCredit hadding =>
    cases (steps_of_step hadd).2 with
    | addPermits hn =>
      cases hn
      have hroom : s.semaphore.total + min count.toNat (maxPermits - s.semaphore.permits) ≤
          maxPermits := by
        rw [total_add_of_unsaturated hguard]
        unfold addCredits
        omega
      obtain ⟨semaphore, hsemaphore⟩ := Semaphore.exists_addPermits hroom
      simp only [hsemaphore]
      exact Semaphore.total_of_addPermits hsemaphore

/-- No item is sent on credit that the client has not granted. Whenever the task is dropped,
what was taken, what is left and what is about to be added do not exceed what there was and
what was granted since. -/
theorem taken_le_granted (w : List CreditLabel) (hrun : run step s w = some t) :
    total step taken s w + outstanding t ≤ outstanding s + (w.map granted).sum := by
  induction w generalizing s with
  | nil =>
    cases hrun
    exact (Nat.zero_add _).le
  | cons label w ih =>
    obtain ⟨u, hu, hrest⟩ := run_cons_eq_some.mp hrun
    have hstep := taken_add_outstanding_le (steps_of_step hu).2
    have hlater := ih hrest
    simp only [total, hu, Option.elim_some, List.map_cons, List.sum_cons]
    omega

theorem taken_le_granted_dropped :
    ∃ w t, run step init w = some t ∧ (w.map granted).sum = 2 ∧
      total step taken init w + outstanding t ≤ outstanding init + (w.map granted).sum := by
  have hrun : run step init [.acquire, .streamCredit 2, .addPermits, .poll, .drop] =
      some ⟨.new 1, none, true, false, false⟩ := by decide +kernel
  exact ⟨_, _, hrun, rfl, taken_le_granted _ hrun⟩

end Steps

theorem fits_init : Fits init := ⟨rfl, Nat.zero_le _⟩

/-- The permits of a stream's semaphore never exceed what it can hold, and nothing panics,
whatever the client grants and whenever the task is dropped, as long as no grant fills the
semaphore while a permit is assigned to an acquire that has not been polled. -/
theorem never_overflows (w : List CreditLabel) (t : CreditState)
    (hrun : run step init w = some t) (hmeets : MeetsGuard step Unsaturated init w) :
    t.hasPanicked = false ∧ t.semaphore.permits ≤ maxPermits := by
  have hfits : Fits t := hmeets.invariant fits_step hrun fits_init
  refine ⟨hfits.noPanic, ?_⟩
  calc t.semaphore.permits ≤ t.semaphore.total := t.semaphore.permits_le_total
    _ ≤ outstanding t := Nat.le_add_right _ _
    _ ≤ maxPermits := hfits.outstanding

/-- A task that is dropped after its acquire was assigned a permit. -/
theorem never_overflows_cancelled :
    ∃ t, run step init [.acquire, .streamCredit 32, .addPermits, .cancel, .drop] = some t ∧
      t.semaphore.permits = 32 ∧ t.hasPanicked = false ∧ t.semaphore.permits ≤ maxPermits := by
  have hrun : run step init [.acquire, .streamCredit 32, .addPermits, .cancel, .drop] =
      some ⟨.new 32, none, false, false, false⟩ := by decide +kernel
  exact ⟨_, hrun, rfl, never_overflows _ _ hrun (meetsGuard_of_sum_le (by decide))⟩

/-- The first grant fills the semaphore but for the permit of the acquire that waits. The
second adds one more, since one is not free. There is no room for it to come back. -/
theorem cancelled_acquire_overflows :
    ∃ t, run step init [.acquire, .streamCredit (2 ^ 61 - 1), .addPermits, .streamCredit 1,
        .addPermits, .cancel, .drop] = some t ∧
      t.semaphore.permits = maxPermits ∧ t.semaphore.assigned = [()] ∧ t.hasPanicked = true :=
  ⟨⟨⟨maxPermits, [], [()]⟩, none, false, false, true⟩, by decide +kernel, rfl, rfl, rfl⟩

end Credits

end MoonLightBridge.Server
