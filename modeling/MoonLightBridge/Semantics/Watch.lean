import Mathlib

/-!
# Watch channels

A watch channel holds one value. The values sent to it are counted, and each receiver
remembers the number of the last one it has seen: that is how it knows of a change.
A receiver starts with what it finds when it subscribes, so it reports only what is
sent later. A value that is sent while there is no receiver is dropped.
-/

structure Watch (α : Type*) where
  value : α
  version : ℕ
  receivers : ℕ
  deriving DecidableEq, Repr

namespace Watch

variable {α : Type*}

/-- A channel whose first receiver was dropped. -/
def channel (value : α) : Watch α := ⟨value, 0, 0⟩

/-- The new receiver has seen `version`. -/
def subscribe (w : Watch α) : Watch α := { w with receivers := w.receivers + 1 }

/-- A receiver is dropped. -/
def unsubscribe (w : Watch α) : Watch α := { w with receivers := w.receivers - 1 }

/-- `send`, which fails and drops the value if there is nobody to receive it. -/
def send (w : Watch α) (value : α) : Watch α :=
  if w.receivers = 0 then w else { w with value, version := w.version + 1 }

/-- A receiver that has seen the value number `seen` has a change pending. -/
def HasChanged (w : Watch α) (seen : ℕ) : Prop := seen ≠ w.version

instance decidableHasChanged (w : Watch α) (seen : ℕ) : Decidable (w.HasChanged seen) :=
  inferInstanceAs (Decidable (seen ≠ w.version))

variable {w : Watch α} {seen : ℕ}

@[simp] theorem receivers_send (w : Watch α) (value : α) :
    (w.send value).receivers = w.receivers := by
  unfold send
  split_ifs <;> rfl

theorem send_of_pos (h : 0 < w.receivers) (value : α) :
    w.send value = { w with value, version := w.version + 1 } :=
  if_neg h.ne'

theorem version_le_send (w : Watch α) (value : α) : w.version ≤ (w.send value).version := by
  unfold send
  split_ifs
  · exact le_rfl
  · exact Nat.le_succ _

/-- A receiver is told of every value that is sent. -/
theorem hasChanged_send (h : 0 < w.receivers) (hseen : seen ≤ w.version) (value : α) :
    (w.send value).HasChanged seen := by
  rw [send_of_pos h]
  exact (Nat.lt_succ_of_le hseen).ne

theorem value_send (h : 0 < w.receivers) (value : α) : (w.send value).value = value := by
  rw [send_of_pos h]

/-- A channel that does not hold the value that was sent dropped it. -/
theorem value_of_value_send {value value' : α} (hne : value ≠ value')
    (h : (w.send value).value = value') : w.value = value' := by
  rcases Nat.eq_zero_or_pos w.receivers with hzero | hpos
  · rwa [send, if_pos hzero] at h
  · exact absurd ((value_send hpos value).symm.trans h) hne

end Watch
