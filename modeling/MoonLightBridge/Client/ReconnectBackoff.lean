import MoonLightBridge.Client.Supervisor

/-!
# The delay before a reconnect

`scheduleReconnect` doubles the delay with each failed attempt, up to the twentieth and up to
the maximum of the policy. It computes with milliseconds in a `long`: a delay below one
millisecond is none at all, and doubling it does not help. A product that is too large is
recognised by its sign, which tells only as long as it does not pass zero again. The attempts
are counted in an `int`, whose low six bits are the shift once it has become negative.
-/

namespace MoonLightBridge.Client.ReconnectPolicy

variable {policy : ReconnectPolicy} {attempt : ℕ}

/-- The product is used if it is a `long`, and else its sign shows that it is not. -/
theorem bounded_eq (hfits : policy.Fits) (hsmall : policy.initialDelay / 1000000 < 2 ^ 44)
    (hattempt : attempt < 2 ^ 31) :
    policy.bounded attempt = some ↑(min (policy.maxDelay / 1000000)
      (policy.initialDelay / 1000000 * 2 ^ min attempt 20)) := by
  have hle := Nat.div_le_div_right (c := 1000000) policy.initialDelay_le_maxDelay
  have hbase : toMillis policy.initialDelay = some _ := if_pos (hle.trans hfits)
  have hcap : toMillis policy.maxDelay = some _ := if_pos hfits
  have hint : (attempt : ℤ).bmod (2 ^ 32) = attempt :=
    Int.bmod_eq_of_le (by omega) (by omega)
  have hshift : (min (attempt : ℤ) 20 % 64).toNat = min attempt 20 := by omega
  have hpow : 2 ^ min attempt 20 ≤ 2 ^ 20 := Nat.pow_le_pow_right (by decide) (min_le_right _ _)
  have hlt : policy.initialDelay / 1000000 * 2 ^ min attempt 20 < 2 ^ 64 :=
    (Nat.mul_le_mul (Nat.le_of_lt_succ hsmall) hpow).trans_lt (by norm_num)
  have hmax : policy.maxDelay / 1000000 < 2 ^ 63 := Nat.lt_of_le_sub_one (by decide) hfits
  have hcast : ((policy.initialDelay / 1000000 : ℕ) : ℤ) * 2 ^ min attempt 20 =
      (policy.initialDelay / 1000000 * 2 ^ min attempt 20 : ℕ) := by push_cast; rfl
  simp only [bounded, hbase, hcap, hint, hshift, hcast, Option.bind_eq_bind, Option.bind_some]
  generalize policy.initialDelay / 1000000 * 2 ^ min attempt 20 = product at hlt
  by_cases hlong : product < 2 ^ 63
  · have hsame : (product : ℤ).bmod (2 ^ 64) = product :=
      Int.bmod_eq_of_le (by omega) (by omega)
    rw [hsame, if_neg (Int.natCast_nonneg product).not_gt, Nat.cast_min]
    rfl
  · have hwrapped : (product : ℤ).bmod (2 ^ 64) = product - 2 ^ 64 := by
      rw [← Int.sub_bmod_right]
      exact Int.bmod_eq_of_le (by omega) (by omega)
    rw [hwrapped, if_pos (Int.sub_neg_of_lt (by exact_mod_cast hlt)), min_self,
      min_eq_left (hmax.le.trans (not_lt.mp hlong))]
    rfl

/-- From half a millisecond to a second. -/
def fast : ReconnectPolicy := ⟨500000, 1000000000, by decide, by decide, by decide⟩

/-- From somewhat more than 557 years to twice as long. -/
def slow : ReconnectPolicy :=
  ⟨(2 ^ 44 + 1) * 1000000, 2 ^ 45 * 1000000, by decide, by decide, by decide⟩

end MoonLightBridge.Client.ReconnectPolicy
