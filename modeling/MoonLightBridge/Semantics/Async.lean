import Mathlib

/-!
# Tasks on a virtual clock

An asynchronous computation waits, and while it waits it can be dropped: by a timeout
around it, or because the whole task is aborted. This file describes such a computation
by what becomes of it when it is started at some instant and is to be dropped at another
one. Nothing but waiting takes time. A computation that does not wait any more is not
dropped, so a value that is ready in time is returned, and one that is ready at once is
returned even after the limit has passed.

A guard is an action that takes place when the computation is dropped or panics.

## Main definitions

* `Async.Run` — what becomes of a computation
* `Async.Task` — a computation, which never goes back in time and never outlasts its limit
* `Task.wait`, `Task.panics`, `Task.catchUnwind`, `Task.timeoutAt`, `Task.guarded`
* `Task.Keeps`, `Task.Stays`, `Task.Returns` — assertions about the state, the instant and
  the value

## Main results

* `Task.time_timeoutAt_le` — a timeout is over when it expires
* `Task.catchUnwind_of_calm` — where there is no panic, there is nothing to catch
* `Task.keeps_bind`, `Task.keeps_timeoutAt`, `Task.keeps_catchUnwind` — the rules
-/

namespace Async

/-- What becomes of a computation, and when. -/
inductive Run (σ α : Type) where
  | done (now : ℕ) (state : σ) (value : α)
  | unwound (now : ℕ) (state : σ)
  /-- while it waited -/
  | dropped (now : ℕ) (state : σ)
  /-- it waits for what never comes -/
  | pending (state : σ)

namespace Run

variable {σ α β : Type}

def state : Run σ α → σ
  | .done _ state _ | .unwound _ state | .dropped _ state | .pending state => state

/-- When it is over. -/
def time? : Run σ α → Option ℕ
  | .done now _ _ | .unwound now _ | .dropped now _ => some now
  | .pending _ => none

/-- Go on from where a computation is done. -/
def bind (r : Run σ α) (next : ℕ → σ → α → Run σ β) : Run σ β :=
  match r with
  | .done now state value => next now state value
  | .unwound now state => .unwound now state
  | .dropped now state => .dropped now state
  | .pending state => .pending state

end Run

/-- A computation, from the instant at which it will be dropped, the instant at which it
starts, and the state it finds. -/
structure Task (σ α : Type) where
  run : Option ℕ → ℕ → σ → Run σ α
  le_time : ∀ limit now s, ∀ n ∈ (run limit now s).time?, now ≤ n
  time_le : ∀ limit now s, ∃ n ∈ (run (some limit) now s).time?, n ≤ max now limit

namespace Task

variable {σ α β : Type}

@[ext] theorem ext {x y : Task σ α} (h : ∀ limit now s, x.run limit now s = y.run limit now s) :
    x = y := by
  obtain ⟨run, _, _⟩ := x
  obtain ⟨run', _, _⟩ := y
  obtain rfl : run = run' := by
    funext limit now s
    exact h limit now s
  rfl

/-! ### Computations -/

/-- What takes no time. -/
def instantly (f : ℕ → σ → σ × α) : Task σ α where
  run _ now s := .done now (f now s).1 (f now s).2
  le_time _ _ _ _ hn := (Option.some.inj hn).le
  time_le _ now _ := ⟨now, rfl, le_max_left _ _⟩

def modify (f : σ → σ) : Task σ Unit := instantly fun _ s => (f s, ())

/-- The instant at which it is started. -/
def clock : Task σ ℕ := instantly fun now s => (s, now)

def panics : Task σ α where
  run _ now s := .unwound now s
  le_time _ _ _ _ hn := (Option.some.inj hn).le
  time_le _ now _ := ⟨now, rfl, le_max_left _ _⟩

/-- What becomes of a wait for a time, or for ever. -/
def waiting (duration limit : Option ℕ) (now : ℕ) (s : σ) : Run σ Unit :=
  match duration, limit with
  | some duration, none => .done (now + duration) s ()
  | some duration, some limit =>
    if duration = 0 ∨ now + duration ≤ limit then .done (now + duration) s ()
    else .dropped (max now limit) s
  | none, none => .pending s
  | none, some limit => .dropped (max now limit) s

def wait (duration : Option ℕ) : Task σ Unit where
  run := waiting duration
  le_time limit now s n hn := by
    unfold waiting at hn
    split at hn
    · cases hn
      exact Nat.le_add_right _ _
    · split_ifs at hn
      · cases hn
        exact Nat.le_add_right _ _
      · cases hn
        exact le_max_left _ _
    · cases hn
    · cases hn
      exact le_max_left _ _
  time_le limit now s := by
    cases duration with
    | none => exact ⟨_, rfl, le_rfl⟩
    | some duration =>
      simp only [waiting]
      split_ifs with hready
      · exact ⟨_, rfl, by omega⟩
      · exact ⟨_, rfl, le_rfl⟩

def bind (x : Task σ α) (f : α → Task σ β) : Task σ β where
  run limit now s := (x.run limit now s).bind fun now s value => (f value).run limit now s
  le_time limit now s n hn := by
    have hx := x.le_time limit now s
    cases hrun : x.run limit now s with
    | done now' s' value =>
      rw [hrun] at hx hn
      exact (hx now' rfl).trans ((f value).le_time limit now' s' n hn)
    | unwound | dropped | pending =>
      rw [hrun] at hx hn
      exact hx n hn
  time_le limit now s := by
    obtain ⟨n, hn, hle⟩ := x.time_le limit now s
    cases hrun : x.run (some limit) now s with
    | done now' s' value =>
      rw [hrun] at hn
      obtain rfl := Option.some.inj hn
      obtain ⟨n', hn', hle'⟩ := (f value).time_le limit now' s'
      exact ⟨n', hn', hle'.trans (max_le hle (le_max_right _ _))⟩
    | unwound | dropped | pending =>
      rw [hrun] at hn
      exact ⟨n, hn, hle⟩

instance : Monad (Task σ) where
  pure value := instantly fun _ s => (s, value)
  bind := bind

/-- A panic is caught, and a value takes its place. -/
def catchUnwind (fallback : α) (x : Task σ α) : Task σ α where
  run limit now s :=
    match x.run limit now s with
    | .unwound now s => .done now s fallback
    | r => r
  le_time limit now s n hn := by
    have hx := x.le_time limit now s
    cases hrun : x.run limit now s <;> rw [hrun] at hx hn <;> exact hx n hn
  time_le limit now s := by
    obtain ⟨n, hn, hle⟩ := x.time_le limit now s
    cases hrun : x.run (some limit) now s <;> rw [hrun] at hn <;> exact ⟨n, hn, hle⟩

/-- The action takes place if the computation is dropped or panics. -/
def guarded (action : σ → σ) (x : Task σ α) : Task σ α where
  run limit now s :=
    match x.run limit now s with
    | .unwound now s => .unwound now (action s)
    | .dropped now s => .dropped now (action s)
    | r => r
  le_time limit now s n hn := by
    have hx := x.le_time limit now s
    cases hrun : x.run limit now s <;> rw [hrun] at hx hn <;> exact hx n hn
  time_le limit now s := by
    obtain ⟨n, hn, hle⟩ := x.time_le limit now s
    cases hrun : x.run (some limit) now s <;> rw [hrun] at hn <;> exact ⟨n, hn, hle⟩

/-- The earlier one of a limit and another instant. -/
def earlier (limit : Option ℕ) (expires : ℕ) : ℕ := limit.elim expires (min expires)

theorem earlier_le (limit : Option ℕ) (expires : ℕ) : earlier limit expires ≤ expires := by
  cases limit with
  | none => exact le_rfl
  | some limit => exact min_le_left _ _

/-- What is left of a computation that was not ready in time. If the limit comes first, it
is not the timeout that drops it. -/
def expired (limit : Option ℕ) (expires now : ℕ) (s : σ) : Run σ (Option α) :=
  match limit with
  | none => .done now s none
  | some limit => if limit < expires then .dropped now s else .done now s none

theorem time?_expired (limit : Option ℕ) (expires now : ℕ) (s : σ) :
    (expired limit expires now s : Run σ (Option α)).time? = some now := by
  unfold expired
  split
  · rfl
  · split_ifs <;> rfl

theorem state_expired (limit : Option ℕ) (expires now : ℕ) (s : σ) :
    (expired limit expires now s : Run σ (Option α)).state = s := by
  unfold expired
  split
  · rfl
  · split_ifs <;> rfl

/-- What the computation returns, unless the instant comes first. -/
def timeoutAt (expires : ℕ) (x : Task σ α) : Task σ (Option α) where
  run limit now s :=
    match x.run (some (earlier limit expires)) now s with
    | .done now s value => .done now s (some value)
    | .unwound now s => .unwound now s
    | .dropped now s => expired limit expires now s
    | .pending s => .pending s
  le_time limit now s n hn := by
    have hx := x.le_time (some (earlier limit expires)) now s
    cases hrun : x.run (some (earlier limit expires)) now s with
    | dropped =>
      rw [hrun] at hx
      simp only [hrun, time?_expired] at hn
      exact hx n hn
    | done | unwound | pending =>
      rw [hrun] at hx hn
      exact hx n hn
  time_le limit now s := by
    obtain ⟨n, hn, hle⟩ := x.time_le (earlier (some limit) expires) now s
    have hle' : n ≤ max now limit := hle.trans (max_le_max_left now (min_le_right _ _))
    cases hrun : x.run (some (earlier (some limit) expires)) now s with
    | dropped =>
      rw [hrun] at hn
      exact ⟨n, (time?_expired _ _ _ _).trans hn, hle'⟩
    | done | unwound | pending =>
      rw [hrun] at hn
      exact ⟨n, hn, hle'⟩

/-! ### How they run -/

theorem run_bind (x : Task σ α) (f : α → Task σ β) (limit : Option ℕ) (now : ℕ) (s : σ) :
    (x >>= f).run limit now s =
      (x.run limit now s).bind fun now s value => (f value).run limit now s := rfl

theorem bind_pure (x : Task σ α) : x >>= pure = x := by
  ext limit now s
  rw [run_bind]
  cases x.run limit now s <;> rfl

/-- A timeout is over when it expires. -/
theorem time_timeoutAt_le (expires : ℕ) (x : Task σ α) (limit : Option ℕ) (now : ℕ) (s : σ) :
    ∃ n ∈ ((timeoutAt expires x).run limit now s).time?, n ≤ max now expires := by
  obtain ⟨n, hn, hle⟩ := x.time_le (earlier limit expires) now s
  have hle' : n ≤ max now expires := hle.trans (max_le_max_left now (earlier_le limit expires))
  simp only [timeoutAt]
  cases hrun : x.run (some (earlier limit expires)) now s with
  | dropped =>
    rw [hrun] at hn
    exact ⟨n, (time?_expired _ _ _ _).trans hn, hle'⟩
  | done | unwound | pending =>
    rw [hrun] at hn
    exact ⟨n, hn, hle'⟩

/-- It does not panic. -/
def Calm (x : Task σ α) : Prop := ∀ limit now s n t, x.run limit now s ≠ .unwound n t

theorem calm_catchUnwind (fallback : α) (x : Task σ α) : (catchUnwind fallback x).Calm := by
  intro limit now s n t h
  simp only [catchUnwind] at h
  cases hrun : x.run limit now s <;> rw [hrun] at h <;> cases h

theorem catchUnwind_of_calm {x : Task σ α} (h : x.Calm) (fallback : α) :
    catchUnwind fallback x = x := by
  ext limit now s
  simp only [catchUnwind]
  cases hrun : x.run limit now s with
  | unwound n t => exact absurd hrun (h limit now s n t)
  | done | dropped | pending => rfl

theorem calm_pure (value : α) : Calm (pure value : Task σ α) := by
  intro limit now s n t h
  cases h

theorem calm_wait (duration : Option ℕ) : Calm (wait duration : Task σ Unit) := by
  intro limit now s n t h
  simp only [wait, waiting] at h
  split at h
  · cases h
  · split_ifs at h
  · cases h
  · cases h

variable {f : α → Task σ β}

theorem calm_bind {x : Task σ α} (hx : x.Calm) (hf : ∀ value, (f value).Calm) : (x >>= f).Calm := by
  intro limit now s n t h
  rw [run_bind] at h
  cases hrun : x.run limit now s with
  | done now' s' value =>
    rw [hrun] at h
    exact hf value limit now' s' n t h
  | unwound n' t' => exact hx limit now s n' t' hrun
  | dropped | pending =>
    rw [hrun] at h
    cases h

theorem calm_guarded {x : Task σ α} (hx : x.Calm) (action : σ → σ) : (guarded action x).Calm := by
  intro limit now s n t h
  simp only [guarded] at h
  cases hrun : x.run limit now s with
  | unwound n' t' => exact hx limit now s n' t' hrun
  | done | dropped | pending =>
    rw [hrun] at h
    cases h

/-- A timeout leads to a value, unless there is a panic, or a limit. -/
theorem run_timeoutAt_eq_done {x : Task σ α} (h : x.Calm) (expires now : ℕ) (s : σ) :
    ∃ n t value, (timeoutAt expires x).run none now s = .done n t value := by
  obtain ⟨n, hn, -⟩ := x.time_le (earlier none expires) now s
  simp only [timeoutAt]
  cases hrun : x.run (some (earlier none expires)) now s with
  | done | dropped => exact ⟨_, _, _, rfl⟩
  | unwound n' t' => exact absurd hrun (h _ now s n' t')
  | pending t =>
    rw [hrun] at hn
    cases hn

/-- A value that the computation returns in some run. -/
def CanReturn (x : Task σ α) (value : α) : Prop :=
  ∃ limit now s n t, x.run limit now s = .done n t value

variable {value : α}

theorem CanReturn.pure {value' : α} (h : CanReturn (Pure.pure value : Task σ α) value') :
    value' = value := by
  obtain ⟨limit, now, s, n, t, hrun⟩ := h
  cases hrun
  rfl

theorem not_canReturn_panics : ¬ CanReturn (panics : Task σ α) value := by
  rintro ⟨limit, now, s, n, t, hrun⟩
  cases hrun

theorem CanReturn.bind {x : Task σ α} {value : β} (h : CanReturn (x >>= f) value) :
    ∃ inner, x.CanReturn inner ∧ (f inner).CanReturn value := by
  obtain ⟨limit, now, s, n, t, hrun⟩ := h
  rw [run_bind] at hrun
  cases hx : x.run limit now s with
  | done now' s' inner =>
    rw [hx] at hrun
    exact ⟨inner, ⟨limit, now, s, now', s', hx⟩, limit, now', s', n, t, hrun⟩
  | unwound | dropped | pending =>
    rw [hx] at hrun
    cases hrun

/-- A timeout returns what the computation does. -/
theorem CanReturn.timeoutAt {x : Task σ α} {expires : ℕ}
    (h : CanReturn (timeoutAt expires x) (some value)) : x.CanReturn value := by
  obtain ⟨limit, now, s, n, t, hrun⟩ := h
  simp only [Task.timeoutAt] at hrun
  cases hx : x.run (some (earlier limit expires)) now s with
  | done now' s' inner =>
    rw [hx] at hrun
    obtain ⟨rfl, rfl, hvalue⟩ := Run.done.inj hrun
    cases hvalue
    exact ⟨_, now, s, now', s', hx⟩
  | dropped now' s' =>
    rw [hx] at hrun
    simp only [expired] at hrun
    split at hrun
    · cases hrun
    · split_ifs at hrun
      cases hrun
  | unwound | pending =>
    rw [hx] at hrun
    cases hrun

/-! ### Assertions about the state -/

/-- The assertion still holds of the state, however the computation ends. -/
def Keeps (P : σ → Prop) (x : Task σ α) : Prop :=
  ∀ limit now s, P s → P (x.run limit now s).state

section Keeps

variable {P : σ → Prop} {x : Task σ α}

theorem keeps_pure (value : α) : Keeps P (pure value : Task σ α) := fun _ _ _ h => h

theorem keeps_modify {f : σ → σ} (h : ∀ s, P s → P (f s)) : Keeps P (modify f) :=
  fun _ _ s hs => h s hs

theorem keeps_clock : Keeps P (clock : Task σ ℕ) := fun _ _ _ h => h

theorem keeps_panics : Keeps P (panics : Task σ α) := fun _ _ _ h => h

theorem keeps_wait (duration : Option ℕ) : Keeps P (wait duration : Task σ Unit) := by
  intro limit now s h
  simp only [wait, waiting]
  split
  · exact h
  · split_ifs <;> exact h
  · exact h
  · exact h

theorem keeps_bind (hx : Keeps P x) (hf : ∀ value, x.CanReturn value → Keeps P (f value)) :
    Keeps P (x >>= f) := by
  intro limit now s h
  have hs := hx limit now s h
  rw [run_bind]
  cases hrun : x.run limit now s with
  | done now' s' value =>
    rw [hrun] at hs
    exact hf value ⟨limit, now, s, now', s', hrun⟩ limit now' s' hs
  | unwound | dropped | pending =>
    rw [hrun] at hs
    exact hs

theorem keeps_catchUnwind (fallback : α) (hx : Keeps P x) : Keeps P (catchUnwind fallback x) := by
  intro limit now s h
  have hs := hx limit now s h
  simp only [catchUnwind]
  cases hrun : x.run limit now s <;> rw [hrun] at hs <;> exact hs

theorem keeps_guarded {action : σ → σ} (haction : ∀ s, P s → P (action s)) (hx : Keeps P x) :
    Keeps P (guarded action x) := by
  intro limit now s h
  have hs := hx limit now s h
  simp only [guarded]
  cases hrun : x.run limit now s with
  | unwound | dropped =>
    rw [hrun] at hs
    exact haction _ hs
  | done | pending =>
    rw [hrun] at hs
    exact hs

theorem keeps_timeoutAt (expires : ℕ) (hx : Keeps P x) : Keeps P (timeoutAt expires x) := by
  intro limit now s h
  have hs := hx (some (earlier limit expires)) now s h
  simp only [timeoutAt]
  cases hrun : x.run (some (earlier limit expires)) now s with
  | dropped =>
    rw [hrun] at hs
    simp only [state_expired]
    exact hs
  | done | unwound | pending =>
    rw [hrun] at hs
    exact hs

end Keeps

/-- The computation is over while an assertion about the instant and the state still holds,
however it ends. -/
def Stays (P : ℕ → σ → Prop) (x : Task σ α) : Prop :=
  ∀ limit now s, P now s →
    ∃ n ∈ (x.run limit now s).time?, P n (x.run limit now s).state

section Stays

variable {P : ℕ → σ → Prop} {x : Task σ α}

theorem stays_instantly {f : ℕ → σ → σ × α} (h : ∀ now s, P now s → P now (f now s).1) :
    Stays P (instantly f) := fun _ now s hs => ⟨now, rfl, h now s hs⟩

theorem stays_pure (value : α) : Stays P (pure value : Task σ α) :=
  stays_instantly fun _ _ h => h

theorem stays_bind (hx : Stays P x) (hf : ∀ value, x.CanReturn value → Stays P (f value)) :
    Stays P (x >>= f) := by
  intro limit now s h
  obtain ⟨n, hn, hs⟩ := hx limit now s h
  rw [run_bind]
  cases hrun : x.run limit now s with
  | done now' s' value =>
    rw [hrun] at hn hs
    obtain rfl := Option.some.inj hn
    exact hf value ⟨limit, now, s, now', s', hrun⟩ limit now' s' hs
  | unwound | dropped | pending =>
    rw [hrun] at hn hs
    exact ⟨n, hn, hs⟩

theorem stays_guarded {action : σ → σ} (haction : ∀ now s, P now s → P now (action s))
    (hx : Stays P x) : Stays P (guarded action x) := by
  intro limit now s h
  obtain ⟨n, hn, hs⟩ := hx limit now s h
  simp only [guarded]
  cases hrun : x.run limit now s with
  | unwound | dropped =>
    rw [hrun] at hn hs
    exact ⟨n, hn, haction n _ hs⟩
  | done | pending =>
    rw [hrun] at hn hs
    exact ⟨n, hn, hs⟩

/-- A timeout that has not expired is over when it does. What it is around may rely on
being dropped by then. -/
theorem stays_timeoutAt {expires : ℕ} {Q : σ → Prop}
    (hx : ∀ limit now s, limit ≤ expires → now ≤ expires → Q s →
      Q (x.run (some limit) now s).state) :
    Stays (fun now s => now ≤ expires ∧ Q s) (timeoutAt expires x) := by
  rintro limit now s ⟨hnow, hs⟩
  obtain ⟨n, hn, hle⟩ := time_timeoutAt_le expires x limit now s
  refine ⟨n, hn, by omega, ?_⟩
  have hkept := hx (earlier limit expires) now s (earlier_le limit expires) hnow hs
  simp only [timeoutAt]
  cases hrun : x.run (some (earlier limit expires)) now s with
  | dropped =>
    rw [hrun] at hkept
    simp only [state_expired]
    exact hkept
  | done | unwound | pending =>
    rw [hrun] at hkept
    exact hkept

end Stays

/-- What holds of every value that is returned, and of the state it is returned in. -/
def Returns (Q : σ → α → Prop) (x : Task σ α) : Prop :=
  ∀ limit now s n t value, x.run limit now s = .done n t value → Q t value

section Returns

variable {Q : σ → α → Prop} {x : Task σ α}

theorem returns_instantly {f : ℕ → σ → σ × α} (h : ∀ now s, Q (f now s).1 (f now s).2) :
    Returns Q (instantly f) := by
  rintro limit now s n t value hrun
  cases hrun
  exact h now s

theorem returns_bind {y : Task σ β} {f : β → Task σ α}
    (hf : ∀ value, y.CanReturn value → Returns Q (f value)) : Returns Q (y >>= f) := by
  intro limit now s n t value hrun
  rw [run_bind] at hrun
  cases hy : y.run limit now s with
  | done now' s' value' =>
    rw [hy] at hrun
    exact hf value' ⟨limit, now, s, now', s', hy⟩ limit now' s' n t value hrun
  | unwound | dropped | pending =>
    rw [hy] at hrun
    cases hrun

theorem returns_guarded (action : σ → σ) (hx : Returns Q x) : Returns Q (guarded action x) := by
  intro limit now s n t value hrun
  simp only [guarded] at hrun
  cases hy : x.run limit now s with
  | done now' s' value' =>
    rw [hy] at hrun
    obtain ⟨rfl, rfl, rfl⟩ := Run.done.inj hrun
    exact hx limit now s now' s' value' hy
  | unwound | dropped | pending =>
    rw [hy] at hrun
    cases hrun

end Returns

end Task

end Async
