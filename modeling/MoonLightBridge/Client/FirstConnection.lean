import MoonLightBridge.Client.SupervisorClosing

/-!
# The first connection

Callers may wait for `firstConnection`. `install` completes it, and so does `close`, but only
the call of `close` that finds the supervisor open; `drain` closes the supervisor and does not.
If there has been no connection by then, nobody is left to complete the future.
-/

namespace MoonLightBridge.Client

open Transition

/-- The call of `close` is going to complete `firstConnection`. -/
def Closing.WillSettle : Closing → Prop
  | .shutDown | .settle => True
  | .claim | .take | .closeClient _ | .returned => False

namespace Supervisor

variable {s t : Supervisor} {policy : ReconnectPolicy} {label : SupervisorLabel}

/-- A call of `drain` that sets `closed` finds it set, or the future completed. -/
def DrainsSettled (s : Supervisor) : SupervisorLabel → Prop
  | .draining i => (∃ place ∈ s.drainings[i]?, place.Closes) →
      s.closed = true ∨ s.firstConnection.isSome = true
  | .start | .attempt | .connected _ | .refused | .terminate _ | .handler _ | .subscribe
  | .unsubscribe | .close | .closing _ | .drain => True

instance decidableDrainsSettled (s : Supervisor) :
    (label : SupervisorLabel) → Decidable (s.DrainsSettled label)
  | .draining _ => inferInstanceAs (Decidable (_ → _))
  | .start | .attempt | .connected _ | .refused | .terminate _ | .handler _ | .subscribe
  | .unsubscribe | .close | .closing _ | .drain => isTrue trivial

/-! ### The future stays completed -/

theorem firstConnection_rescheduleStep (place : Reschedule) :
    (rescheduleStep policy s place).1.firstConnection = s.firstConnection := by
  cases place with
  | claim | recheck => rw [rescheduleStep]; split <;> rfl
  | arm =>
    rw [rescheduleStep]
    split
    · rfl
    · split <;> rfl

theorem isSome_attemptStep {attempt : Attempt} (h : s.firstConnection.isSome = true)
    (hstep : attemptStep policy s attempt = some t) : t.firstConnection.isSome = true := by
  cases attempt with
  | clearFlag | checkClosed | checkActive =>
    cases hstep
    exact h
  | connecting => cases hstep
  | installing k place =>
    obtain ⟨c, -, rfl⟩ := Option.map_eq_some_iff.mp hstep
    cases place with
    | resubscribe => rw [installStep]; split <;> exact h
    | announce => simp [installStep]
    | check | discard | publish | resetAttempts | resetFlag | register => exact h
  | rescheduling place =>
    cases hstep
    exact (congrArg Option.isSome (firstConnection_rescheduleStep place)).trans h

theorem isSome_handlerStep {k : ℕ} {c : Connection} {handler : Handler}
    (h : s.firstConnection.isSome = true) (hstep : handlerStep policy s k c handler = some t) :
    t.firstConnection.isSome = true := by
  cases handler with
  | unregistered | finished => cases hstep
  | registered =>
    obtain ⟨-, hstep⟩ := Option.ite_none_left_eq_some.mp hstep
    cases hstep
    exact h
  | clearing =>
    rw [handlerStep] at hstep
    split at hstep <;>
    · cases hstep
      exact h
  | checking =>
    cases hstep
    exact h
  | rescheduling place =>
    cases hstep
    exact (congrArg Option.isSome (firstConnection_rescheduleStep place)).trans h

/-- No call of `drain` changes the future. -/
theorem firstConnection_drainingStep {i : ℕ} {place : Draining}
    (hstep : drainingStep s i place = some t) :
    t.firstConnection = s.firstConnection ∧ t.closings = s.closings ∧
      (t.closed = true → s.closed = true ∨ place.Closes) := by
  cases place with
  | lookUp | readActive | shutDown =>
    cases hstep
    exact ⟨rfl, rfl, .inl⟩
  | setClosed client =>
    cases hstep
    exact ⟨rfl, rfl, fun _ => .inr trivial⟩
  | drainClient k =>
    obtain ⟨c, -, rfl⟩ := Option.map_eq_some_iff.mp hstep
    exact ⟨rfl, rfl, .inl⟩
  | claim client =>
    rw [drainingStep] at hstep
    split at hstep <;>
    · cases hstep
      exact ⟨rfl, rfl, .inl⟩
  | listening k =>
    obtain ⟨c, -, hstep⟩ := Option.bind_eq_some_iff.mp hstep
    obtain ⟨-, hstep⟩ := Option.ite_none_left_eq_some.mp hstep
    cases hstep
    exact ⟨rfl, rfl, .inl⟩
  | returned => cases hstep

/-- A step of a party that makes no call. -/
theorem isSome_step (hlabel : ¬ label.IsCall) (h : s.firstConnection.isSome = true)
    (hstep : step policy s label = some t) : t.firstConnection.isSome = true := by
  cases label with
  | start =>
    simp only [step] at hstep
    split at hstep
    · cases hstep
      exact h
    · cases hstep
  | attempt =>
    obtain ⟨attempt, -, hstep⟩ := Option.bind_eq_some_iff.mp hstep
    exact isSome_attemptStep h hstep
  | connected | refused =>
    obtain ⟨-, hstep⟩ := Option.ite_none_right_eq_some.mp hstep
    cases hstep
    exact h
  | terminate k =>
    obtain ⟨c, -, rfl⟩ := Option.map_eq_some_iff.mp hstep
    exact h
  | handler k =>
    obtain ⟨c, -, hstep⟩ := Option.bind_eq_some_iff.mp hstep
    exact isSome_handlerStep h hstep
  | subscribe =>
    cases hstep
    exact h
  | unsubscribe =>
    obtain ⟨-, hstep⟩ := Option.ite_none_left_eq_some.mp hstep
    cases hstep
    exact h
  | close | closing | drain | draining => exact absurd trivial hlabel

/-! ### The future of a closed supervisor -/

/-- The future is completed, or a call of `close` is going to do so. -/
def Settling (s : Supervisor) : Prop :=
  s.closed = true → s.firstConnection.isSome = true ∨ ∃ place ∈ s.closings, place.WillSettle

theorem Settling.closingStep (h : s.Settling) {i : ℕ} {place : Closing}
    (hplace : s.closings[i]? = some place) (hstep : closingStep s i place = some t) :
    t.Settling := by
  -- a call that is not about to complete the future moves on
  have hmove {new : Closing} (hnot : ¬ place.WillSettle) : (s.setClosing i new).Settling := by
    intro hclosed
    refine (h hclosed).imp_right ?_
    rintro ⟨other, hmem, hother⟩
    rcases List.eq_or_mem_set hplace hmem with rfl | hkept
    · exact absurd hother hnot
    · exact ⟨other, hkept, hother⟩
  cases place with
  | claim =>
    rw [Supervisor.closingStep] at hstep
    split at hstep
    · cases hstep
      exact hmove id
    · cases hstep
      exact fun _ => .inr ⟨.shutDown, List.mem_set_self hplace, trivial⟩
  | shutDown =>
    cases hstep
    exact fun _ => .inr ⟨.settle, List.mem_set_self hplace, trivial⟩
  | settle =>
    cases hstep
    intro _
    simp [setClosing]
  | take =>
    cases hstep
    exact hmove id
  | closeClient k =>
    obtain ⟨c, -, rfl⟩ := Option.map_eq_some_iff.mp hstep
    exact hmove id
  | returned => cases hstep

theorem Settling.step (hguard : s.DrainsSettled label) (h : s.Settling)
    (hstep : step policy s label = some t) : t.Settling := by
  cases label with
  | close =>
    cases hstep
    intro hclosed
    refine (h hclosed).imp_right ?_
    rintro ⟨place, hmem, hwill⟩
    exact ⟨place, List.mem_append_left _ hmem, hwill⟩
  | closing i =>
    obtain ⟨place, hplace, hstep⟩ := Option.bind_eq_some_iff.mp hstep
    exact h.closingStep hplace hstep
  | drain =>
    cases hstep
    exact h
  | draining i =>
    obtain ⟨place, hplace, hstep⟩ := Option.bind_eq_some_iff.mp hstep
    obtain ⟨hfirst, hclosings, hcloses⟩ := firstConnection_drainingStep hstep
    intro hclosed
    rw [hfirst, hclosings]
    rcases hcloses hclosed with hold | hcloses
    · exact h hold
    · exact (hguard ⟨place, hplace, hcloses⟩).elim h .inl
  | start | attempt | connected | refused | terminate | handler | subscribe | unsubscribe =>
    intro hclosed
    have hkeeps := keepsCallers_step id hstep
    rw [hkeeps.closed] at hclosed
    rw [hkeeps.closings]
    exact (h hclosed).imp_left fun hsome => isSome_step id hsome hstep

/-- If no call of `drain` closes the supervisor while the future is pending, a closed
supervisor has completed it as soon as no call of `close` is about to. -/
theorem firstConnection_settles (policy : ReconnectPolicy) (start : Start)
    (w : List SupervisorLabel) (t : Supervisor)
    (hmeets : MeetsGuard (step policy) DrainsSettled (init start) w)
    (hrun : run (step policy) (init start) w = some t) (hclosed : t.closed = true)
    (hclosings : ∀ place ∈ t.closings, ¬ place.WillSettle) : t.firstConnection.isSome = true := by
  have hinit : (init start).Settling := by
    cases start <;> exact fun hclosed => absurd hclosed Bool.false_ne_true
  have hsettling : t.Settling := hmeets.invariant Settling.step hrun hinit
  refine (hsettling hclosed).resolve_right ?_
  rintro ⟨place, hmem, hwill⟩
  exact hclosings place hmem hwill

/-- The supervisor connects and is drained. -/
def drainedRun : List SupervisorLabel :=
  List.replicate 7 .attempt ++ [.drain] ++ List.replicate 6 (.draining 0)

theorem firstConnection_settles_drainedRun :
    ∃ t, run (step .defaults) (init (.immediate true)) drainedRun = some t ∧ t.closed = true ∧
      t.firstConnection.isSome = true := by
  have hsome : ∃ t ∈ run (step .defaults) (init (.immediate true)) drainedRun,
      t.closed = true ∧ t.closings = [] := by
    decide +kernel
  obtain ⟨t, hrun, hclosed, hnil⟩ := hsome
  refine ⟨t, hrun, hclosed, firstConnection_settles .defaults (.immediate true) drainedRun t
    (by decide +kernel) hrun hclosed ?_⟩
  rw [hnil]
  exact List.forall_mem_nil _

/-- The supervisor is drained before it has connected, and then closed. -/
def drainedFirstRun : List SupervisorLabel :=
  [.drain] ++ List.replicate 5 (.draining 0) ++ [.close, .closing 0]

/-- Both calls have returned, and no attempt will be made. -/
def pendingSupervisor : Supervisor where
  closed := true
  reconnectScheduled := true
  drainHandle := true
  isShutdown := true
  closings := [.returned]
  drainings := [.returned]

theorem firstConnection_pending :
    run (step .defaults) (init .deferred) drainedFirstRun = some pendingSupervisor ∧
      pendingSupervisor.running = none ∧ pendingSupervisor.scheduled = [] ∧
      pendingSupervisor.firstConnection = none :=
  ⟨by decide +kernel, rfl, rfl, rfl⟩

end Supervisor

end MoonLightBridge.Client
