import MoonLightBridge.Server.DeadlineClock

/-!
# The cancellation signal of a request

The layers of a request are given a signal that tells whether the request was given up: it
is set by a guard when the task is aborted, or when its deadline passes. A unary request has
the guard around its chain and its handler, inside the timeout, and its signal is exact. A
streaming request makes the guard behind its chain, so a task that is aborted inside the
chain leaves the signal as it is. And it completes the guard when the delivery has returned,
which is also what the delivery does at the deadline: the signal is not set then, either.
-/

namespace MoonLightBridge.Server.Dispatch

open Protocol Async
open Middleware (HandlerError Outcome)

/-- The signal tells how the task ended. Nothing is said of a task that panicked. -/
def SignalExact : Run TaskState Ending → Prop
  | .done _ s .completed => s.isCancelled = false
  | .done _ s .deadlineExceeded => s.isCancelled = true
  | .dropped _ s => s.isCancelled = true
  | .unwound _ _ => True
  | .pending s => s.isCancelled = false

/-- The signal is not set. -/
def IsUnset (s : TaskState) : Prop := s.isCancelled = false

section Signal

variable {router : Router} {limits : DispatchLimits} {frame : Frame}

/-- What a delivery does itself leaves the signal alone. -/
theorem deliveryRule_isUnset (expires : Option ℕ) :
    DeliveryRule limits frame expires (fun _ => True) (Task.Keeps IsUnset) :=
  deliveryRule_keeps expires (fun _ _ h => h) (fun _ _ _ h => h) trivial (fun _ _ => trivial)
    trivial trivial

/-! ### Unary requests -/

/-- What a wait tells: there is no value if and only if the signal was set. -/
def WaitSignals {α : Type} : Run TaskState (Option α) → Prop
  | .done _ s value => s.isCancelled = value.isNone
  | .dropped _ s => s.isCancelled = true
  | .unwound _ _ => True
  | .pending s => s.isCancelled = false

/-- The guard is inside the timeout: it is dropped at the deadline, and when the task is
aborted, and only then. -/
theorem waitSignals_awaitUntil {α : Type} {x : Task TaskState α} (hx : Task.Keeps IsUnset x)
    (expires : Option ℕ) (stage : Stage) (limit : Option ℕ) (now : ℕ) {s : TaskState}
    (hs : IsUnset s) :
    WaitSignals ((awaitUntil expires stage (Task.guarded cancel x)).run limit now s) := by
  cases expires with
  | none =>
    have hkept := hx limit now s hs
    simp only [awaitUntil, Task.run_bind, Task.guarded]
    cases hrun : x.run limit now s with
    | done | pending =>
      rw [hrun] at hkept
      exact hkept
    | dropped => rfl
    | unwound => trivial
  | some expires =>
    have hkept := hx (some (Task.earlier limit expires)) now s hs
    simp only [awaitUntil, Task.timeoutAt, Task.run_bind, Task.guarded]
    cases hrun : x.run (some (Task.earlier limit expires)) now s with
    | done | pending =>
      rw [hrun] at hkept
      exact hkept
    | unwound => trivial
    | dropped n t =>
      -- it is dropped by the task that is aborted, or by the timeout
      simp only [Run.bind, Task.expired]
      split
      · rfl
      · split_ifs <;> rfl

theorem ending_respond (observation : Option Bool) (result : Option Outcome) :
    decide ((respond limits frame observation result).ending = .deadlineExceeded) =
      result.isNone := by
  cases result with
  | none => rfl
  | some outcome =>
    cases outcome with
    | error error => rfl
    | ok body =>
      simp only [respond]
      split_ifs <;> rfl

theorem signalExact_done {n : ℕ} {t : TaskState} {ending : Ending}
    (h : t.isCancelled = decide (ending = .deadlineExceeded)) :
    SignalExact (.done n t ending) := by
  cases ending <;> exact h

/-- The signal of a unary request is exact. -/
theorem signalExact_unaryTask (observation : Option Bool) (abort : Option ℕ) (now : ℕ) :
    SignalExact ((unaryTask router limits frame observation).run abort now .init) := by
  rw [unaryTask, dispatchObserved]
  cases parse router limits frame with
  | error rejection => exact signalExact_done rfl
  | ok parsed =>
    cases router.handlers frame.methodId with
    | none => exact signalExact_done rfl
    | some handler =>
      have hsignals := waitSignals_awaitUntil (keeps_invoked router handler parsed)
        (parsed.deadline.map (now + ·)) .invocation abort now (s := .init) rfl
      change WaitSignals ((awaitUntil (parsed.deadline.map (now + ·)) .invocation
        (invocation router handler parsed)).run abort now .init) at hsignals
      change SignalExact (Run.bind (Run.bind ((awaitUntil (parsed.deadline.map (now + ·))
        .invocation (invocation router handler parsed)).run abort now .init) _) _)
      cases hrun : (awaitUntil (parsed.deadline.map (now + ·)) .invocation
          (invocation router handler parsed)).run abort now .init with
      | done n t value =>
        rw [hrun] at hsignals
        exact signalExact_done (hsignals.trans (ending_respond observation value).symm)
      | dropped | unwound | pending =>
        rw [hrun] at hsignals
        exact hsignals

/-! ### Streaming requests -/

theorem keeps_deliver (deadline : Option ℕ) (handler : Bytes → HandlerRun StreamRun)
    (payload : Bytes) : Task.Keeps IsUnset (deliver limits frame deadline handler payload) :=
  Task.keeps_bind Task.keeps_clock fun _ _ =>
    (deliveryRule_isUnset _).openStream handler payload fun _ _ => trivial

/-- The guard is dropped with the delivery. -/
theorem signalExact_guarded {x : Task TaskState Ending} (hx : Task.Keeps IsUnset x)
    {abort : Option ℕ} {now : ℕ} {s : TaskState} (hs : IsUnset s)
    (hdeadline : ∀ n t, (Task.guarded cancel x).run abort now s ≠ .done n t .deadlineExceeded) :
    SignalExact ((Task.guarded cancel x).run abort now s) := by
  have hkept := hx abort now s hs
  simp only [Task.guarded] at hdeadline ⊢
  cases hrun : x.run abort now s with
  | done n t ending =>
    rw [hrun] at hkept hdeadline
    cases ending with
    | completed => exact hkept
    | deadlineExceeded => exact absurd rfl (hdeadline n t)
  | dropped => rfl
  | unwound => trivial
  | pending =>
    rw [hrun] at hkept
    exact hkept

/-- The signal of a streaming request is exact if it is not aborted inside its chain, and
its deadline does not pass. -/
theorem signalExact_dispatchStream {abort : Option ℕ} {now : ℕ}
    (hmiddleware : ∀ parsed, parse router limits frame = .ok parsed →
      ∀ n t, (passMiddleware router parsed).run abort now .init ≠ .dropped n t)
    (hdeadline : ∀ n t, (dispatchStream router limits frame).run abort now .init ≠
      .done n t .deadlineExceeded) :
    SignalExact ((dispatchStream router limits frame).run abort now .init) := by
  unfold dispatchStream at hdeadline ⊢
  cases hparse : parse router limits frame with
  | error rejection => exact signalExact_done rfl
  | ok parsed =>
    cases hhandler : router.streamHandlers frame.methodId with
    | none => exact signalExact_done rfl
    | some handler =>
      have hkept : IsUnset ((passMiddleware router parsed).run abort now .init).state :=
        keeps_passMiddleware (fun _ _ h => h) parsed abort now .init rfl
      simp only [hparse, hhandler, Task.run_bind] at hdeadline ⊢
      cases hrun : (passMiddleware router parsed).run abort now .init with
      | done n t result =>
        rw [hrun] at hkept hdeadline
        cases result with
        | error error => exact signalExact_done hkept
        | ok payload =>
          exact signalExact_guarded (keeps_deliver parsed.deadline handler payload) hkept hdeadline
      | dropped n t => exact absurd hrun (hmiddleware parsed hparse n t)
      | unwound => trivial
      | pending =>
        rw [hrun] at hkept
        exact hkept

end Signal

end MoonLightBridge.Server.Dispatch
