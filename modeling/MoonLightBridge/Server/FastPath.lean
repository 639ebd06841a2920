import MoonLightBridge.Server.Dispatch
import MoonLightBridge.Server.Writer

/-!
# Requests without middleware

A router without layers calls the handler of a unary method directly, and not through a
continuation. For a handler that returns this makes no difference: the answer is the one it
would be behind any number of layers that only forward. But a continuation also catches the
panics of what it calls. Without layers nobody does, so a handler that panics takes the task
of the request with it, and the request is never answered.
-/

namespace MoonLightBridge.Server.Dispatch

open Protocol Async
open Middleware (HandlerError Outcome)

def Router.withLayers (router : Router) (layers : List Layer) : Router :=
  { router with middleware := layers }

/-- The handler of a request does not panic on its payload. -/
def NeverPanics (router : Router) (limits : DispatchLimits) (frame : Frame) : Prop :=
  ∀ parsed handler, parse router limits frame = .ok parsed →
    router.handlers frame.methodId = some handler → ¬ (handler parsed.payload).Panics

/-- A request without a deadline has a handler that comes to an end. -/
def IsBounded (router : Router) (limits : DispatchLimits) (frame : Frame) : Prop :=
  ∀ parsed handler, parse router limits frame = .ok parsed →
    router.handlers frame.methodId = some handler → parsed.deadline = none →
    (handler parsed.payload).Ends

section Paths

variable {router : Router} {limits : DispatchLimits} {frame : Frame} {layers : List Layer}
  {handler : Bytes → HandlerRun Bytes} {parsed : ParsedRequest}

theorem parse_withLayers_nil (router : Router) (limits : DispatchLimits) (frame : Frame)
    (hne : layers ≠ []) :
    parse (router.withLayers []) limits frame =
        (parse (router.withLayers layers) limits frame).map ({ · with metadata := none }) ∧
      ∀ parsed, parse (router.withLayers layers) limits frame = .ok parsed →
        parsed.metadata.isSome := by
  have hsome : (!layers.isEmpty) = true := by simpa using hne
  simp only [parse, Router.withLayers, hsome, List.isEmpty_nil, Bool.not_true]
  exact requestPayload_forget limits.zstd frame limits.maxMetadataLen limits.compression

/-- Behind layers that only forward, the panics of the handler are caught. -/
theorem invocation_forward (hforward : ∀ layer ∈ layers, layer = Layer.forward)
    (hmetadata : parsed.metadata.isSome) :
    invocation (router.withLayers layers) handler parsed =
      Task.guarded cancel (Task.catchUnwind (.error (.internal "handler panicked"))
        (handler parsed.payload).task) := by
  obtain ⟨metadata, hmetadata⟩ := Option.isSome_iff_exists.mp hmetadata
  simp only [invocation, hmetadata, Router.withLayers, next_forward _ hforward]

theorem invocation_nil (parsed : ParsedRequest) :
    invocation (router.withLayers []) handler { parsed with metadata := none } =
      Task.guarded cancel (handler parsed.payload).task := rfl

/-- With an instant, or in its own time, a wait that does not panic comes to an end. -/
theorem run_awaitUntil_eq_done {α : Type} {x : Task TaskState α} (hcalm : x.Calm)
    (expires : Option ℕ) (stage : Stage) (now : ℕ) (s : TaskState)
    (hends : expires = none → ∃ n t value, x.run none now s = .done n t value) :
    ∃ n t value, (awaitUntil expires stage x).run none now s = .done n t value := by
  have hnoted : (do
      let value ← x
      note stage
      return value : Task TaskState α).Calm := by
    refine Task.calm_bind hcalm fun value => Task.calm_bind ?_ fun _ => Task.calm_pure value
    intro limit now s n t hrun
    cases hrun
  cases expires with
  | some expires => exact Task.run_timeoutAt_eq_done hnoted expires now s
  | none =>
    obtain ⟨n, t, value, hrun⟩ := hends rfl
    refine ⟨n, { t with waits := t.waits ++ [(stage, n)] }, some value, ?_⟩
    simp only [awaitUntil, Task.run_bind, hrun]
    rfl

theorem run_handler_eq_done {run : HandlerRun Bytes} (hcalm : ¬ run.Panics) (hends : run.Ends)
    (now : ℕ) (s : TaskState) : ∃ n t value, (run.task).run none now s = .done n t value := by
  cases run with
  | returns after result => exact ⟨now + after, s, result, rfl⟩
  | panicsWhenCalled | panicsAfter => exact absurd trivial hcalm
  | never => exact hends.elim

theorem metadata_of_parse_nil (h : parse (router.withLayers []) limits frame = .ok parsed) :
    parsed.metadata = none := by
  have hforget := (parse_withLayers_nil router limits frame
    (List.cons_ne_nil Layer.forward [])).1
  rw [h] at hforget
  cases hparse : parse (router.withLayers [Layer.forward]) limits frame with
  | error rejection =>
    rw [hparse] at hforget
    cases hforget
  | ok parsed' =>
    rw [hparse] at hforget
    cases hforget
    rfl

/-- A request whose handler does not panic is answered. -/
theorem run_dispatchObserved_eq_done (observation : Option Bool)
    (hcalm : NeverPanics (router.withLayers []) limits frame)
    (hbounded : IsBounded (router.withLayers []) limits frame) (now : ℕ) (s : TaskState) :
    ∃ n t value,
      (dispatchObserved (router.withLayers []) limits frame observation).run none now s =
        .done n t value := by
  unfold dispatchObserved
  cases hparse : parse (router.withLayers []) limits frame with
  | error rejection => exact ⟨now, s, _, rfl⟩
  | ok parsed =>
    cases hhandler : (router.withLayers []).handlers frame.methodId with
    | none => exact ⟨now, s, _, rfl⟩
    | some handler =>
      have hpanics := hcalm parsed handler hparse hhandler
      have hinvocation : invocation (router.withLayers []) handler parsed =
          Task.guarded cancel (handler parsed.payload).task := by
        simp only [invocation, metadata_of_parse_nil hparse]
      have hdone := run_awaitUntil_eq_done (x := invocation (router.withLayers []) handler parsed)
        (hinvocation ▸ Task.calm_guarded (HandlerRun.calm_task hpanics) cancel)
        (parsed.deadline.map (now + ·)) .invocation now s
      obtain ⟨n, t, value, hrun⟩ := hdone (by
        intro hnone
        have hends := hbounded parsed handler hparse hhandler (Option.map_eq_none_iff.mp hnone)
        obtain ⟨n, t, value, hrun⟩ := run_handler_eq_done hpanics hends now s
        refine ⟨n, t, value, ?_⟩
        simp only [hinvocation, Task.guarded, hrun])
      refine ⟨n, t, respond limits frame observation value, ?_⟩
      change Run.bind _ _ = _
      rw [hrun]
      rfl

/-- If the handler does not panic, there is nothing to catch. -/
theorem dispatchObserved_withLayers (observation : Option Bool) (hne : layers ≠ [])
    (hforward : ∀ layer ∈ layers, layer = Layer.forward)
    (hcalm : NeverPanics (router.withLayers []) limits frame) :
    dispatchObserved (router.withLayers layers) limits frame observation =
      dispatchObserved (router.withLayers []) limits frame observation := by
  obtain ⟨hforget, hsome⟩ := parse_withLayers_nil router limits frame hne
  unfold dispatchObserved
  cases hparse : parse (router.withLayers layers) limits frame with
  | error rejection =>
    rw [hforget, hparse]
    rfl
  | ok parsed =>
    have hparse' : parse (router.withLayers []) limits frame =
        .ok { parsed with metadata := none } := by
      rw [hforget, hparse]
      rfl
    rw [hparse']
    cases hhandler : (router.withLayers []).handlers frame.methodId with
    | none =>
      have hhandler' : (router.withLayers layers).handlers frame.methodId = none := hhandler
      simp only [hhandler']
    | some handler =>
      have hhandler' : (router.withLayers layers).handlers frame.methodId = some handler := hhandler
      have hpanics := hcalm _ handler hparse' hhandler
      have hcaught : Task.catchUnwind (.error (.internal "handler panicked"))
          ((handler parsed.payload).task : Task TaskState Outcome) =
            (handler parsed.payload).task :=
        Task.catchUnwind_of_calm (HandlerRun.calm_task hpanics) _
      simp only [hhandler', invoke, invocation_forward hforward (hsome parsed hparse), hcaught,
        invocation_nil]

/-- Behind layers, a panic is answered with INTERNAL. -/
theorem panic_is_answered (observation : Option Bool) (hne : layers ≠ [])
    (hforward : ∀ layer ∈ layers, layer = Layer.forward)
    (hparse : parse (router.withLayers layers) limits frame = .ok parsed)
    (hhandler : router.handlers frame.methodId = some handler)
    (hpanics : (handler parsed.payload).Panics) (hdeadline : parsed.deadline = none) (now : ℕ)
    (s : TaskState) :
    ∃ n t, (dispatchObserved (router.withLayers layers) limits frame observation).run none now s =
      .done n t ⟨.completed, errorFrame frame .internal "handler panicked",
        deferOrFinish observation (.error .internal)⟩ := by
  have hsome := (parse_withLayers_nil router limits frame hne).2 parsed hparse
  have hhandler' : (router.withLayers layers).handlers frame.methodId = some handler := hhandler
  simp only [dispatchObserved, hparse, hhandler', invoke, invocation_forward hforward hsome,
    hdeadline, Option.map_none]
  cases hrun : handler parsed.payload with
  | panicsWhenCalled => exact ⟨_, _, rfl⟩
  | panicsAfter elapsed => exact ⟨_, _, rfl⟩
  | returns | never =>
    rw [hrun] at hpanics
    exact hpanics.elim

end Paths

/-- A router of one unary method. -/
def oneMethod (handler : Bytes → HandlerRun Bytes) : Router where
  handlers methodId := if methodId = 7 then some handler else none
  streamHandlers _ := none
  middleware := []

/-- The limits of a connection that has the default settings. -/
def defaultLimits : DispatchLimits :=
  connectionLimits Writer.halvingZstd Writer.defaultNegotiated ⟨0, 0, le_rfl⟩

def plainRequest : Frame := Frame.new .request 7 1 [1, 2, 3]

end MoonLightBridge.Server.Dispatch
