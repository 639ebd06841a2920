import MoonLightBridge.Server.FastPath

/-!
# When the deadline of a request expires

A unary request runs its chain and its handler under one timeout. A streaming request has
the same deadline, but it runs its chain without a timeout, and counts the deadline from the
end of it: the opening of the stream, and the waits for items and credits, share that later
instant. So the deadline is kept if the chain takes no time, and otherwise a streaming
request is waited for as much longer as its chain took.
-/

namespace MoonLightBridge.Server.Dispatch

open Protocol Async
open Middleware (HandlerError Outcome)

/-- The last frame of a request whose deadline has passed. -/
def deadlineAnswer (router : Router) (limits : DispatchLimits) (frame : Frame) : Frame :=
  let error := errorFrame frame .deadlineExceeded "request deadline exceeded"
  if (router.streamHandlers frame.methodId).isSome then error
  else fitOutboundFrame error limits.maxResponseBodyLen

/-- All waits that ended with what was waited for ended by an instant. -/
def WaitsBy (bound : ℕ) (s : TaskState) : Prop := ∀ wait ∈ s.waits, wait.2 ≤ bound

/-- The task is over at an instant, no wait ended successfully after it, and if the task did
not come to its own end, the client is told that the deadline has passed. -/
structure Punctual (bound : ℕ) (answer : Frame) (r : Run TaskState Ending) : Prop where
  ends : ∃ n ∈ r.time?, n ≤ bound
  waits : WaitsBy bound r.state
  told : ∀ n t, r = .done n t .deadlineExceeded → t.sent.getLast? = some answer

section Clock

variable {router : Router} {limits : DispatchLimits} {frame : Frame} {bound : ℕ}

variable {now : ℕ} {s : TaskState}

theorem waitsBy_note {stage : Stage} (h : WaitsBy bound s) (hnow : now ≤ bound) :
    WaitsBy bound { s with waits := s.waits ++ [(stage, now)] } :=
  List.forall_mem_append.mpr ⟨h, List.forall_mem_singleton.mpr hnow⟩

/-- Not later than the instant, and no wait was. -/
def InTime (bound now : ℕ) (s : TaskState) : Prop := now ≤ bound ∧ WaitsBy bound s

theorem stays_send (answer : Frame) : Task.Stays (InTime bound) (send answer) :=
  Task.stays_instantly fun _ _ h => h

/-- A wait until the instant is over by then. -/
theorem stays_awaitUntil {α : Type} (stage : Stage) {x : Task TaskState α}
    (hx : Task.Keeps (WaitsBy bound) x) :
    Task.Stays (InTime bound) (awaitUntil (some bound) stage x) := by
  refine Task.stays_timeoutAt fun limit now s hlimit hnow hs => ?_
  have hkept := hx (some limit) now s hs
  obtain ⟨n, hn, hle⟩ := x.time_le limit now s
  rw [Task.run_bind]
  cases hrun : x.run (some limit) now s with
  | done n' t value =>
    rw [hrun] at hkept hn
    cases hn
    exact waitsBy_note hkept (by omega)
  | unwound | dropped | pending =>
    rw [hrun] at hkept
    exact hkept

variable {answer : Frame}

theorem stays_send_bind {α : Type} {t : Task TaskState α} (h : Task.Stays (InTime bound) t) :
    Task.Stays (InTime bound) (send answer >>= fun _ => t) :=
  Task.stays_bind (stays_send answer) fun _ _ => h

/-- Every wait of a delivery is for the same instant. -/
theorem deliveryRule_stays :
    DeliveryRule limits frame (some bound) (fun _ => True) (Task.Stays (InTime bound)) where
  completed := Task.stays_pure _
  expire := stays_send_bind (Task.stays_pure _)
  awaits stage _ _ hx hf := Task.stays_bind (stays_awaitUntil stage (hx _)) hf
  sends _ ht := stays_send_bind ht
  items _ _ := trivial
  streamEnd := trivial
  oversized := trivial

/-- A request that is given up by its deadline has been told so. -/
def Told (answer : Frame) (s : TaskState) (ending : Ending) : Prop :=
  ending = .deadlineExceeded → s.sent.getLast? = some answer

theorem returns_told_of_completed {α : Type} {x : Task TaskState α} :
    Task.Returns (Told answer) (x >>= fun _ => pure .completed) := by
  refine Task.returns_bind fun _ _ => Task.returns_instantly fun _ _ hending => ?_
  cases hending

theorem returns_told_send {answer' : Frame} {ending : Ending}
    (h : ending = .deadlineExceeded → answer' = answer) :
    Task.Returns (Told answer) (send answer' >>= fun _ => pure ending) := by
  intro limit now s n t value hrun hvalue
  cases hrun
  rw [h hvalue]
  exact List.getLast?_concat

theorem deliveryRule_told : DeliveryRule limits frame (some bound) (fun _ => True)
    (Task.Returns (Told (errorFrame frame .deadlineExceeded "request deadline exceeded"))) where
  completed := Task.returns_instantly fun _ _ hending => by cases hending
  expire := returns_told_send fun _ => rfl
  awaits _ _ _ _ hf := Task.returns_bind hf
  sends _ ht := Task.returns_bind fun _ _ => ht
  items _ _ := trivial
  streamEnd := trivial
  oversized := trivial

variable {parsed : ParsedRequest}

/-- The chain of a streaming request leaves no wait behind but its own. -/
theorem waitsBy_passMiddleware {limit : Option ℕ} (hs : WaitsBy bound s)
    (hends : ∃ n ∈ ((passMiddleware router parsed).run limit now s).time?, n ≤ bound) :
    WaitsBy bound ((passMiddleware router parsed).run limit now s).state := by
  cases hmetadata : parsed.metadata with
  | none =>
    simp only [passMiddleware, hmetadata]
    exact hs
  | some metadata =>
    have hkept := keeps_next (P := WaitsBy bound)
      (fun body => Task.keeps_pure (Except.ok body : Outcome)) router.middleware parsed.payload
      limit now s hs
    simp only [passMiddleware, hmetadata, Task.run_bind] at hends ⊢
    cases hrun : (next (fun body => pure (Except.ok body)) router.middleware parsed.payload).run
        limit now s with
    | done n t result =>
      rw [hrun] at hkept hends
      obtain ⟨n', hn', hle⟩ := hends
      obtain rfl := Option.some.inj hn'
      exact waitsBy_note hkept hle
    | unwound | dropped | pending =>
      rw [hrun] at hkept
      exact hkept

theorem waitsBy_mono {bound' : ℕ} (h : WaitsBy bound s) (hle : bound ≤ bound') :
    WaitsBy bound' s := fun wait hwait => (h wait hwait).trans hle

variable {deadline : ℕ}

/-- The delivery is over when the deadline has passed since its start. -/
theorem inTime_deliver (hs : WaitsBy now s) (handler : Bytes → HandlerRun StreamRun)
    (payload : Bytes) :
    ∃ n ∈ ((Task.guarded cancel
        (deliver limits frame (some deadline) handler payload)).run none now s).time?,
      InTime (now + deadline) n ((Task.guarded cancel
        (deliver limits frame (some deadline) handler payload)).run none now s).state := by
  have hstays : Task.Stays (InTime (now + deadline)) (Task.guarded cancel
      (openStream limits frame (some (now + deadline)) handler payload)) :=
    Task.stays_guarded (fun _ _ h => h)
      (deliveryRule_stays.openStream handler payload fun _ _ => trivial)
  exact hstays none now s ⟨Nat.le_add_right _ _, waitsBy_mono hs (Nat.le_add_right _ _)⟩

theorem returns_told_dispatchStream (hparse : parse router limits frame = .ok parsed)
    (hdeadline : parsed.deadline = some deadline) {handler : Bytes → HandlerRun StreamRun}
    (hhandler : router.streamHandlers frame.methodId = some handler) :
    Task.Returns (Told (errorFrame frame .deadlineExceeded "request deadline exceeded"))
      (dispatchStream router limits frame) := by
  simp only [dispatchStream, hparse, hhandler]
  refine Task.returns_bind fun result _ => ?_
  cases result with
  | error error => exact returns_told_of_completed
  | ok payload =>
    refine Task.returns_guarded cancel (Task.returns_bind fun n _ => ?_)
    rw [hdeadline]
    exact deliveryRule_told.openStream handler payload fun _ _ => trivial

/-- A streaming request whose chain takes no time. -/
theorem inTime_dispatchStream {handler : Bytes → HandlerRun StreamRun}
    (hparse : parse router limits frame = .ok parsed) (hdeadline : parsed.deadline = some deadline)
    (hhandler : router.streamHandlers frame.methodId = some handler)
    (hinstant : ∃ n ∈ ((passMiddleware router parsed).run none now .init).time?, n ≤ now) :
    ∃ n ∈ ((dispatchStream router limits frame).run none now .init).time?,
      InTime (now + deadline) n
        ((dispatchStream router limits frame).run none now .init).state := by
  have hwaits : WaitsBy now ((passMiddleware router parsed).run none now .init).state :=
    waitsBy_passMiddleware (fun _ hwait => absurd hwait List.not_mem_nil) hinstant
  have hle := (passMiddleware router parsed).le_time none now .init
  obtain ⟨n, hn, hnow⟩ := hinstant
  simp only [dispatchStream, hparse, hhandler, Task.run_bind]
  cases hrun : (passMiddleware router parsed).run none now .init with
  | done n' t result =>
    rw [hrun] at hn hwaits hle
    obtain rfl := Option.some.inj hn
    obtain rfl : n' = now := le_antisymm hnow (hle n' rfl)
    cases result with
    | error error =>
      exact Task.stays_bind (stays_send _) (fun _ _ => Task.stays_pure _) none n' t
        ⟨Nat.le_add_right _ _, waitsBy_mono hwaits (Nat.le_add_right _ _)⟩
    | ok payload =>
      rw [hdeadline]
      exact inTime_deliver hwaits handler payload
  | unwound | dropped | pending =>
    rw [hrun] at hn hwaits
    exact ⟨n, hn, by omega, waitsBy_mono hwaits (Nat.le_add_right _ _)⟩

/-- What a unary request is told. -/
theorem told_of_canReturn {observation : Option Bool} {answer : Answer}
    (h : (dispatchObserved router limits frame observation).CanReturn answer)
    (hending : answer.ending = .deadlineExceeded) :
    answer.frame = errorFrame frame .deadlineExceeded "request deadline exceeded" := by
  unfold dispatchObserved at h
  split at h
  · rw [h.pure] at hending
    cases hending
  · split at h
    · rw [h.pure] at hending
      cases hending
    · obtain ⟨now, -, hinvoke⟩ := h.bind
      obtain ⟨result, -, hpure⟩ := hinvoke.bind
      rw [hpure.pure] at hending ⊢
      unfold respond at hending ⊢
      split at hending
      · rfl
      · split_ifs at hending
      · cases hending

/-- One timeout is around all that a unary request waits for. -/
theorem inTime_dispatchObserved (hparse : parse router limits frame = .ok parsed)
    (hdeadline : parsed.deadline = some deadline) (observation : Option Bool) (now : ℕ) :
    ∃ n ∈ ((dispatchObserved router limits frame observation).run none now .init).time?,
      InTime (now + deadline) n
        ((dispatchObserved router limits frame observation).run none now .init).state := by
  have hinit : InTime (now + deadline) now .init :=
    ⟨Nat.le_add_right _ _, fun _ hwait => absurd hwait List.not_mem_nil⟩
  simp only [dispatchObserved, hparse]
  cases router.handlers frame.methodId with
  | none => exact ⟨now, rfl, hinit⟩
  | some handler =>
    have hkeeps : Task.Keeps (WaitsBy (now + deadline)) (invocation router handler parsed) :=
      Task.keeps_guarded (fun _ h => h) (keeps_invoked router handler parsed)
    have hstays : Task.Stays (InTime (now + deadline)) (do
        let result ← awaitUntil (some (now + deadline)) .invocation
          (invocation router handler parsed)
        return respond limits frame observation result) :=
      Task.stays_bind (stays_awaitUntil .invocation hkeeps) fun _ _ => Task.stays_pure _
    simp only [invoke, hdeadline]
    exact hstays none now .init hinit

theorem inTime_unaryTask (hparse : parse router limits frame = .ok parsed)
    (hdeadline : parsed.deadline = some deadline) (observation : Option Bool) (now : ℕ) :
    ∃ n ∈ ((unaryTask router limits frame observation).run none now .init).time?,
      InTime (now + deadline) n
        ((unaryTask router limits frame observation).run none now .init).state := by
  obtain ⟨n, hn, hin⟩ := inTime_dispatchObserved hparse hdeadline observation now
  rw [unaryTask, Task.run_bind]
  cases hrun : (dispatchObserved router limits frame observation).run none now .init with
  | done n' t answer =>
    rw [hrun] at hn hin
    exact ⟨n, hn, hin⟩
  | unwound | dropped | pending =>
    rw [hrun] at hn hin
    exact ⟨n, hn, hin⟩

theorem returns_told_unaryTask (observation : Option Bool) :
    Task.Returns (Told (fitOutboundFrame (errorFrame frame .deadlineExceeded
      "request deadline exceeded") limits.maxResponseBodyLen))
      (unaryTask router limits frame observation) :=
  Task.returns_bind fun _ hanswer => returns_told_send fun hending => by
    rw [told_of_canReturn hanswer hending]

end Clock

/-- The metadata of a request that has 100 ms. -/
def deadlineMetadata : Metadata where
  entries := {
    toList := [(.reserved .deadlineMillis, [0, 0, 0, 100])]
    increasing := by decide }
  validUserKeys name h := by simp [SortedMap.keys] at h

def timedRequest : Frame where
  kind := .request
  flags := flagHasMetadata
  methodId := 7
  requestId := 1
  body := deadlineMetadata.block (by decide) ++ [1, 2, 3]

theorem parse_timedRequest (router : Router) :
    parse router defaultLimits timedRequest =
      .ok ⟨some 100, none, if !router.middleware.isEmpty then some deadlineMetadata else none,
        [1, 2, 3], none⟩ :=
  requestPayload_block (by decide) rfl (by decide) rfl rfl rfl rfl _

/-- A router of one streaming method. -/
def oneStream (layers : List Layer) (run : HandlerRun StreamRun) : Router where
  handlers _ := none
  streamHandlers methodId := if methodId = 7 then some fun _ => run else none
  middleware := layers

/-- A stream that opens after 60 ms, and has no item. -/
def silentStream : HandlerRun StreamRun := .returns 60 (.ok ⟨[], .never⟩)

/-- A layer that looks something up for 80 ms. -/
def lookupLayer : Layer := fun body => .waits 80 (.runsNext body .returned)

end MoonLightBridge.Server.Dispatch
