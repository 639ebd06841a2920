import MoonLightBridge.Data.Update
import MoonLightBridge.Protocol.Frame

/-!
# The calls of a client

A client takes a permit before it sends the REQUEST of a call or of a stream, and
releases it when the call's future, or the stream, terminates. If that is by a timeout
or by cancellation, it also sends CANCEL: after the release, except for a stream whose
deadline passes, where CANCEL goes first.

PING and HEALTH take a permit as well; they only leave fewer for calls, and are left out.
-/

namespace MoonLightBridge.Client

open Protocol

inductive CallPhase where
  /-- a permit was acquired; the REQUEST is not sent yet -/
  | admitted
  /-- the REQUEST was sent -/
  | pending
  /-- the answer was read; the future is not completed yet -/
  | answered
  /-- timed out or cancelled: the permit was released, CANCEL is sent next -/
  | released
  /-- the deadline of a stream passed: CANCEL was sent, the permit is released next -/
  | cancelSent
  | over
  deriving DecidableEq, Repr

structure Call where
  requestId : UInt64
  phase : CallPhase
  deriving DecidableEq, Repr

def Call.HoldsPermit (call : Call) : Prop := call.phase ≠ .released ∧ call.phase ≠ .over

instance (call : Call) : Decidable call.HoldsPermit := inferInstanceAs (Decidable (_ ∧ _))

/-- The reader finds the call in its table. -/
def Call.IsAwaited (call : Call) : Prop := call.phase = .pending ∨ call.phase = .cancelSent

instance (call : Call) : Decidable call.IsAwaited := inferInstanceAs (Decidable (_ ∨ _))

structure CallState where
  permits : ℕ
  /-- all calls ever made; each has its own id -/
  calls : List Call

/-- What happens to a call. -/
inductive CallEvent where
  /-- an interceptor refused it, or the REQUEST could not be written -/
  | giveUp
  | sendRequest (frame : Frame)
  /-- the future completes with a timeout or a cancellation, or the stream is cancelled -/
  | expire
  | sendCancel
  /-- the deadline task of a stream sends CANCEL -/
  | cancelFirst
  /-- the deadline task of a stream lets it fail -/
  | expireCancelled
  /-- the future completes with the answer -/
  | complete
  deriving DecidableEq, Repr

inductive CallLabel where
  | acquire (requestId : UInt64)
  | call (index : ℕ) (event : CallEvent)
  /-- a frame that is neither REQUEST nor CANCEL -/
  | sendOther (frame : Frame)
  /-- the reader takes up a frame that ends a call -/
  | receive (frame : Frame)
  deriving DecidableEq, Repr

namespace Calls

def init (maxInFlight : ℕ) : CallState := ⟨maxInFlight, []⟩

def cancelFrame (requestId : UInt64) : Frame := Frame.new .cancel 0 requestId []

/-- Change the phase of a call, releasing a permit or not. -/
def move (s : CallState) (i : ℕ) (call : Call) (phase : CallPhase) (released : ℕ) : CallState where
  permits := s.permits + released
  calls := s.calls.set i { call with phase }

/-- A step of a call, and the frames it sends. -/
def callStep (s : CallState) (i : ℕ) (call : Call) : CallEvent → Option (CallState × List Frame)
  | .giveUp =>
    if call.phase = .admitted then some (move s i call .over 1, []) else none
  | .sendRequest frame =>
    if call.phase = .admitted ∧ frame.kind = .request ∧ frame.requestId = call.requestId then
      some (move s i call .pending 0, [frame])
    else none
  | .expire =>
    -- the future may time out after the answer was read, as long as it is not completed
    if call.phase = .pending ∨ call.phase = .answered then
      some (move s i call .released 1, [])
    else none
  | .sendCancel =>
    if call.phase = .released then some (move s i call .over 0, [cancelFrame call.requestId])
    else none
  | .cancelFirst =>
    if call.phase = .pending then
      some (move s i call .cancelSent 0, [cancelFrame call.requestId])
    else none
  | .expireCancelled =>
    if call.phase = .cancelSent then some (move s i call .over 1, []) else none
  | .complete =>
    if call.phase = .answered then some (move s i call .over 1, []) else none

/-- The reader: an answer to a call that nobody awaits is ignored. -/
def receive (s : CallState) (frame : Frame) : CallState :=
  match s.calls.findIdx? fun call => call.requestId = frame.requestId ∧ call.IsAwaited with
  | none => s
  | some i =>
    match s.calls[i]? with
    | none => s
    | some call =>
      -- a stream whose CANCEL was sent completes on the spot
      if call.phase = .cancelSent then move s i call .over 1 else move s i call .answered 0

/-- A step of the client, and the frames it sends. -/
def step (s : CallState) : CallLabel → Option (CallState × List Frame)
  | .acquire requestId =>
    -- `nextRequestId` never returns an id that is in use
    if 0 < s.permits ∧ requestId ≠ 0 ∧ ∀ call ∈ s.calls, call.requestId ≠ requestId then
      some (⟨s.permits - 1, s.calls ++ [⟨requestId, .admitted⟩]⟩, [])
    else none
  | .call i event =>
    match s.calls[i]? with
    | some call => callStep s i call event
    | none => none
  | .sendOther frame =>
    if frame.kind ≠ .request ∧ frame.kind ≠ .cancel then some (s, [frame]) else none
  | .receive frame => some (receive s frame, [])

/-! ### What a step does -/

/-- The calls that hold a permit. -/
def holding (calls : List Call) : ℕ := calls.countP fun call => call.HoldsPermit

section Proofs

variable {s t : CallState} {i : ℕ} {call : Call} {frames : List Frame}

/-- The transitions a call can make, with the permits it releases and the frames it
sends. -/
inductive Moves (call : Call) : CallPhase → ℕ → List Frame → Prop where
  | giveUp : call.phase = .admitted → Moves call .over 1 []
  | request {frame : Frame} : call.phase = .admitted → frame.kind = .request →
      frame.requestId = call.requestId → Moves call .pending 0 [frame]
  | expire : call.phase = .pending ∨ call.phase = .answered → Moves call .released 1 []
  | cancel : call.phase = .released → Moves call .over 0 [cancelFrame call.requestId]
  | cancelFirst : call.phase = .pending → Moves call .cancelSent 0 [cancelFrame call.requestId]
  | finish : call.phase = .cancelSent ∨ call.phase = .answered → Moves call .over 1 []
  | answer : call.phase = .pending → Moves call .answered 0 []

theorem moves_of_callStep {event : CallEvent} (h : callStep s i call event = some (t, frames)) :
    ∃ phase released, Moves call phase released frames ∧ t = move s i call phase released := by
  cases event <;> simp only [callStep] at h <;> split_ifs at h with hphase <;>
    cases h
  · exact ⟨_, _, .giveUp hphase, rfl⟩
  · exact ⟨_, _, .request hphase.1 hphase.2.1 hphase.2.2, rfl⟩
  · exact ⟨_, _, .expire hphase, rfl⟩
  · exact ⟨_, _, .cancel hphase, rfl⟩
  · exact ⟨_, _, .cancelFirst hphase, rfl⟩
  · exact ⟨_, _, .finish (.inl hphase), rfl⟩
  · exact ⟨_, _, .finish (.inr hphase), rfl⟩

/-- The reader ignores a frame, or it moves the call the frame answers. -/
theorem moves_of_receive (s : CallState) (frame : Frame) :
    receive s frame = s ∨ ∃ i call phase released, s.calls[i]? = some call ∧
      call.requestId = frame.requestId ∧ Moves call phase released [] ∧
      phase ≠ .released ∧ receive s frame = move s i call phase released := by
  unfold receive
  split
  · exact .inl rfl
  · rename_i i hfind
    split
    · exact .inl rfl
    · rename_i call hi
      -- the reader looked for a call with this id that somebody awaits
      obtain ⟨hlt, hmatch, -⟩ := List.findIdx?_eq_some_iff_getElem.mp hfind
      rw [(List.getElem?_eq_some_iff.mp hi).2] at hmatch
      obtain ⟨hid, hawaited⟩ := of_decide_eq_true hmatch
      right
      split_ifs with hphase
      · exact ⟨i, call, _, _, hi, hid, .finish (.inl hphase), nofun, rfl⟩
      · refine ⟨i, call, _, _, hi, hid, .answer ?_, nofun, rfl⟩
        exact hawaited.resolve_right hphase

theorem holding_set {calls : List Call} {call' : Call} (hi : calls[i]? = some call) :
    holding (calls.set i call') + (if call.HoldsPermit then 1 else 0) =
      holding calls + (if call'.HoldsPermit then 1 else 0) := by
  unfold holding
  simpa only [decide_eq_true_eq] using
    List.countP_set_add (fun call => decide call.HoldsPermit) hi call'

/-- A call releases a permit exactly when it stops holding one. -/
theorem Moves.released_add {phase : CallPhase} {released : ℕ}
    (h : Moves call phase released frames) :
    (if ({ call with phase } : Call).HoldsPermit then 1 else 0) + released =
      if call.HoldsPermit then 1 else 0 := by
  cases h with
  | giveUp hphase => simp [Call.HoldsPermit, hphase]
  | request hphase => simp [Call.HoldsPermit, hphase]
  | expire hphase => rcases hphase with hphase | hphase <;> simp [Call.HoldsPermit, hphase]
  | cancel hphase => simp [Call.HoldsPermit, hphase]
  | cancelFirst hphase => simp [Call.HoldsPermit, hphase]
  | finish hphase => rcases hphase with hphase | hphase <;> simp [Call.HoldsPermit, hphase]
  | answer hphase => simp [Call.HoldsPermit, hphase]

theorem permits_add_holding_move (hi : s.calls[i]? = some call) {phase : CallPhase}
    {released : ℕ} (hmoves : Moves call phase released frames) :
    (move s i call phase released).permits + holding (move s i call phase released).calls =
      s.permits + holding s.calls := by
  have hset := @holding_set i call s.calls { call with phase } hi
  have hreleased := hmoves.released_add
  simp only [move]
  omega

/-- Every permit is free or held by a call. -/
theorem permits_add_holding {label : CallLabel} (h : step s label = some (t, frames)) :
    t.permits + holding t.calls = s.permits + holding s.calls := by
  cases label with
  | acquire requestId =>
    simp only [step] at h
    split_ifs at h with hfree
    cases h
    -- the permit taken is the one the new call holds
    have hnew : holding (s.calls ++ [⟨requestId, .admitted⟩]) = holding s.calls + 1 := by
      simp [holding, List.countP_append, Call.HoldsPermit]
    have hpos := hfree.1
    simp only [hnew]
    omega
  | call i event =>
    simp only [step] at h
    split at h
    · rename_i call hi
      obtain ⟨phase, released, hmoves, rfl⟩ := moves_of_callStep h
      exact permits_add_holding_move hi hmoves
    · cases h
  | sendOther frame =>
    simp only [step] at h
    split_ifs at h
    cases h
    rfl
  | receive frame =>
    cases h
    rcases moves_of_receive s frame with hsame | ⟨i, call, phase, released, hi, -, hmoves, -, heq⟩
    · rw [hsame]
    · rw [heq]
      exact permits_add_holding_move hi hmoves

end Proofs

end Calls

end MoonLightBridge.Client
