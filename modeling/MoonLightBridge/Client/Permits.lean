import MoonLightBridge.Client.CallLifecycle

/-!
# The permits of the client are conserved

A permit that `inFlight.tryAcquire` has given out is released once, when its call ends. The
free permits and the calls that are not over are then always as many as were negotiated.

This needs that no exception leaves a method between `tryAcquire` and the end of its
prelude, `ClientCall.Escapes`. One that does takes the permit with it: the handler that
would release it is attached last, or there is no caller to end the stream. The entry stays
in its map.
-/

namespace MoonLightBridge.Client

open Protocol Transition

/-- The call has a permit and is not over. -/
def CallPlace.IsUnfinished : CallPlace → Prop
  | .before place => place.HasPermit
  | .refused | .escaped => False
  | .shared entry => ¬ entry.progress.HasThrown ∧ ¬ entry.completion.IsReleased

instance decidableIsUnfinished : (place : CallPlace) → Decidable place.IsUnfinished
  | .before place => inferInstanceAs (Decidable place.HasPermit)
  | .refused | .escaped => isFalse id
  | .shared _ => inferInstanceAs (Decidable (_ ∧ _))

/-- An exception has left the method after the permit was taken. -/
def CallPlace.HasEscaped : CallPlace → Prop
  | .before _ | .refused => False
  | .escaped => True
  | .shared entry => entry.progress.HasThrown

namespace ClientCalls

/-- The calls that are not over. -/
def unfinished (s : ClientCalls) : ℕ := s.calls.countP fun call => call.place.IsUnfinished

/-- No exception leaves a method that holds a permit. -/
def Contained (config : ClientConfig) (s : ClientCalls) : LifeLabel → Prop
  | .call i event => ∀ call ∈ s.calls[i]?, ¬ call.Escapes config event
  | .invoke _ | .refuse | .shut _ | .failAll _ | .drain | .drainer _ _ => True

instance decidableContained (config : ClientConfig) (s : ClientCalls) :
    (label : LifeLabel) → Decidable (s.Contained config label)
  | .call i _ => inferInstanceAs (Decidable (∀ call ∈ s.calls[i]?, _))
  | .invoke _ | .refuse | .shut _ | .failAll _ | .drain | .drainer _ _ => isTrue trivial

structure Conserved (maxInFlight : ℕ) (s : ClientCalls) : Prop where
  permits : s.inFlight + s.unfinished = maxInFlight
  contained : ∀ call ∈ s.calls, ¬ call.place.HasEscaped

section Conserved

variable {config : ClientConfig} {maxInFlight : ℕ} {s t : ClientCalls} {i n : ℕ}
  {call : ClientCall} {place : CallPlace}

theorem unfinished_setPlace (hi : s.calls[i]? = some call) (place : CallPlace) :
    (s.setPlace i call place).unfinished + (if call.place.IsUnfinished then 1 else 0) =
      s.unfinished + if place.IsUnfinished then 1 else 0 := by
  simpa only [unfinished, setPlace, decide_eq_true_eq] using
    List.countP_set_add (fun call => decide call.place.IsUnfinished) hi { call with place }

/-- A call releases a permit when it stops being unfinished, and takes one when it starts. -/
theorem Conserved.setPlace (h : s.Conserved maxInFlight) (hi : s.calls[i]? = some call)
    (hpermits : n + (if place.IsUnfinished then 1 else 0) =
      s.inFlight + if call.place.IsUnfinished then 1 else 0) (hplace : ¬ place.HasEscaped) :
    ({ s with inFlight := n }.setPlace i call place).Conserved maxInFlight := by
  refine ⟨?_, List.forall_mem_set h.contained hplace⟩
  have hcount := unfinished_setPlace hi place
  have hsum := h.permits
  change n + (s.setPlace i call place).unfinished = maxInFlight
  omega

theorem EntryMoves.permits {entry next : CallEntry} {event : CallStep}
    (hmoves : EntryMoves config s call entry event n next)
    (hcontained : ¬ call.Escapes config event) (hentry : ¬ entry.progress.HasThrown) :
    n + (if (CallPlace.shared next).IsUnfinished then 1 else 0) =
        s.inFlight + (if (CallPlace.shared entry).IsUnfinished then 1 else 0) ∧
      ¬ next.progress.HasThrown := by
  cases hmoves with
  | @proceed progress hthrown =>
    have hprogress : ¬ progress.HasThrown := fun h => hcontained (hthrown h)
    simp [CallPlace.IsUnfinished, hprogress, hentry]
  | fail hprogress => simp [CallPlace.IsUnfinished, CallEntry.complete, hprogress, hentry]
  | answer => exact ⟨rfl, hentry⟩
  | expire => exact ⟨rfl, hentry⟩
  | complete => simp [CallPlace.IsUnfinished, CallEntry.complete, hentry]
  | remove hcompletion => simp [CallPlace.IsUnfinished, Completion.IsReleased, hcompletion, hentry]
  | release hcompletion =>
    simp [CallPlace.IsUnfinished, Completion.IsReleased, hcompletion, hentry]

theorem CallMoves.permits {event : CallStep} (hmoves : CallMoves config s call event n place)
    (hcontained : ¬ call.Escapes config event) (hcall : ¬ call.place.HasEscaped) :
    n + (if place.IsUnfinished then 1 else 0) =
        s.inFlight + (if call.place.IsUnfinished then 1 else 0) ∧ ¬ place.HasEscaped := by
  cases hmoves with
  | refuse hplace hnone => simp [CallPlace.IsUnfinished, CallPlace.HasEscaped, hplace, hnone]
  | advance hplace hiff => simp [CallPlace.IsUnfinished, CallPlace.HasEscaped, hplace, hiff]
  | acquire hplace hfree hpermit =>
    have hnone : ¬ Prelude.accepted.HasPermit := id
    simpa [CallPlace.IsUnfinished, CallPlace.HasEscaped, hplace, hpermit, hnone] using
      Nat.sub_add_cancel hfree
  | giveBack hplace hpermit =>
    simp [CallPlace.IsUnfinished, CallPlace.HasEscaped, hplace, hpermit]
  | escape hplace hpermit hescapes => exact absurd hescapes hcontained
  | put hplace =>
    simp [CallPlace.IsUnfinished, CallPlace.HasEscaped, Prelude.HasPermit, Progress.HasThrown,
      Completion.IsReleased, hplace]
  | entry hplace hmoves =>
    rw [hplace] at hcall ⊢
    exact hmoves.permits hcontained hcall

theorem conserved_init : (init maxInFlight).Conserved maxInFlight :=
  ⟨rfl, List.forall_mem_nil _⟩

section

variable (h : s.Conserved maxInFlight)

include h

theorem Conserved.invoke (invocation : Invocation) :
    ({ s with calls := s.calls ++ [⟨invocation, .before .entered⟩] } : ClientCalls).Conserved
      maxInFlight := by
  have hnew : unfinished { s with calls := s.calls ++ [⟨invocation, .before .entered⟩] } =
      s.unfinished := by
    rw [unfinished, List.countP_append]
    rfl
  refine ⟨hnew ▸ h.permits, List.forall_mem_append.mpr ⟨h.contained, ?_⟩⟩
  exact List.forall_mem_singleton.mpr id

/-- `failAll` completes futures and empties the maps; it releases nothing itself. -/
theorem Conserved.updateEntry {table : Table} {change : CallEntry → CallEntry}
    (hupdate : s.updateEntry table i change = some t)
    (hprogress : ∀ entry, (change entry).progress = entry.progress)
    (hreleased : ∀ entry, (change entry).completion.IsReleased ↔ entry.completion.IsReleased) :
    t.Conserved maxInFlight := by
  obtain ⟨call, entry, hi, -, hplace, -, rfl⟩ := updateEntry_eq_some hupdate
  refine h.setPlace (n := s.inFlight) hi ?_ ?_
  · simp [CallPlace.IsUnfinished, hplace, hprogress, hreleased]
  · have hcall := h.contained call (List.mem_of_getElem? hi)
    rw [hplace] at hcall
    change ¬ (change entry).progress.HasThrown
    rw [hprogress]
    exact hcall

theorem Conserved.failAllStep {event : FailAllStep} (hstep : s.failAllStep event = some t) :
    t.Conserved maxInFlight := by
  cases event with
  | start =>
    obtain ⟨-, hstep⟩ := Option.ite_none_right_eq_some.mp hstep
    exact Option.some_inj.mp hstep ▸ ⟨h.permits, h.contained⟩
  | visit i =>
    simp only [ClientCalls.failAllStep] at hstep
    split at hstep
    · rename_i table unvisited closer hphase hclosed
      have h' : ({ s with failAll := .failing table (unvisited.filter (· ≠ i)) } :
          ClientCalls).Conserved maxInFlight := ⟨h.permits, h.contained⟩
      exact h'.updateEntry hstep (fun _ => rfl) fun _ => Completion.isReleased_complete
    · cases hstep
  | startClear =>
    simp only [ClientCalls.failAllStep] at hstep
    split at hstep
    · obtain ⟨-, hstep⟩ := Option.ite_none_right_eq_some.mp hstep
      exact Option.some_inj.mp hstep ▸ ⟨h.permits, h.contained⟩
    all_goals cases hstep
  | clear i =>
    simp only [ClientCalls.failAllStep] at hstep
    split at hstep
    · exact h.updateEntry hstep (fun _ => rfl) fun _ => Iff.rfl
    all_goals cases hstep
  | endClear =>
    simp only [ClientCalls.failAllStep] at hstep
    split at hstep
    · obtain ⟨-, hstep⟩ := Option.ite_none_right_eq_some.mp hstep
      exact Option.some_inj.mp hstep ▸ ⟨h.permits, h.contained⟩
    all_goals cases hstep

theorem Conserved.step {label : LifeLabel} (hguard : s.Contained config label)
    (hstep : step config s label = some t) : t.Conserved maxInFlight := by
  cases label with
  | invoke invocation => exact Option.some_inj.mp hstep ▸ h.invoke invocation
  | call i event =>
    obtain ⟨call, hi, hstep⟩ := Option.bind_eq_some_iff.mp hstep
    obtain ⟨⟨n, place⟩, hcall, rfl⟩ := Option.map_eq_some_iff.mp hstep
    obtain ⟨hpermits, hplace⟩ := (callMoves_of_callStep hcall).permits (hguard call hi)
      (h.contained call (List.mem_of_getElem? hi))
    exact h.setPlace hi hpermits hplace
  | refuse => exact Option.some_inj.mp hstep ▸ ⟨h.permits, h.contained⟩
  | shut closer =>
    obtain ⟨-, hstep⟩ := Option.ite_none_right_eq_some.mp hstep
    exact Option.some_inj.mp hstep ▸ ⟨h.permits, h.contained⟩
  | failAll event => exact h.failAllStep hstep
  | drain =>
    obtain ⟨-, hstep⟩ := Option.ite_none_right_eq_some.mp hstep
    exact Option.some_inj.mp hstep ▸ ⟨h.permits, h.contained⟩
  | drainer timeUp succeeds =>
    obtain ⟨hfree, hcalls, -⟩ := (drainMoves_of_drainerStep hstep).calls_eq
    refine ⟨?_, hcalls ▸ h.contained⟩
    rw [unfinished, hfree, hcalls]
    exact h.permits

end

end Conserved

end ClientCalls

/-- Its thread is still in the method and will attach the handler. -/
def Progress.IsRunning : Progress → Prop
  | .registered _ | .queued | .armed => True
  | .returned | .threw => False

instance decidableIsRunning : (progress : Progress) → Decidable progress.IsRunning
  | .registered _ | .queued | .armed => isTrue trivial
  | .returned | .threw => isFalse id

theorem CallEntry.isRunning_or_hasHandler {entry : CallEntry} (h : ¬ entry.progress.HasThrown)
    (table : Table) : entry.progress.IsRunning ∨ entry.HasHandler table := by
  cases table with
  | streams => exact .inr trivial
  | pending =>
    unfold CallEntry.HasHandler
    cases hprogress : entry.progress with
    | registered request => exact .inl trivial
    | queued => exact .inl trivial
    | armed => exact .inl trivial
    | returned => exact .inr trivial
    | threw =>
      rw [hprogress] at h
      exact absurd trivial h

/-- A request and a ping; the request is answered while its method is still running. -/
def answeredRun : List LifeLabel :=
  [.invoke (.request ⟨1, [], some oneSecond, none⟩), .call 0 .checkClosed,
    .call 0 .checkAccepting, .call 0 .tryAcquire, .call 0 (.intercept []),
    .call 0 (.observe (some none)), .call 0 .put, .call 0 (.enqueue idleWriter),
    .invoke (.ping (some oneSecond)), .call 1 .checkClosed, .call 1 .tryAcquire, .call 1 .put,
    .call 0 .answer, .call 0 (.complete .answered), .call 0 .arm, .call 0 .attach,
    .call 0 .handle, .call 0 .handle, .call 1 (.enqueue idleWriter), .call 1 .arm,
    .call 1 .attach]

/-- `Duration.ofSeconds(Long.MAX_VALUE)` -/
def longestSeconds : Duration where
  nanoseconds := (2 ^ 63 - 1) * 10 ^ 9
  bounded := by decide +kernel

/-- A ping with a timeout that `toMillis` refuses. -/
def overflowingPing : List LifeLabel :=
  [.invoke (.ping (some longestSeconds)), .call 0 .checkClosed, .call 0 .tryAcquire,
    .call 0 .put, .call 0 (.enqueue idleWriter), .call 0 .arm]

/-- Metadata with an entry for the deadline. The builder takes no reserved key, but
`MoonLightMetadata.decode` returns what it finds. -/
def decodedMetadata : MoonLightMetadata where
  entries := ⟨[(.reserved .deadlineMillis, [0, 0, 0, 1])], List.pairwise_singleton _ _⟩
  validUserKeys _ h := WireKey.noConfusion (List.mem_singleton.mp h)

/-- The context of the first call, with this metadata. -/
def decodedContext : CallContext where
  methodId := 1
  requestId := 1
  deadline := oneSecond
  metadata := decodedMetadata
  methodId_ne := by decide
  requestId_ne := by decide
  deadline_pos := by decide

/-- A request whose interceptor has attached the metadata. -/
def duplicateDeadline : List LifeLabel :=
  [.invoke (.request ⟨1, [], some oneSecond, none⟩), .call 0 .checkClosed,
    .call 0 .checkAccepting, .call 0 .tryAcquire, .call 0 (.intercept [some decodedContext]),
    .call 0 (.observe (some none)), .call 0 .put, .call 0 (.enqueue idleWriter)]

/-- The entry has no handler, and no thread will attach one. -/
def ClientCall.IsAbandoned (call : ClientCall) : Prop :=
  ∃ entry ∈ call.entry?, entry.isRegistered = true ∧ ¬ entry.progress.IsRunning ∧
    ¬ entry.HasHandler call.invocation.table

instance decidableIsAbandoned (call : ClientCall) : Decidable call.IsAbandoned :=
  inferInstanceAs (Decidable (∃ entry ∈ call.entry?, _))

end MoonLightBridge.Client
