import MoonLightBridge.Data.Update
import MoonLightBridge.Semantics.Transition
import MoonLightBridge.Server.Lifecycle

/-!
# Draining the server

What a drain is expected to achieve, over all interleavings of the parties: once it has
begun it cannot be revoked, and who waits for its end is told.

Both hold unless one party falls into a gap of another. `Server::run` looks at
`draining` once, and becomes ready and subscribes later. `drain` looks at the counters,
and creates the future that a broadcast notifies later.
-/

namespace MoonLightBridge.Server.Lifecycle

open Transition

/-! ### A drain is irrevocable -/

/-- How far `begin_drain` has come: it claimed the drain, closed admission, announced
the drain, returned true. -/
def progress (call : HandleCall) : ℕ :=
  match call.phase with
  | .claimed => 1
  | .closed => 2
  | .announced => 3
  | .began true _ => 4
  | _ => 0

@[simp] theorem progress_notify (call : HandleCall) : progress call.notify = progress call := by
  unfold progress HandleCall.notify
  cases call.phase with
  | began result wait => cases result <;> rfl
  | _ => rfl

/-- The server is not ready, and if it accepts connections it has been told to stop. -/
def Irrevocable (s : ServerState) : Prop :=
  s.runtime.ready = false ∧
    ∀ seen, s.run = .accepting seen →
      s.runtime.drain.value = true ∧ s.runtime.drain.HasChanged seen

/-- `begin_drain` clears `ready`, and sends the drain value, while `Server::run` is not
halfway through its start: between its look at `draining` and setting `ready`, and
between that and its subscription. -/
def Timely (s : ServerState) : ServerLabel → Prop
  | .callStep i => ∀ call ∈ s.calls[i]?,
      (call.phase = .claimed → s.run ≠ .checked) ∧ (call.phase = .closed → s.run ≠ .opened)
  | _ => True

instance decidableTimely (s : ServerState) : (label : ServerLabel) → Decidable (Timely s label)
  | .callStep i => inferInstanceAs (Decidable (∀ call ∈ s.calls[i]?,
      (call.phase = .claimed → s.run ≠ .checked) ∧ (call.phase = .closed → s.run ≠ .opened)))
  | .run | .accept | .listenerFails | .call _ | .timeout _ | .admitRequest | .guardStep _
  | .discard _ | .subscribe _ | .unsubscribe _ => isTrue trivial

/-- What a drain has achieved that has come so far. -/
structure Achieved (runtime : RuntimeState) (run : RunPhase) (progress : ℕ) : Prop where
  draining : 1 ≤ progress → runtime.draining = true
  closed : 2 ≤ progress → runtime.ready = false ∧ run ≠ .checked
  announced : 3 ≤ progress → run ≠ .opened ∧ ∀ seen, run = .accepting seen →
    runtime.drain.value = true ∧ runtime.drain.HasChanged seen

/-- The receiver `Server::run` holds. -/
def runReceivers : RunPhase → ℕ
  | .accepting _ => 1
  | _ => 0

/-- Every drain under way has achieved what it has come to. -/
structure Committed (s : ServerState) : Prop where
  receivers : s.runtime.drain.receivers = runReceivers s.run + s.guards.countP Guard.isSubscribed
  seen_le : ∀ seen, s.run = .accepting seen → seen ≤ s.runtime.drain.version
  achieved : ∀ call ∈ s.calls, Achieved s.runtime s.run (progress call)

variable {call' : HandleCall} {label : ServerLabel} {notifies : Bool}

section Committed

variable {s t : ServerState} {runtime runtime' : RuntimeState} {run run' : RunPhase} {n : ℕ}

theorem committed_init : Committed init where
  receivers := rfl
  seen_le := by
    intro seen h
    cases h
  achieved := by
    intro call h
    cases h

theorem achieved_zero : Achieved runtime run 0 where
  draining h := absurd h (by decide)
  closed h := absurd h (by decide)
  announced h := absurd h (by decide)

section

variable (h : Achieved runtime run n)

include h

/-- Counters and receivers do not matter. -/
theorem Achieved.congr (hready : runtime'.ready = runtime.ready)
    (hdraining : runtime'.draining = runtime.draining)
    (hvalue : runtime'.drain.value = runtime.drain.value)
    (hversion : runtime'.drain.version = runtime.drain.version) :
    Achieved runtime' run n where
  draining hn := hdraining.trans (h.draining hn)
  closed hn := ⟨hready.trans (h.closed hn).1, (h.closed hn).2⟩
  announced hn := by
    refine ⟨(h.announced hn).1, fun seen hseen => ?_⟩
    obtain ⟨htrue, hchanged⟩ := (h.announced hn).2 seen hseen
    refine ⟨hvalue.trans htrue, ?_⟩
    rw [Watch.HasChanged, hversion]
    exact hchanged

/-- An accept loop that ended cannot break any promise. -/
theorem Achieved.returned (hready : runtime'.ready = runtime.ready)
    (hdraining : runtime'.draining = runtime.draining) : Achieved runtime' .returned n where
  draining hn := hdraining.trans (h.draining hn)
  closed hn := by
    refine ⟨hready.trans (h.closed hn).1, ?_⟩
    intro hrun
    cases hrun
  announced _ := by
    refine ⟨?_, fun seen hseen => ?_⟩
    · intro hrun
      cases hrun
    · cases hseen

/-- `Server::run` undoes nothing: it starts only if no drain has been claimed. -/
theorem Achieved.of_run
    (hnext : run.next runtime = some (runtime', run')) : Achieved runtime' run' n := by
  cases run with
  | idle =>
    cases hnext
    split_ifs with hdraining
    · exact h.returned rfl rfl
    · obtain rfl : n = 0 := by
        by_contra hn
        exact hdraining (h.draining (Nat.one_le_iff_ne_zero.mpr hn))
      exact achieved_zero
  | checked =>
    cases hnext
    exact ⟨h.draining, fun hn => absurd rfl (h.closed hn).2,
      fun hn => absurd rfl (h.closed (by omega)).2⟩
  | opened =>
    cases hnext
    refine ⟨h.draining, fun hn => ⟨(h.closed hn).1, ?_⟩, fun hn => absurd rfl (h.announced hn).1⟩
    intro hrun
    cases hrun
  | accepting seen =>
    simp only [RunPhase.next] at hnext
    split_ifs at hnext with hchanged hvalue <;>
      cases hnext
    · exact h.returned rfl rfl
    · refine ⟨h.draining, fun hn => ⟨(h.closed hn).1, ?_⟩, fun hn => ?_⟩
      · intro hrun
        cases hrun
      · exact absurd ((h.announced hn).2 seen rfl).1 hvalue
  | returned => cases hnext

/-- Another call of `begin_drain` undoes nothing either. -/
theorem Achieved.of_call {call : HandleCall}
    (hmoves : call.Moves runtime runtime' call' notifies)
    (hpos : ∀ seen, run = .accepting seen → 0 < runtime.drain.receivers)
    (hseen : ∀ seen, run = .accepting seen → seen ≤ runtime.drain.version) :
    Achieved runtime' run n := by
  cases hmoves with
  | lose | leave => exact h
  | claim => exact ⟨fun _ => rfl, h.closed, h.announced⟩
  | close => exact ⟨h.draining, fun hn => ⟨rfl, (h.closed hn).2⟩, h.announced⟩
  | announce =>
    refine ⟨h.draining, h.closed, fun hn => ⟨(h.announced hn).1, fun seen hrun => ?_⟩⟩
    exact ⟨Watch.value_send (hpos seen hrun) true,
      Watch.hasChanged_send (hpos seen hrun) (hseen seen hrun) true⟩
  | wait hphase hwait =>
    obtain ⟨forceDrain, rfl⟩ := WaitPhase.next_spec hwait
    exact h.congr rfl rfl rfl rfl

end

/-- A call has achieved what it has come to, if it does not meet with `Server::run`
halfway through its start. -/
theorem achieved_moves {call : HandleCall} (h : Achieved runtime run (progress call))
    (hmoves : call.Moves runtime runtime' call' notifies)
    (hclaimed : call.phase = .claimed → run ≠ .checked)
    (hclosed : call.phase = .closed → run ≠ .opened)
    (hpos : ∀ seen, run = .accepting seen → 0 < runtime.drain.receivers)
    (hseen : ∀ seen, run = .accepting seen → seen ≤ runtime.drain.version) :
    Achieved runtime' run (progress call') := by
  have hcalls := h.of_call hmoves hpos hseen
  cases hmoves with
  | lose hphase => exact achieved_zero
  | claim hphase =>
    change Achieved _ _ 1
    exact ⟨fun _ => rfl, fun hn => absurd hn (by decide), fun hn => absurd hn (by decide)⟩
  | close hphase =>
    have hone : progress call = 1 := by simp only [progress, hphase]
    change Achieved _ _ 2
    exact ⟨fun _ => h.draining hone.ge, fun _ => ⟨rfl, hclaimed hphase⟩,
      fun hn => absurd hn (by decide)⟩
  | announce hphase =>
    have htwo : progress call = 2 := by simp only [progress, hphase]
    refine ⟨fun _ => h.draining (by omega), fun _ => h.closed htwo.ge,
      fun _ => ⟨hclosed hphase, fun seen hrun => ?_⟩⟩
    exact ⟨Watch.value_send (hpos seen hrun) true,
      Watch.hasChanged_send (hpos seen hrun) (hseen seen hrun) true⟩
  | leave hphase =>
    have hthree : progress call = 3 := by simp only [progress, hphase]
    exact ⟨fun _ => h.draining (by omega), fun _ => h.closed (by omega),
      fun _ => h.announced hthree.ge⟩
  | @wait result notifies wait wait' _ hphase hwait =>
    -- past `begin_drain` a call has come as far as it will
    have hsame : progress { call with phase := .began result wait' } = progress call := by
      simp only [progress, hphase]
      cases result <;> rfl
    rwa [hsame]

/-- A promise of all calls is one of all calls that were notified. -/
theorem forall_mem_notifyWaiters {q : HandleCall → Prop} {calls : List HandleCall}
    (hnotify : ∀ call, q call → q call.notify) (h : ∀ call ∈ calls, q call) (notifies : Bool) :
    ∀ call ∈ notifyWaiters notifies calls, q call := by
  unfold notifyWaiters
  split_ifs
  · intro call hcall
    obtain ⟨call, hmem, rfl⟩ := List.mem_map.mp hcall
    exact hnotify call (h call hmem)
  · exact h

/-- The accept loop holds a receiver. -/
theorem Committed.receivers_pos (hs : Committed s) :
    ∀ seen, s.run = .accepting seen → 0 < s.runtime.drain.receivers := by
  intro seen hrun
  rw [hs.receivers, hrun, runReceivers]
  omega

theorem Committed.run_next (hs : Committed s)
    (hnext : s.run.next s.runtime = some (runtime', run')) :
    Committed { s with runtime := runtime', run := run' } := by
  have hachieved : ∀ call ∈ s.calls, Achieved runtime' run' (progress call) :=
    fun call hcall => (hs.achieved call hcall).of_run hnext
  have hreceivers := hs.receivers
  have hpos := hs.receivers_pos
  cases hrun : s.run with
  | idle =>
    rw [hrun] at hnext hreceivers
    cases hnext
    refine ⟨?_, ?_, hachieved⟩ <;> split_ifs <;> simp_all [runReceivers]
  | checked =>
    rw [hrun] at hnext hreceivers
    cases hnext
    exact ⟨hreceivers, fun seen hseen => (by cases hseen), hachieved⟩
  | opened =>
    rw [hrun] at hnext hreceivers
    cases hnext
    -- a new receiver has seen the version at which it subscribes
    refine ⟨?_, ?_, hachieved⟩
    · simp only [Watch.subscribe, runReceivers, hreceivers]
      omega
    · intro seen hseen
      exact (RunPhase.accepting.inj hseen).ge
  | accepting seen =>
    have hpos := hpos seen hrun
    rw [hrun] at hnext hreceivers
    simp only [RunPhase.next] at hnext
    split_ifs at hnext <;> cases hnext
    · refine ⟨?_, fun seen hseen => (by cases hseen), hachieved⟩
      simp only [Watch.unsubscribe, runReceivers] at hreceivers ⊢
      omega
    · exact ⟨hreceivers, fun seen hseen => (RunPhase.accepting.inj hseen).ge, hachieved⟩
  | returned =>
    rw [hrun] at hnext
    cases hnext

/-- A step that does not meet with a half-started server keeps what was achieved. -/
theorem committed_step (hguard : Timely s label) (hs : Committed s) (h : step s label = some t) :
    Committed t := by
  cases steps_of_step h with
  | run hnext => exact hs.run_next hnext
  | accept hrun =>
    refine ⟨?_, hs.seen_le, hs.achieved⟩
    rw [List.countP_append]
    exact hs.receivers
  | listenerFails hrun =>
    refine ⟨?_, fun seen hseen => (by cases hseen), fun call hcall =>
      (hs.achieved call hcall).returned rfl rfl⟩
    have hreceivers := hs.receivers
    rw [hrun] at hreceivers
    simp only [Watch.unsubscribe, runReceivers] at hreceivers ⊢
    omega
  | @call waits =>
    exact ⟨hs.receivers, hs.seen_le, List.forall_mem_concat hs.achieved achieved_zero⟩
  | @callStep i call call' runtime' notifies hi hnext =>
    have hpos := hs.receivers_pos
    have hmoves := HandleCall.moves_of_next hnext
    obtain ⟨hreceivers, hversion, -⟩ := hmoves.spec
    refine ⟨hreceivers.trans hs.receivers, fun seen hseen => (hs.seen_le seen hseen).trans hversion,
      List.forall_mem_set ?_ ?_⟩
    · apply forall_mem_notifyWaiters
      · intro call hcall
        rwa [progress_notify]
      · exact fun call hcall => (hs.achieved call hcall).of_call hmoves hpos hs.seen_le
    · exact achieved_moves (hs.achieved call (List.mem_of_getElem? hi)) hmoves
        (hguard call hi).1 (hguard call hi).2 hpos hs.seen_le
  | @timeout i waits result hi =>
    refine ⟨hs.receivers, hs.seen_le, List.forall_mem_set hs.achieved ?_⟩
    have hachieved := hs.achieved _ (List.mem_of_getElem? hi)
    cases result <;> exact hachieved
  | admitRequest =>
    refine ⟨?_, hs.seen_le, hs.achieved⟩
    rw [List.countP_append]
    exact hs.receivers
  | @guardStep i guard guard' runtime' notifies hi hnext =>
    obtain ⟨hready, hdraining, hdrain, hsubscribed⟩ := Guard.next_spec hnext
    refine ⟨?_, fun seen hseen => hdrain ▸ hs.seen_le seen hseen, ?_⟩
    · have hcount : (s.guards.set i guard').countP Guard.isSubscribed =
          s.guards.countP Guard.isSubscribed := List.countP_set_of_eq hi hsubscribed
      exact (congrArg Watch.receivers hdrain).trans (hs.receivers.trans (congrArg _ hcount.symm))
    · apply forall_mem_notifyWaiters
      · intro call hcall
        rwa [progress_notify]
      · exact fun call hcall => (hs.achieved call hcall).congr hready hdraining
          (congrArg Watch.value hdrain) (congrArg Watch.version hdrain)
  | @discard i guard hi hphase =>
    refine ⟨?_, hs.seen_le, hs.achieved⟩
    have hcount : (s.guards.set i { guard with phase := .dropped }).countP Guard.isSubscribed =
        s.guards.countP Guard.isSubscribed := List.countP_set_of_eq hi rfl
    exact hs.receivers.trans (congrArg _ hcount.symm)
  | @subscribe i guard hi hcounted hfresh =>
    refine ⟨?_, hs.seen_le, fun call hcall => (hs.achieved call hcall).congr rfl rfl rfl rfl⟩
    have hreceivers := hs.receivers
    have hcount := List.countP_set_add Guard.isSubscribed hi { guard with isSubscribed := true }
    simp only [hfresh, Bool.false_eq_true, if_false, if_true] at hcount
    simp only [Watch.subscribe]
    omega
  | @unsubscribe i guard hi hsubscribed =>
    refine ⟨?_, hs.seen_le, fun call hcall => (hs.achieved call hcall).congr rfl rfl rfl rfl⟩
    have hreceivers := hs.receivers
    have hcount := List.countP_set_add Guard.isSubscribed hi { guard with isSubscribed := false }
    simp only [hsubscribed, Bool.false_eq_true, if_false, if_true] at hcount
    simp only [Watch.unsubscribe]
    omega

end Committed

/-- Once a call of `begin_drain` has returned true, the server is not ready and does not
accept connections without having been told to stop, if the drain did not fall into the
start of `Server::run`. -/
theorem irrevocable_of_timely (w : List ServerLabel) (t : ServerState)
    (hrun : Transition.run step init w = some t) (htimely : MeetsGuard step Timely init w)
    (hbegan : ∃ call ∈ t.calls, ∃ wait, call.phase = .began true wait) : Irrevocable t := by
  have hcommitted : Committed t := htimely.invariant committed_step hrun committed_init
  obtain ⟨call, hcall, wait, hphase⟩ := hbegan
  have hachieved := hcommitted.achieved call hcall
  have hfour : progress call = 4 := by simp only [progress, hphase]
  rw [hfour] at hachieved
  exact ⟨(hachieved.closed (by decide)).1, (hachieved.announced (by decide)).2⟩

/-- `begin_drain`, from the exchange to its return. -/
def beginDrainSteps : List ServerLabel := .call false :: List.replicate 4 (.callStep 0)

/-- A drain that begins while the server accepts connections. -/
theorem irrevocable_acceptingRun :
    ∃ t, Transition.run step init (.run :: .run :: .run :: beginDrainSteps) = some t ∧
      t.run = .accepting 0 ∧ Irrevocable t :=
  ⟨_, rfl, rfl, irrevocable_of_timely (.run :: .run :: .run :: beginDrainSteps) _ rfl (by decide)
    ⟨_, List.mem_singleton_self _, _, rfl⟩⟩

/-- `Server::run` finds `draining` false; the drain begins, and nobody receives its value;
`Server::run` reports that it is ready and goes on accepting. -/
theorem not_irrevocable_overtakenRun :
    ∃ t, Transition.run step init (.run :: beginDrainSteps ++ [.run, .run]) = some t ∧
      (∃ call ∈ t.calls, call.phase = .began true (.returned true)) ∧
      t.runtime.draining = true ∧ t.runtime.ready = true ∧
      (∃ seen, t.run = .accepting seen ∧ ¬ t.runtime.drain.HasChanged seen) ∧
      ¬ Irrevocable t := by
  refine ⟨_, rfl, ⟨_, List.mem_singleton_self _, rfl⟩, rfl, rfl, ⟨0, rfl, by decide⟩, ?_⟩
  rintro ⟨hready, -⟩
  cases hready

section Revoked

variable {s t : ServerState} {i : ℕ} {call : HandleCall}

/-- Clearing `ready` is in vain if `Server::run` is about to set it. -/
theorem exists_revoked_of_checked (hi : s.calls[i]? = some call) (hphase : call.phase = .closed)
    (hrun : s.run = .checked) :
    ∃ w u, Transition.run step s w = some u ∧
      (∃ call ∈ u.calls, ∃ wait, call.phase = .began true wait) ∧ ¬ Irrevocable u := by
  have hlt := (List.getElem?_eq_some_iff.mp hi).1
  have hready : step s .run = some { s with
      runtime := { s.runtime with ready := true }, run := .opened } :=
    step_run (by rw [hrun]; rfl)
  -- the call goes on to its end, and does not look back
  have hannounce := step_callStep (s := { s with
      runtime := { s.runtime with ready := true }, run := .opened }) hi
    (HandleCall.next_of_closed _ hphase)
  refine ⟨[.run, .callStep i, .callStep i], _, run_cons_eq_some.mpr ⟨_, hready,
    run_cons_eq_some.mpr ⟨_, hannounce, run_cons_eq_some.mpr ⟨_, step_callStep
      (List.getElem?_set_self hlt) (HandleCall.next_of_announced _ rfl), rfl⟩⟩⟩, ?_, ?_⟩
  · exact ⟨_, List.mem_set (by simpa [notifyWaiters] using hlt) _, _, rfl⟩
  · rintro ⟨hfalse, -⟩
    cases hfalse

/-- Sending the drain value is in vain if `Server::run` is about to subscribe. -/
theorem exists_revoked_of_opened (hi : s.calls[i]? = some call) (hphase : call.phase = .announced)
    (hrun : s.run = .opened) :
    ∃ w u, Transition.run step s w = some u ∧
      (∃ call ∈ u.calls, ∃ wait, call.phase = .began true wait) ∧ ¬ Irrevocable u := by
  have hlt := (List.getElem?_eq_some_iff.mp hi).1
  have hsubscribe : step s .run = some { s with
      runtime := { s.runtime with drain := s.runtime.drain.subscribe }
      run := .accepting s.runtime.drain.version } :=
    step_run (by rw [hrun]; rfl)
  refine ⟨[.run, .callStep i], _, run_cons_eq_some.mpr ⟨_, hsubscribe, run_cons_eq_some.mpr
    ⟨_, step_callStep hi (HandleCall.next_of_announced _ hphase), rfl⟩⟩, ?_, ?_⟩
  · exact ⟨_, List.mem_set (by simpa [notifyWaiters] using hlt) _, _, rfl⟩
  · rintro ⟨-, haccepting⟩
    exact (haccepting _ rfl).2 rfl

/-- The condition cannot be weakened: a step that does not meet it leads to a drain that
is revoked. -/
theorem exists_revoked_of_not_timely (h : step s label = some t) (hnot : ¬ Timely s label) :
    ∃ w u, Transition.run step t w = some u ∧
      (∃ call ∈ u.calls, ∃ wait, call.phase = .began true wait) ∧ ¬ Irrevocable u := by
  cases steps_of_step h with
  | @callStep i call call' runtime' notifies hi hnext =>
    have hlt := (List.getElem?_eq_some_iff.mp hi).1
    have hnot' : ¬ ((call.phase = .claimed → s.run ≠ .checked) ∧
        (call.phase = .closed → s.run ≠ .opened)) := by
      intro hboth
      apply hnot
      intro other hother
      obtain rfl := Option.mem_unique hi hother
      exact hboth
    cases HandleCall.moves_of_next hnext with
    | close hphase =>
      have hrun : s.run = .checked := by
        by_contra hne
        exact hnot' ⟨fun _ => hne, fun hclosed => (by rw [hphase] at hclosed; cases hclosed)⟩
      exact exists_revoked_of_checked (List.getElem?_set_self hlt) rfl hrun
    | announce hphase =>
      have hrun : s.run = .opened := by
        by_contra hne
        exact hnot' ⟨fun hclaimed => (by rw [hphase] at hclaimed; cases hclaimed), fun _ => hne⟩
      exact exists_revoked_of_opened (List.getElem?_set_self hlt) rfl hrun
    | lose hphase | claim hphase | leave hphase | wait hphase =>
      refine absurd ⟨fun hclaimed => ?_, fun hclosed => ?_⟩ hnot'
      · rw [hphase] at hclaimed
        cases hclaimed
      · rw [hphase] at hclosed
        cases hclosed
  | _ => exact absurd trivial hnot

/-- `begin_drain` is about to clear `ready`, and `Server::run` to set it. -/
theorem exists_revoked_checkedRun :
    ∃ s t, Transition.run step init [.run, .call false, .callStep 0] = some s ∧
      step s (.callStep 0) = some t ∧ ∃ w u, Transition.run step t w = some u ∧
        (∃ call ∈ u.calls, ∃ wait, call.phase = .began true wait) ∧ ¬ Irrevocable u := by
  obtain ⟨s, t, hs, ht, hnot⟩ : ∃ s t,
      Transition.run step init [.run, .call false, .callStep 0] = some s ∧
        step s (.callStep 0) = some t ∧ ¬ Timely s (.callStep 0) :=
    ⟨_, _, rfl, rfl, by decide⟩
  exact ⟨s, t, hs, ht, exists_revoked_of_not_timely ht hnot⟩

end Revoked

/-! ### No wake-up is lost -/

/-- The loop of `drain` is past its look at the counters and about to wait. -/
def IsCreating (call : HandleCall) : Prop := ∃ result, call.phase = .began result .creating

instance decidableIsCreating (call : HandleCall) : Decidable (IsCreating call) :=
  decidable_of_iff
    (call.phase = .began true .creating ∨ call.phase = .began false .creating) (by
      unfold IsCreating
      simp [or_comm])

/-- A drain waits for something that has already happened. -/
def Stranded (s : ServerState) : Prop :=
  s.runtime.activeConnections = 0 ∧ s.runtime.activeRequests = 0 ∧
    (∀ guard ∈ s.guards, ¬ guard.IsLive) ∧
    ∃ call ∈ s.calls, ∃ result, call.phase = .began result (.parked false)

/-- The broadcast of the last guard does not fall between the look at the counters and
the creation of the future that it would notify. -/
def Heard (s : ServerState) : ServerLabel → Prop
  | .guardStep i => ∀ guard ∈ s.guards[i]?, guard.phase = .dropping →
      (∀ call ∈ s.calls, ¬ IsCreating call) ∨ ∃ other ∈ s.guards.eraseIdx i, other.IsLive
  | _ => True

instance decidableHeard (s : ServerState) : (label : ServerLabel) → Decidable (Heard s label)
  | .guardStep i => inferInstanceAs (Decidable (∀ guard ∈ s.guards[i]?, guard.phase = .dropping →
      (∀ call ∈ s.calls, ¬ IsCreating call) ∨ ∃ other ∈ s.guards.eraseIdx i, other.IsLive))
  | .run | .accept | .listenerFails | .call _ | .callStep _ | .timeout _ | .admitRequest
  | .discard _ | .subscribe _ | .unsubscribe _ => isTrue trivial

/-- A call that waits has something to wait for. -/
def HasCause (guards : List Guard) (call : HandleCall) : Prop :=
  ∀ result wait, call.phase = .began result wait → wait.awaits = true →
    ∃ guard ∈ guards, guard.IsLive

/-- The counters are exact, and every wait has a cause. -/
structure Awaited (s : ServerState) : Prop where
  counted : ∀ counter, s.runtime.count counter = s.guards.countP (Guard.countedBy counter)
  caused : ∀ call ∈ s.calls, HasCause s.guards call

section Awaited

variable {s t : ServerState} {runtime runtime' : RuntimeState} {guards : List Guard} {i : ℕ}
  {guard guard' : Guard}

theorem awaited_init : Awaited init where
  counted counter := by cases counter <;> rfl
  caused call h := absurd h List.not_mem_nil

theorem hasCause_start (guards : List Guard) (waits : Bool) :
    HasCause guards (.start waits) := by
  intro result wait h
  cases h

variable {call : HandleCall}

theorem HasCause.notify (h : HasCause guards call) : HasCause guards call.notify := by
  intro result wait hphase hawaits
  obtain ⟨waits, phase⟩ := call
  cases phase with
  | began result' wait' =>
    obtain ⟨rfl, rfl⟩ := DrainPhase.began.inj hphase
    obtain rfl := WaitPhase.eq_creating_of_awaits_notify hawaits
    exact h _ _ rfl rfl
  | _ => cases hphase

/-- After a broadcast only the calls without a future need a cause. -/
theorem hasCause_notify (h : ¬ IsCreating call) : HasCause guards call.notify := by
  intro result wait hphase hawaits
  obtain ⟨waits, phase⟩ := call
  cases phase with
  | began result' wait' =>
    obtain ⟨rfl, rfl⟩ := DrainPhase.began.inj hphase
    obtain rfl := WaitPhase.eq_creating_of_awaits_notify hawaits
    exact absurd ⟨_, rfl⟩ h
  | _ => cases hphase

/-- A counter that is not zero counts a guard. -/
theorem exists_isLive_of_count_ne
    (hcounted : ∀ counter, s.runtime.count counter = s.guards.countP (Guard.countedBy counter))
    {counter : Counter} (h : s.runtime.count counter ≠ 0) :
    ∃ guard ∈ s.guards, guard.IsLive := by
  rw [hcounted counter] at h
  obtain ⟨guard, hguard, hcounted⟩ := List.countP_pos_iff.mp (Nat.pos_of_ne_zero h)
  exact ⟨guard, hguard, .inl (of_decide_eq_true hcounted).1⟩

/-- A guard that is exchanged for one that lives no shorter. -/
theorem exists_isLive_set (hi : guards[i]? = some guard) (hlive : guard.IsLive → guard'.IsLive)
    (h : ∃ guard ∈ guards, guard.IsLive) : ∃ guard ∈ guards.set i guard', guard.IsLive := by
  obtain ⟨other, hother, hotherLive⟩ := h
  rcases List.eq_or_mem_set hi hother with rfl | hmem
  · exact ⟨guard', List.mem_set_self hi, hlive hotherLive⟩
  · exact ⟨other, hmem, hotherLive⟩

/-- A call that moves on has a cause if it had one, or if a counter is not zero. -/
theorem Awaited.hasCause_moves (hs : Awaited s) (hcall : call ∈ s.calls)
    (hmoves : call.Moves s.runtime runtime' call' notifies) : HasCause s.guards call' := by
  intro result wait hphase hawaits
  cases hmoves with
  | lose | leave =>
    obtain ⟨rfl, rfl⟩ := DrainPhase.began.inj hphase
    split_ifs at hawaits <;> cases hawaits
  | claim | close | announce => cases hphase
  | wait hbefore hwait =>
    obtain ⟨rfl, rfl⟩ := DrainPhase.began.inj hphase
    rcases WaitPhase.awaits_next hwait hawaits with hold | ⟨counter, hcounter⟩
    · exact hs.caused call hcall _ _ hbefore hold
    · exact exists_isLive_of_count_ne hs.counted hcounter

theorem counted_set (hcounted : ∀ counter, s.runtime.count counter =
      s.guards.countP (Guard.countedBy counter))
    (hi : s.guards[i]? = some guard) (hruntime : runtime'.count = s.runtime.count)
    (hphase : guard'.phase = .held ↔ guard.phase = .held)
    (hcounter : guard'.counter = guard.counter) :
    ∀ counter, runtime'.count counter =
      (s.guards.set i guard').countP (Guard.countedBy counter) := by
  intro counter
  rw [hruntime, hcounted, List.countP_set_of_eq hi]
  simp only [Guard.countedBy, hphase, hcounter]

theorem Awaited.counted_guardStep (hs : Awaited s) (hi : s.guards[i]? = some guard)
    (hnext : guard.next s.runtime = some (runtime', guard', notifies)) (counter : Counter) :
    runtime'.count counter = (s.guards.set i guard').countP (Guard.countedBy counter) := by
  have hpos : guard.countedBy counter = true → 0 < s.runtime.count counter := by
    intro hcounted
    rw [hs.counted]
    exact List.countP_pos_iff.mpr ⟨guard, List.mem_of_getElem? hi, hcounted⟩
  have hnew := Guard.count_next hnext counter hpos
  have hset := List.countP_set_add (Guard.countedBy counter) hi guard'
  rw [hs.counted] at hnew
  exact Nat.add_right_cancel (hnew.trans hset.symm)

theorem HasCause.mono {guards' : List Guard} (h : HasCause guards call)
    (hlive : (∃ guard ∈ guards, guard.IsLive) → ∃ guard ∈ guards', guard.IsLive) :
    HasCause guards' call :=
  fun result wait hphase hawaits => hlive (h result wait hphase hawaits)

/-- A step that is heard leaves nobody waiting without a cause. -/
theorem awaited_step (hguard : Heard s label) (hs : Awaited s) (h : step s label = some t) :
    Awaited t := by
  cases steps_of_step h with
  | run hnext =>
    refine ⟨fun counter => ?_, hs.caused⟩
    rw [RunPhase.count_next hnext]
    exact hs.counted counter
  | accept hrun | admitRequest =>
    refine ⟨fun counter => ?_, fun call hcall => (hs.caused call hcall).mono ?_⟩
    · rw [List.countP_append]
      cases counter <;> exact hs.counted _
    · rintro ⟨guard, hmem, hlive⟩
      exact ⟨guard, List.mem_append_left _ hmem, hlive⟩
  | listenerFails hrun => exact ⟨hs.counted, hs.caused⟩
  | @call waits =>
    exact ⟨hs.counted, List.forall_mem_concat hs.caused (hasCause_start _ _)⟩
  | @callStep i call call' runtime' notifies hi hnext =>
    have hmoves := HandleCall.moves_of_next hnext
    obtain ⟨-, -, hcount⟩ := hmoves.spec
    refine ⟨fun counter => ?_, List.forall_mem_set ?_ ?_⟩
    · rw [hcount]
      exact hs.counted counter
    · exact forall_mem_notifyWaiters (q := HasCause s.guards) (fun _ hcall => hcall.notify)
        hs.caused notifies
    · exact hs.hasCause_moves (List.mem_of_getElem? hi) hmoves
  | @timeout i waits result hi =>
    refine ⟨hs.counted, List.forall_mem_set hs.caused ?_⟩
    intro result' wait hphase hawaits
    obtain ⟨rfl, rfl⟩ := DrainPhase.began.inj hphase
    cases hawaits
  | @guardStep i guard guard' runtime' notifies hi hnext =>
    refine ⟨hs.counted_guardStep hi hnext, ?_⟩
    rcases Guard.isLive_next hnext with ⟨rfl, hlive⟩ | ⟨rfl, hdropping⟩
    · exact fun call hcall => (hs.caused call hcall).mono (exists_isLive_set hi fun _ => hlive)
    · intro call hcall
      obtain ⟨call, hmem, rfl⟩ := List.mem_map.mp hcall
      rcases hguard guard hi hdropping with hnone | ⟨other, hother, hlive⟩
      -- every call has its future, and the broadcast reaches it
      · exact hasCause_notify (hnone call hmem)
      -- a call without one still has another guard to wait for, and that broadcast to hear
      · obtain ⟨j, hne, hj⟩ := List.mem_eraseIdx_iff_getElem?.mp hother
        exact (hs.caused call hmem).notify.mono fun _ =>
          ⟨other, List.mem_set_of_ne hj hne.symm, hlive⟩
  | @discard i guard hi hphase =>
    refine ⟨counted_set hs.counted hi rfl (by simp [hphase]) rfl, fun call hcall =>
      (hs.caused call hcall).mono (exists_isLive_set hi ?_)⟩
    intro hlive
    simp [Guard.IsLive, hphase] at hlive
  | @subscribe i guard hi hcounted hfresh =>
    exact ⟨counted_set hs.counted hi rfl Iff.rfl rfl, fun call hcall =>
      (hs.caused call hcall).mono (exists_isLive_set hi id)⟩
  | @unsubscribe i guard hi hsubscribed =>
    exact ⟨counted_set hs.counted hi rfl Iff.rfl rfl, fun call hcall =>
      (hs.caused call hcall).mono (exists_isLive_set hi id)⟩

end Awaited

/-- A drain never waits for something that has already happened, and reports a timeout
only if a guard lives, as long as the broadcast of the last guard does not fall between
its look at the counters and its wait. -/
theorem no_lost_wakeup (w : List ServerLabel) (t : ServerState)
    (hrun : Transition.run step init w = some t) (hheard : MeetsGuard step Heard init w) :
    ¬ Stranded t ∧
      ∀ i, (step t (.timeout i)).isSome → ∃ guard ∈ t.guards, guard.IsLive := by
  have hawaited : Awaited t := hheard.invariant awaited_step hrun awaited_init
  constructor
  · rintro ⟨-, -, hdead, call, hcall, result, hphase⟩
    obtain ⟨guard, hguard, hlive⟩ := hawaited.caused call hcall _ _ hphase rfl
    exact hdead guard hguard hlive
  · intro i htimeout
    obtain ⟨u, hu⟩ := Option.isSome_iff_exists.mp htimeout
    cases steps_of_step hu with
    | timeout hi => exact hawaited.caused _ (List.mem_of_getElem? hi) _ _ rfl rfl

/-- A server with one connection, and a call of `drain` that has seen it. -/
def drainSteps : List ServerLabel :=
  [.run, .run, .run, .accept, .guardStep 0, .call true] ++ List.replicate 5 (.callStep 0)

/-- The call waits, the connection ends, and the call is told. -/
theorem no_lost_wakeup_patientRun :
    ∃ t, Transition.run step init
        (drainSteps ++ [.callStep 0, .callStep 0, .guardStep 0, .guardStep 0]) = some t ∧
      t.calls = [⟨true, .began true (.parked true)⟩] ∧ ¬ Stranded t :=
  ⟨_, rfl, rfl, (no_lost_wakeup (drainSteps ++ [.callStep 0, .callStep 0, .guardStep 0,
    .guardStep 0]) _ rfl (by decide)).1⟩

/-- The connection ends, with its broadcast, after the call has looked at the counters
and before it waits. It then waits for nothing, and reports a timeout. -/
theorem stranded_hastyRun :
    ∃ t, Transition.run step init
        (drainSteps ++ [.guardStep 0, .guardStep 0, .callStep 0, .callStep 0]) = some t ∧
      Stranded t ∧ (step t (.timeout 0)).isSome := by
  refine ⟨_, rfl, ⟨rfl, rfl, ?_, ⟨_, List.mem_singleton_self _, _, rfl⟩⟩, rfl⟩
  decide

/-- A drain that is about to wait waits for nothing if all guards are gone. -/
theorem exists_stranded_of_isCreating {s : ServerState}
    (hcounted : ∀ counter, s.runtime.count counter = s.guards.countP (Guard.countedBy counter))
    (hdead : ∀ guard ∈ s.guards, ¬ guard.IsLive) {j : ℕ} {call : HandleCall}
    (hj : s.calls[j]? = some call) (hcreating : IsCreating call) :
    ∃ w u, Transition.run step s w = some u ∧ Stranded u := by
  obtain ⟨result, hphase⟩ := hcreating
  have hlt := (List.getElem?_eq_some_iff.mp hj).1
  -- the counters are exact, so they are zero
  have hzero : ∀ counter, s.runtime.count counter = 0 := by
    intro counter
    by_contra hne
    obtain ⟨guard, hguard, hlive⟩ := exists_isLive_of_count_ne hcounted hne
    exact hdead guard hguard hlive
  have hcreate := step_callStep hj (HandleCall.next_of_began hphase
    (show WaitPhase.creating.next s.runtime = some (_, _, _) from rfl))
  refine ⟨[.callStep j, .callStep j], _, run_cons_eq_some.mpr ⟨_, hcreate, run_cons_eq_some.mpr
    ⟨_, step_callStep (List.getElem?_set_self hlt) (HandleCall.next_of_began rfl rfl), rfl⟩⟩,
    hzero .connections, hzero .requests, hdead, ?_⟩
  exact ⟨_, List.mem_set (by simpa [notifyWaiters] using hlt) _, result, rfl⟩

/-- The condition cannot be weakened: a broadcast that does not meet it leads to a drain
that waits for nothing. -/
theorem exists_stranded_of_not_heard (w : List ServerLabel) {s t : ServerState}
    (hrun : Transition.run step init w = some s) (hheard : MeetsGuard step Heard init w)
    (h : step s label = some t) (hnot : ¬ Heard s label) :
    ∃ w u, Transition.run step t w = some u ∧ Stranded u := by
  have hs : Awaited s := hheard.invariant awaited_step hrun awaited_init
  cases steps_of_step h with
  | @guardStep i guard guard' runtime' notifies hi hnext =>
    simp only [Heard, not_forall, not_or, not_not] at hnot
    obtain ⟨other, hother, hdropping, ⟨call, hcall, hcreating⟩, hdead⟩ := hnot
    obtain rfl := Option.mem_unique hi hother
    have hcounted := hs.counted_guardStep hi hnext
    rw [Guard.next_of_dropping _ hdropping] at hnext
    obtain ⟨rfl, rfl, rfl⟩ := Option.some.inj hnext
    obtain ⟨j, hj⟩ := List.mem_iff_getElem?.mp hcall
    have hnotified : (notifyWaiters true s.calls)[j]? = some call.notify := by
      rw [notifyWaiters, if_pos rfl, List.getElem?_map, hj]
      rfl
    -- a broadcast does nothing to a call that has no future yet
    have hstill : IsCreating call.notify := by
      obtain ⟨result, hphase⟩ := hcreating
      exact ⟨result, by simp only [HandleCall.notify, hphase]; rfl⟩
    refine exists_stranded_of_isCreating hcounted ?_ hnotified hstill
    intro guard hguard hlive
    rcases List.eq_or_mem_eraseIdx_of_mem_set hguard with rfl | hmem
    · rcases hlive with hheld | hheld <;> cases hheld
    · exact hdead ⟨guard, hmem, hlive⟩
  | _ => exact absurd trivial hnot

theorem exists_stranded_creatingRun :
    ∃ s t, Transition.run step init (drainSteps ++ [.guardStep 0]) = some s ∧
      step s (.guardStep 0) = some t ∧ ∃ w u, Transition.run step t w = some u ∧ Stranded u :=
  ⟨_, _, rfl, rfl, exists_stranded_of_not_heard (drainSteps ++ [.guardStep 0]) rfl (by decide)
    (show step _ (.guardStep 0) = _ from rfl) (by decide)⟩

end MoonLightBridge.Server.Lifecycle
