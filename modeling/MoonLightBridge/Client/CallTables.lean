import MoonLightBridge.Client.CallLifecycle

/-!
# What is in the maps of the client

A call that is not over should stay in its map, where `failAll`, the reader or a deadline
task can find it. `failAll` first goes through a map and then empties it. An entry that is
put into the map in between is removed though nobody has ended its call.

`PutsApart` excludes this: no call is put into a map while `failAll` is at it. Then a call
leaves its map only when it is over or when the reader is about to complete it.
-/

namespace MoonLightBridge.Client

open Transition

/-- `failAll` is going through the map or emptying it. -/
def FailAll.IsAt (table : Table) : FailAll → Prop
  | .failing current _ | .clearing current _ => current = table
  | .idle | .over => False

instance decidableIsAt (table : Table) : (phase : FailAll) → Decidable (phase.IsAt table)
  | .failing _ _ | .clearing _ _ => inferInstanceAs (Decidable (_ = _))
  | .idle | .over => isFalse id

/-- The call has an entry in the map, and has not ended. -/
def ClientCall.IsOpenIn (call : ClientCall) (table : Table) : Prop :=
  call.invocation.table = table ∧
    ∃ entry, call.place = .shared entry ∧ entry.isRegistered = true ∧ entry.completion = .open

theorem ClientCall.IsOpenIn.isIn {call : ClientCall} {table : Table} (h : call.IsOpenIn table) :
    call.IsIn table := by
  obtain ⟨htable, entry, hplace, hregistered, -⟩ := h
  exact ⟨htable, entry, entry?_eq_some.mpr hplace, hregistered⟩

namespace ClientCalls

/-- No call is put into the map while `failAll` is at it. -/
def PutsApart (table : Table) (s : ClientCalls) : LifeLabel → Prop
  | .call i .put => ∀ call ∈ s.calls[i]?, call.invocation.table = table → ¬ s.failAll.IsAt table
  | _ => True

instance decidablePutsApart (table : Table) (s : ClientCalls) :
    (label : LifeLabel) → Decidable (s.PutsApart table label)
  | .call i .put => inferInstanceAs (Decidable (∀ call ∈ s.calls[i]?, _))
  | .call _ .checkClosed | .call _ .checkAccepting | .call _ .tryAcquire | .call _ (.intercept _)
  | .call _ (.observe _) | .call _ (.enqueue _) | .call _ .arm | .call _ .attach
  | .call _ .answer | .call _ .expire | .call _ (.complete _) | .call _ .handle
  | .invoke _ | .refuse | .shut _ | .failAll _ | .drain | .drainer _ _ => isTrue trivial

structure Kept (table : Table) (s : ClientCalls) : Prop where
  /-- a call that has not ended is in the map, unless the reader has taken it out -/
  found : ∀ call ∈ s.calls, call.invocation.table = table → ∀ entry, call.place = .shared entry →
    entry.completion = .open →
      entry.isRegistered = true ∨ table = .pending ∧ entry.isAnswered = true
  /-- `forEach` has ended those it has met -/
  unvisited : ∀ unvisited, s.failAll = .failing table unvisited →
    ∀ i call, s.calls[i]? = some call → call.IsOpenIn table → i ∈ unvisited
  /-- `clear` meets only those that `forEach` has ended -/
  cleared : ∀ left, s.failAll = .clearing table left → ∀ call ∈ s.calls, ¬ call.IsOpenIn table

section Kept

variable {config : ClientConfig} {table : Table} {s t : ClientCalls} {i n : ℕ}
  {call : ClientCall} {place : CallPlace}

theorem mem_entries : i ∈ s.entries table ↔ ∃ call, s.calls[i]? = some call ∧ call.IsIn table := by
  rw [entries, List.mem_filter, decide_eq_true_eq]
  refine and_iff_right_of_imp ?_
  rintro ⟨call, hi, -⟩
  exact List.mem_range.mpr (List.getElem?_eq_some_iff.mp hi).1

theorem kept_init (maxInFlight : ℕ) : (init maxInFlight).Kept table :=
  ⟨List.forall_mem_nil _, fun _ h => FailAll.noConfusion h, fun _ h => FailAll.noConfusion h⟩

theorem Kept.invoke (h : s.Kept table) (invocation : Invocation) :
    ({ s with calls := s.calls ++ [⟨invocation, .before .entered⟩] } : ClientCalls).Kept
      table := by
  have hnew : ¬ (⟨invocation, .before .entered⟩ : ClientCall).IsOpenIn table := by
    rintro ⟨-, entry, ⟨⟩, -⟩
  refine ⟨List.forall_mem_concat h.found ?_, fun unvisited hphase i call hi hopen => ?_,
    fun left hphase => List.forall_mem_concat (h.cleared left hphase) hnew⟩
  · rintro - entry ⟨⟩
  · rcases List.getElem?_concat_eq_some.mp hi with hold | ⟨-, rfl⟩
    · exact h.unvisited unvisited hphase i call hold hopen
    · exact absurd hopen hnew

/-- A call moves. If afterwards it is in the map and has not ended, this was so before, or
`failAll` is not at the map. -/
theorem Kept.setPlace (h : s.Kept table) (hi : s.calls[i]? = some call)
    (hfound : call.invocation.table = table → ∀ entry, place = .shared entry →
      entry.completion = .open →
        entry.isRegistered = true ∨ table = .pending ∧ entry.isAnswered = true)
    (hopen : ({ call with place } : ClientCall).IsOpenIn table →
      ¬ s.failAll.IsAt table ∨ call.IsOpenIn table) :
    ({ s with inFlight := n }.setPlace i call place).Kept table := by
  refine ⟨List.forall_mem_set h.found hfound, fun unvisited hphase j call' hj hin => ?_,
    fun left hphase call' hcall' hin => ?_⟩
  · rcases List.getElem?_set_eq_some hi hj with ⟨rfl, rfl⟩ | hold
    · rcases hopen hin with hapart | hbefore
      · change s.failAll = _ at hphase
        exact absurd (hphase ▸ rfl) hapart
      · exact h.unvisited unvisited hphase j call hi hbefore
    · exact h.unvisited unvisited hphase j call' hold hin
  · rcases List.mem_or_eq_of_mem_set hcall' with hold | rfl
    · exact h.cleared left hphase call' hold hin
    · rcases hopen hin with hapart | hbefore
      · change s.failAll = _ at hphase
        exact absurd (hphase ▸ rfl) hapart
      · exact h.cleared left hphase call (List.mem_of_getElem? hi) hbefore

theorem open_of_complete {completion : Completion} {outcome : Outcome} :
    completion.complete outcome ≠ .open := by
  cases completion <;> exact Completion.noConfusion

/-- A step that does not end a call leaves it where it can be found. -/
theorem EntryMoves.keeps {entry next : CallEntry} {event : CallStep}
    (hmoves : EntryMoves config s call entry event n next) (hopen : next.completion = .open) :
    entry.completion = .open ∧ (next.isRegistered = true → entry.isRegistered = true) ∧
      (entry.isAnswered = true → next.isAnswered = true) ∧
      (entry.isRegistered = true → next.isRegistered = true ∨
        call.invocation.table = .pending ∧ next.isAnswered = true) := by
  cases hmoves with
  | proceed => exact ⟨hopen, id, id, .inl⟩
  | fail => exact absurd hopen open_of_complete
  | answer hregistered =>
    refine ⟨hopen, fun _ => hregistered, fun _ => rfl, fun _ => ?_⟩
    cases htable : call.invocation.table with
    | pending => exact .inr ⟨rfl, rfl⟩
    | streams => exact .inl rfl
  | expire => exact ⟨hopen, id, id, .inl⟩
  | complete => exact absurd hopen open_of_complete
  | remove => cases hopen
  | release => cases hopen

theorem Kept.moves (h : s.Kept table) {event : CallStep} (hi : s.calls[i]? = some call)
    (hmoves : CallMoves config s call event n place) (hguard : s.PutsApart table (.call i event)) :
    ({ s with inFlight := n }.setPlace i call place).Kept table := by
  cases hmoves with
  | put hplace hevent =>
    subst hevent
    refine h.setPlace hi (fun _ entry heq _ => .inl ?_) fun hopen => .inl ?_
    · exact CallPlace.shared.inj heq ▸ rfl
    · exact hguard call hi hopen.1
  | @entry entry next n hplace hmoves =>
    refine h.setPlace hi (fun htable entry' heq hopen => ?_) fun hin => .inr ?_
    · cases heq
      obtain ⟨hbefore, -, hanswered, hregistered⟩ := hmoves.keeps hopen
      rcases h.found call (List.mem_of_getElem? hi) htable entry hplace hbefore with
        hin | ⟨hpending, hin⟩
      · exact htable ▸ hregistered hin
      · exact .inr ⟨hpending, hanswered hin⟩
    · obtain ⟨htable, entry', heq, hin, hopen⟩ := hin
      cases heq
      obtain ⟨hbefore, hregistered, -, -⟩ := hmoves.keeps hopen
      exact ⟨htable, entry, hplace, hregistered hin, hbefore⟩
  | _ =>
    refine h.setPlace hi (fun _ entry heq => ?_) ?_
    · cases heq
    · rintro ⟨-, entry, ⟨⟩, -⟩

/-- `failAll` is at another map. -/
theorem Kept.setFailAll (h : s.Kept table) {phase : FailAll} (hphase : ¬ phase.IsAt table) :
    ({ s with failAll := phase } : ClientCalls).Kept table := by
  refine ⟨h.found, fun unvisited heq => ?_, fun left heq => ?_⟩
  · change phase = _ at heq
    exact absurd (heq ▸ rfl) hphase
  · change phase = _ at heq
    exact absurd (heq ▸ rfl) hphase

/-- `forEach` starts. -/
theorem Kept.startFailing (h : s.Kept table) (current : Table) :
    ({ s with failAll := .failing current (s.entries current) } : ClientCalls).Kept table := by
  by_cases heq : current = table
  · subst heq
    refine ⟨h.found, fun unvisited hphase i call hi hopen => ?_, fun left hphase => ?_⟩
    · obtain ⟨-, rfl⟩ := FailAll.failing.inj hphase
      exact mem_entries.mpr ⟨call, hi, hopen.isIn⟩
    · cases hphase
  · exact h.setFailAll heq

variable {current : Table}

theorem Kept.visit (h : s.Kept table) {unvisited : List ℕ} {closer : Closer}
    (hphase : s.failAll = .failing current unvisited)
    (hupdate : { s with failAll := .failing current (unvisited.filter (· ≠ i)) }.updateEntry
      current i (CallEntry.complete · (.disconnected closer)) = some t) : t.Kept table := by
  obtain ⟨call, entry, hi, htable, hplace, -, rfl⟩ := updateEntry_eq_some hupdate
  have hended : ∀ entry', CallPlace.shared (entry.complete (.disconnected closer)) =
      .shared entry' → entry'.completion ≠ .open := by
    intro entry' heq
    exact CallPlace.shared.inj heq ▸ open_of_complete
  refine ⟨?_, fun left hleft j call' hj hopen => ?_, fun left hleft => ?_⟩
  · refine List.forall_mem_set h.found fun _ entry' heq hopen => ?_
    exact absurd hopen (hended entry' heq)
  · obtain ⟨rfl, rfl⟩ := FailAll.failing.inj hleft
    rcases List.getElem?_set_eq_some hi hj with ⟨rfl, rfl⟩ | hold
    · obtain ⟨-, entry', heq, -, hopen⟩ := hopen
      exact absurd hopen (hended entry' heq)
    · refine List.mem_filter.mpr ⟨h.unvisited _ hphase j call' hold hopen, decide_eq_true ?_⟩
      rintro rfl
      -- the entry itself has ended, so this is another one
      change (s.calls.set j _)[j]? = some call' at hj
      rw [List.getElem?_set_of_eq_some hi] at hj
      obtain ⟨-, entry', heq, -, hopen⟩ := hopen
      rw [← Option.some_inj.mp hj] at heq
      exact hended entry' heq hopen
  · cases hleft

/-- `clear` starts: what `forEach` had to meet and is still there was met. -/
theorem Kept.startClear (h : s.Kept table) {unvisited : List ℕ}
    (hphase : s.failAll = .failing current unvisited)
    (hdone : ∀ i ∈ unvisited, i ∉ s.entries current) :
    ({ s with failAll := .clearing current (s.entries current) } : ClientCalls).Kept table := by
  by_cases heq : current = table
  · subst heq
    refine ⟨h.found, fun unvisited hphase' => ?_, fun left _ call hcall hopen => ?_⟩
    · cases hphase'
    · obtain ⟨i, hi⟩ := List.mem_iff_getElem?.mp hcall
      refine hdone i (h.unvisited unvisited hphase i call hi hopen) ?_
      exact mem_entries.mpr ⟨call, hi, hopen.isIn⟩
  · exact h.setFailAll heq

theorem Kept.clear (h : s.Kept table) {left : List ℕ} (hphase : s.failAll = .clearing current left)
    (hupdate : s.updateEntry current i (fun entry => { entry with isRegistered := false }) =
      some t) : t.Kept table := by
  obtain ⟨call, entry, hi, htable, hplace, hregistered, rfl⟩ := updateEntry_eq_some hupdate
  refine h.setPlace (n := s.inFlight) hi (fun htable' entry' heq hopen => ?_) ?_
  · cases heq
    obtain rfl := htable.symm.trans htable'
    have hbefore : call.IsOpenIn current := ⟨htable, entry, hplace, hregistered, hopen⟩
    exact absurd hbefore (h.cleared left hphase call (List.mem_of_getElem? hi))
  · rintro ⟨-, entry', heq, hin, -⟩
    cases heq
    cases hin

theorem Kept.failAllStep (h : s.Kept table) {event : FailAllStep}
    (hstep : s.failAllStep event = some t) : t.Kept table := by
  cases event with
  | start =>
    obtain ⟨-, hstep⟩ := Option.ite_none_right_eq_some.mp hstep
    exact Option.some_inj.mp hstep ▸ h.startFailing .pending
  | visit i =>
    simp only [ClientCalls.failAllStep] at hstep
    split at hstep
    · rename_i hphase hclosed
      exact h.visit hphase hstep
    · cases hstep
  | startClear =>
    simp only [ClientCalls.failAllStep] at hstep
    split at hstep
    · rename_i hphase
      obtain ⟨hdone, hstep⟩ := Option.ite_none_right_eq_some.mp hstep
      exact Option.some_inj.mp hstep ▸ h.startClear hphase hdone
    all_goals cases hstep
  | clear i =>
    simp only [ClientCalls.failAllStep] at hstep
    split at hstep
    · rename_i hphase
      exact h.clear hphase hstep
    all_goals cases hstep
  | endClear =>
    simp only [ClientCalls.failAllStep] at hstep
    split at hstep
    · rename_i current left hphase
      obtain ⟨-, hstep⟩ := Option.ite_none_right_eq_some.mp hstep
      cases hstep
      cases current with
      | pending => exact h.startFailing .streams
      | streams => exact h.setFailAll id
    all_goals cases hstep

theorem Kept.step (h : s.Kept table) {label : LifeLabel} (hguard : s.PutsApart table label)
    (hstep : step config s label = some t) : t.Kept table := by
  cases label with
  | invoke invocation => exact Option.some_inj.mp hstep ▸ h.invoke invocation
  | call i event =>
    obtain ⟨call, hi, hstep⟩ := Option.bind_eq_some_iff.mp hstep
    obtain ⟨⟨n, place⟩, hcall, rfl⟩ := Option.map_eq_some_iff.mp hstep
    exact h.moves hi (callMoves_of_callStep hcall) hguard
  | refuse => exact Option.some_inj.mp hstep ▸ ⟨h.found, h.unvisited, h.cleared⟩
  | shut closer =>
    obtain ⟨-, hstep⟩ := Option.ite_none_right_eq_some.mp hstep
    exact Option.some_inj.mp hstep ▸ ⟨h.found, h.unvisited, h.cleared⟩
  | failAll event => exact h.failAllStep hstep
  | drain =>
    obtain ⟨-, hstep⟩ := Option.ite_none_right_eq_some.mp hstep
    exact Option.some_inj.mp hstep ▸ ⟨h.found, h.unvisited, h.cleared⟩
  | drainer timeUp succeeds =>
    obtain ⟨-, hcalls, hphase⟩ := (drainMoves_of_drainerStep hstep).calls_eq
    obtain ⟨hfound, hunvisited, hcleared⟩ := h
    rw [← hcalls, ← hphase] at hunvisited hcleared
    exact ⟨hcalls ▸ hfound, hunvisited, hcleared⟩

end Kept

end ClientCalls

/-- If no stream is put into the map while `failAll` goes through it and empties it, then every
stream that has not terminated is in the map, from the moment it is put there: it leaves the
map only when it has terminated. -/
theorem open_stream_registered {config : ClientConfig} {maxInFlight : ℕ} {w : List LifeLabel}
    {t : ClientCalls}
    (hmeets : MeetsGuard (ClientCalls.step config) (ClientCalls.PutsApart .streams)
      (.init maxInFlight) w)
    (hrun : run (ClientCalls.step config) (.init maxInFlight) w = some t)
    {call : ClientCall} (hcall : call ∈ t.calls) (hstream : call.invocation.table = .streams)
    {entry : CallEntry} (hentry : call.entry? = some entry) (hopen : entry.completion = .open) :
    entry.isRegistered = true := by
  have h : t.Kept .streams :=
    hmeets.invariant (fun hguard h hstep => h.step hguard hstep) hrun
      (ClientCalls.kept_init maxInFlight)
  have hplace := ClientCall.entry?_eq_some.mp hentry
  refine (h.found call hcall hstream entry hplace hopen).resolve_right ?_
  rintro ⟨⟨⟩, -⟩

/-- The connection is lost while the second stream is not in the map yet: the first one is
failed, and the second is put into the map after that. -/
def putAfterFailAll : List LifeLabel :=
  [.invoke (.serverStream ⟨1, [], some oneSecond, none⟩)] ++ untilPut 0 ++
    [.call 0 .put, .call 0 (.enqueue idleWriter), .call 0 .arm, .call 0 .attach,
      .invoke (.serverStream ⟨1, [], some oneSecond, none⟩)] ++ untilPut 1 ++
    [.shut .connection, .failAll .start, .failAll .startClear, .failAll .endClear,
      .failAll (.visit 0), .call 0 .handle, .call 0 .handle, .failAll .startClear,
      .failAll .endClear, .call 1 .put]

theorem open_stream_registered_putAfterFailAll :
    ∃ t, run (ClientCalls.step plainConfig) (.init 2) putAfterFailAll = some t ∧
      ∃ call ∈ t.calls, ∃ entry, call.entry? = some entry ∧ entry.completion = .open ∧
        entry.isRegistered = true := by
  have hrun : ∃ t ∈ run (ClientCalls.step plainConfig) (.init 2) putAfterFailAll,
      ∃ call ∈ t.calls, call.invocation.table = .streams ∧
        ∃ entry ∈ call.entry?, entry.completion = .open := by
    decide +kernel
  have hmeets : MeetsGuard (ClientCalls.step plainConfig) (ClientCalls.PutsApart .streams)
      (.init 2) putAfterFailAll := by
    decide +kernel
  obtain ⟨t, hrun, call, hcall, hstream, entry, hentry, hopen⟩ := hrun
  exact ⟨t, hrun, call, hcall, entry, hentry, hopen,
    open_stream_registered hmeets hrun hcall hstream hentry hopen⟩

/-- The stream is put into the map after `forEach` and before `clear`. -/
def putBeforeClear : List LifeLabel :=
  [.invoke (.serverStream ⟨1, [], some oneSecond, none⟩)] ++ untilPut 0 ++
    [.shut .connection, .failAll .start, .failAll .startClear, .failAll .endClear, .call 0 .put,
      .failAll .startClear, .failAll (.clear 0), .failAll .endClear,
      .call 0 (.enqueue idleWriter), .call 0 .arm, .call 0 .attach]

/-- The method has returned the stream. It has not terminated, and it is not in the map. -/
theorem stream_orphaned :
    ∃ t ∈ run (ClientCalls.step plainConfig) (.init 1) putBeforeClear,
      ∃ call ∈ t.calls, call.invocation.table = .streams ∧ ∃ entry ∈ call.entry?,
        entry.progress.IsReturned ∧ entry.completion = .open ∧ entry.isRegistered = false := by
  decide +kernel

end MoonLightBridge.Client
