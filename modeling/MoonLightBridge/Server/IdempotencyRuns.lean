import MoonLightBridge.Semantics.Transition
import MoonLightBridge.Server.IdempotencyCache

/-!
# Runs of the idempotency cache

Workers set results and callers fetch them, in any order. Over a whole run an operation is
started again only after an earlier one of its key has completed and left the cache, and
never after one that panicked.
-/

namespace MoonLightBridge.Server.Idempotency

open Transition

/-! ### Workers -/

variable {i owner : ℕ}

section Workers

variable {K V E : Type*} [DecidableEq K] {cfg : CacheConfig} {s t : State K V E}
  {label : Label K V E}

/-- The operation has not ended, or its result is not set yet. -/
def WorkerPhase.IsBusy : WorkerPhase V E → Prop
  | .running | .finished _ => True
  | .notifying | .done => False

/-- How a caller behind the critical section may move. -/
inductive CallerMoves (s : State K V E) (caller : Caller V E) : Caller V E → Prop
  /-- it looks at the result of its entry -/
  | inspects {i : ℕ} (hentry : caller.entry = some i) : CallerMoves s caller
      (caller.inspect (s.result i))
  /-- it goes round its loop, or is cancelled -/
  | turns {caller' : Caller V E} (hentry : caller'.entry = caller.entry)
      (hreplayed : caller'.replayed = caller.replayed) (hwaiting : caller'.phase ≠ .waiting)
      (hreturned : ∀ outcome, caller'.phase ≠ .returned outcome) : CallerMoves s caller caller'

/-- All that a step can do. -/
inductive Steps (cfg : CacheConfig) (s : State K V E) : State K V E → Prop
  | tick (duration : ℕ) : Steps cfg s { s with now := s.now + duration }
  | execute (key : K) : Steps cfg s (s.execute cfg key)
  | finish {i owner : ℕ} (hworker : s.workers[i]? = some ⟨owner, .running⟩)
      (result : Result V E) : Steps cfg s (s.setWorker i ⟨owner, .finished result⟩)
  | publish {i owner : ℕ} {result : Result V E} {entry : Entry K V E}
      (hworker : s.workers[i]? = some ⟨owner, .finished result⟩)
      (hentry : s.entries[i]? = some entry) :
      Steps cfg s ((s.publish i entry result).setWorker i ⟨owner, .notifying⟩)
  | notify {i owner : ℕ} (hworker : s.workers[i]? = some ⟨owner, .notifying⟩) :
      Steps cfg s { s.setWorker i ⟨owner, .done⟩ with callers := s.callers.map (Caller.notify i) }
  | caller {c : ℕ} {caller caller' : Caller V E} (hcaller : s.callers[c]? = some caller)
      (hmoves : CallerMoves s caller caller') : Steps cfg s (s.setCaller c caller')

theorem steps_of_step (hstep : step cfg s label = some t) : Steps cfg s t := by
  cases label with
  | tick duration =>
    cases hstep
    exact .tick duration
  | execute key =>
    cases hstep
    exact .execute key
  | finish i completion =>
    simp only [step] at hstep
    split at hstep <;> cases hstep
    exact .finish ‹_› _
  | publish i =>
    simp only [step] at hstep
    split at hstep <;> cases hstep
    exact .publish ‹_› ‹_›
  | notify i =>
    simp only [step] at hstep
    split at hstep <;> cases hstep
    exact .notify ‹_›
  | inspect c =>
    simp only [step] at hstep
    split at hstep <;> cases hstep
    exact .caller ‹_› (.inspects rfl)
  | enable c | wake c | cancel c =>
    simp only [step] at hstep
    split at hstep <;> cases hstep
    rename_i hcaller
    exact .caller hcaller (.turns rfl rfl (by simp) (by simp))

/-- There is a worker for each entry, and it is busy until the result is set. -/
structure Working (s : State K V E) : Prop where
  length : s.workers.length = s.entries.length
  busy : ∀ {i worker}, s.workers[i]? = some worker → (s.result i = none ↔ worker.phase.IsBusy)

omit [DecidableEq K] in
theorem Working.congr (h : Working s) (hentries : t.entries = s.entries)
    (hworkers : t.workers = s.workers) : Working t := by
  refine ⟨by rw [hworkers, hentries, h.length], fun hi => ?_⟩
  rw [hworkers] at hi
  rw [State.result, hentries]
  exact h.busy hi

omit [DecidableEq K] in
/-- A worker goes on, and is busy as long as it was. -/
theorem Working.setWorker (h : Working s) {worker worker' : Worker V E}
    (hworker : s.workers[i]? = some worker) (hbusy : worker.phase.IsBusy ↔ worker'.phase.IsBusy) :
    Working (s.setWorker i worker') := by
  refine ⟨(List.length_set ..).trans h.length, fun {j other} hj => ?_⟩
  change (s.workers.set i worker')[j]? = some other at hj
  change s.result j = none ↔ _
  rw [List.getElem?_set] at hj
  split_ifs at hj with heq hlt
  · subst heq
    cases hj
    exact (h.busy hworker).trans hbusy
  · exact h.busy hj

omit [DecidableEq K] in
/-- The entry a finished worker is about to publish is pending. -/
theorem Working.publishes (h : Working s) {result : Result V E} {entry : Entry K V E}
    (hworker : s.workers[i]? = some ⟨owner, .finished result⟩)
    (hentry : s.entries[i]? = some entry) :
    entry.result = none ∧
      Publishes s ((s.publish i entry result).setWorker i ⟨owner, .notifying⟩) i entry result := by
  have hpending : entry.result = none := by
    have hnone := (h.busy hworker).mpr trivial
    rwa [State.result, hentry, Option.bind_some] at hnone
  refine ⟨hpending, ?_, rfl, rfl⟩
  rw [State.setWorker, State.publish, hpending]
  rfl

omit [DecidableEq K] in
/-- It is not busy any more once it has published. -/
theorem Working.publish (h : Working s) {result : Result V E} {entry : Entry K V E}
    (hworker : s.workers[i]? = some ⟨owner, .finished result⟩)
    (hentry : s.entries[i]? = some entry) :
    Working ((s.publish i entry result).setWorker i ⟨owner, .notifying⟩) := by
  obtain ⟨-, hpublishes⟩ := h.publishes hworker hentry
  refine ⟨?_, fun {j other} hj => ?_⟩
  · simp only [State.setWorker, State.publish, List.length_set, h.length]
  · change (s.workers.set i _)[j]? = some other at hj
    rw [result_of_set hentry hpublishes.entries]
    rw [List.getElem?_set] at hj
    split_ifs at hj with heq hlt
    · subst heq
      cases hj
      rw [if_pos rfl]
      exact ⟨nofun, nofun⟩
    · rw [if_neg (Ne.symm heq)]
      exact h.busy hj

omit [DecidableEq K] in
/-- A new entry comes with a running worker. -/
theorem Working.append (h : Working s) {key : K} {cache : CacheState K}
    {callers : List (Caller V E)} :
    Working { s with
      cache
      entries := s.entries ++ [⟨key, none⟩]
      workers := s.workers ++ [⟨owner, .running⟩]
      callers } := by
  refine ⟨?_, fun {i worker} hi => ?_⟩
  · simp only [List.length_append, h.length, List.length_singleton]
  · rw [result_of_append rfl]
    rcases List.getElem?_concat_eq_some.mp hi with hold | ⟨rfl, rfl⟩
    · exact h.busy hold
    · have hnone : s.entries[s.workers.length]? = none := by
        rw [h.length]
        exact List.getElem?_eq_none le_rfl
      simp only [State.result, hnone, Option.bind_none]
      exact ⟨fun _ => trivial, fun _ => trivial⟩

section

variable (h : Consistent cfg s) (hworking : Working s) (hstep : step cfg s label = some t)

include h hworking hstep

/-- What a step does to the entries and the cache. -/
theorem step_cases :
    (t.cache = s.cache ∧ t.entries = s.entries ∧ s.now ≤ t.now) ∨
    (∃ key dropped, Admits cfg s key t.cache dropped ∧
      t.entries = s.entries ++ [⟨key, none⟩] ∧ t.now = s.now) ∨
    (∃ i entry result, s.entries[i]? = some entry ∧ entry.result = none ∧
      Publishes s t i entry result) := by
  cases steps_of_step hstep with
  | tick duration => exact .inl ⟨rfl, rfl, Nat.le_add_right _ _⟩
  | execute key =>
    unfold State.execute
    rcases criticalSection_cases h key with ⟨i, -, hsection⟩ |
      ⟨cache, dropped, hsection, hadmits⟩ | ⟨hsection, -⟩
    · rw [hsection]
      exact .inl ⟨rfl, rfl, le_rfl⟩
    · rw [hsection]
      exact .inr (.inl ⟨key, dropped, hadmits, rfl, rfl⟩)
    · rw [hsection]
      exact .inl ⟨rfl, rfl, le_rfl⟩
  | publish hworker hentry =>
    exact .inr (.inr ⟨_, _, _, hentry, hworking.publishes hworker hentry⟩)
  | finish | notify | caller => exact .inl ⟨rfl, rfl, le_rfl⟩

theorem consistent_step : Consistent cfg t := by
  rcases step_cases h hworking hstep with ⟨hcache, hentries, hnow⟩ |
    ⟨key, dropped, hadmits, hentries, hnow⟩ | ⟨i, entry, result, hentry, hpending, hpublishes⟩
  · exact h.congr hcache hentries hnow
  · exact consistent_of_admits h hadmits rfl hentries hnow
  · exact consistent_of_publishes h hpublishes hentry hpending

/-- A result is set once. -/
theorem result_of_step {answer : ℕ × Result V E} (hanswer : s.result i = some answer) :
    t.result i = some answer := by
  rcases step_cases h hworking hstep with ⟨-, hentries, -⟩ |
    ⟨key, dropped, -, hentries, -⟩ | ⟨j, entry, result, hentry, hpending, hpublishes⟩
  · rwa [State.result, hentries]
  · rwa [result_of_append hentries]
  -- the worker sets the result of a pending entry, which `i` is not
  · have hne : i ≠ j := by
      rintro rfl
      rw [State.result, hentry, Option.bind_some, hpending] at hanswer
      cases hanswer
    rw [result_of_set hentry hpublishes.entries, if_neg hne, hanswer]

theorem working_step : Working t := by
  cases steps_of_step hstep with
  | tick | caller => exact hworking.congr rfl rfl
  | execute key =>
    unfold State.execute
    rcases criticalSection_cases h key with ⟨i, -, hsection⟩ |
      ⟨cache, dropped, hsection, -⟩ | ⟨hsection, -⟩
    · rw [hsection]
      exact hworking.congr rfl rfl
    · rw [hsection]
      exact hworking.append
    · rw [hsection]
      exact hworking.congr rfl rfl
  | finish hworker result => exact hworking.setWorker hworker Iff.rfl
  | publish hworker hentry => exact hworking.publish hworker hentry
  | @notify i owner hworker =>
    have hset : Working (s.setWorker i ⟨owner, .done⟩) := hworking.setWorker hworker Iff.rfl
    exact hset.congr rfl rfl

end

end Workers

/-! ### Callers -/

section Callers

variable {K V E : Type*} [DecidableEq K] {cfg : CacheConfig} {s t : State K V E}
  {label : Label K V E}

/-- What holds of a caller that is attached to an entry. -/
structure Attached (s : State K V E) (c : ℕ) (caller : Caller V E) (i : ℕ) : Prop where
  /-- it has brought the operation exactly if it does not reuse one, and it is left waiting
  only as long as the worker has not notified it -/
  worker : ∃ worker : Worker V E, s.workers[i]? = some worker ∧
    (caller.replayed = false ↔ worker.owner = c) ∧
    (caller.phase = .waiting → caller.notified = false → worker.phase ≠ .done)
  returned : ∀ outcome, caller.phase = .returned outcome →
    ∃ completed result, s.result i = some (completed, result) ∧
      outcome = result.map fun value => ⟨value, caller.replayed⟩

/-- The callers and their entries. -/
structure Served (s : State K V E) : Prop where
  attached : ∀ {c i : ℕ} {caller : Caller V E}, s.callers[c]? = some caller →
    caller.entry = some i → Attached s c caller i
  owner_lt : ∀ owner ∈ s.workers.map Worker.owner, owner < s.callers.length

/-- Workers keep their owners, results stay, and no worker is done that was not. -/
structure Grows (s t : State K V E) : Prop where
  worker : ∀ {i : ℕ} {worker : Worker V E}, s.workers[i]? = some worker →
    ∃ worker' : Worker V E, t.workers[i]? = some worker' ∧ worker'.owner = worker.owner ∧
      (worker'.phase = .done → worker.phase = .done)
  result : ∀ {i : ℕ} {answer : ℕ × Result V E}, s.result i = some answer →
    t.result i = some answer

section Grows

omit [DecidableEq K]

variable {c : ℕ} {caller : Caller V E}

theorem Attached.mono (h : Attached s c caller i) (hgrows : Grows s t) : Attached t c caller i := by
  obtain ⟨⟨worker, hworker, howner, hwaits⟩, hreturned⟩ := h
  obtain ⟨worker', hworker', howner', hdone⟩ := hgrows.worker hworker
  refine ⟨⟨worker', hworker', howner' ▸ howner, fun hphase hnotified hdone' => ?_⟩,
    fun outcome houtcome => ?_⟩
  · exact hwaits hphase hnotified (hdone hdone')
  · obtain ⟨completed, result, hresult, rfl⟩ := hreturned outcome houtcome
    exact ⟨completed, result, hgrows.result hresult, rfl⟩

theorem grows_of_eq (hworkers : t.workers = s.workers) (hentries : t.entries = s.entries) :
    Grows s t := by
  refine ⟨fun {i worker} hi => ⟨worker, hworkers ▸ hi, rfl, id⟩, fun hi => ?_⟩
  rwa [State.result, hentries]

theorem grows_of_set {worker worker' : Worker V E} (hworker : s.workers[i]? = some worker)
    (hworkers : t.workers = s.workers.set i worker') (howner : worker'.owner = worker.owner)
    (hdone : worker'.phase ≠ .done)
    (hresult : ∀ {j : ℕ} {answer : ℕ × Result V E}, s.result j = some answer →
      t.result j = some answer) : Grows s t := by
  refine ⟨fun {j other} hj => ?_, hresult⟩
  rw [hworkers, List.getElem?_set]
  split_ifs with heq hlt
  · subst heq
    obtain rfl := Option.mem_unique hworker hj
    exact ⟨worker', rfl, howner, fun hphase => absurd hphase hdone⟩
  · exact absurd (heq ▸ (List.getElem?_eq_some_iff.mp hworker).1) hlt
  · exact ⟨other, hj, rfl, id⟩

theorem map_owner_set {worker worker' : Worker V E} (hworker : s.workers[i]? = some worker)
    (howner : worker'.owner = worker.owner) :
    (s.workers.set i worker').map Worker.owner = s.workers.map Worker.owner :=
  List.map_set_of_eq hworker howner

/-- The callers stand still. -/
theorem Served.of_grows (h : Served s) (hgrows : Grows s t) (hcallers : t.callers = s.callers)
    (howners : t.workers.map Worker.owner = s.workers.map Worker.owner) : Served t := by
  refine ⟨fun hc hi => (h.attached (hcallers ▸ hc) hi).mono hgrows, ?_⟩
  rw [howners, hcallers]
  exact h.owner_lt

/-- One caller moves. -/
theorem Served.setCaller (h : Served s) (caller : Caller V E)
    (hattached : ∀ i, caller.entry = some i → Attached s c caller i) :
    Served (s.setCaller c caller) := by
  refine ⟨fun {d i other} hd hi => ?_, ?_⟩
  · have hother : Attached s d other i := by
      change (s.callers.set c caller)[d]? = some other at hd
      rw [List.getElem?_set] at hd
      split_ifs at hd with heq hlt
      · subst heq
        cases hd
        exact hattached i hi
      · exact h.attached hd hi
    exact hother.mono (grows_of_eq rfl rfl)
  · simp only [State.setCaller, List.length_set]
    exact h.owner_lt

/-- A caller that neither waits nor has returned. -/
theorem Attached.move {caller' : Caller V E} (h : Attached s c caller i)
    (hreplayed : caller'.replayed = caller.replayed) (hwaiting : caller'.phase ≠ .waiting)
    (hreturned : ∀ outcome, caller'.phase ≠ .returned outcome) : Attached s c caller' i := by
  obtain ⟨⟨worker, hworker, howner, -⟩, -⟩ := h
  exact ⟨⟨worker, hworker, hreplayed ▸ howner, fun hphase => absurd hphase hwaiting⟩,
    fun outcome hphase => absurd hphase (hreturned outcome)⟩

theorem entry_inspect {answer : Option (ℕ × Result V E)} :
    (caller.inspect answer).entry = caller.entry := by
  unfold Caller.inspect
  split <;> rfl

/-- A caller that has looked at the result. -/
theorem Attached.inspect (hworking : Working s) (h : Attached s c caller i) :
    Attached s c (caller.inspect (s.result i)) i := by
  obtain ⟨⟨worker, hworker, howner, -⟩, -⟩ := h
  match hresult : s.result i with
  | some (completed, result) =>
    refine ⟨⟨worker, hworker, howner, nofun⟩, fun outcome hphase => ?_⟩
    exact ⟨completed, result, hresult, (CallerPhase.returned.inj hphase).symm⟩
  | none =>
    refine ⟨⟨worker, hworker, howner, fun _ _ hdone => ?_⟩, nofun⟩
    -- no result means a busy worker, so the notification is still to come
    have hbusy := (hworking.busy hworker).mp hresult
    rw [hdone] at hbusy
    exact hbusy

theorem notify_spec (i : ℕ) (caller : Caller V E) :
    (caller.notify i).entry = caller.entry ∧ (caller.notify i).replayed = caller.replayed ∧
      (caller.notify i).phase = caller.phase ∧
      (caller.phase = .waiting → (caller.notify i).notified = false →
        caller.notified = false ∧ caller.entry ≠ some i) := by
  unfold Caller.notify
  split
  · rename_i hphase
    split_ifs <;> exact ⟨rfl, rfl, rfl, fun hwaiting => nomatch hphase.symm.trans hwaiting⟩
  · split_ifs with hentry
    -- a waiter of this entry is notified
    · exact ⟨rfl, rfl, rfl, nofun⟩
    · exact ⟨rfl, rfl, rfl, fun _ hnotified => ⟨hnotified, hentry⟩⟩
  · rename_i _ hnot
    exact ⟨rfl, rfl, rfl, fun hwaiting => absurd hwaiting hnot⟩

/-- A worker is done and has notified its waiters. -/
theorem Served.notify (h : Served s) (hworker : s.workers[i]? = some ⟨owner, .notifying⟩) :
    Served { s.setWorker i ⟨owner, .done⟩ with callers := s.callers.map (Caller.notify i) } := by
  refine ⟨fun {c j caller'} hc hj => ?_, ?_⟩
  · rw [List.getElem?_map] at hc
    obtain ⟨caller, hcaller, rfl⟩ := Option.map_eq_some_iff.mp hc
    obtain ⟨hentry, hreplayed, hphase, hnotified⟩ := notify_spec i caller
    obtain ⟨⟨worker, hworker', howner, hwaits⟩, hreturned⟩ := h.attached hcaller (hentry ▸ hj)
    refine ⟨?_, fun outcome houtcome => ?_⟩
    · simp only [State.setWorker, List.getElem?_set, hreplayed, hphase]
      split_ifs with heq hlt
      · -- its own waiters are notified
        subst heq
        obtain rfl := Option.mem_unique hworker hworker'
        exact ⟨_, rfl, howner, fun hwaiting hnot =>
          absurd (hentry ▸ hj) (hnotified hwaiting hnot).2⟩
      · exact absurd (heq ▸ (List.getElem?_eq_some_iff.mp hworker).1) hlt
      · exact ⟨worker, hworker', howner, fun hwaiting hnot =>
          hwaits hwaiting (hnotified hwaiting hnot).1⟩
    · rw [hphase] at houtcome
      rw [hreplayed]
      exact hreturned outcome houtcome
  · have howners : (s.workers.set i ⟨owner, .done⟩).map Worker.owner =
        s.workers.map Worker.owner := map_owner_set hworker rfl
    simp only [State.setWorker, List.length_map, howners]
    exact h.owner_lt

end Grows

/-- A caller has passed the critical section of `execute`. -/
theorem served_execute (h : Consistent cfg s) (hworking : Working s) (hserved : Served s)
    (key : K) : Served (s.execute cfg key) := by
  have howner_lt : ∀ owner ∈ s.workers.map Worker.owner, owner < s.callers.length + 1 :=
    fun owner hmem => Nat.lt_succ_of_lt (hserved.owner_lt owner hmem)
  unfold State.execute
  rcases criticalSection_cases h key with ⟨i, hlookup, hsection⟩ |
    ⟨cache, dropped, hsection, -⟩ | ⟨hsection, -⟩
  · rw [hsection]
    refine ⟨fun {c j caller} hc hj => ?_, by simpa using howner_lt⟩
    have hgrows : Grows s { s with
        cache := s.cache, callers := s.callers ++ [⟨some i, true, .looping, false⟩] } :=
      grows_of_eq rfl rfl
    rcases List.getElem?_concat_eq_some.mp hc with hc | ⟨rfl, rfl⟩
    · exact (hserved.attached hc hj).mono hgrows
    · -- it reuses the operation of another caller
      cases hj
      obtain ⟨entry, hentry, -⟩ := h.known hlookup
      have hlt : i < s.workers.length :=
        hworking.length ▸ (List.getElem?_eq_some_iff.mp hentry).1
      have howner : s.workers[i].owner < s.callers.length :=
        hserved.owner_lt _ (List.mem_map_of_mem (List.getElem_mem hlt))
      exact ⟨⟨s.workers[i], List.getElem?_eq_getElem hlt, ⟨nofun, fun heq => by omega⟩, nofun⟩,
        nofun⟩
  · rw [hsection]
    refine ⟨fun {c j caller} hc hj => ?_, ?_⟩
    · rcases List.getElem?_concat_eq_some.mp hc with hc | ⟨rfl, rfl⟩
      · refine (hserved.attached hc hj).mono
          ⟨fun {k worker} hk => ⟨worker, ?_, rfl, id⟩, fun hk => ?_⟩
        · exact (List.getElem?_append_left (List.getElem?_eq_some_iff.mp hk).1).trans hk
        · rwa [result_of_append rfl]
      · -- it has brought the operation
        cases hj
        refine ⟨⟨⟨s.callers.length, .running⟩, ?_, ⟨fun _ => rfl, fun _ => rfl⟩, nofun⟩, nofun⟩
        simp only [← hworking.length, List.getElem?_concat_length]
    · simp only [List.map_append, List.mem_append, List.length_append, List.length_singleton,
        List.map_cons, List.map_nil, List.mem_singleton]
      rintro owner (hold | rfl)
      · exact howner_lt owner hold
      · exact Nat.lt_succ_self _
  · rw [hsection]
    refine ⟨fun {c j caller} hc hj => ?_, by simpa using howner_lt⟩
    rcases List.getElem?_concat_eq_some.mp hc with hc | ⟨rfl, rfl⟩
    · exact (hserved.attached hc hj).mono (grows_of_eq rfl rfl)
    · cases hj

theorem served_step (h : Consistent cfg s) (hworking : Working s) (hserved : Served s)
    (hstep : step cfg s label = some t) : Served t := by
  have hresults : ∀ {i : ℕ} {answer : ℕ × Result V E}, s.result i = some answer →
      t.result i = some answer := result_of_step h hworking hstep
  cases steps_of_step hstep with
  | tick => exact hserved.of_grows (grows_of_eq rfl rfl) rfl rfl
  | execute key => exact served_execute h hworking hserved key
  | finish hworker | publish hworker =>
    exact hserved.of_grows (grows_of_set hworker rfl rfl (by simp) hresults) rfl
      (map_owner_set hworker rfl)
  | notify hworker => exact hserved.notify hworker
  | caller hcaller hmoves =>
    refine hserved.setCaller _ fun i hi => ?_
    cases hmoves with
    | inspects hentry =>
      obtain rfl := Option.some.inj (hentry.symm.trans (entry_inspect ▸ hi))
      exact (hserved.attached hcaller hentry).inspect hworking
    | turns hentry hreplayed hwaiting hreturned =>
      exact (hserved.attached hcaller (hentry ▸ hi)).move hreplayed hwaiting hreturned

end Callers

/-! ### Whole runs -/

section Runs

variable {K V E : Type*} [DecidableEq K] {cfg : CacheConfig} {s t : State K V E}
  {label : Label K V E}

structure Invariant (cfg : CacheConfig) (s : State K V E) : Prop where
  consistent : Consistent cfg s
  working : Working s
  served : Served s

theorem invariant_init (cfg : CacheConfig) : Invariant cfg (State.init : State K V E) where
  consistent := consistent_init cfg
  working := ⟨rfl, fun h => nomatch h⟩
  served := ⟨fun h => (nomatch h), nofun⟩

theorem invariant_step (h : Invariant cfg s) (hstep : step cfg s label = some t) :
    Invariant cfg t where
  consistent := consistent_step h.consistent h.working hstep
  working := working_step h.consistent h.working hstep
  served := served_step h.consistent h.working h.served hstep

variable {key : K}

/-- A pending or indeterminate entry stays where it is. -/
theorem lookup_of_not_determinate (h : Invariant cfg s) (hstep : step cfg s label = some t)
    (hlookup : s.cache.lookup key = some i) (hnot : ¬ s.Determinate i) :
    t.cache.lookup key = some i := by
  rcases step_cases h.consistent h.working hstep with ⟨hcache, -⟩ | ⟨key', dropped, hadmits, -⟩ |
    ⟨j, entry, result, -, -, hpublishes⟩
  · rw [hcache, hlookup]
  · exact hadmits.lookup_of_not_determinate h.consistent hlookup hnot
  · rw [hpublishes.lookup, hlookup]

/-- Who finds the cache full: a new key, when nothing in the cache can go. -/
theorem criticalSection_eq_overloaded_iff (h : Consistent cfg s) (key : K) :
    (s.criticalSection cfg key).2 = .overloaded ↔
      s.cache.lookup key = none ∧ s.cache.size = cfg.capacity ∧
        ∀ key' i, s.cache.lookup key' = some i → ¬ s.Determinate i := by
  constructor
  · intro hoverloaded
    rcases criticalSection_cases h key with ⟨i, -, hsection⟩ | ⟨cache, dropped, hsection, -⟩ |
      ⟨-, hlookup, hfull, hqueue⟩
    · rw [hsection] at hoverloaded
      cases hoverloaded
    · rw [hsection] at hoverloaded
      cases hoverloaded
    · refine ⟨hlookup, hfull, fun key' i hi hdeterminate => ?_⟩
      -- a determinate result would be queued
      have hmem : key' ∈ s.cache.queue := (h.queued key').mpr ⟨i, hi, hdeterminate⟩
      rw [hqueue] at hmem
      cases hmem
  · rintro ⟨hlookup, hfull, hnone⟩
    have hqueue : s.cache.queue = [] := by
      refine List.eq_nil_iff_forall_not_mem.mpr fun key' hmem => ?_
      obtain ⟨i, hi, hdeterminate⟩ := (h.queued key').mp hmem
      exact hnone key' i hi hdeterminate
    rw [State.criticalSection, hlookup]
    simp only [hfull, hqueue, le_refl, if_true]
    rfl

/-- An admission under a key that is in the cache takes out only what has expired. -/
theorem expired_of_removed (h : Consistent cfg s) {key' : K} {j : ℕ}
    (hlookup : s.cache.lookup key = some i) (hlookup' : s.cache.lookup key' = some j)
    (hremoved : (s.criticalSection cfg key).1.lookup key' ≠ some j) : s.Expired cfg key' := by
  rcases criticalSection_cases h key with ⟨k, -, hsection⟩ | ⟨cache, dropped, hsection, hadmits⟩ |
    ⟨-, hnone, -⟩
  · rw [hsection] at hremoved
    exact absurd hlookup' hremoved
  · rw [hsection, hadmits.lookup] at hremoved
    have hdropped : key' ∈ dropped := by
      by_contra hnot
      split_ifs at hremoved with heq
      · subst heq
        exact hnot (hadmits.replaced (by simp [hlookup]))
      · exact hremoved hlookup'
    refine (hadmits.retired key' hdropped).resolve_right fun hfull => ?_
    rw [hfull.1] at hlookup
    cases hlookup
  · rw [hnone] at hlookup
    cases hlookup

/-- The cache in every reachable state: it is never over capacity; its queue lists the
keys with a determinate result, once and in the order of completion; other entries stay;
the cache is full for a new key only if there are no such keys; and the sweep for an
expired key takes out expired entries only. -/
theorem cache_consistent (cfg : CacheConfig) (s : State K V E)
    (hreachable : Reachable (step cfg) State.init s) :
    s.cache.size ≤ cfg.capacity ∧
    s.cache.queue.Nodup ∧
    (∀ key, key ∈ s.cache.queue ↔ ∃ i, s.cache.lookup key = some i ∧ s.Determinate i) ∧
    (s.cache.queue.Pairwise fun key key' => s.completedAt key ≤ s.completedAt key') ∧
    (∀ label t, step cfg s label = some t → ∀ key i, s.cache.lookup key = some i →
      ¬ s.Determinate i → t.cache.lookup key = some i) ∧
    (∀ key, (s.criticalSection cfg key).2 = .overloaded ↔
      s.cache.lookup key = none ∧ s.cache.size = cfg.capacity ∧
        ∀ key' i, s.cache.lookup key' = some i → ¬ s.Determinate i) ∧
    (∀ key i, s.cache.lookup key = some i → ∀ key' j, s.cache.lookup key' = some j →
      (s.criticalSection cfg key).1.lookup key' ≠ some j → s.Expired cfg key') := by
  have h : Invariant cfg s := hreachable.invariant invariant_step (invariant_init cfg)
  refine ⟨h.consistent.size_le, h.consistent.nodup, h.consistent.queued, h.consistent.sorted,
    ?_, criticalSection_eq_overloaded_iff h.consistent, ?_⟩
  · intro label t hstep key i hlookup hnot
    exact lookup_of_not_determinate h hstep hlookup hnot
  · intro key i hlookup key' j hlookup' hremoved
    exact expired_of_removed h.consistent hlookup hlookup' hremoved

/-- Room for two operations, whose results live for five units of time. -/
def smallCache : CacheConfig where
  capacity := 2
  ttl := 5
  capacity_pos := by decide
  ttl_pos := by decide

/-- Two operations complete in the order of their keys' arrival turned round. -/
def twoCompletedRun : List (Label ℕ ℕ Unit) :=
  [.execute 7, .execute 8, .finish 1 (.returned (.ok 80)), .publish 1, .tick 1,
    .finish 0 (.returned (.error ())), .publish 0]

theorem cache_consistent_twoCompletedRun :
    ∃ s : State ℕ ℕ Unit, run (step smallCache) State.init twoCompletedRun = some s ∧
      s.cache.queue = [8, 7] ∧ s.cache.size ≤ smallCache.capacity ∧
      s.cache.queue.Pairwise fun key key' => s.completedAt key ≤ s.completedAt key' := by
  have hdecide : (run (step smallCache) State.init twoCompletedRun).map
      (fun s => s.cache.queue) = some [8, 7] := by
    decide +kernel
  obtain ⟨s, hrun, hqueue⟩ := Option.map_eq_some_iff.mp hdecide
  obtain ⟨hsize, -, -, hsorted, -⟩ := cache_consistent smallCache s ⟨_, hrun⟩
  exact ⟨s, hrun, hqueue, hsize, hsorted⟩

/-- The step takes an entry out of the cache: its operation has completed with a
determinate result that has expired, or the cache is full. -/
structure Retires (cfg : CacheConfig) (s t : State K V E) (key : K) (i : ℕ) : Prop where
  cached : s.cache.lookup key = some i
  gone : t.cache.lookup key ≠ some i
  reason : ∃ completed result, s.result i = some (completed, result) ∧ ¬ IsIndeterminate result ∧
    (cfg.ttl ≤ s.now - completed ∨ s.cache.size = cfg.capacity)

theorem retires_of_gone (h : Invariant cfg s) (hstep : step cfg s label = some t)
    (hcached : s.cache.lookup key = some i) (hgone : t.cache.lookup key ≠ some i) :
    Retires cfg s t key i := by
  refine ⟨hcached, hgone, ?_⟩
  rcases step_cases h.consistent h.working hstep with ⟨hcache, -⟩ | ⟨key', dropped, hadmits, -⟩ |
    ⟨j, entry, result, -, -, hpublishes⟩
  · exact absurd (hcache ▸ hcached) hgone
  · have hdropped : key ∈ dropped := by
      by_contra hnot
      rw [hadmits.lookup] at hgone
      split_ifs at hgone with heq
      · subst heq
        exact hnot (hadmits.replaced (by simp [hcached]))
      · exact hgone hcached
    obtain ⟨completed, result, hresult, hdeterminate⟩ :=
      hadmits.determinate h.consistent hdropped hcached
    refine ⟨completed, result, hresult, hdeterminate, ?_⟩
    rcases hadmits.retired key hdropped with ⟨j, completed', result', hj, hresult', -, hexpired⟩ |
      ⟨-, hfull⟩
    · obtain rfl := Option.mem_unique hcached hj
      obtain ⟨rfl, -⟩ := Prod.mk.inj (Option.mem_unique hresult hresult')
      exact .inl hexpired
    · exact .inr hfull
  · exact absurd ((hpublishes.lookup key).trans hcached) hgone

/-- Entries keep their places and their keys. -/
theorem map_key_of_step (h : Invariant cfg s) (hstep : step cfg s label = some t) :
    s.entries.map Entry.key <+: t.entries.map Entry.key := by
  rcases step_cases h.consistent h.working hstep with ⟨-, hentries, -⟩ |
    ⟨key, dropped, -, hentries, -⟩ | ⟨i, entry, result, hentry, -, hpublishes⟩
  · exact hentries ▸ List.prefix_rfl
  · rw [hentries, List.map_append]
    exact List.prefix_append _ _
  · obtain ⟨hlt, hget⟩ := List.getElem?_eq_some_iff.mp hentry
    have hlt' : i < (s.entries.map Entry.key).length := by rwa [List.length_map]
    have hsame : entry.key = (s.entries.map Entry.key)[i] := by rw [List.getElem_map, hget]
    rw [hpublishes.entries, List.map_set]
    simp only [hsame, List.set_getElem_self]
    exact List.prefix_rfl

variable {labels : List (Label K V E)}

theorem map_key_of_run (h : Invariant cfg s) (hrun : run (step cfg) s labels = some t) :
    s.entries.map Entry.key <+: t.entries.map Entry.key := by
  have hboth : Invariant cfg t ∧ s.entries.map Entry.key <+: t.entries.map Entry.key := by
    refine run_invariant (I := fun u => Invariant cfg u ∧
      s.entries.map Entry.key <+: u.entries.map Entry.key) (fun hinv hstep => ?_) hrun
      ⟨h, List.prefix_rfl⟩
    exact ⟨invariant_step hinv.1 hstep, hinv.2.trans (map_key_of_step hinv.1 hstep)⟩
  exact hboth.2

variable {entry : Entry K V E}

/-- An entry was there before, or is new and in the cache. -/
theorem entry_of_step (h : Invariant cfg s) (hstep : step cfg s label = some t)
    (hentry : t.entries[i]? = some entry) :
    (∃ original, s.entries[i]? = some original ∧ original.key = entry.key) ∨
      t.cache.lookup entry.key = some i := by
  rcases step_cases h.consistent h.working hstep with ⟨-, hentries, -⟩ |
    ⟨key, dropped, hadmits, hentries, -⟩ | ⟨j, original, result, horiginal, -, hpublishes⟩
  · exact .inl ⟨entry, hentries ▸ hentry, rfl⟩
  · rw [hentries] at hentry
    rcases List.getElem?_concat_eq_some.mp hentry with hold | ⟨rfl, rfl⟩
    · exact .inl ⟨entry, hold, rfl⟩
    · rw [hadmits.lookup, if_pos rfl]
      exact .inr rfl
  · exact .inl (hpublishes.getElem? horiginal hentry)

/-- Every entry ever made is in the cache or was taken out of it by some step. -/
theorem cached_or_retired (hrun : run (step cfg) State.init labels = some s)
    (hentry : s.entries[i]? = some entry) :
    s.cache.lookup entry.key = some i ∨
      ∃ before label after u v, labels = before ++ label :: after ∧
        run (step cfg) State.init before = some u ∧ step cfg u label = some v ∧
        run (step cfg) v after = some s ∧ Retires cfg u v entry.key i := by
  -- induction on the last step, which takes the entry out or leaves it
  induction labels using List.reverseRecOn generalizing s entry with
  | nil =>
    cases hrun
    cases hentry
  | append_singleton labels label ih =>
    obtain ⟨u, hrun, hstep⟩ := run_concat_eq_some.mp hrun
    have hu : Invariant cfg u := run_invariant invariant_step hrun (invariant_init cfg)
    rcases entry_of_step hu hstep hentry with ⟨original, horiginal, hkey⟩ | hnew
    · rcases ih hrun horiginal with hcached | hretired
      · rw [hkey] at hcached
        by_cases hstays : s.cache.lookup entry.key = some i
        · exact .inl hstays
        · exact .inr ⟨labels, label, [], u, s, rfl, hrun, hstep, rfl,
            retires_of_gone hu hstep hcached hstays⟩
      · obtain ⟨before, label', after, x, y, rfl, hbefore, hstep', hafter, hretires⟩ := hretired
        refine .inr ⟨before, label', after ++ [label], x, y, by simp, hbefore, hstep', ?_,
          hkey ▸ hretires⟩
        exact run_concat_eq_some.mpr ⟨u, hafter, hstep⟩
    · exact .inl hnew

/-- Before an entry is made, an older one of its key has left the cache. -/
theorem retired_before (hrun : run (step cfg) State.init labels = some s) {j : ℕ}
    {entry' : Entry K V E} (hentry : s.entries[i]? = some entry)
    (hentry' : s.entries[j]? = some entry') (hkey : entry.key = entry'.key) (hlt : i < j) :
    ∃ before label after u v, labels = before ++ label :: after ∧
      run (step cfg) State.init before = some u ∧ step cfg u label = some v ∧
      u.entries.length ≤ j ∧ Retires cfg u v entry.key i := by
  have hs : Invariant cfg s := run_invariant invariant_step hrun (invariant_init cfg)
  rcases cached_or_retired hrun hentry with hcached | hretired
  · -- the newest entry of a key is the one in the cache
    rw [hkey] at hcached
    exact absurd (hs.consistent.latest hentry' hcached) (not_le.mpr hlt)
  · obtain ⟨before, label, after, u, v, hlabels, hbefore, hstep, hafter, hretires⟩ := hretired
    refine ⟨before, label, after, u, v, hlabels, hbefore, hstep, ?_, hretires⟩
    -- otherwise the newer entry is there already, and it is the one in the cache
    by_contra hmade
    have hu : Invariant cfg u := run_invariant invariant_step hbefore (invariant_init cfg)
    obtain ⟨rest, hkeys⟩ : u.entries.map Entry.key <+: s.entries.map Entry.key :=
      (map_key_of_step hu hstep).trans (map_key_of_run (invariant_step hu hstep) hafter)
    have hget : u.entries[j]? = some u.entries[j] := List.getElem?_eq_getElem _
    have hsame : u.entries[j].key = entry.key := by
      have hkey' : (s.entries.map Entry.key)[j]? = some entry'.key := by
        rw [List.getElem?_map, hentry']
        rfl
      rw [← hkeys, List.getElem?_append_left (by rw [List.length_map]; omega),
        List.getElem?_map, hget] at hkey'
      exact (Option.some.inj hkey').trans hkey.symm
    have hle := hu.consistent.latest hget (hsame ▸ hretires.cached)
    omega

/-- The operation has panicked, whether its result is set or not. -/
def State.Panicked (s : State K V E) (i : ℕ) : Prop :=
  (∃ owner, s.workers[i]? = some ⟨owner, .finished (.error .indeterminate)⟩) ∨
    ∃ completed, s.result i = some (completed, .error .indeterminate)

theorem not_determinate_of_panicked (h : Invariant cfg s) (hpanicked : s.Panicked i) :
    ¬ s.Determinate i := by
  rintro ⟨completed, result, hresult, hdeterminate⟩
  rcases hpanicked with ⟨owner, hworker⟩ | ⟨completed', hresult'⟩
  · have hnone := (h.working.busy hworker).mpr trivial
    exact nomatch hnone.symm.trans hresult
  · obtain ⟨-, rfl⟩ := Prod.mk.inj (Option.mem_unique hresult hresult')
    exact hdeterminate trivial

theorem panicked_step (h : Invariant cfg s) (hstep : step cfg s label = some t)
    (hpanicked : s.Panicked i) : t.Panicked i := by
  rcases hpanicked with ⟨owner, hworker⟩ | ⟨completed, hresult⟩
  swap
  · exact .inr ⟨completed, result_of_step h.consistent h.working hstep hresult⟩
  -- the worker waits for the lock until it publishes what it has
  have hkept : ∀ {j : ℕ} {worker : Worker V E}, j ≠ i → t.workers = s.workers.set j worker →
      t.Panicked i := by
    intro j worker hne hworkers
    exact .inl ⟨owner, by rw [hworkers, List.getElem?_set_ne hne, hworker]⟩
  cases steps_of_step hstep with
  | tick | caller => exact .inl ⟨owner, hworker⟩
  | execute key =>
    unfold State.execute
    split
    · exact .inl ⟨owner, hworker⟩
    · exact .inl ⟨owner, hworker⟩
    · have hlt := (List.getElem?_eq_some_iff.mp hworker).1
      exact .inl ⟨owner, (List.getElem?_append_left hlt).trans hworker⟩
  | finish hrunning =>
    refine hkept ?_ rfl
    rintro rfl
    cases hworker.symm.trans hrunning
  | notify hnotifying =>
    refine hkept ?_ rfl
    rintro rfl
    cases hworker.symm.trans hnotifying
  | @publish j _ _ _ hfinished hentry =>
    obtain ⟨-, hpublishes⟩ := h.working.publishes hfinished hentry
    by_cases hne : j = i
    · subst hne
      cases hworker.symm.trans hfinished
      exact .inr ⟨s.now, by rw [result_of_set hentry hpublishes.entries, if_pos rfl]⟩
    · exact hkept hne rfl

/-- After an operation has panicked, its entry stays. -/
theorem panicked_of_run {before after : List (Label K V E)}
    (hrun : run (step cfg) State.init (before ++ .finish i .panicked :: after) = some s) :
    s.Panicked i := by
  rw [run_append, Option.bind_eq_some_iff] at hrun
  obtain ⟨u, hbefore, hrun⟩ := hrun
  obtain ⟨v, hstep, hafter⟩ := run_cons_eq_some.mp hrun
  have hu : Invariant cfg u := run_invariant invariant_step hbefore (invariant_init cfg)
  have hv : v.Panicked i := by
    simp only [step] at hstep
    split at hstep
    · rename_i owner hworker
      cases hstep
      refine .inl ⟨owner, ?_⟩
      exact List.getElem?_set_of_eq_some hworker _
    · cases hstep
  have hboth : Invariant cfg s ∧ s.Panicked i :=
    run_invariant (I := fun x => Invariant cfg x ∧ x.Panicked i)
      (fun hinv hstep => ⟨invariant_step hinv.1 hstep, panicked_step hinv.1 hstep hinv.2⟩) hafter
      ⟨invariant_step hu hstep, hv⟩
  exact hboth.2

/-- An operation is run again when its result has expired. -/
def renewedRun : List (Label ℕ ℕ Unit) :=
  [.execute 7, .finish 0 (.returned (.ok 42)), .publish 0, .notify 0, .tick 5, .execute 7]

/-- No caller is stuck: one that is attached to an entry, and has neither returned nor been
cancelled, can take a step of its own, or the worker of the entry can, however the operation
may end. -/
theorem caller_not_stuck (cfg : CacheConfig) (s : State K V E)
    (hreachable : Reachable (step cfg) State.init s) (c i : ℕ) (caller : Caller V E)
    (hc : s.callers[c]? = some caller) (hentry : caller.entry = some i)
    (hphase : caller.phase matches .looping | .enabled | .waiting)
    (completion : Completion V E) :
    ∃ label ∈ [Label.enable c, .inspect c, .wake c, .finish i completion, .publish i, .notify i],
      (step cfg s label).isSome := by
  have h : Invariant cfg s := hreachable.invariant invariant_step (invariant_init cfg)
  obtain ⟨⟨owner, worker⟩, hworker, -, hwaits⟩ := (h.served.attached hc hentry).worker
  have hlt : i < s.entries.length := h.working.length ▸ (List.getElem?_eq_some_iff.mp hworker).1
  obtain ⟨entry, replayed, phase, notified⟩ := caller
  cases hentry
  cases phase with
  | looping => exact ⟨.enable c, by simp, by simp [step, hc]⟩
  | enabled => exact ⟨.inspect c, by simp, by simp [step, hc]⟩
  | waiting =>
    cases notified with
    | true => exact ⟨.wake c, by simp, by simp [step, hc]⟩
    | false =>
      -- it has not been notified, so its worker is not done
      cases worker with
      | running => exact ⟨.finish i completion, by simp, by simp [step, hworker]⟩
      | finished result => exact ⟨.publish i, by simp, by simp [step, hworker, hlt]⟩
      | notifying => exact ⟨.notify i, by simp, by simp [step, hworker]⟩
      | done => exact absurd rfl (hwaits rfl rfl)
  | returned | cancelled => cases hphase

/-- The second caller of a key waits for the operation of the first. -/
theorem caller_not_stuck_waiting :
    ∃ s : State ℕ ℕ Unit, run (step smallCache) State.init
        [.execute 7, .execute 7, .enable 1, .inspect 1] = some s ∧
      ∃ label, (step smallCache s label).isSome :=
  ⟨_, rfl, (caller_not_stuck smallCache _ ⟨[.execute 7, .execute 7, .enable 1, .inspect 1], rfl⟩
    1 0 ⟨some 0, true, .waiting, false⟩ rfl rfl rfl .panicked).imp fun _ => And.right⟩

end Runs

end MoonLightBridge.Server.Idempotency
