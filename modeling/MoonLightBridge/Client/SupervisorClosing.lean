import MoonLightBridge.Client.Supervisor

/-!
# Closing the supervisor

`close` sets `closed` and then closes the connection it finds in `active`; `drain` drains
the connection it found there before it sets `closed`. `install` looks at `closed` and
then sets `active`. A connection that `install` publishes after the caller has looked is
closed by nobody. This file shows that there is no other way to leak one: all connections
are closed or drained if

* `install` publishes no connection once the supervisor is closed, and
* `drain` closes it while `active` holds no open connection but one that is being drained.
-/

namespace MoonLightBridge.Client

open Transition

/-- The call of `close` has set `closed` and has yet to look at `active`. -/
def Closing.WillTake : Closing → Prop
  | .shutDown | .settle | .take => True
  | .claim | .closeClient _ | .returned => False

/-- The call of `drain` sets `closed` next. -/
def Draining.Closes : Draining → Prop
  | .setClosed _ => True
  | .lookUp | .readActive | .drainClient _ | .claim _ | .shutDown _ | .listening _
  | .returned => False

instance decidableCloses : (place : Draining) → Decidable place.Closes
  | .setClosed _ => isTrue trivial
  | .lookUp | .readActive | .drainClient _ | .claim _ | .shutDown _ | .listening _
  | .returned => isFalse id

/-- The run sets `active` next. -/
def Attempt.Publishes : Attempt → Prop
  | .installing _ .publish => True
  | _ => False

instance decidablePublishes : (attempt : Attempt) → Decidable attempt.Publishes
  | .installing _ .publish => isTrue trivial
  | .installing _ .check | .installing _ .discard | .installing _ .resubscribe
  | .installing _ .announce | .installing _ .resetAttempts | .installing _ .resetFlag
  | .installing _ .register | .clearFlag | .checkClosed | .checkActive | .connecting
  | .rescheduling _ => isFalse id

namespace Supervisor

variable {s t : Supervisor} {policy : ReconnectPolicy} {j k : ℕ}

/-- The connection is open, and not being drained. -/
def Loose (s : Supervisor) (k : ℕ) : Prop :=
  ∃ c, s.connections[k]? = some c ∧ c.isOpen = true ∧ c.isDraining = false

/-- The connection a run has made and not published yet. -/
def held : Option Attempt → Option ℕ
  | some (.installing k .check) | some (.installing k .discard)
  | some (.installing k .publish) => some k
  | _ => none

/-- Who will close the connection, or let another one do so. -/
inductive Owned (s : Supervisor) (k : ℕ) : Prop
  | holding (hheld : held s.running = some k)
  | published (hactive : s.active = some k) (hopen : s.closed = false)
  | awaited (hactive : s.active = some k) (place : Closing) (hplace : place ∈ s.closings)
      (htake : place.WillTake)
  | taken (htaken : .closeClient k ∈ s.closings)

structure Accounted (s : Supervisor) : Prop where
  owned : ∀ k, s.Loose k → s.Owned k
  /-- the run is the only one to set `active` -/
  unpublished : ∀ k, held s.running = some k → s.active = none
  connecting : s.running = some .connecting → s.active = none
  /-- a handler runs when the connection has ended -/
  clearing : ∀ c ∈ s.connections, c.handler = .clearing → c.isOpen = false

/-- `install` publishes a connection only while the supervisor is not closed, and `drain`
closes the supervisor only while `active` holds no open connection but one that is being
drained. -/
def ClosesInTime (s : Supervisor) : SupervisorLabel → Prop
  | .attempt => (∃ attempt ∈ s.running, attempt.Publishes) → s.closed = false
  | .draining i => (∃ place ∈ s.drainings[i]?, place.Closes) →
      ∀ k ∈ s.active, ∀ c ∈ s.connections[k]?, c.isOpen = true → c.isDraining = true
  | .start | .connected _ | .refused | .terminate _ | .handler _ | .subscribe | .unsubscribe
  | .close | .closing _ | .drain => True

instance decidableClosesInTime (s : Supervisor) :
    (label : SupervisorLabel) → Decidable (s.ClosesInTime label)
  | .attempt => inferInstanceAs (Decidable (_ → _))
  | .draining _ => inferInstanceAs (Decidable (_ → _))
  | .start | .connected _ | .refused | .terminate _ | .handler _ | .subscribe | .unsubscribe
  | .close | .closing _ | .drain => isTrue trivial

/-! ### Connections -/

variable {c : Connection}

/-- A connection does not become loose by a change that opens none and ends no drain. -/
theorem Loose.of_setConnection {c' : Connection} (h : (s.setConnection k c').Loose j)
    (hc : s.connections[k]? = some c) (hopen : c'.isOpen = true → c.isOpen = true)
    (hdrain : c'.isDraining = false → c.isDraining = false) :
    s.Loose j ∧ (j = k → c'.isOpen = true) := by
  obtain ⟨d, hd, hdopen, hddrain⟩ := h
  rcases List.getElem?_set_eq_some hc hd with ⟨rfl, rfl⟩ | hold
  · exact ⟨⟨c, hc, hopen hdopen, hdrain hddrain⟩, fun _ => hdopen⟩
  · refine ⟨⟨d, hold, hdopen, hddrain⟩, ?_⟩
    rintro rfl
    rw [setConnection, List.getElem?_set_of_eq_some hc] at hd
    rw [Option.some_inj.mp hd]
    exact hdopen

/-- Nothing that an owner relies on changes. -/
theorem Owned.mono (h : s.Owned k) (hheld : held s.running = some k → held t.running = some k)
    (hactive : s.active = some k → t.active = some k) (hclosed : t.closed = s.closed)
    (hclosings : t.closings = s.closings) : t.Owned k := by
  cases h with
  | holding h => exact .holding (hheld h)
  | published h hopen => exact .published (hactive h) (hclosed.trans hopen)
  | awaited h place hplace htake =>
    rw [← hclosings] at hplace
    exact .awaited (hactive h) place hplace htake
  | taken h =>
    rw [← hclosings] at h
    exact .taken h

/-- Nothing changes that the accounts are about. -/
theorem Accounted.of_eq (h : s.Accounted) (hrunning : t.running = s.running)
    (hactive : t.active = s.active) (hconnections : t.connections = s.connections)
    (hclosed : t.closed = s.closed) (hclosings : t.closings = s.closings) : t.Accounted := by
  refine ⟨fun k hloose => ?_, ?_, ?_, ?_⟩
  · rw [Loose, hconnections] at hloose
    exact (h.owned k hloose).mono (hrunning ▸ id) (hactive ▸ id) hclosed hclosings
  · rw [hrunning, hactive]
    exact h.unpublished
  · rw [hrunning, hactive]
    exact h.connecting
  · rw [hconnections]
    exact h.clearing

/-! ### The run -/

theorem held_map_rescheduling (next : Option Reschedule) :
    held (next.map .rescheduling) = none := by
  cases next <;> rfl

theorem connections_rescheduleStep (policy : ReconnectPolicy) (place : Reschedule) :
    (rescheduleStep policy s place).1.connections = s.connections ∧
      (rescheduleStep policy s place).1.active = s.active ∧
      (rescheduleStep policy s place).1.running = s.running := by
  cases place with
  | claim | recheck => rw [rescheduleStep]; split <;> exact ⟨rfl, rfl, rfl⟩
  | arm =>
    rw [rescheduleStep]
    split
    · exact ⟨rfl, rfl, rfl⟩
    · split <;> exact ⟨rfl, rfl, rfl⟩

/-- A run that holds no connection moves on. -/
theorem Accounted.move (h : s.Accounted) (hbefore : held s.running = none)
    (hafter : held t.running = none)
    (hconnecting : t.running = some .connecting → t.active = none)
    (hconnections : t.connections = s.connections) (hactive : t.active = s.active)
    (hkeeps : KeepsCallers s t) : t.Accounted := by
  refine ⟨fun k hloose => ?_, fun k hheld => ?_, hconnecting, ?_⟩
  · rw [Loose, hconnections] at hloose
    refine (h.owned k hloose).mono (fun hheld => ?_) ?_ hkeeps.closed hkeeps.closings
    · rw [hbefore] at hheld
      cases hheld
    · rw [hactive]
      exact id
  · rw [hafter] at hheld
    cases hheld
  · rw [hconnections]
    exact h.clearing

theorem Accounted.installStep (h : s.Accounted) {place : Install}
    (hrunning : s.running = some (.installing k place)) (hc : s.connections[k]? = some c)
    (hguard : s.ClosesInTime .attempt) : (installStep s k c place).Accounted := by
  cases place with
  | check =>
    have hheld : held s.running = some k := by rw [hrunning]; rfl
    have hnext : held (Supervisor.installStep s k c .check).running = some k := by
      rw [Supervisor.installStep]
      split <;> rfl
    refine ⟨fun j hloose => ?_, fun j _ => h.unpublished k hheld, by rintro ⟨⟩, h.clearing⟩
    refine (h.owned j hloose).mono (fun hj => ?_) id rfl rfl
    rw [hnext, ← hheld, hj]
  | discard =>
    have hheld : held s.running = some k := by rw [hrunning]; rfl
    refine ⟨fun j hloose => ?_, by rintro _ ⟨⟩, by rintro ⟨⟩, ?_⟩
    · -- the connection the run held is closed now
      have hset : (s.setConnection k { c with isOpen := false }).Loose j := hloose
      obtain ⟨hloose, hclosed⟩ := hset.of_setConnection hc Bool.noConfusion id
      refine (h.owned j hloose).mono (fun hj => ?_) id rfl rfl
      rw [hheld] at hj
      exact Bool.noConfusion (hclosed (Option.some_inj.mp hj).symm)
    · exact List.forall_mem_set h.clearing fun _ => rfl
  | publish =>
    have hheld : held s.running = some k := by rw [hrunning]; rfl
    have hactive := h.unpublished k hheld
    have hopen : s.closed = false := hguard ⟨_, hrunning, trivial⟩
    refine ⟨fun j hloose => ?_, by rintro _ ⟨⟩, by rintro ⟨⟩, h.clearing⟩
    · cases h.owned j hloose with
      | holding hj =>
        obtain rfl := Option.mem_unique hheld hj
        exact .published rfl hopen
      | published hj | awaited hj =>
        rw [hactive] at hj
        cases hj
      | taken htaken => exact .taken htaken
  | resubscribe =>
    rw [Supervisor.installStep]
    split <;>
    · refine h.move (by rw [hrunning]; rfl) rfl ?_ rfl rfl ⟨rfl, rfl, rfl, rfl, rfl⟩
      rintro ⟨⟩
  | announce | resetAttempts | resetFlag =>
    refine h.move (by rw [hrunning]; rfl) rfl ?_ rfl rfl ⟨rfl, rfl, rfl, rfl, rfl⟩
    rintro ⟨⟩
  | register =>
    refine ⟨fun j hloose => ?_, by rintro _ ⟨⟩, by rintro ⟨⟩, ?_⟩
    · have hset : (s.setConnection k { c with handler := .registered }).Loose j := hloose
      refine (h.owned j (hset.of_setConnection hc id id).1).mono (fun hj => ?_) id rfl rfl
      rw [hrunning] at hj
      cases hj
    · exact List.forall_mem_set h.clearing Handler.noConfusion

theorem Accounted.attemptStep (h : s.Accounted) {attempt : Attempt}
    (hrunning : s.running = some attempt) (hguard : s.ClosesInTime .attempt)
    (hstep : attemptStep policy s attempt = some t) : t.Accounted := by
  have hkeeps := keepsCallers_attemptStep hstep
  cases attempt with
  | clearFlag =>
    cases hstep
    refine h.move (by rw [hrunning]; rfl) rfl (fun hnone => ?_) rfl rfl hkeeps
    cases hnone
  | checkClosed =>
    cases hstep
    refine h.move (by rw [hrunning]; rfl) ?_ (fun hnone => ?_) rfl rfl hkeeps
    · dsimp only
      split <;> rfl
    · dsimp only at hnone
      split at hnone <;> cases hnone
  | checkActive =>
    cases hstep
    refine h.move (by rw [hrunning]; rfl) ?_ (fun hnone => ?_) rfl rfl hkeeps
    · dsimp only
      split <;> rfl
    · dsimp only at hnone
      split at hnone
      · cases hnone
      · rename_i hactive
        exact Option.not_isSome_iff_eq_none.mp hactive
  | connecting => cases hstep
  | installing k place =>
    obtain ⟨c, hc, rfl⟩ := Option.map_eq_some_iff.mp hstep
    exact h.installStep hrunning hc hguard
  | rescheduling place =>
    cases hstep
    obtain ⟨hconnections, hactive, -⟩ := connections_rescheduleStep (s := s) policy place
    refine h.move (by rw [hrunning]; rfl) (held_map_rescheduling _) (fun hnone => ?_)
      hconnections hactive hkeeps
    obtain ⟨_, -, hnone⟩ := Option.map_eq_some_iff.mp hnone
    cases hnone

/-! ### Termination handlers -/

/-- A connection ends, or something else about it changes that makes nobody's duty greater. -/
theorem Accounted.setConnection (h : s.Accounted) {c' : Connection}
    (hc : s.connections[k]? = some c) (hopen : c'.isOpen = true → c.isOpen = true)
    (hdrain : c'.isDraining = false → c.isDraining = false)
    (hclearing : c'.handler = .clearing → c'.isOpen = false) :
    (s.setConnection k c').Accounted := by
  refine ⟨fun j hloose => ?_, h.unpublished, h.connecting,
    List.forall_mem_set h.clearing hclearing⟩
  exact (h.owned j (hloose.of_setConnection hc hopen hdrain).1).mono id id rfl rfl

/-- A connection that is not open leaves `active`. -/
theorem Accounted.clearActive (h : s.Accounted) (hclosed : ¬ s.Loose k)
    (hactive : s.active = some k) : { s with active := none : Supervisor }.Accounted := by
  refine ⟨fun j hloose => ?_, fun _ _ => rfl, fun _ => rfl, h.clearing⟩
  have hloose' : s.Loose j := hloose
  refine (h.owned j hloose').mono id (fun hj => ?_) rfl rfl
  obtain rfl := Option.mem_unique hactive hj
  exact absurd hloose' hclosed

theorem not_loose_of_not_isOpen (hc : s.connections[k]? = some c) (hclosed : c.isOpen = false) :
    ¬ s.Loose k := by
  rintro ⟨d, hd, hopen, -⟩
  obtain rfl := Option.mem_unique hc hd
  rw [hclosed] at hopen
  cases hopen

theorem Accounted.handlerStep (h : s.Accounted) (hc : s.connections[k]? = some c)
    (hstep : handlerStep policy s k c c.handler = some t) : t.Accounted := by
  cases hhandler : c.handler with
  | unregistered | finished =>
    rw [hhandler] at hstep
    cases hstep
  | registered =>
    rw [hhandler] at hstep
    obtain ⟨hclosed, hstep⟩ := Option.ite_none_left_eq_some.mp hstep
    cases hstep
    exact h.setConnection hc id id fun _ => Bool.eq_false_of_not_eq_true hclosed
  | clearing =>
    have hclosed := h.clearing c (List.mem_of_getElem? hc) hhandler
    rw [hhandler, Supervisor.handlerStep] at hstep
    split at hstep
    · rename_i hactive
      cases hstep
      exact (h.clearActive (not_loose_of_not_isOpen hc hclosed) hactive).setConnection hc id id
        Handler.noConfusion
    · cases hstep
      exact h.setConnection hc id id Handler.noConfusion
  | checking =>
    rw [hhandler] at hstep
    cases hstep
    refine h.setConnection hc id id fun hnone => ?_
    dsimp only at hnone
    split at hnone <;> cases hnone
  | rescheduling place =>
    rw [hhandler, handlerStep_rescheduling] at hstep
    cases hstep
    obtain ⟨hconnections, hactive, hrunning⟩ := connections_rescheduleStep (s := s) policy place
    have hkeeps := keepsCallers_rescheduleStep (s := s) policy place
    have hmoved : (rescheduleStep policy s place).1.Accounted :=
      h.of_eq hrunning hactive hconnections hkeeps.closed hkeeps.closings
    have hc' : (rescheduleStep policy s place).1.connections[k]? = some c := by
      rw [hconnections]
      exact hc
    refine hmoved.setConnection hc' id id fun hnone => ?_
    dsimp only at hnone
    cases hnext : (rescheduleStep policy s place).2 <;> rw [hnext] at hnone <;> cases hnone

/-! ### Calls of `close` and `drain` -/

variable {i : ℕ}

/-- An owner other than the call that moves stays an owner. -/
theorem Owned.setClosing (h : s.Owned k) {place new : Closing}
    (hplace : s.closings[i]? = some place) (htake : place.WillTake → new.WillTake)
    (htaken : ∀ j, place = .closeClient j → j ≠ k) : (s.setClosing i new).Owned k := by
  cases h with
  | holding hheld => exact .holding hheld
  | published hactive hopen => exact .published hactive hopen
  | awaited hactive other hother hwill =>
    rcases List.eq_or_mem_set hplace hother with rfl | hkept
    · exact .awaited hactive new (List.mem_set_self hplace) (htake hwill)
    · exact .awaited hactive other hkept hwill
  | taken hmem =>
    rcases List.eq_or_mem_set hplace hmem with heq | hkept
    · exact absurd rfl (htaken k heq.symm)
    · exact .taken hkept

theorem Accounted.closingStep (h : s.Accounted) {place : Closing}
    (hplace : s.closings[i]? = some place) (hstep : closingStep s i place = some t) :
    t.Accounted := by
  cases place with
  | claim =>
    rw [Supervisor.closingStep] at hstep
    split at hstep
    · cases hstep
      exact ⟨fun k hloose => (h.owned k hloose).setClosing hplace id fun _ => Closing.noConfusion,
        h.unpublished, h.connecting, h.clearing⟩
    · cases hstep
      refine ⟨fun k hloose => ?_, h.unpublished, h.connecting, h.clearing⟩
      -- from now on this call answers for what is in `active`
      have howned : s.Owned k := h.owned k hloose
      cases howned with
      | published hactive => exact .awaited hactive .shutDown (List.mem_set_self hplace) trivial
      | holding hheld => exact .holding hheld
      | awaited hactive other hother hwill =>
        exact .awaited hactive .shutDown (List.mem_set_self hplace) trivial
      | taken hmem =>
        rcases List.eq_or_mem_set hplace hmem with heq | hkept
        · cases heq
        · exact .taken hkept
  | shutDown | settle =>
    cases hstep
    refine ⟨fun k hloose => ?_, h.unpublished, h.connecting, h.clearing⟩
    refine Owned.setClosing ?_ hplace (fun _ => ?_) fun _ => Closing.noConfusion
    · exact (h.owned k hloose).mono id id rfl rfl
    · trivial
  | take =>
    cases hstep
    refine ⟨fun k hloose => ?_, fun _ _ => rfl, fun _ => rfl, h.clearing⟩
    have htaken : s.active = some k →
        .closeClient k ∈ s.closings.set i (s.active.elim .returned .closeClient) := by
      intro hactive
      rw [hactive]
      exact List.mem_set_self hplace
    have howned : s.Owned k := h.owned k hloose
    cases howned with
    | holding hheld => exact .holding hheld
    | published hactive => exact .taken (htaken hactive)
    | awaited hactive => exact .taken (htaken hactive)
    | taken hmem =>
      rcases List.eq_or_mem_set hplace hmem with heq | hkept
      · cases heq
      · exact .taken hkept
  | closeClient k =>
    obtain ⟨c, hc, rfl⟩ := Option.map_eq_some_iff.mp hstep
    have hset : (s.setConnection k { c with isOpen := false }).Accounted :=
      h.setConnection hc Bool.noConfusion id fun _ => rfl
    refine ⟨fun j hloose => ?_, hset.unpublished, hset.connecting, hset.clearing⟩
    have hloose' : (s.setConnection k { c with isOpen := false }).Loose j := hloose
    refine (hset.owned j hloose').setClosing hplace id fun i hi => ?_
    cases hi
    rintro rfl
    exact Bool.noConfusion ((hloose'.of_setConnection hc Bool.noConfusion id).2 rfl)
  | returned => cases hstep

theorem Accounted.drainingStep (h : s.Accounted) {place : Draining}
    (hplace : s.drainings[i]? = some place) (hguard : s.ClosesInTime (.draining i))
    (hstep : drainingStep s i place = some t) : t.Accounted := by
  cases place with
  | lookUp | readActive =>
    cases hstep
    exact h.of_eq rfl rfl rfl rfl rfl
  | drainClient k =>
    obtain ⟨c, hc, rfl⟩ := Option.map_eq_some_iff.mp hstep
    have hset : (s.setConnection k { c with isDraining := true }).Accounted :=
      h.setConnection hc id Bool.noConfusion (h.clearing c (List.mem_of_getElem? hc))
    exact hset.of_eq rfl rfl rfl rfl rfl
  | claim client =>
    rw [Supervisor.drainingStep] at hstep
    split at hstep <;>
    · cases hstep
      exact h.of_eq rfl rfl rfl rfl rfl
  | setClosed client =>
    cases hstep
    refine ⟨fun k hloose => ?_, h.unpublished, h.connecting, h.clearing⟩
    have howned : s.Owned k := h.owned k hloose
    cases howned with
    | holding hheld => exact .holding hheld
    | published hactive =>
      obtain ⟨c, hc, hopen, hdraining⟩ := hloose
      have hdrained := hguard ⟨_, hplace, trivial⟩ k hactive c hc hopen
      rw [hdraining] at hdrained
      cases hdrained
    | awaited hactive other hother hwill => exact .awaited hactive other hother hwill
    | taken hmem => exact .taken hmem
  | shutDown client =>
    cases hstep
    exact h.of_eq rfl rfl rfl rfl rfl
  | listening k =>
    obtain ⟨c, hc, hstep⟩ := Option.bind_eq_some_iff.mp hstep
    obtain ⟨hclosed, hstep⟩ := Option.ite_none_left_eq_some.mp hstep
    cases hstep
    have hcleared : Supervisor.Accounted
        { s with active := if s.active = some k then none else s.active } := by
      split
      · exact h.clearActive (not_loose_of_not_isOpen hc (Bool.eq_false_of_not_eq_true hclosed))
          ‹_›
      · exact h
    exact hcleared.of_eq rfl rfl rfl rfl rfl
  | returned => cases hstep

theorem Accounted.step (h : s.Accounted) {label : SupervisorLabel}
    (hguard : s.ClosesInTime label) (hstep : step policy s label = some t) : t.Accounted := by
  cases label with
  | start =>
    simp only [Supervisor.step] at hstep
    split at hstep
    · rename_i hidle _
      cases hstep
      refine h.move (by rw [hidle]; rfl) rfl (fun hnone => ?_) rfl rfl ⟨rfl, rfl, rfl, rfl, rfl⟩
      cases hnone
    · cases hstep
  | attempt =>
    obtain ⟨attempt, hrunning, hstep⟩ := Option.bind_eq_some_iff.mp hstep
    exact h.attemptStep hrunning hguard hstep
  | connected supportsEvents =>
    obtain ⟨hrunning, hstep⟩ := Option.ite_none_right_eq_some.mp hstep
    cases hstep
    refine ⟨fun k hloose => ?_, fun _ _ => h.connecting hrunning, by rintro ⟨⟩,
      List.forall_mem_concat h.clearing Handler.noConfusion⟩
    obtain ⟨c, hc, hopen⟩ := hloose
    rcases List.getElem?_concat_eq_some.mp hc with hold | ⟨rfl, -⟩
    · refine (h.owned k ⟨c, hold, hopen⟩).mono (fun hheld => ?_) id rfl rfl
      rw [hrunning] at hheld
      cases hheld
    · exact .holding rfl
  | refused =>
    obtain ⟨hrunning, hstep⟩ := Option.ite_none_right_eq_some.mp hstep
    cases hstep
    refine h.move (by rw [hrunning]; rfl) rfl (fun hnone => ?_) rfl rfl ⟨rfl, rfl, rfl, rfl, rfl⟩
    cases hnone
  | terminate k =>
    obtain ⟨c, hc, rfl⟩ := Option.map_eq_some_iff.mp hstep
    exact h.setConnection hc Bool.noConfusion id fun _ => rfl
  | handler k =>
    obtain ⟨c, hc, hstep⟩ := Option.bind_eq_some_iff.mp hstep
    exact h.handlerStep hc hstep
  | subscribe | drain =>
    cases hstep
    exact h.of_eq rfl rfl rfl rfl rfl
  | unsubscribe =>
    obtain ⟨-, hstep⟩ := Option.ite_none_left_eq_some.mp hstep
    cases hstep
    exact h.of_eq rfl rfl rfl rfl rfl
  | close =>
    cases hstep
    refine ⟨fun k hloose => ?_, h.unpublished, h.connecting, h.clearing⟩
    have howned : s.Owned k := h.owned k hloose
    cases howned with
    | holding hheld => exact .holding hheld
    | published hactive hopen => exact .published hactive hopen
    | awaited hactive place hplace hwill =>
      exact .awaited hactive place (List.mem_append_left _ hplace) hwill
    | taken hmem => exact .taken (List.mem_append_left _ hmem)
  | closing i =>
    obtain ⟨place, hplace, hstep⟩ := Option.bind_eq_some_iff.mp hstep
    exact h.closingStep hplace hstep
  | draining i =>
    obtain ⟨place, hplace, hstep⟩ := Option.bind_eq_some_iff.mp hstep
    exact h.drainingStep hplace hguard hstep

theorem accounted_init (start : Start) : (init start).Accounted := by
  cases start with
  | immediate supportsEvents =>
    refine ⟨fun k hloose => ?_, fun _ _ => rfl, fun _ => rfl,
      List.forall_mem_singleton.mpr Handler.noConfusion⟩
    obtain ⟨c, hc, -⟩ := hloose
    obtain ⟨hlt, -⟩ := List.getElem?_eq_some_iff.mp hc
    obtain rfl : k = 0 := Nat.lt_one_iff.mp hlt
    exact .holding rfl
  | deferred =>
    refine ⟨fun k hloose => ?_, fun _ _ => rfl, fun _ => rfl, List.forall_mem_nil _⟩
    obtain ⟨c, hc, -⟩ := hloose
    cases hc

/-! ### Nothing leaks -/

/-- When all calls of `close` and `drain` have returned and no attempt is being made, `active`
holds no open connection, and every connection that was ever made is closed, except for those
that are being drained. -/
theorem no_leak_of_meetsGuard (policy : ReconnectPolicy) (start : Start)
    (w : List SupervisorLabel) (t : Supervisor)
    (hmeets : MeetsGuard (step policy) ClosesInTime (init start) w)
    (hrun : run (step policy) (init start) w = some t)
    (hcalled : t.closings ≠ [] ∨ t.drainings ≠ [])
    (hclosings : ∀ place ∈ t.closings, place = .returned)
    (hdrainings : ∀ place ∈ t.drainings, place.HasReturned) (hidle : t.running = none) :
    (∀ k c, t.active = some k → t.connections[k]? = some c →
      c.isOpen = true → c.isDraining = true) ∧
    ∀ c ∈ t.connections, c.isOpen = false ∨ c.isDraining = true := by
  have haccounted : t.Accounted :=
    hmeets.invariant (fun hguard h hstep => h.step hguard hstep) hrun (accounted_init start)
  have hannounced : t.Announced :=
    run_invariant (fun h hstep => h.step hstep) hrun (announced_init start)
  have hclosed := hannounced.closed_of_returned hcalled hclosings hdrainings
  have hnone (k : ℕ) : ¬ t.Loose k := by
    intro hloose
    cases haccounted.owned k hloose with
    | holding hheld =>
      rw [hidle] at hheld
      cases hheld
    | published _ hopen =>
      rw [hclosed] at hopen
      cases hopen
    | awaited _ place hplace hwill =>
      rw [hclosings place hplace] at hwill
      exact hwill
    | taken hmem => cases hclosings _ hmem
  refine ⟨fun k c _ hc hopen => ?_, fun c hmem => ?_⟩
  · exact Bool.eq_true_of_not_eq_false fun hdraining => hnone k ⟨c, hc, hopen, hdraining⟩
  · obtain ⟨k, hc⟩ := List.mem_iff_getElem?.mp hmem
    refine or_iff_not_imp_left.mpr fun hopen => ?_
    exact Bool.eq_true_of_not_eq_false fun hdraining =>
      hnone k ⟨c, hc, Bool.eq_true_of_not_eq_false hopen, hdraining⟩

/-- The supervisor connects and is closed. -/
def closingRun : List SupervisorLabel :=
  List.replicate 7 .attempt ++ [.close] ++ List.replicate 5 (.closing 0)

def closedSupervisor : Supervisor where
  closed := true
  firstConnection := some true
  isShutdown := true
  connections := [{ supportsEvents := true, isOpen := false, handler := .registered }]
  closings := [.returned]

theorem no_leak_of_meetsGuard_closingRun :
    run (step .defaults) (init (.immediate true)) closingRun = some closedSupervisor ∧
      ∀ c ∈ closedSupervisor.connections, c.isOpen = false ∨ c.isDraining = true := by
  have hrun : run (step .defaults) (init (.immediate true)) closingRun = some closedSupervisor := by
    decide +kernel
  exact ⟨hrun, (no_leak_of_meetsGuard .defaults (.immediate true) closingRun closedSupervisor
    (by decide +kernel) hrun (.inl (List.cons_ne_nil _ _))
    (List.forall_mem_singleton.mpr rfl) (List.forall_mem_nil _) rfl).2⟩

/-- `install` has looked at `closed` when `close` runs, and publishes its connection after
it. -/
def overtakenRun : List SupervisorLabel :=
  [.start, .attempt, .attempt, .attempt, .connected true, .attempt, .close] ++
    List.replicate 4 (.closing 0) ++ List.replicate 6 .attempt

def leakingSupervisor : Supervisor where
  active := some 0
  closed := true
  firstConnection := some false
  isShutdown := true
  connections := [{ supportsEvents := true, handler := .registered }]
  closings := [.returned]

/-- `close` has returned and no attempt is being made, but `active` holds an open connection. -/
theorem leak_overtakenRun :
    run (step .defaults) (init .deferred) overtakenRun = some leakingSupervisor ∧
      leakingSupervisor.running = none ∧ ∃ c, leakingSupervisor.connections[0]? = some c ∧
        c.isOpen = true ∧ c.isDraining = false :=
  ⟨by decide +kernel, rfl, _, rfl, rfl, rfl⟩

end Supervisor

end MoonLightBridge.Client
