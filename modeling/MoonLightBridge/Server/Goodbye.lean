import MoonLightBridge.Server.DrainingConnection

/-!
# A draining connection says goodbye

A connection that was told to drain, and whose table of active requests is empty, has
nothing left to do but say GOODBYE. The loop notices in two ways: when it learns of the
drain it looks at the table, and later whenever it is notified.

So a connection that learns of the drain in its loop never waits in vain: either it has
not seen the change of the drain channel yet, or a notification is stored, or the task
that emptied the table is about to send one. A connection whose handshake ends after the
drain began takes neither way. It finds the server draining when it subscribes, says
GOAWAY and enters the loop without a look at its table, which is empty, and stays there
until the client does something.
-/

namespace MoonLightBridge.Server.Draining

open Protocol Transition

/-- The loop is running: it looked at the drain channel and was not left. -/
def InLoop (phase : DrainingPhase) : Prop :=
  phase ≠ .subscribing ∧ phase ≠ .borrowing ∧ phase ≠ .left

instance decidableInLoop (phase : DrainingPhase) : Decidable (InLoop phase) :=
  inferInstanceAs (Decidable (_ ∧ _ ∧ _))

/-- The server drains, and the connection has nothing to do: the table is empty, and the
loop is not dealing with a REQUEST. -/
structure IsIdle (s : DrainingState) : Prop where
  inLoop : InLoop s.phase
  drains : s.connection.isDraining = true ∨ s.drain.value = true
  empty : s.connection.active.keys = []
  not_registering : ∀ frame, s.connection.loop ≠ .registering frame

/-- The loop is about to look at the table or say GOODBYE, or something will wake it up:
a change of the drain channel, a stored notification, or one about to be sent. -/
def WakeUpPending (s : DrainingState) : Prop :=
  s.phase = .announcing ∨ s.phase = .checking ∨ s.phase = .parting ∨
    s.connection.isDraining = false ∧ s.drain.HasChanged s.seen ∨
    s.hasPermit = true ∨ s.notifying ≠ []

/-- What the connection does by itself: its peer and its handlers have no part in it. -/
def IsOwn : DrainingLabel → Prop
  | .observe | .announce | .wake | .check | .part | .notify _ => True
  | _ => False

/-- The connection can go on by itself until the loop is left, with GOODBYE as the last
frame in the queue if the writer runs. -/
def LeadsToGoodbye (cfg : ConnectionConfig) (s : DrainingState) : Prop :=
  ∃ w t, (∀ label ∈ w, IsOwn label) ∧ run (step cfg) s w = some t ∧ t.phase = .left ∧
    (s.isOpen = true → t.queued.getLast? = some ⟨none, goodbye⟩)

/-- The loop looks at the drain channel before the server drains. -/
def BorrowsEarly (s : DrainingState) : DrainingLabel → Prop
  | .borrow => s.drain.value = false
  | _ => True

instance decidableBorrowsEarly (s : DrainingState) :
    (label : DrainingLabel) → Decidable (BorrowsEarly s label)
  | .borrow => inferInstanceAs (Decidable (s.drain.value = false))
  | .beginDrain | .forceDrain | .others _ | .subscribe | .greet | .receive _ | .register
  | .observe | .announce | .wake | .check | .part | .force | .hangUp | .writerStops
  | .answer _ _ | .task _ _ | .notify _ => isTrue trivial

/-! ### What the loop knows of the drain -/

/-- A running loop that does not know of the drain has a change of the channel to see. -/
structure Listens (phase : DrainingPhase) (isDraining : Bool) (drain : Watch Bool) (seen : ℕ) :
    Prop where
  not_greeting : phase ≠ .greeting
  seen_le : seen ≤ drain.version
  receivers_pos : phase ≠ .subscribing → 0 < drain.receivers
  unseen : InLoop phase → isDraining = false → drain.value = true → drain.HasChanged seen

/-- A loop that knows of the drain and selects over an empty table will be notified. -/
def Notified (s : DrainingState) : Prop :=
  s.phase = .selecting → s.connection.isDraining = true → s.connection.active.keys = [] →
    s.hasPermit = true ∨ s.notifying ≠ []

/-- What holds in every state of a connection that learns of the drain in its loop. -/
structure Attentive (s : DrainingState) : Prop where
  loop : LoopAgrees s
  listens : Listens s.phase s.connection.isDraining s.drain s.seen
  notified : Notified s

variable {label : DrainingLabel}

section Attentive

variable {cfg : ConnectionConfig} {s t : DrainingState} {c c' : ConnectionState} {frame : Frame}
  {phase phase' : DrainingPhase} {isDraining : Bool} {drain : Watch Bool} {seen : ℕ}

section

variable (h : Listens phase isDraining drain seen)

include h

/-- Within the loop it does not matter where it is. -/
theorem Listens.move (hphase : InLoop phase) (hphase' : phase' ≠ .greeting) :
    Listens phase' isDraining drain seen where
  not_greeting := hphase'
  seen_le := h.seen_le
  receivers_pos _ := h.receivers_pos hphase.1
  unseen _ := h.unseen hphase

theorem Listens.leave (hphase : phase ≠ .subscribing) (isDraining' : Bool) :
    Listens .left isDraining' drain seen where
  not_greeting := nofun
  seen_le := h.seen_le
  receivers_pos _ := h.receivers_pos hphase
  unseen hin := absurd rfl hin.2.2

theorem Listens.send : Listens phase isDraining (drain.send true) seen where
  not_greeting := h.not_greeting
  seen_le := h.seen_le.trans (drain.version_le_send true)
  receivers_pos hphase := by
    rw [Watch.receivers_send]
    exact h.receivers_pos hphase
  unseen hin _ _ := Watch.hasChanged_send (h.receivers_pos hin.1) h.seen_le true

end

theorem Listens.settles (h : Listens .selecting s.connection.isDraining s.drain s.seen)
    (hdraining : c.isDraining = s.connection.isDraining) (hsettles : Settles s c t) :
    Listens t.phase t.connection.isDraining t.drain t.seen := by
  have hin : InLoop .selecting := by decide
  cases hsettles with
  | fails => exact h.leave hin.1 _
  | closes => exact h.leave hin.1 _
  | continues =>
    change Listens .selecting c.isDraining s.drain s.seen
    rw [hdraining]
    exact h

theorem Listens.step (hearly : BorrowsEarly s label)
    (h : Listens s.phase s.connection.isDraining s.drain s.seen)
    (hstep : step cfg s label = some t) :
    Listens t.phase t.connection.isDraining t.drain t.seen := by
  cases steps_of_step hstep with
  | beginDrain => exact h.send
  | forceDrain | forceNothing | writerStops | notify => exact h
  | others =>
    refine ⟨h.not_greeting, h.seen_le, fun hphase => ?_, h.unseen⟩
    have hphase : s.phase ≠ .subscribing := hphase
    simp only [withOthers, if_neg hphase]
    exact Nat.succ_pos _
  -- it counts as seen whatever was sent before
  | subscribe =>
    refine ⟨nofun, le_rfl, fun _ => Nat.succ_pos _, fun hin => absurd rfl hin.2.1⟩
  | borrow hphase =>
    -- here the value is still `false`, so whatever is sent from now on is a change
    have hvalue : s.drain.value = false := hearly
    refine ⟨?_, h.seen_le, fun _ => h.receivers_pos (by simp [hphase]), fun _ _ htrue => ?_⟩
    · simp [hvalue]
    · cases hvalue.symm.trans htrue
  | greet hphase | greetFails hphase => exact absurd hphase h.not_greeting
  | receive hselect hreceives hsettles =>
    exact Listens.settles (s := { s with hasPermit := s.hasPermit || cancels s _ })
      (hselect.1 ▸ h) (isDraining_of_receives hreceives) hsettles
  | register hphase _ hregisters hsettles =>
    exact Listens.settles (hphase ▸ h) (isDraining_of_registers hregisters) hsettles
  | observe hselect =>
    exact ⟨nofun, le_rfl, fun _ => h.receivers_pos (by simp [hselect.1]), fun _ => nofun⟩
  | observeNothing _ hvalue =>
    refine ⟨h.not_greeting, le_rfl, h.receivers_pos, fun _ _ htrue => ?_⟩
    cases hvalue.symm.trans htrue
  | announce hphase | checkEmpty hphase | checkNonempty hphase =>
    exact h.move (by rw [hphase]; decide) nofun
  | wake hselect | force hselect => exact h.move (by rw [hselect.1]; decide) nofun
  | announceFails hphase | part hphase | partFails hphase => exact h.leave (by simp [hphase]) _
  | hangUp hselect => exact h.leave (by simp [hselect.1]) _
  | answer _ _ _ hmoves | answerFails _ _ hmoves | deregister _ hmoves | task _ _ hmoves =>
    have hdraining := (loop_of_taskMoves hmoves).2
    dsimp only
    rw [hdraining]
    exact h

/-- A frame empties the table only if it is a CANCEL, of which the loop notifies itself. -/
theorem notified_of_receives (h : Notified s) (hselect : IsSelecting s)
    (hreceives : Connection.Receives s.connection frame c) (hloop : c.loop ≠ .closed)
    (hdraining : c.isDraining = true) (hempty : c.active.keys = []) :
    (s.hasPermit || cancels s frame) = true ∨ s.notifying ≠ [] := by
  have hbefore (hkeys : s.connection.active.keys = []) :
      (s.hasPermit || cancels s frame) = true ∨ s.notifying ≠ [] := by
    rw [isDraining_of_receives hreceives] at hdraining
    refine (h hselect.1 hdraining hkeys).imp_left fun hpermit => ?_
    rw [hpermit, Bool.true_or]
  cases hreceives with
  | refuseDraining | refuseFull | credit | ignore => exact hbefore hempty
  | accept _ hnot => cases hnot.symm.trans hdraining
  | cancel hkind hentry =>
    have hmem : frame.requestId ∈ s.connection.active :=
      AList.lookup_isSome.mp (by simp [hentry])
    simp [cancels, hkind, hmem]
  | close => exact absurd rfl hloop

theorem Notified.step (hearly : BorrowsEarly s label) (h : Attentive s)
    (hstep : step cfg s label = some t) : Notified t := by
  intro hphase' hdraining hempty
  cases steps_of_step hstep with
  | beginDrain | forceDrain | others | forceNothing | observeNothing | writerStops =>
    exact h.notified hphase' hdraining hempty
  | subscribe | observe | announce | wake | checkEmpty | force => cases hphase'
  | greetFails | announceFails | part | partFails | hangUp => cases hphase'
  | borrow =>
    have hvalue : s.drain.value = false := hearly
    cases hvalue.symm.trans hdraining
  | greet hphase => exact absurd hphase h.listens.not_greeting
  -- the one way back to the select without a notification to come
  | checkNonempty _ hkeys => exact absurd hempty hkeys
  | receive hselect hreceives hsettles =>
    cases hsettles with
    | fails | closes => cases hphase'
    | continues hloop =>
      exact notified_of_receives h.notified hselect hreceives hloop hdraining hempty
  | register _ hloop hregisters hsettles =>
    -- a REQUEST was admitted, so the loop does not know of the drain
    cases hsettles with
    | fails | closes => cases hphase'
    | continues =>
      have hnot := (h.loop.2 _ hloop).2
      cases hnot.symm.trans ((isDraining_of_registers hregisters).symm.trans hdraining)
  | answer _ _ _ hmoves | answerFails _ _ hmoves =>
    dsimp only at hdraining hempty
    rw [(loop_of_taskMoves hmoves).2] at hdraining
    rw [active_of_taskMoves hmoves nofun] at hempty
    exact h.notified hphase' hdraining hempty
  | deregister => exact .inr (by simp)
  | @task _ event _ _ hevent _ hmoves =>
    have hne : event ≠ .deregister := by
      rcases hevent with rfl | rfl | rfl <;> exact nofun
    dsimp only at hdraining hempty
    rw [(loop_of_taskMoves hmoves).2] at hdraining
    rw [active_of_taskMoves hmoves hne] at hempty
    exact h.notified hphase' hdraining hempty
  | notify => exact .inl rfl

theorem attentive_init (cfg : ConnectionConfig) : Attentive (init cfg) where
  loop := loopAgrees_init cfg
  listens := ⟨nofun, le_rfl, fun h => absurd rfl h, fun h => absurd rfl h.1⟩
  notified := nofun

theorem Attentive.step (hearly : BorrowsEarly s label) (h : Attentive s)
    (hstep : step cfg s label = some t) : Attentive t :=
  ⟨loopAgrees_step h.loop hstep, h.listens.step hearly hstep, Notified.step hearly h hstep⟩

theorem IsIdle.reading (hidle : IsIdle s) (h : LoopAgrees s) : s.connection.loop = .reading := by
  cases hloop : s.connection.loop with
  | reading => rfl
  | registering frame => exact absurd hloop (hidle.not_registering frame)
  | closed => exact absurd hloop (h.1 hidle.inLoop.2.2)

theorem Attentive.wakeUpPending (h : Attentive s) (hidle : IsIdle s) : WakeUpPending s := by
  unfold WakeUpPending
  -- what is pending depends on how far the loop has come with the drain
  cases hphase : s.phase with
  | subscribing => exact absurd hphase hidle.inLoop.1
  | borrowing => exact absurd hphase hidle.inLoop.2.1
  | left => exact absurd hphase hidle.inLoop.2.2
  | greeting => exact absurd hphase h.listens.not_greeting
  | announcing | checking | parting => simp
  | selecting =>
    cases hdraining : s.connection.isDraining with
    | true =>
      have hnotified := h.notified hphase hdraining hidle.empty
      simpa using hnotified
    | false =>
      have hvalue : s.drain.value = true := by simpa [hdraining] using hidle.drains
      simp [h.listens.unseen hidle.inLoop hdraining hvalue]

end Attentive

/-! ### How it goes on -/

section LeadsTo

variable {cfg : ConnectionConfig} {s t : DrainingState}

theorem LeadsToGoodbye.of_step (label : DrainingLabel) (hown : IsOwn label)
    (hstep : step cfg s label = some t) (hopen : t.isOpen = s.isOpen)
    (h : LeadsToGoodbye cfg t) : LeadsToGoodbye cfg s := by
  obtain ⟨w, u, hown', hrun, hleft, hlast⟩ := h
  rw [hopen] at hlast
  refine ⟨label :: w, u, ?_, run_cons_eq_some.mpr ⟨t, hstep, hrun⟩, hleft, hlast⟩
  simpa [hown] using hown'

/-- The last step. -/
theorem leadsToGoodbye_of_leaves (label : DrainingLabel) (hown : IsOwn label)
    (hstep : step cfg s label = some t) (hleft : t.phase = .left)
    (hlast : s.isOpen = true → t.queued.getLast? = some ⟨none, goodbye⟩) :
    LeadsToGoodbye cfg s := by
  refine ⟨[label], t, ?_, run_cons_eq_some.mpr ⟨t, hstep, rfl⟩, hleft, hlast⟩
  simpa using hown

theorem leadsToGoodbye_of_parting (hphase : s.phase = .parting) : LeadsToGoodbye cfg s := by
  refine leadsToGoodbye_of_leaves .part trivial (if_pos hphase) rfl fun hopen => ?_
  simp [hopen, put, leave]

theorem leadsToGoodbye_of_checking (hphase : s.phase = .checking)
    (hempty : s.connection.active.keys = []) : LeadsToGoodbye cfg s := by
  refine .of_step .check trivial (if_pos hphase) rfl (leadsToGoodbye_of_parting ?_)
  simp [hempty]

theorem leadsToGoodbye_of_announcing (hphase : s.phase = .announcing)
    (hempty : s.connection.active.keys = []) : LeadsToGoodbye cfg s := by
  cases hopen : s.isOpen with
  | true =>
    have hstep : step cfg s .announce = some { put s goAway with phase := .checking } := by
      simp [step, hphase, hopen]
    exact .of_step .announce trivial hstep rfl (leadsToGoodbye_of_checking rfl hempty)
  | false =>
    -- without a writer the loop is left at once
    have hstep : step cfg s .announce = some (leave s) := by
      simp [step, hphase, hopen]
    exact leadsToGoodbye_of_leaves .announce trivial hstep rfl (by simp [hopen])

theorem leadsToGoodbye_of_hasPermit (hselect : IsSelecting s)
    (hdraining : s.connection.isDraining = true) (hpermit : s.hasPermit = true)
    (hempty : s.connection.active.keys = []) : LeadsToGoodbye cfg s :=
  .of_step .wake trivial (if_pos ⟨hselect, hdraining, hpermit⟩) rfl
    (leadsToGoodbye_of_checking rfl hempty)

theorem leadsToGoodbye_of_notifying (hselect : IsSelecting s)
    (hdraining : s.connection.isDraining = true) (hnotifying : s.notifying ≠ [])
    (hempty : s.connection.active.keys = []) : LeadsToGoodbye cfg s := by
  obtain ⟨i, hi⟩ := List.exists_mem_of_ne_nil _ hnotifying
  exact .of_step (.notify i) trivial (if_pos hi) rfl
    (leadsToGoodbye_of_hasPermit hselect hdraining rfl hempty)

theorem leadsToGoodbye_of_hasChanged (hselect : IsSelecting s)
    (hdraining : s.connection.isDraining = false) (hvalue : s.drain.value = true)
    (hchanged : s.drain.HasChanged s.seen) (hempty : s.connection.active.keys = []) :
    LeadsToGoodbye cfg s := by
  have hstep : step cfg s .observe = some { s with
      connection := { s.connection with isDraining := true }
      seen := s.drain.version
      phase := .announcing } := by
    simp only [step]
    rw [if_pos ⟨hselect, hdraining, hchanged⟩, if_pos hvalue]
  exact .of_step .observe trivial hstep rfl (leadsToGoodbye_of_announcing rfl hempty)

theorem Attentive.leadsToGoodbye (h : Attentive s) (hidle : IsIdle s) : LeadsToGoodbye cfg s := by
  cases hphase : s.phase with
  | subscribing => exact absurd hphase hidle.inLoop.1
  | borrowing => exact absurd hphase hidle.inLoop.2.1
  | left => exact absurd hphase hidle.inLoop.2.2
  | greeting => exact absurd hphase h.listens.not_greeting
  | announcing => exact leadsToGoodbye_of_announcing hphase hidle.empty
  | checking => exact leadsToGoodbye_of_checking hphase hidle.empty
  | parting => exact leadsToGoodbye_of_parting hphase
  | selecting =>
    have hselect : IsSelecting s := ⟨hphase, hidle.reading h.loop⟩
    cases hdraining : s.connection.isDraining with
    | true =>
      rcases h.notified hphase hdraining hidle.empty with hpermit | hnotifying
      · exact leadsToGoodbye_of_hasPermit hselect hdraining hpermit hidle.empty
      · exact leadsToGoodbye_of_notifying hselect hdraining hnotifying hidle.empty
    | false =>
      have hvalue : s.drain.value = true := by simpa [hdraining] using hidle.drains
      exact leadsToGoodbye_of_hasChanged hselect hdraining hvalue
        (h.listens.unseen hidle.inLoop hdraining hvalue) hidle.empty

end LeadsTo

/-! ### Whole runs -/

/-- A draining connection with nothing left to do does not wait for its peer, if the server
did not drain yet when the loop looked for the first time: a wake-up is pending, and the
connection goes on by itself to say GOODBYE and leave the loop. -/
theorem wakeUpPending_of_borrowsEarly (cfg : ConnectionConfig) (labels : List DrainingLabel)
    (s : DrainingState) (hrun : run (step cfg) (init cfg) labels = some s)
    (hearly : MeetsGuard (step cfg) BorrowsEarly (init cfg) labels) (hidle : IsIdle s) :
    WakeUpPending s ∧ LeadsToGoodbye cfg s := by
  have h : Attentive s := hearly.invariant Attentive.step hrun (attentive_init cfg)
  exact ⟨h.wakeUpPending hidle, h.leadsToGoodbye hidle⟩

/-- A client asks for something, and the server begins to drain while it is answered. -/
def answeredRun : List DrainingLabel :=
  [.subscribe, .borrow, .receive (Frame.new .request 7 1 []), .register, .beginDrain, .observe,
    .announce, .check, .answer 0 (Frame.new .response 7 1 []), .task 0 .deregister]

/-- The table is empty and the loop selects; the task has not notified it yet. -/
theorem wakeUpPending_answeredRun :
    ∃ s, run (step Connection.oneInFlight) (init Connection.oneInFlight) answeredRun = some s ∧
      s.phase = .selecting ∧ WakeUpPending s ∧ LeadsToGoodbye Connection.oneInFlight s := by
  obtain ⟨s, hrun, hs⟩ := Option.map_eq_some_iff.mp
    (show (run (step Connection.oneInFlight) (init Connection.oneInFlight) answeredRun).map
        (fun s => (s.phase, s.connection.isDraining, s.connection.active.keys,
          s.connection.loop)) = some (.selecting, true, [], .reading) by decide +kernel)
  obtain ⟨hphase, hdraining, hempty, hloop⟩ := by simpa only [Prod.mk.injEq] using hs
  have hidle : IsIdle s :=
    ⟨by rw [hphase]; decide, .inl hdraining, hempty, by rw [hloop]; exact fun _ => nofun⟩
  exact ⟨s, hrun, hphase, wakeUpPending_of_borrowsEarly Connection.oneInFlight answeredRun s hrun
    (by decide +kernel) hidle⟩

/-! ### A handshake that ends too late -/

/-- Nothing has happened on the connection before its loop is entered. -/
def Fresh (s : DrainingState) : Prop :=
  s.phase = .subscribing ∨ s.phase = .borrowing →
    s.connection.tasks = [] ∧ s.connection.active.keys = [] ∧ s.connection.loop = .reading ∧
      s.hasPermit = false ∧ s.notifying = []

theorem fresh_step {cfg : ConnectionConfig} {s t : DrainingState} (h : Fresh s)
    (hstep : step cfg s label = some t) : Fresh t := by
  intro hphase'
  cases steps_of_step hstep with
  | beginDrain | forceDrain | others | forceNothing | observeNothing | writerStops =>
    exact h hphase'
  | subscribe hphase => exact h (.inl hphase)
  | borrow => split_ifs at hphase' <;> simp at hphase'
  | greet | observe | announce | wake | checkEmpty | checkNonempty | force => simp at hphase'
  | greetFails | announceFails | part | partFails | hangUp => simp [leave] at hphase'
  | receive _ _ hsettles => cases hsettles <;> simp [leave] at hphase'
  | register _ _ _ hsettles => cases hsettles <;> simp [leave] at hphase'
  | answer _ _ hi | answerFails _ hi | deregister hi | task _ hi =>
    -- there is no task yet
    simp [(h hphase').1] at hi
  | notify hi => simp [(h hphase').2.2.2.2] at hi

/-- The loop found the server draining and said GOAWAY. -/
def greeted (s : DrainingState) : DrainingState :=
  { put s goAway with
    connection := { s.connection with isDraining := true }
    phase := .selecting }

/-- Without the condition the connection idles: if the server drains already when the loop
looks for the first time, the loop is entered with nothing to do, and no step of its own
is enabled. -/
theorem idles_of_late_borrow {cfg : ConnectionConfig} {s : DrainingState}
    (hreach : Reachable (step cfg) (init cfg) s) (hphase : s.phase = .borrowing)
    (hvalue : s.drain.value = true) (hopen : s.isOpen = true) :
    run (step cfg) s [.borrow, .greet] = some (greeted s) ∧
      IsIdle (greeted s) ∧ ¬ WakeUpPending (greeted s) ∧
      ∀ label, IsOwn label → step cfg (greeted s) label = none := by
  have hfresh : Fresh s := hreach.invariant fresh_step fun _ => ⟨rfl, rfl, rfl, rfl, rfl⟩
  obtain ⟨-, hempty, hloop, hpermit, hnotifying⟩ := hfresh (.inr hphase)
  refine ⟨?_, ⟨?_, .inl rfl, hempty, ?_⟩, ?_, ?_⟩
  · simp [run_cons, step, hphase, hvalue, hopen, put, greeted]
  · change InLoop .selecting
    decide
  · intro frame
    simp [greeted, hloop]
  · simp [WakeUpPending, greeted, put, hpermit, hnotifying]
  · intro label hown
    cases label with
    | observe | announce | wake | check | part | notify =>
      simp [step, greeted, put, hpermit, hnotifying]
    | _ => exact hown.elim

/-- The server begins to drain while a handshake is under way. Its client is told to go
away, and the connection then waits for the client to hang up. -/
theorem idles_lateHandshakeRun :
    ∃ s, run (step Connection.oneInFlight) (init Connection.oneInFlight)
        [.others 1, .beginDrain, .subscribe, .borrow, .greet] = some s ∧
      IsIdle s ∧ s.queued = [⟨none, goAway⟩] ∧ ¬ WakeUpPending s ∧
      ∀ label, IsOwn label → step Connection.oneInFlight s label = none := by
  obtain ⟨s, hrun, hs⟩ := Option.map_eq_some_iff.mp
    (show (run (step Connection.oneInFlight) (init Connection.oneInFlight)
        [.others 1, .beginDrain, .subscribe]).map
        (fun s => (s.phase, s.drain.value, s.isOpen, s.queued)) =
      some (.borrowing, true, true, []) by decide +kernel)
  obtain ⟨hphase, hvalue, hopen, hqueued⟩ := by simpa only [Prod.mk.injEq] using hs
  obtain ⟨hgreeted, hidle, hpending, hnone⟩ :=
    idles_of_late_borrow ⟨_, hrun⟩ hphase hvalue hopen
  refine ⟨greeted s, ?_, hidle, ?_, hpending, hnone⟩
  · rw [show [DrainingLabel.others 1, .beginDrain, .subscribe, .borrow, .greet] =
      [.others 1, .beginDrain, .subscribe] ++ [.borrow, .greet] from rfl, run_append, hrun]
    exact hgreeted
  · simp [greeted, put, hqueued]

end MoonLightBridge.Server.Draining
