import MoonLightBridge.Semantics.Watch
import MoonLightBridge.Server.Connection

/-!
# A connection that drains

The loop of a connection learns from a watch channel that the server drains. It then
says GOAWAY, refuses what comes in, and says GOODBYE once its table of active requests
is empty. It looks at the table when it learns of the drain, and whenever it is
notified: by a task that removed its entry, and by itself on CANCEL. A notification
that finds the loop elsewhere is kept, but only one is.

This module adds to the model of the connection where its loop stands with respect to
draining, the two ways in which it is woken up, and the response queue, in which each
frame is marked with the task it comes from. Frames that neither answer a REQUEST nor
belong to the drain (PONG, HEALTH_STATUS, EVENT, STREAM_ITEM) do not matter here and are
not recorded.
-/

namespace MoonLightBridge.Server

open Protocol

/-- A frame in the response queue, and the position of the task that sent it; `none`
for the loop. -/
structure Queued where
  source : Option ℕ
  frame : Frame
  deriving DecidableEq, Repr

/-- Where the loop of the connection stands. -/
inductive DrainingPhase where
  /-- the handshake is not complete -/
  | subscribing
  /-- subscribed to the drain channel, about to look at its value -/
  | borrowing
  /-- the server was draining already; GOAWAY is sent before the loop is entered -/
  | greeting
  /-- in the loop: selecting, or dealing with a frame -/
  | selecting
  /-- sending GOAWAY -/
  | announcing
  /-- about to look at the table -/
  | checking
  /-- sending GOODBYE -/
  | parting
  | left
  deriving DecidableEq, Repr

structure DrainingState where
  connection : ConnectionState
  phase : DrainingPhase
  /-- the drain channel, and the number of its value that the loop has seen -/
  drain : Watch Bool
  seen : ℕ
  /-- the force-drain channel -/
  force : Watch Bool
  forceSeen : ℕ
  /-- `active_changed` has a notification stored -/
  hasPermit : Bool
  /-- the tasks that removed an entry and are about to notify the loop -/
  notifying : List ℕ
  /-- the writer runs; otherwise the response queue is closed -/
  isOpen : Bool
  /-- all frames ever put into the response queue, in order -/
  queued : List Queued

inductive DrainingLabel where
  /-- `drain_tx.send(true)` -/
  | beginDrain
  /-- `force_drain_tx.send(true)` -/
  | forceDrain
  /-- the number of other connections changes -/
  | others (count : ℕ)
  | subscribe
  | borrow
  | greet
  /-- the select takes a frame from the reader -/
  | receive (frame : Frame)
  | register
  /-- the select takes the drain branch -/
  | observe
  | announce
  /-- the select takes the branch of `active_changed` -/
  | wake
  | check
  | part
  /-- the select takes the force-drain branch -/
  | force
  /-- the reader failed, or the client is gone -/
  | hangUp
  | writerStops
  /-- a task sends the frame that ends its request: what the queue took for it, which is an
  ERROR if there was no room for the RESPONSE -/
  | answer (index : ℕ) (frame : Frame)
  /-- anything else that happens to a task -/
  | task (index : ℕ) (event : RequestEvent)
  /-- a task calls `notify_one` after it removed its entry -/
  | notify (index : ℕ)
  deriving DecidableEq, Repr

namespace Draining

def goAway : Frame := Frame.new .goAway 0 0 []

def goodbye : Frame := Frame.new .goodbye 0 0 []

/-- The frame ends the request it belongs to. -/
def EndsRequest (frame : Frame) : Prop :=
  frame.kind = .response ∨ frame.kind = .error ∨ frame.kind = .streamEnd

instance decidableEndsRequest (frame : Frame) : Decidable (EndsRequest frame) :=
  inferInstanceAs (Decidable (_ ∨ _ ∨ _))

/-- The permit count of a frame is a u32. -/
def Fits (frame : Frame) : Prop := permitBytes frame < 2 ^ 32

instance decidableFits (frame : Frame) : Decidable (Fits frame) :=
  inferInstanceAs (Decidable (_ < _))

/-- A connection whose handshake is under way, the first one of the server. -/
def init (cfg : ConnectionConfig) : DrainingState where
  connection := Connection.init cfg
  phase := .subscribing
  drain := Watch.channel false
  seen := 0
  force := Watch.channel false
  forceSeen := 0
  hasPermit := false
  notifying := []
  isOpen := true
  queued := []

/-- Leave the loop. -/
def leave (s : DrainingState) : DrainingState :=
  { s with connection := Connection.close s.connection, phase := .left }

/-- Put a frame of the loop into the queue. -/
def put (s : DrainingState) (frame : Frame) : DrainingState :=
  { s with queued := s.queued ++ [⟨none, frame⟩] }

/-- The ERROR frames with which the loop answered in this turn. -/
def errorsSince (s : DrainingState) (connection : ConnectionState) : List Frame :=
  connection.refused.drop s.connection.refused.length

/-- The loop dealt with a frame. It sends the ERROR frames with which it answered, and is
over if it could not. -/
def settle (s : DrainingState) (connection : ConnectionState) : DrainingState :=
  if errorsSince s connection ≠ [] ∧ s.isOpen = false then leave { s with connection }
  else
    { s with
      connection
      phase := if connection.loop = .closed then .left else .selecting
      queued := s.queued ++ (errorsSince s connection).map (⟨none, ·⟩) }

/-- A CANCEL that finds an entry, which the loop then notifies itself of. -/
def cancels (s : DrainingState) (frame : Frame) : Bool :=
  frame.kind = .cancel ∧ frame.requestId ∈ s.connection.active

/-- There are so many other connections, and each has a receiver of both channels. -/
def withOthers (s : DrainingState) (count : ℕ) : DrainingState :=
  let receivers := if s.phase = .subscribing then count else count + 1
  { s with drain := { s.drain with receivers }, force := { s.force with receivers } }

/-- The loop is at its select. -/
def IsSelecting (s : DrainingState) : Prop :=
  s.phase = .selecting ∧ s.connection.loop = .reading

instance decidableIsSelecting (s : DrainingState) : Decidable (IsSelecting s) :=
  inferInstanceAs (Decidable (_ ∧ _))

section Model

variable (cfg : ConnectionConfig)

/-- A step of a task. -/
def taskStep (s : DrainingState) (i : ℕ) (event : RequestEvent) : Option DrainingState :=
  match Connection.step cfg s.connection (.task i event) with
  | none => none
  | some connection =>
    match event with
    | .answer _ => none
    | .deregister => some { s with connection, notifying := s.notifying ++ [i] }
    -- there is no point at which it yields between the removal and the notification
    | .drop => if i ∈ s.notifying then none else some { s with connection }
    | .acquireCredit | .panic => some { s with connection }

def step (s : DrainingState) : DrainingLabel → Option DrainingState
  | .beginDrain => some { s with drain := s.drain.send true }
  | .forceDrain => some { s with force := s.force.send true }
  | .others count => some (withOthers s count)
  | .subscribe =>
    if s.phase = .subscribing then
      some { s with
        drain := s.drain.subscribe
        seen := s.drain.version
        force := s.force.subscribe
        forceSeen := s.force.version
        phase := .borrowing }
    else none
  | .borrow =>
    if s.phase = .borrowing then
      some { s with
        connection := { s.connection with isDraining := s.drain.value }
        -- an empty table is not looked for here
        phase := if s.drain.value then .greeting else .selecting }
    else none
  | .greet =>
    if s.phase = .greeting then
      if s.isOpen then some { put s goAway with phase := .selecting } else some (leave s)
    else none
  | .receive frame =>
    if s.phase = .selecting then
      (Connection.step cfg s.connection (.receive frame)).map
        (settle { s with hasPermit := s.hasPermit || cancels s frame })
    else none
  | .register =>
    if s.phase = .selecting then
      (Connection.step cfg s.connection .register).map (settle s)
    else none
  | .observe =>
    -- the branch is taken only once: later the flag disables it
    if IsSelecting s ∧ s.connection.isDraining = false ∧ s.drain.HasChanged s.seen then
      if s.drain.value then
        some { s with
          connection := { s.connection with isDraining := true }
          seen := s.drain.version
          phase := .announcing }
      else some { s with seen := s.drain.version }
    else none
  | .announce =>
    if s.phase = .announcing then
      if s.isOpen then some { put s goAway with phase := .checking } else some (leave s)
    else none
  | .wake =>
    -- a permit stored before the drain began is used up here as well
    if IsSelecting s ∧ s.connection.isDraining = true ∧ s.hasPermit = true then
      some { s with hasPermit := false, phase := .checking }
    else none
  | .check =>
    if s.phase = .checking then
      some { s with
        phase := if s.connection.active.keys = [] then .parting else .selecting }
    else none
  | .part =>
    -- the loop is left whether or not GOODBYE could be sent
    if s.phase = .parting then some (leave (if s.isOpen then put s goodbye else s)) else none
  | .force =>
    if IsSelecting s ∧ s.force.HasChanged s.forceSeen then
      if s.force.value then some { s with forceSeen := s.force.version, phase := .parting }
      else some { s with forceSeen := s.force.version }
    else none
  | .hangUp => if IsSelecting s then some (leave s) else none
  | .writerStops => some { s with isOpen := false }
  | .answer i frame =>
    if EndsRequest frame then
      -- the task goes on even if the frame could not be sent
      if s.isOpen = true ∧ Fits frame then
        (Connection.step cfg s.connection (.task i (.answer (some frame)))).map
          fun connection => { s with connection, queued := s.queued ++ [⟨some i, frame⟩] }
      else
        (Connection.step cfg s.connection (.task i (.answer none))).map
          fun connection => { s with connection }
    else none
  | .task i event => taskStep cfg s i event
  | .notify i =>
    if i ∈ s.notifying then
      some { s with notifying := s.notifying.erase i, hasPermit := true }
    else none

/-- The end of a turn of the loop: it is left because an ERROR frame could not be sent, or
because of the frame it dealt with, or it goes on. -/
inductive Settles (s : DrainingState) (connection : ConnectionState) : DrainingState → Prop where
  | fails : s.isOpen = false → Settles s connection (leave { s with connection })
  | closes : connection.loop = .closed → Settles s connection { s with
      connection
      phase := .left
      queued := s.queued ++ (errorsSince s connection).map (⟨none, ·⟩) }
  | continues : connection.loop ≠ .closed → Settles s connection { s with
      connection
      phase := .selecting
      queued := s.queued ++ (errorsSince s connection).map (⟨none, ·⟩) }

/-- What the loop, a task or their surroundings do in a step. -/
inductive Steps (s : DrainingState) : DrainingLabel → DrainingState → Prop where
  | beginDrain : Steps s .beginDrain { s with drain := s.drain.send true }
  | forceDrain : Steps s .forceDrain { s with force := s.force.send true }
  | others {count : ℕ} : Steps s (.others count) (withOthers s count)
  | subscribe : s.phase = .subscribing →
      Steps s .subscribe { s with
        drain := s.drain.subscribe
        seen := s.drain.version
        force := s.force.subscribe
        forceSeen := s.force.version
        phase := .borrowing }
  | borrow : s.phase = .borrowing →
      Steps s .borrow { s with
        connection := { s.connection with isDraining := s.drain.value }
        phase := if s.drain.value then .greeting else .selecting }
  | greet : s.phase = .greeting → s.isOpen = true →
      Steps s .greet { put s goAway with phase := .selecting }
  | greetFails : s.phase = .greeting → Steps s .greet (leave s)
  | receive {frame : Frame} {connection : ConnectionState} {t : DrainingState} :
      IsSelecting s → Connection.Receives s.connection frame connection →
      Settles { s with hasPermit := s.hasPermit || cancels s frame } connection t →
      Steps s (.receive frame) t
  | register {frame : Frame} {connection : ConnectionState} {t : DrainingState} :
      s.phase = .selecting → s.connection.loop = .registering frame →
      Connection.Registers cfg s.connection frame connection → Settles s connection t →
      Steps s .register t
  | observe : IsSelecting s → s.connection.isDraining = false → s.drain.HasChanged s.seen →
      s.drain.value = true →
      Steps s .observe { s with
        connection := { s.connection with isDraining := true }
        seen := s.drain.version
        phase := .announcing }
  | observeNothing : IsSelecting s → s.drain.value = false →
      Steps s .observe { s with seen := s.drain.version }
  | announce : s.phase = .announcing → s.isOpen = true →
      Steps s .announce { put s goAway with phase := .checking }
  | announceFails : s.phase = .announcing → Steps s .announce (leave s)
  | wake : IsSelecting s → s.connection.isDraining = true → s.hasPermit = true →
      Steps s .wake { s with hasPermit := false, phase := .checking }
  | checkEmpty : s.phase = .checking → s.connection.active.keys = [] →
      Steps s .check { s with phase := .parting }
  | checkNonempty : s.phase = .checking → s.connection.active.keys ≠ [] →
      Steps s .check { s with phase := .selecting }
  | part : s.phase = .parting → s.isOpen = true → Steps s .part (leave (put s goodbye))
  | partFails : s.phase = .parting → Steps s .part (leave s)
  | force : IsSelecting s → s.force.value = true →
      Steps s .force { s with forceSeen := s.force.version, phase := .parting }
  | forceNothing : Steps s .force { s with forceSeen := s.force.version }
  | hangUp : IsSelecting s → Steps s .hangUp (leave s)
  | writerStops : Steps s .writerStops { s with isOpen := false }
  | answer {i : ℕ} {frame : Frame} {connection : ConnectionState} {task : RequestTask} :
      EndsRequest frame → s.isOpen = true → s.connection.tasks[i]? = some task →
      Connection.TaskMoves s.connection i task (.answer (some frame)) connection →
      Steps s (.answer i frame) { s with connection, queued := s.queued ++ [⟨some i, frame⟩] }
  | answerFails {i : ℕ} {frame : Frame} {connection : ConnectionState} {task : RequestTask} :
      ¬ (s.isOpen = true ∧ Fits frame) → s.connection.tasks[i]? = some task →
      Connection.TaskMoves s.connection i task (.answer none) connection →
      Steps s (.answer i frame) { s with connection }
  | deregister {i : ℕ} {connection : ConnectionState} {task : RequestTask} :
      s.connection.tasks[i]? = some task →
      Connection.TaskMoves s.connection i task .deregister connection →
      Steps s (.task i .deregister) { s with connection, notifying := s.notifying ++ [i] }
  | task {i : ℕ} {event : RequestEvent} {connection : ConnectionState} {task : RequestTask} :
      event = .acquireCredit ∨ event = .drop ∨ event = .panic →
      s.connection.tasks[i]? = some task →
      Connection.TaskMoves s.connection i task event connection →
      Steps s (.task i event) { s with connection }
  | notify {i : ℕ} : i ∈ s.notifying →
      Steps s (.notify i) { s with notifying := s.notifying.erase i, hasPermit := true }

end Model

variable {event : RequestEvent} {i : ℕ}

section Inversion

variable {cfg : ConnectionConfig} {s t : DrainingState}

theorem settles_settle (s : DrainingState) (connection : ConnectionState) :
    Settles s connection (settle s connection) := by
  unfold settle
  split_ifs with hfails hclosed
  · exact .fails hfails.2
  · exact .closes hclosed
  · exact .continues hclosed

theorem taskMoves_of_step {c c' : ConnectionState}
    (h : Connection.step cfg c (.task i event) = some c') :
    ∃ task, c.tasks[i]? = some task ∧ Connection.TaskMoves c i task event c' := by
  cases Connection.steps_of_step h with
  | task hi hmoves => exact ⟨_, hi, hmoves⟩

theorem steps_of_step {label : DrainingLabel} (h : step cfg s label = some t) :
    Steps cfg s label t := by
  cases label with
  | beginDrain => exact Option.some.inj h ▸ .beginDrain
  | forceDrain => exact Option.some.inj h ▸ .forceDrain
  | others count => exact Option.some.inj h ▸ .others
  | subscribe =>
    simp only [step] at h
    split_ifs at h with hphase
    exact Option.some.inj h ▸ .subscribe hphase
  | borrow =>
    simp only [step] at h
    split at h
    · rename_i hphase
      exact Option.some.inj h ▸ .borrow hphase
    · cases h
  | greet =>
    simp only [step] at h
    split_ifs at h with hphase hopen <;> cases h
    · exact .greet hphase hopen
    · exact .greetFails hphase
  | receive frame =>
    simp only [step] at h
    split_ifs at h with hphase
    obtain ⟨connection, hstep, rfl⟩ := Option.map_eq_some_iff.mp h
    cases Connection.steps_of_step hstep with
    | receive hloop =>
      exact .receive ⟨hphase, hloop⟩ (Connection.receives_receive _ _) (settles_settle _ _)
  | register =>
    simp only [step] at h
    split_ifs at h with hphase
    obtain ⟨connection, hstep, rfl⟩ := Option.map_eq_some_iff.mp h
    cases Connection.steps_of_step hstep with
    | register hloop =>
      exact .register hphase hloop (Connection.registers_register _ _ _) (settles_settle _ _)
  | observe =>
    simp only [step] at h
    split_ifs at h with hselect hvalue <;> cases h
    · exact .observe hselect.1 hselect.2.1 hselect.2.2 hvalue
    · exact .observeNothing hselect.1 (by simpa using hvalue)
  | announce =>
    simp only [step] at h
    split_ifs at h with hphase hopen <;> cases h
    · exact .announce hphase hopen
    · exact .announceFails hphase
  | wake =>
    simp only [step] at h
    split_ifs at h with hselect
    exact Option.some.inj h ▸ .wake hselect.1 hselect.2.1 hselect.2.2
  | check =>
    simp only [step] at h
    split_ifs at h with hphase hempty <;> cases h
    · exact .checkEmpty hphase hempty
    · exact .checkNonempty hphase hempty
  | part =>
    simp only [step] at h
    split_ifs at h with hphase hopen <;> cases h
    · exact .part hphase hopen
    · exact .partFails hphase
  | force =>
    simp only [step] at h
    split_ifs at h with hselect hvalue <;> cases h
    · exact .force hselect.1 hvalue
    · exact .forceNothing
  | hangUp =>
    simp only [step] at h
    split_ifs at h with hselect
    exact Option.some.inj h ▸ .hangUp hselect
  | writerStops => exact Option.some.inj h ▸ .writerStops
  | answer i frame =>
    simp only [step] at h
    split_ifs at h with hends hsent <;>
      obtain ⟨connection, hstep, rfl⟩ := Option.map_eq_some_iff.mp h <;>
      obtain ⟨task, hi, hmoves⟩ := taskMoves_of_step hstep
    · exact .answer hends hsent.1 hi hmoves
    · exact .answerFails hsent hi hmoves
  | task i event =>
    simp only [step, taskStep] at h
    split at h
    · cases h
    · rename_i connection hstep
      obtain ⟨task, hi, hmoves⟩ := taskMoves_of_step hstep
      cases event with
      | answer frame => cases h
      | deregister => exact Option.some.inj h ▸ .deregister hi hmoves
      | drop =>
        dsimp only at h
        split_ifs at h
        exact Option.some.inj h ▸ .task (.inr (.inl rfl)) hi hmoves
      | acquireCredit => exact Option.some.inj h ▸ .task (.inl rfl) hi hmoves
      | panic => exact Option.some.inj h ▸ .task (.inr (.inr rfl)) hi hmoves
  | notify i =>
    simp only [step] at h
    split_ifs at h with hi
    exact Option.some.inj h ▸ .notify hi

end Inversion

/-! ### Where the loop can be -/

/-- The loop deals with a REQUEST only in its select, and only if it does not know of the
drain; it is closed only when it was left. -/
def LoopAgrees (s : DrainingState) : Prop :=
  (s.phase ≠ .left → s.connection.loop ≠ .closed) ∧
    ∀ frame, s.connection.loop = .registering frame →
      s.phase = .selecting ∧ s.connection.isDraining = false

section Loop

variable {cfg : ConnectionConfig} {s t : DrainingState} {c c' : ConnectionState} {frame : Frame}

theorem loop_of_taskMoves {task : RequestTask} (h : Connection.TaskMoves c i task event c') :
    c'.loop = c.loop ∧ c'.isDraining = c.isDraining := by
  cases h <;> exact ⟨rfl, rfl⟩

theorem active_of_taskMoves {task : RequestTask} (h : Connection.TaskMoves c i task event c')
    (hevent : event ≠ .deregister) : c'.active = c.active := by
  cases h with
  | deregister => exact absurd rfl hevent
  | acquireCredit | answer | drop | panic => rfl

theorem isDraining_of_receives (h : Connection.Receives c frame c') :
    c'.isDraining = c.isDraining := by
  cases h <;> rfl

theorem isDraining_of_registers (h : Connection.Registers cfg c frame c') :
    c'.isDraining = c.isDraining := by
  cases h <;> rfl

/-- Only a REQUEST that is not refused for the drain is on its way to the table. -/
theorem isDraining_of_receives_of_registering (h : Connection.Receives c frame c')
    (hreading : c.loop = .reading) {request : Frame} (hloop : c'.loop = .registering request) :
    c'.isDraining = false := by
  cases h with
  | refuseDraining | refuseFull => cases hloop
  | accept _ hdraining => exact hdraining
  | cancel | credit | ignore => cases hreading.symm.trans hloop
  | close => cases hloop

theorem loop_ne_registering_of_registers (h : Connection.Registers cfg c frame c')
    (request : Frame) : c'.loop ≠ .registering request := by
  cases h <;> exact nofun

theorem loopAgrees_leave : LoopAgrees (leave s) := by
  refine ⟨fun h => absurd rfl h, ?_⟩
  intro frame hloop
  cases hloop

/-- The loop is at some other place than its select, and reads. -/
theorem LoopAgrees.of_reading (hloop : s.connection.loop = .reading) : LoopAgrees s := by
  constructor
  · intro _
    simp [hloop]
  · intro frame h
    simp [hloop] at h

theorem loopAgrees_init (cfg : ConnectionConfig) : LoopAgrees (init cfg) :=
  .of_reading rfl

theorem LoopAgrees.reading (h : LoopAgrees s) (hleft : s.phase ≠ .left)
    (hphase : s.phase ≠ .selecting) : s.connection.loop = .reading := by
  cases hloop : s.connection.loop with
  | reading => rfl
  | registering frame => exact absurd (h.2 frame hloop).1 hphase
  | closed => exact absurd hloop (h.1 hleft)

theorem loopAgrees_settles (h : Settles s c t)
    (hregistering : ∀ request, c.loop = .registering request → c.isDraining = false) :
    LoopAgrees t := by
  cases h with
  | fails => exact loopAgrees_leave
  | closes hclosed =>
    refine ⟨fun hleft => absurd rfl hleft, ?_⟩
    intro request hloop
    cases hclosed.symm.trans hloop
  | continues hclosed => exact ⟨fun _ => hclosed, fun request hloop => ⟨rfl, hregistering _ hloop⟩⟩

theorem loopAgrees_step {label : DrainingLabel} (h : LoopAgrees s)
    (hstep : step cfg s label = some t) : LoopAgrees t := by
  cases steps_of_step hstep with
  | beginDrain | forceDrain | others | forceNothing | writerStops | notify => exact h
  | observeNothing => exact h
  | subscribe hphase | borrow hphase | greet hphase | announce hphase | checkEmpty hphase
  | checkNonempty hphase =>
    exact .of_reading (h.reading (by simp [hphase]) (by simp [hphase]))
  | observe hselect | wake hselect | force hselect => exact .of_reading hselect.2
  | greetFails | announceFails | part | partFails | hangUp => exact loopAgrees_leave
  | receive hselect hreceives hsettles =>
    exact loopAgrees_settles hsettles fun request =>
      isDraining_of_receives_of_registering hreceives hselect.2
  | register _ _ hregisters hsettles =>
    exact loopAgrees_settles hsettles fun request hloop =>
      absurd hloop (loop_ne_registering_of_registers hregisters request)
  | answer _ _ _ hmoves | answerFails _ _ hmoves | deregister _ hmoves | task _ _ hmoves =>
    obtain ⟨hloop, hdraining⟩ := loop_of_taskMoves hmoves
    unfold LoopAgrees
    rw [hloop, hdraining]
    exact h

end Loop

end Draining

end MoonLightBridge.Server
