import MoonLightBridge.Server.DrainingConnection

/-!
# What a connection answers before it says goodbye

A graceful drain lets the requests that were admitted finish. The terminal frame of a
request (RESPONSE, ERROR or STREAM_END) is put into the response queue before its task
removes the entry from the table, and GOODBYE is put there only when the table is empty.
A REQUEST that comes after the loop learned of the drain is refused.

The argument is an account of the requests: a task that nobody cancelled has an entry
in the table, or its terminal frame is in the queue. It holds as long as a task removes
no entry but its own, which an id that is used again after CANCEL spoils, and as long as
the queue takes the terminal frame.
-/

namespace MoonLightBridge.Server.Draining

open Protocol Transition

/-! ### The queue -/

/-- The task at position `i` put a frame into the queue that ends the request. -/
def AnsweredIn (queue : List Queued) (i : ℕ) (id : UInt64) : Prop :=
  ∃ frame, ⟨some i, frame⟩ ∈ queue ∧ EndsRequest frame ∧ frame.requestId = id

def goAwayCount (queue : List Queued) : ℕ := queue.countP fun q => q.frame.kind = .goAway

def HasGoodbye (queue : List Queued) : Prop := ∃ q ∈ queue, q.frame.kind = .goodbye

/-- The frames before the first GOODBYE. -/
def beforeGoodbye (queue : List Queued) : List Queued :=
  queue.takeWhile fun q => q.frame.kind ≠ .goodbye

/-- The frames have no part in the drain. -/
def ArePlain (frames : List Queued) : Prop :=
  ∀ q ∈ frames, q.frame.kind ≠ .goAway ∧ q.frame.kind ≠ .goodbye

section Queue

variable {queue more : List Queued} {i : ℕ} {id : UInt64}

theorem AnsweredIn.mono {queue' : List Queued} (h : AnsweredIn queue i id)
    (hsubset : queue ⊆ queue') : AnsweredIn queue' i id := by
  obtain ⟨frame, hmem, hends⟩ := h
  exact ⟨frame, hsubset hmem, hends⟩

theorem arePlain_nil : ArePlain [] := by
  intro q hq
  cases hq

theorem EndsRequest.arePlain {frame : Frame} (h : EndsRequest frame) (source : Option ℕ) :
    ArePlain [⟨source, frame⟩] := by
  intro q hq
  obtain rfl := List.mem_singleton.mp hq
  rcases h with h | h | h <;> simp [h]

theorem goAwayCount_append (hmore : ∀ q ∈ more, q.frame.kind ≠ .goAway) :
    goAwayCount (queue ++ more) = goAwayCount queue := by
  have hzero : goAwayCount more = 0 :=
    List.countP_eq_zero.mpr fun q hq => by simpa using hmore q hq
  unfold goAwayCount at *
  rw [List.countP_append, hzero, Nat.add_zero]

theorem goAwayCount_concat_goAway :
    goAwayCount (queue ++ [⟨none, goAway⟩]) = goAwayCount queue + 1 := by
  unfold goAwayCount
  rw [List.countP_append]
  rfl

theorem HasGoodbye.of_append (h : HasGoodbye (queue ++ more))
    (hmore : ∀ q ∈ more, q.frame.kind ≠ .goodbye) : HasGoodbye queue := by
  obtain ⟨q, hq, hkind⟩ := h
  rcases List.mem_append.mp hq with hq | hq
  · exact ⟨q, hq, hkind⟩
  · exact absurd hkind (hmore q hq)

/-- What comes after GOODBYE does not matter. -/
theorem beforeGoodbye_append (h : HasGoodbye queue) :
    beforeGoodbye (queue ++ more) = beforeGoodbye queue := by
  obtain ⟨q, hq, hkind⟩ := h
  unfold beforeGoodbye
  rw [List.takeWhile_append, if_neg]
  intro hlength
  -- otherwise no frame of the queue is GOODBYE
  have hall := List.takeWhile_eq_self_iff.mp
    ((List.takeWhile_prefix fun q : Queued => decide (q.frame.kind ≠ .goodbye)).eq_of_length
      hlength)
  simpa [hkind] using hall q hq

/-- The first GOODBYE. -/
theorem beforeGoodbye_concat (h : ¬ HasGoodbye queue) :
    beforeGoodbye (queue ++ [⟨none, goodbye⟩]) = queue := by
  have hall : ∀ q ∈ queue, decide (q.frame.kind ≠ .goodbye) = true := by
    intro q hq
    simpa using fun hkind => h ⟨q, hq, hkind⟩
  unfold beforeGoodbye
  rw [List.takeWhile_append_of_pos hall]
  simp [goodbye, Frame.new]

end Queue

/-! ### The account of the requests -/

/-- A task that nobody cancelled has its entry in the table, or its answer is in the
queue. A task that is about to remove its entry has answered. If the writer stopped there
is nothing to account for. -/
structure Accounted (active : AList fun _ : UInt64 => ActiveRequest) (tasks : List RequestTask)
    (queue : List Queued) (isOpen : Bool) : Prop where
  entry_or_answer : ∀ i task, tasks[i]? = some task → task.isAborted = false →
    Connection.EntryAt active task.requestId i ∨
      (isOpen = true → AnsweredIn queue i task.requestId)
  answered : ∀ i task, tasks[i]? = some task → task.phase = .answered → isOpen = true →
    AnsweredIn queue i task.requestId

/-- A task that removes an entry finds its own, or none, and the frame that ends a request
is not too large for the queue. -/
def Careful (s : DrainingState) : DrainingLabel → Prop
  | .task i .deregister => Connection.Orderly s.connection (.task i .deregister)
  | .answer _ frame => Fits frame
  | _ => True

instance decidableCareful (s : DrainingState) :
    (label : DrainingLabel) → Decidable (Careful s label)
  | .task i .deregister =>
    inferInstanceAs (Decidable (Connection.Orderly s.connection (.task i .deregister)))
  | .answer _ frame => inferInstanceAs (Decidable (Fits frame))
  | .task _ .acquireCredit | .task _ (.answer _) | .task _ .drop | .task _ .panic
  | .beginDrain | .forceDrain | .others _ | .subscribe | .borrow | .greet | .receive _
  | .register | .observe | .announce | .wake | .check | .part | .force | .hangUp
  | .writerStops | .notify _ => isTrue trivial

section Accounted

variable {cfg : ConnectionConfig} {active : AList fun _ : UInt64 => ActiveRequest}
  {tasks tasks' : List RequestTask} {queue queue' : List Queued} {isOpen : Bool}
  {c c' : ConnectionState} {frame : Frame} {i : ℕ} {task task' : RequestTask}

theorem Accounted.mono (h : Accounted active tasks queue isOpen) (hsubset : queue ⊆ queue') :
    Accounted active tasks queue' isOpen where
  entry_or_answer i task hi haborted := (h.entry_or_answer i task hi haborted).imp_right
    fun hanswered hopen => (hanswered hopen).mono hsubset
  answered i task hi hphase hopen := (h.answered i task hi hphase hopen).mono hsubset

theorem Accounted.append (h : Accounted active tasks queue isOpen) (more : List Queued) :
    Accounted active tasks (queue ++ more) isOpen :=
  h.mono (List.subset_append_left queue more)

/-- The writer stopped. -/
theorem accounted_of_not_isOpen : Accounted active tasks queue false where
  entry_or_answer _ _ _ _ := .inr nofun
  answered _ _ _ _ := nofun

section

variable (h : Accounted active tasks queue isOpen)

include h

/-- Tasks may change, and be aborted, without a change of the account. -/
theorem Accounted.of_tasks
    (hold : ∀ j task', tasks'[j]? = some task' → ∃ task, tasks[j]? = some task ∧
      task'.requestId = task.requestId ∧ (task'.isAborted = false → task.isAborted = false) ∧
      (task'.phase = .answered → isOpen = true → task.phase = .answered ∨
        AnsweredIn queue j task.requestId)) :
    Accounted active tasks' queue isOpen where
  entry_or_answer j task' hj haborted := by
    obtain ⟨task, htask, hid, hkept, -⟩ := hold j task' hj
    rw [hid]
    exact h.entry_or_answer j task htask (hkept haborted)
  answered j task' hj hphase hopen := by
    obtain ⟨task, htask, hid, -, hanswered⟩ := hold j task' hj
    rw [hid]
    rcases hanswered hphase hopen with hphase | hanswered
    · exact h.answered j task htask hphase hopen
    · exact hanswered

theorem Accounted.set (hi : tasks[i]? = some task) (hid : task'.requestId = task.requestId)
    (haborted : task'.isAborted = task.isAborted)
    (hanswered : task'.phase = .answered → isOpen = true → task.phase = .answered ∨
      AnsweredIn queue i task.requestId) :
    Accounted active (tasks.set i task') queue isOpen := by
  -- one task is exchanged for another of the same request
  refine h.of_tasks fun j other hj => ?_
  rcases List.getElem?_set_eq_some hi hj with ⟨rfl, rfl⟩ | hold
  · exact ⟨task, hi, hid, fun hfalse => haborted ▸ hfalse, hanswered⟩
  · exact ⟨other, hold, rfl, id, fun hphase _ => .inl hphase⟩

theorem Accounted.modify (i : ℕ) {f : RequestTask → RequestTask}
    (hid : ∀ task, (f task).requestId = task.requestId)
    (haborted : ∀ task, (f task).isAborted = false → task.isAborted = false)
    (hphase : ∀ task, (f task).phase = task.phase) :
    Accounted active (tasks.modify i f) queue isOpen := by
  refine h.of_tasks fun j task' hj => ?_
  rw [List.getElem?_modify, Option.map_eq_map, Option.map_eq_some_iff] at hj
  obtain ⟨task, htask, rfl⟩ := hj
  refine ⟨task, htask, ?_⟩
  split_ifs
  · exact ⟨hid task, haborted task, fun hanswered _ => .inl (hphase task ▸ hanswered)⟩
  · exact ⟨rfl, id, fun hanswered _ => .inl hanswered⟩

/-- An entry may go if whoever has it was cancelled or has answered. -/
theorem Accounted.erase {id : UInt64}
    (hgone : ∀ j task, tasks[j]? = some task → Connection.EntryAt active id j →
      task.isAborted = false → isOpen = true → AnsweredIn queue j task.requestId) :
    Accounted (active.erase id) tasks queue isOpen where
  entry_or_answer j task hj haborted := by
    rcases h.entry_or_answer j task hj haborted with hentry | hanswered
    · by_cases hid : task.requestId = id
      · exact .inr (hgone j task hj (hid ▸ hentry) haborted)
      · exact .inl (Connection.entryAt_erase.mpr ⟨hid, hentry⟩)
    · exact .inr hanswered
  answered := h.answered

end

theorem Accounted.close (h : Accounted c.active c.tasks queue isOpen) :
    Accounted (Connection.close c).active (Connection.close c).tasks queue isOpen where
  entry_or_answer j task hj haborted := by
    simp only [Connection.close, List.getElem?_mapIdx, Option.map_eq_some_iff] at hj
    obtain ⟨old, hold, rfl⟩ := hj
    split_ifs at haborted ⊢ with hentry
    · cases haborted
    · -- whoever had an entry was aborted
      refine .inr ((h.entry_or_answer j old hold haborted).resolve_left ?_)
      rintro ⟨entry, hlookup, htask⟩
      exact hentry ⟨⟨_, entry⟩, AList.mem_lookup_iff.mp hlookup, htask⟩
  answered j task hj hphase hopen := by
    simp only [Connection.close, List.getElem?_mapIdx, Option.map_eq_some_iff] at hj
    obtain ⟨old, hold, rfl⟩ := hj
    split_ifs at hphase ⊢
    · exact h.answered j old hold hphase hopen
    · exact h.answered j old hold hphase hopen

theorem Accounted.cancel (h : Accounted active tasks queue isOpen) {id : UInt64}
    {entry : ActiveRequest} (hentry : active.lookup id = some entry) :
    Accounted (active.erase id) (tasks.modify entry.task RequestTask.abort) queue isOpen := by
  have haborted : Accounted active (tasks.modify entry.task RequestTask.abort) queue isOpen :=
    h.modify entry.task (fun _ => rfl) (fun _ => nofun) fun _ => rfl
  refine haborted.erase fun j task hj hj' hfalse => ?_
  -- the entry leads to the task that is aborted
  obtain rfl := hj'.unique ⟨entry, hentry, rfl⟩
  rw [List.getElem?_modify, Option.map_eq_map, Option.map_eq_some_iff] at hj
  obtain ⟨old, -, rfl⟩ := hj
  simp [RequestTask.abort] at hfalse

section

variable (h : Accounted c.active c.tasks queue isOpen)

include h

theorem Accounted.receives (hreceives : Connection.Receives c frame c') :
    Accounted c'.active c'.tasks queue isOpen := by
  cases hreceives with
  | refuseDraining | refuseFull | accept | ignore => exact h
  | cancel _ hentry => exact h.cancel hentry
  | credit i count =>
    exact h.modify i (fun _ => rfl) (fun _ hfalse => hfalse) fun _ => rfl
  | close => exact h.close

theorem Accounted.registers (hregisters : Connection.Registers cfg c frame c') :
    Accounted c'.active c'.tasks queue isOpen := by
  cases hregisters with
  | refuse => exact h
  | duplicate => exact Accounted.close (c := { c with permits := c.permits + 1 }) h
  | register hfresh =>
    constructor
    · intro j task hj haborted
      rcases List.getElem?_concat_eq_some.mp hj with hold | ⟨rfl, rfl⟩
      · refine (h.entry_or_answer j task hold haborted).imp_left fun hentry => ?_
        -- the id is new, so the entry is not displaced
        refine Connection.entryAt_insert.mpr (.inr ⟨fun hid => hfresh ?_, hentry⟩)
        obtain ⟨entry, hlookup, -⟩ := hentry
        exact hid ▸ AList.lookup_isSome.mp (by simp [hlookup])
      · exact .inl (Connection.entryAt_insert.mpr (.inl ⟨rfl, rfl⟩))
    · intro j task hj hphase
      rcases List.getElem?_concat_eq_some.mp hj with hold | ⟨-, rfl⟩
      · exact h.answered j task hold hphase
      · cases hphase

/-- A task sends the frame that ends its request. -/
theorem Accounted.answer (hi : c.tasks[i]? = some task) (hends : EndsRequest frame)
    (hmoves : Connection.TaskMoves c i task (.answer (some frame)) c') :
    Accounted c'.active c'.tasks (queue ++ [⟨some i, frame⟩]) isOpen := by
  cases hmoves with
  | answer hphase hid =>
    refine (h.append _).set hi rfl rfl fun _ _ => .inr ⟨frame, ?_, hends, hid frame rfl⟩
    exact List.mem_append_right _ (List.mem_singleton_self _)

/-- A task removes its entry; it has answered before. -/
theorem Accounted.deregister (hi : c.tasks[i]? = some task)
    (horderly : Connection.Orderly c (.task i .deregister))
    (hmoves : Connection.TaskMoves c i task .deregister c') :
    Accounted c'.active c'.tasks queue isOpen := by
  cases hmoves with
  | deregister hphase =>
    refine Accounted.set (h.erase fun j other hj hentry _ hopen => ?_) hi rfl rfl nofun
    -- the entry is that of the task itself
    obtain ⟨entry, hlookup, rfl⟩ := hentry
    obtain rfl := horderly task hi entry hlookup
    obtain rfl := Option.mem_unique hi hj
    exact h.answered _ _ hi hphase hopen

/-- Credits, the end of a task and a panic do not change the account. -/
theorem Accounted.taskMoves (hi : c.tasks[i]? = some task) {event : RequestEvent}
    (hevent : event = .acquireCredit ∨ event = .drop ∨ event = .panic)
    (hmoves : Connection.TaskMoves c i task event c') :
    Accounted c'.active c'.tasks queue isOpen := by
  rcases hevent with rfl | rfl | rfl <;> cases hmoves
  · exact h.set hi rfl rfl fun hphase _ => .inl hphase
  · exact h.set hi rfl rfl nofun
  · exact h.set hi rfl rfl nofun

end

end Accounted

/-! ### GOAWAY and GOODBYE -/

/-- Whether the loop knows of the drain, and how often it said GOAWAY. -/
def Announced (phase : DrainingPhase) (isDraining : Bool) (queue : List Queued) : Prop :=
  match phase with
  | .subscribing | .borrowing => isDraining = false ∧ goAwayCount queue = 0
  | .greeting | .announcing => isDraining = true ∧ goAwayCount queue = 0
  | .selecting => goAwayCount queue = if isDraining then 1 else 0
  | .checking | .parting => isDraining = true ∧ goAwayCount queue = 1
  | .left => goAwayCount queue ≤ 1

/-- What is in the queue before GOODBYE: the answer to every request that was not
cancelled, and the one GOAWAY. -/
structure Graceful (tasks : List RequestTask) (queue : List Queued) : Prop where
  answered : ∀ i task, tasks[i]? = some task → task.isAborted = false →
    AnsweredIn (beforeGoodbye queue) i task.requestId
  announced : goAwayCount (beforeGoodbye queue) = 1
  once : goAwayCount queue = 1

/-- What holds in every state of a connection that is not forced to end. -/
structure Unforced (s : DrainingState) : Prop where
  loop : LoopAgrees s
  accounted : Accounted s.connection.active s.connection.tasks s.queued s.isOpen
  announced : Announced s.phase s.connection.isDraining s.queued
  emptied : s.phase = .parting → s.connection.active.keys = []
  parted : HasGoodbye s.queued → s.phase = .left ∧ Graceful s.connection.tasks s.queued

section Steps

variable {cfg : ConnectionConfig} {s t : DrainingState} {c c' : ConnectionState} {frame : Frame}
  {i j : ℕ} {task task' : RequestTask} {event : RequestEvent} {phase : DrainingPhase}
  {isDraining : Bool} {queue more : List Queued}

theorem arePlain_of_receives (h : Connection.Receives s.connection frame c) :
    ArePlain ((errorsSince s c).map (⟨none, ·⟩)) := by
  cases h with
  | refuseDraining | refuseFull =>
    simp [ArePlain, errorsSince, Connection.refuse, errorFrame, Frame.new]
  | accept | cancel | credit | ignore | close =>
    simp [ArePlain, errorsSince, Connection.close]

theorem arePlain_of_registers (h : Connection.Registers cfg s.connection frame c) :
    ArePlain ((errorsSince s c).map (⟨none, ·⟩)) := by
  cases h with
  | refuse => simp [ArePlain, errorsSince, Connection.refuse, errorFrame, Frame.new]
  | duplicate | register => simp [ArePlain, errorsSince, Connection.close]

theorem Announced.append (h : Announced phase isDraining queue)
    (hmore : ∀ q ∈ more, q.frame.kind ≠ .goAway) : Announced phase isDraining (queue ++ more) := by
  unfold Announced at *
  rw [goAwayCount_append hmore]
  exact h

theorem Announced.leave (h : Announced phase isDraining queue) (isDraining' : Bool) :
    Announced .left isDraining' queue := by
  change goAwayCount queue ≤ 1
  cases phase with
  | subscribing | borrowing | greeting | announcing | checking | parting =>
    have hcount := h.2
    omega
  | selecting =>
    have hcount : goAwayCount queue = if isDraining then 1 else 0 := h
    split_ifs at hcount <;> omega
  | left => exact h

theorem Announced.settles (h : Announced .selecting s.connection.isDraining s.queued)
    (hdraining : c.isDraining = s.connection.isDraining)
    (hplain : ArePlain ((errorsSince s c).map (⟨none, ·⟩))) (hsettles : Settles s c t) :
    Announced t.phase t.connection.isDraining t.queued := by
  have hsent := h.append fun q hq => (hplain q hq).1
  cases hsettles with
  | fails => exact h.leave _
  | closes => exact hsent.leave _
  | continues =>
    rw [← hdraining] at hsent
    exact hsent

variable {label : DrainingLabel}

theorem Announced.step (h : Announced s.phase s.connection.isDraining s.queued)
    (hstep : step cfg s label = some t) (hforce : t.force.value = false) :
    Announced t.phase t.connection.isDraining t.queued := by
  cases steps_of_step hstep with
  | beginDrain | forceDrain | others | forceNothing | observeNothing | writerStops | notify =>
    exact h
  | subscribe hphase =>
    rw [hphase] at h
    exact h
  | borrow hphase =>
    rw [hphase] at h
    cases hvalue : s.drain.value with
    | false => exact h.2
    | true => exact ⟨rfl, h.2⟩
  | greet hphase =>
    rw [hphase] at h
    change goAwayCount (s.queued ++ [⟨none, goAway⟩]) = if s.connection.isDraining then 1 else 0
    rw [goAwayCount_concat_goAway, h.1, h.2]
    rfl
  | announce hphase =>
    rw [hphase] at h
    refine ⟨h.1, ?_⟩
    change goAwayCount (s.queued ++ [⟨none, goAway⟩]) = 1
    rw [goAwayCount_concat_goAway, h.2]
  | greetFails | announceFails | partFails | hangUp => exact h.leave _
  | receive hselect hreceives hsettles =>
    rw [hselect.1] at h
    exact Announced.settles (s := { s with hasPermit := s.hasPermit || cancels s _ }) h
      (isDraining_of_receives hreceives) (arePlain_of_receives hreceives) hsettles
  | register hphase _ hregisters hsettles =>
    rw [hphase] at h
    exact h.settles (isDraining_of_registers hregisters) (arePlain_of_registers hregisters)
      hsettles
  -- it did not know of the drain, so it has said nothing
  | observe hselect hdraining =>
    rw [hselect.1, hdraining] at h
    exact ⟨rfl, h⟩
  | wake hselect hdraining =>
    rw [hselect.1, hdraining] at h
    exact ⟨hdraining, h⟩
  | checkEmpty hphase =>
    rw [hphase] at h
    exact h
  | checkNonempty hphase =>
    rw [hphase] at h
    change goAwayCount s.queued = if s.connection.isDraining then 1 else 0
    rw [h.1, h.2]
    rfl
  | part =>
    have hmore : ∀ q ∈ [(⟨none, goodbye⟩ : Queued)], q.frame.kind ≠ .goAway := by
      simp [goodbye, Frame.new]
    exact (h.append hmore).leave _
  | force _ hvalue => cases hforce.symm.trans hvalue
  | answer hends _ _ hmoves =>
    have hdraining := (loop_of_taskMoves hmoves).2
    dsimp only
    rw [hdraining]
    exact h.append fun q hq => (hends.arePlain _ q hq).1
  | answerFails _ _ hmoves | deregister _ hmoves | task _ _ hmoves =>
    have hdraining := (loop_of_taskMoves hmoves).2
    dsimp only
    rw [hdraining]
    exact h

/-- What a connection accounts for does not depend on where its loop is. -/
theorem Accounted.settles (h : Accounted c.active c.tasks s.queued s.isOpen)
    (hsettles : Settles s c t) :
    Accounted t.connection.active t.connection.tasks t.queued t.isOpen := by
  cases hsettles with
  | fails => exact h.close
  | closes | continues => exact h.append _

theorem Accounted.step (hcareful : Careful s label)
    (h : Accounted s.connection.active s.connection.tasks s.queued s.isOpen)
    (hstep : step cfg s label = some t) :
    Accounted t.connection.active t.connection.tasks t.queued t.isOpen := by
  cases steps_of_step hstep with
  | beginDrain | forceDrain | others | forceNothing | observeNothing | notify => exact h
  | subscribe | borrow | observe | wake | checkEmpty | checkNonempty | force => exact h
  | greet | announce => exact h.append _
  | greetFails | announceFails | partFails | hangUp => exact h.close
  | part => exact (h.append _).close
  | writerStops => exact accounted_of_not_isOpen
  | receive _ hreceives hsettles =>
    exact Accounted.settles (s := { s with hasPermit := s.hasPermit || cancels s _ })
      (h.receives hreceives) hsettles
  | register _ _ hregisters hsettles => exact (h.registers hregisters).settles hsettles
  | answer hends _ hi hmoves => exact h.answer hi hends hmoves
  | answerFails hfails =>
    -- the frame fits, so the writer stopped
    have hopen : s.isOpen = false := by simpa using fun hopen => hfails ⟨hopen, hcareful⟩
    dsimp only
    rw [hopen]
    exact accounted_of_not_isOpen
  | deregister hi hmoves => exact h.deregister hi hcareful hmoves
  | task hevent hi hmoves => exact h.taskMoves hi hevent hmoves

theorem keys_of_taskMoves (h : Connection.TaskMoves c i task event c')
    (hempty : c.active.keys = []) : c'.active.keys = [] := by
  cases h with
  | deregister => simp [AList.keys_erase, hempty]
  | acquireCredit | answer | drop | panic => exact hempty

/-- GOODBYE is about to be said only when the table is empty. -/
theorem emptied_step (h : s.phase = .parting → s.connection.active.keys = [])
    (hstep : step cfg s label = some t) (hforce : t.force.value = false)
    (hphase' : t.phase = .parting) : t.connection.active.keys = [] := by
  cases steps_of_step hstep with
  | beginDrain | forceDrain | others | forceNothing | observeNothing | writerStops | notify =>
    exact h hphase'
  | subscribe | greet | observe | announce | wake | checkNonempty => cases hphase'
  | greetFails | announceFails | part | partFails | hangUp => cases hphase'
  | borrow => split_ifs at hphase'
  | checkEmpty _ hempty => exact hempty
  | force _ hvalue => cases hforce.symm.trans hvalue
  | receive _ _ hsettles | register _ _ _ hsettles => cases hsettles <;> cases hphase'
  | answer _ _ _ hmoves | answerFails _ _ hmoves | deregister _ hmoves | task _ _ hmoves =>
    exact keys_of_taskMoves hmoves (h hphase')

/-- A task that makes a step stays the task of the same request, and nobody cancels it. -/
theorem exists_of_taskMoves (h : Connection.TaskMoves c i task event c')
    (hi : c.tasks[i]? = some task) (hj : c'.tasks[j]? = some task') :
    ∃ old, c.tasks[j]? = some old ∧ task'.requestId = old.requestId ∧
      task'.isAborted = old.isAborted := by
  cases h with
  | acquireCredit | answer | deregister | drop | panic =>
    rcases List.getElem?_set_eq_some hi hj with ⟨rfl, rfl⟩ | hold
    · exact ⟨task, hi, rfl, rfl⟩
    · exact ⟨task', hold, rfl, rfl⟩

/-- After GOODBYE tasks may go on. -/
theorem Graceful.taskMoves (h : Graceful c.tasks queue) (hgoodbye : HasGoodbye queue)
    (hplain : ArePlain more) (hi : c.tasks[i]? = some task)
    (hmoves : Connection.TaskMoves c i task event c') : Graceful c'.tasks (queue ++ more) := by
  refine ⟨fun j task' hj haborted => ?_, ?_, ?_⟩
  · obtain ⟨old, hold, hid, hkept⟩ := exists_of_taskMoves hmoves hi hj
    rw [beforeGoodbye_append hgoodbye, hid]
    exact h.answered j old hold (hkept ▸ haborted)
  · rw [beforeGoodbye_append hgoodbye]
    exact h.announced
  · rw [goAwayCount_append fun q hq => (hplain q hq).1]
    exact h.once

/-- Nobody has an entry when GOODBYE is said, so everybody has answered. -/
theorem Unforced.graceful_part (h : Unforced s) (hphase : s.phase = .parting)
    (hopen : s.isOpen = true) :
    Graceful (Connection.close s.connection).tasks (s.queued ++ [⟨none, goodbye⟩]) := by
  have hannounced : goAwayCount s.queued = 1 := by
    have := h.announced
    rw [hphase] at this
    exact this.2
  have hnone : ¬ HasGoodbye s.queued := by
    intro hgoodbye
    cases hphase.symm.trans (h.parted hgoodbye).1
  refine ⟨fun j task hj haborted => ?_, ?_, ?_⟩
  · rw [beforeGoodbye_concat hnone]
    -- the table was emptied, so an entry is no excuse
    refine (h.accounted.close.entry_or_answer j task hj haborted).resolve_left ?_ hopen
    rintro ⟨entry, hentry, -⟩
    cases hentry
  · rw [beforeGoodbye_concat hnone]
    exact hannounced
  · rw [goAwayCount_append]
    · exact hannounced
    · simp [goodbye, Frame.new]

theorem HasGoodbye.of_settles (hsettles : Settles s c t)
    (hplain : ArePlain ((errorsSince s c).map (⟨none, ·⟩))) (h : HasGoodbye t.queued) :
    HasGoodbye s.queued := by
  cases hsettles with
  | fails => exact h
  | closes | continues => exact h.of_append fun q hq => (hplain q hq).2

theorem Unforced.parted_step (h : Unforced s) (hstep : step cfg s label = some t)
    (hforce : t.force.value = false) (hgoodbye : HasGoodbye t.queued) :
    t.phase = .left ∧ Graceful t.connection.tasks t.queued := by
  -- as long as the loop runs, GOODBYE was not said
  have hnone (hphase : s.phase ≠ .left) (hsaid : HasGoodbye s.queued) : False :=
    hphase (h.parted hsaid).1
  have hgoAway : ∀ q ∈ [(⟨none, goAway⟩ : Queued)], q.frame.kind ≠ .goodbye := by
    simp [goAway, Frame.new]
  cases steps_of_step hstep with
  | beginDrain | forceDrain | others | forceNothing | observeNothing | writerStops | notify =>
    exact h.parted hgoodbye
  | subscribe hphase | borrow hphase | greetFails hphase | announceFails hphase
  | checkEmpty hphase | checkNonempty hphase | partFails hphase =>
    exact (hnone (by simp [hphase]) hgoodbye).elim
  | observe hselect | wake hselect | hangUp hselect =>
    exact (hnone (by simp [hselect.1]) hgoodbye).elim
  | greet hphase | announce hphase =>
    -- GOAWAY was added, not GOODBYE
    exact (hnone (by simp [hphase]) (hgoodbye.of_append hgoAway)).elim
  | force _ hvalue => cases hforce.symm.trans hvalue
  | receive hselect hreceives hsettles =>
    refine (hnone (by simp [hselect.1]) ?_).elim
    exact HasGoodbye.of_settles (s := { s with hasPermit := s.hasPermit || cancels s _ })
      hsettles (arePlain_of_receives hreceives) hgoodbye
  | register hphase _ hregisters hsettles =>
    refine (hnone (by simp [hphase]) ?_).elim
    exact .of_settles hsettles (arePlain_of_registers hregisters) hgoodbye
  | part hphase hopen => exact ⟨rfl, h.graceful_part hphase hopen⟩
  | @answer i _ _ _ hends _ hi hmoves =>
    have hplain := hends.arePlain (some i)
    have hsaid := hgoodbye.of_append fun q hq => (hplain q hq).2
    obtain ⟨hleft, hgraceful⟩ := h.parted hsaid
    exact ⟨hleft, hgraceful.taskMoves hsaid hplain hi hmoves⟩
  | answerFails _ hi hmoves | deregister hi hmoves | task _ hi hmoves =>
    obtain ⟨hleft, hgraceful⟩ := h.parted hgoodbye
    have hkept := hgraceful.taskMoves hgoodbye arePlain_nil hi hmoves
    rw [List.append_nil] at hkept
    exact ⟨hleft, hkept⟩

theorem force_value_of_step (hstep : step cfg s label = some t) (hforce : t.force.value = false) :
    s.force.value = false := by
  cases steps_of_step hstep with
  | forceDrain => exact Watch.value_of_value_send (by simp) hforce
  | receive _ _ hsettles | register _ _ _ hsettles => cases hsettles <;> exact hforce
  | beginDrain | others | subscribe | borrow | greet | greetFails | observe | observeNothing
  | announce | announceFails | wake | checkEmpty | checkNonempty | part | partFails | force
  | forceNothing | hangUp | writerStops | answer | answerFails | deregister | task | notify =>
    exact hforce

theorem unforced_init (cfg : ConnectionConfig) : Unforced (init cfg) where
  loop := loopAgrees_init cfg
  accounted := ⟨nofun, nofun⟩
  announced := ⟨rfl, rfl⟩
  emptied := nofun
  parted := by
    rintro ⟨q, hq, -⟩
    cases hq

/-- As long as the connection is not forced to end, a careful step keeps the account. -/
theorem Unforced.step (hcareful : Careful s label) (h : s.force.value = false → Unforced s)
    (hstep : step cfg s label = some t) (hforce : t.force.value = false) : Unforced t := by
  have hs : Unforced s := h (force_value_of_step hstep hforce)
  exact ⟨loopAgrees_step hs.loop hstep, hs.accounted.step hcareful hstep,
    hs.announced.step hstep hforce, emptied_step hs.emptied hstep hforce,
    hs.parted_step hstep hforce⟩

/-! ### What comes after the drain began -/

/-- The loop knows of the drain. -/
structure Knows (s : DrainingState) : Prop where
  loop : LoopAgrees s
  isDraining : s.connection.isDraining = true
  phase : s.phase ≠ .subscribing ∧ s.phase ≠ .borrowing

theorem Unforced.knows (h : Unforced s) (hdraining : s.connection.isDraining = true) :
    Knows s := by
  have hannounced := h.announced
  refine ⟨h.loop, hdraining, fun hphase => ?_, fun hphase => ?_⟩
  · rw [hphase] at hannounced
    cases hannounced.1.symm.trans hdraining
  · rw [hphase] at hannounced
    cases hannounced.1.symm.trans hdraining

theorem Knows.isDraining_step (h : Knows s) (hstep : step cfg s label = some t) :
    t.connection.isDraining = true := by
  cases steps_of_step hstep with
  | borrow hphase => exact absurd hphase h.phase.2
  | observe => rfl
  | receive _ hreceives hsettles =>
    have hkept := (isDraining_of_receives hreceives).trans h.isDraining
    cases hsettles <;> exact hkept
  | register _ _ hregisters hsettles =>
    have hkept := (isDraining_of_registers hregisters).trans h.isDraining
    cases hsettles <;> exact hkept
  | answer _ _ _ hmoves | answerFails _ _ hmoves | deregister _ hmoves | task _ _ hmoves =>
    exact (loop_of_taskMoves hmoves).2.trans h.isDraining
  | beginDrain | forceDrain | others | subscribe | greet | greetFails | observeNothing
  | announce | announceFails | wake | checkEmpty | checkNonempty | part | partFails | force
  | forceNothing | hangUp | writerStops | notify => exact h.isDraining

theorem Knows.phase_step (h : Knows s) (hstep : step cfg s label = some t) :
    t.phase ≠ .subscribing ∧ t.phase ≠ .borrowing := by
  cases steps_of_step hstep with
  | subscribe hphase => exact absurd hphase h.phase.1
  | borrow hphase => exact absurd hphase h.phase.2
  | receive _ _ hsettles | register _ _ _ hsettles => cases hsettles <;> exact ⟨nofun, nofun⟩
  | greet | observe | announce | wake | checkEmpty | checkNonempty | force => exact ⟨nofun, nofun⟩
  | greetFails | announceFails | part | partFails | hangUp => exact ⟨nofun, nofun⟩
  | beginDrain | forceDrain | others | observeNothing | forceNothing | writerStops | answer
  | answerFails | deregister | task | notify => exact h.phase

theorem length_tasks_close : (Connection.close c).tasks.length = c.tasks.length :=
  List.length_mapIdx

theorem length_tasks_of_receives (h : Connection.Receives c frame c') :
    c'.tasks.length = c.tasks.length := by
  cases h with
  | refuseDraining | refuseFull | accept | ignore => rfl
  | cancel | credit => exact List.length_modify _ _ _
  | close => exact length_tasks_close

theorem length_tasks_of_taskMoves (h : Connection.TaskMoves c i task event c') :
    c'.tasks.length = c.tasks.length := by
  cases h <;> exact List.length_set

/-- A connection that knows of the drain starts no task. -/
theorem Knows.length_tasks_step (h : Knows s) (hstep : step cfg s label = some t) :
    t.connection.tasks.length = s.connection.tasks.length := by
  cases steps_of_step hstep with
  | receive _ hreceives hsettles =>
    have hlength := length_tasks_of_receives hreceives
    cases hsettles with
    | fails => exact length_tasks_close.trans hlength
    | closes | continues => exact hlength
  | register _ hloop =>
    -- it would have to be dealing with a REQUEST that it admitted
    cases (h.loop.2 _ hloop).2.symm.trans h.isDraining
  | answer _ _ _ hmoves | answerFails _ _ hmoves | deregister _ hmoves | task _ _ hmoves =>
    exact length_tasks_of_taskMoves hmoves
  | greetFails | announceFails | part | partFails | hangUp => exact length_tasks_close
  | beginDrain | forceDrain | others | subscribe | borrow | greet | observe | observeNothing
  | announce | wake | checkEmpty | checkNonempty | force | forceNothing | writerStops
  | notify => rfl

theorem knows_step (h : Knows s) (hstep : step cfg s label = some t) : Knows t :=
  ⟨loopAgrees_step h.loop hstep, h.isDraining_step hstep, h.phase_step hstep⟩

theorem length_tasks_run {labels : List DrainingLabel} (h : Knows s)
    (hrun : run (step cfg) s labels = some t) :
    t.connection.tasks.length = s.connection.tasks.length := by
  refine (run_invariant (I := fun u => Knows u ∧
    u.connection.tasks.length = s.connection.tasks.length) ?_ hrun ⟨h, rfl⟩).2
  rintro u label v ⟨hu, hlength⟩ hstep
  exact ⟨knows_step hu hstep, (hu.length_tasks_step hstep).trans hlength⟩

/-- A REQUEST that comes too late is refused. -/
theorem refused_of_isDraining (hdraining : s.connection.isDraining = true)
    (hopen : s.isOpen = true) (hkind : frame.kind = .request)
    (hstep : step cfg s (.receive frame) = some t) :
    t.queued = s.queued ++
        [⟨none, errorFrame frame .unavailable "server connection is draining"⟩] ∧
      t.connection.tasks = s.connection.tasks := by
  cases steps_of_step hstep with
  | receive _ hreceives hsettles =>
    cases hreceives with
    | refuseDraining =>
      cases hsettles with
      | fails hclosed => cases hopen.symm.trans hclosed
      | closes hclosed => cases hclosed
      | continues => simp [errorsSince, Connection.refuse]
    | refuseFull _ hnot | accept _ hnot => cases hnot.symm.trans hdraining
    | cancel hother | credit _ _ hother => cases hkind.symm.trans hother
    | ignore hother => exact absurd hkind hother
    | close hnot => cases (hnot hkind).symm.trans hdraining

end Steps

/-! ### Whole runs -/

/-- A drain that is not forced is graceful if no task removes the entry of another and the
answers fit into the queue. When GOODBYE is in the queue, every request that was admitted
and not cancelled was answered before it, and so was GOAWAY, which is never sent twice.
When the loop knows of the drain, a REQUEST is answered with ERROR UNAVAILABLE, and no
task is started any more. -/
theorem graceful_of_careful (cfg : ConnectionConfig) (labels : List DrainingLabel)
    (s : DrainingState) (hrun : run (step cfg) (init cfg) labels = some s)
    (hcareful : MeetsGuard (step cfg) Careful (init cfg) labels)
    (hforce : s.force.value = false) :
    (HasGoodbye s.queued → Graceful s.connection.tasks s.queued) ∧
      goAwayCount s.queued ≤ 1 ∧
      (s.connection.isDraining = true →
        (∀ frame t, frame.kind = .request → s.isOpen = true →
          step cfg s (.receive frame) = some t →
          t.queued = s.queued ++
              [⟨none, errorFrame frame .unavailable "server connection is draining"⟩] ∧
            t.connection.tasks = s.connection.tasks) ∧
        ∀ later t, run (step cfg) s later = some t →
          t.connection.tasks.length = s.connection.tasks.length) := by
  have h : Unforced s := hcareful.invariant (I := fun s => s.force.value = false → Unforced s)
    Unforced.step hrun (fun _ => unforced_init cfg) hforce
  refine ⟨fun hgoodbye => (h.parted hgoodbye).2, h.announced.leave false, fun hdraining => ?_⟩
  constructor
  · intro frame t hkind hopen hstep
    exact refused_of_isDraining hdraining hopen hkind hstep
  · intro later t hlater
    exact length_tasks_run (h.knows hdraining) hlater

/-- A connection that negotiated what the server offers. -/
def unaryOnly : ConnectionConfig := ⟨Writer.defaultNegotiated, fun _ => false⟩

/-- A request is under way when the server begins to drain. -/
def drainedRun : List DrainingLabel :=
  [.subscribe, .borrow, .receive (Frame.new .request 7 1 []), .register, .beginDrain, .observe,
    .announce, .check, .answer 0 (Frame.new .response 7 1 []), .task 0 .deregister, .notify 0,
    .wake, .check, .part]

theorem graceful_drainedRun :
    ∃ s, run (step unaryOnly) (init unaryOnly) drainedRun = some s ∧
      s.queued = [⟨none, goAway⟩, ⟨some 0, Frame.new .response 7 1 []⟩, ⟨none, goodbye⟩] ∧
      Graceful s.connection.tasks s.queued := by
  obtain ⟨s, hrun, hs⟩ := Option.map_eq_some_iff.mp
    (show (run (step unaryOnly) (init unaryOnly) drainedRun).map
        (fun s => (s.force.value, s.queued)) = some (false,
          [⟨none, goAway⟩, ⟨some 0, Frame.new .response 7 1 []⟩, ⟨none, goodbye⟩]) by
      decide +kernel)
  obtain ⟨hforce, hqueued⟩ := Prod.mk.inj hs
  have hgoodbye : HasGoodbye s.queued := ⟨⟨none, goodbye⟩, by simp [hqueued], rfl⟩
  exact ⟨s, hrun, hqueued, (graceful_of_careful unaryOnly drainedRun s hrun (by decide +kernel)
    hforce).1 hgoodbye⟩

/-! ### An id that is used again -/

/-- The client cancels a request that was just answered and uses its id again. The server
begins to drain, and the first task removes the entry of the second. -/
def reusedIdDrain : List DrainingLabel :=
  [.subscribe, .borrow, .receive (Frame.new .request 7 1 []), .register,
    .answer 0 (Frame.new .response 7 1 []), .receive (Frame.new .cancel 0 1 []),
    .receive (Frame.new .request 7 1 []), .register, .beginDrain, .observe, .announce, .check,
    .task 0 .deregister, .notify 0, .wake, .check, .part]

/-- GOODBYE is said while the second request, which nobody cancelled, is running. -/
theorem not_graceful_reusedIdDrain :
    ∃ s, run (step unaryOnly) (init unaryOnly) reusedIdDrain = some s ∧
      s.force.value = false ∧ HasGoodbye s.queued ∧
      s.connection.tasks[1]? = some ⟨1, .running, false, 0⟩ ∧
      ¬ Graceful s.connection.tasks s.queued := by
  obtain ⟨s, hrun, hs⟩ := Option.map_eq_some_iff.mp
    (show (run (step unaryOnly) (init unaryOnly) reusedIdDrain).map
        (fun s => (s.force.value, s.connection.tasks[1]?, s.queued)) =
      some (false, some ⟨1, .running, false, 0⟩,
        [⟨some 0, Frame.new .response 7 1 []⟩, ⟨none, goAway⟩, ⟨none, goodbye⟩]) by
      decide +kernel)
  obtain ⟨hforce, htask, hqueued⟩ := by simpa only [Prod.mk.injEq] using hs
  refine ⟨s, hrun, hforce, ⟨⟨none, goodbye⟩, by simp [hqueued], rfl⟩, htask, fun h => ?_⟩
  -- no frame of the queue comes from the second task
  obtain ⟨frame, hframe, -⟩ := h.answered 1 _ htask rfl
  have hmem := (List.takeWhile_prefix _).subset hframe
  rw [hqueued] at hmem
  simp at hmem

end MoonLightBridge.Server.Draining
