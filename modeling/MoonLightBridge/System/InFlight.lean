import MoonLightBridge.Client.Calls
import MoonLightBridge.Server.Connection

/-!
# Requests in flight, on both sides

Client and server count the same limit, the negotiated `max_in_flight`, each with its
own permits. The client releases a permit when a call terminates on its side, the server
when the task of the request is dropped. The two are joined here by FIFO channels: frames
the client has sent and the server has not taken up, and answers the server has queued
and the client has not read.

Which requests the server is still working on, once it has taken up what is on the way
to it, can be read off the channel: a REQUEST adds its id and a CANCEL removes it.
-/

namespace MoonLightBridge.InFlight

open Protocol Server Client Transition

structure State where
  client : CallState
  /-- frames the server has not taken up -/
  toServer : List Frame
  server : ConnectionState
  /-- how many of the server's answers the client has read -/
  received : ℕ

inductive Label where
  | client (label : CallLabel)
  | server (label : ConnectionLabel)
  /-- the server takes up the next frame -/
  | deliver
  /-- the client reads the next answer -/
  | receive
  deriving DecidableEq, Repr

def init (cfg : ConnectionConfig) : State where
  client := Calls.init (Connection.maxInFlight cfg)
  toServer := []
  server := Connection.init cfg
  received := 0

def step (cfg : ConnectionConfig) (s : State) : Label → Option State
  -- what a party receives is what the other one sent
  | .client (.receive _) | .server (.receive _) => none
  | .client label =>
    match Calls.step s.client label with
    | some (client, frames) => some { s with client, toServer := s.toServer ++ frames }
    | none => none
  | .server label =>
    match Connection.step cfg s.server label with
    | some server => some { s with server }
    | none => none
  | .deliver =>
    match s.toServer with
    | [] => none
    | frame :: toServer =>
      match Connection.step cfg s.server (.receive frame) with
      | some server => some { s with server, toServer }
      | none => none
  | .receive =>
    match s.server.sent[s.received]? with
    | none => none
    | some frame => some { s with
        client := Calls.receive s.client frame
        received := s.received + 1 }

/-- The answer to a REQUEST for which the server has no permit. -/
def tooManyActive (request : Frame) : Frame :=
  errorFrame request .resourceExhausted "too many active requests"

/-- The server has refused no request for want of a permit. -/
def NeverRefused (s : State) : Prop := ∀ request, tooManyActive request ∉ s.server.refused

/-- Calls whose permit was released before their CANCEL was sent. -/
def releasedCount (calls : List Call) : ℕ := calls.countP fun call => call.phase = .released

/-- A step on which neither side lags behind. If all permits are taken when the server
takes up a REQUEST, they are taken by tasks at work: none that has sent its answer, or
was aborted, is still to be dropped. When the client sends a REQUEST, the permits released
by calls that still have to send CANCEL are all free. -/
def Prompt (s : State) : Label → Prop
  | .deliver => ∀ frame ∈ s.toServer.head?, frame.kind = .request → s.server.permits = 0 →
      ∀ task ∈ s.server.tasks, task.phase ≠ .ended →
        task.phase = .running ∧ task.isAborted = false
  | .client (.call _ (.sendRequest _)) => releasedCount s.client.calls ≤ s.client.permits
  | _ => True

/-! ### The ids in flight along a channel -/

section Channel

/-- What a frame from the client does to the set of requests in flight. -/
def applyFrame (ids : Finset UInt64) (frame : Frame) : Finset UInt64 :=
  if frame.kind = .request then insert frame.requestId ids
  else if frame.kind = .cancel then ids.erase frame.requestId
  else ids

/-- The requests in flight after the frames were taken up. -/
def after (ids : Finset UInt64) (frames : List Frame) : Finset UInt64 := frames.foldl applyFrame ids

/-- Every REQUEST among the frames finds fewer requests in flight than the limit. -/
def Room (limit : ℕ) : Finset UInt64 → List Frame → Prop
  | _, [] => True
  | ids, frame :: frames =>
    (frame.kind = .request → ids.card + 1 ≤ limit) ∧ Room limit (applyFrame ids frame) frames

/-- The ids of the REQUEST frames. -/
def requested (frames : List Frame) : List UInt64 :=
  (frames.filter fun frame => frame.kind = .request).map Frame.requestId

variable {limit : ℕ} {ids ids' : Finset UInt64} {frames : List Frame} {frame : Frame}

theorem applyFrame_mono (h : ids ⊆ ids') (frame : Frame) :
    applyFrame ids frame ⊆ applyFrame ids' frame := by
  unfold applyFrame
  split_ifs
  · exact Finset.insert_subset_insert _ h
  · exact Finset.erase_subset_erase _ h
  · exact h

theorem after_mono (h : ids ⊆ ids') (frames : List Frame) :
    after ids frames ⊆ after ids' frames := by
  induction frames generalizing ids ids' with
  | nil => exact h
  | cons frame frames ih => exact ih (applyFrame_mono h frame)

theorem Room.mono (hroom : Room limit ids' frames) (h : ids ⊆ ids') : Room limit ids frames := by
  induction frames generalizing ids ids' with
  | nil => trivial
  | cons frame frames ih =>
    refine ⟨fun hkind => ?_, ih hroom.2 (applyFrame_mono h frame)⟩
    exact (Nat.add_le_add_right (Finset.card_le_card h) 1).trans (hroom.1 hkind)

theorem after_concat : after ids (frames ++ [frame]) = applyFrame (after ids frames) frame := by
  simp [after]

theorem room_concat : Room limit ids (frames ++ [frame]) ↔ Room limit ids frames ∧
    (frame.kind = .request → (after ids frames).card + 1 ≤ limit) := by
  induction frames generalizing ids with
  | nil => simp [Room, after]
  | cons head frames ih =>
    rw [List.cons_append, Room, ih, Room, and_assoc]
    rfl

theorem requested_cons : requested (frame :: frames) =
    if frame.kind = .request then frame.requestId :: requested frames else requested frames := by
  unfold requested
  split_ifs with h <;> simp [h]

theorem requested_append (xs ys : List Frame) :
    requested (xs ++ ys) = requested xs ++ requested ys := by
  simp [requested]

theorem mem_of_mem_applyFrame {id : UInt64} (h : id ∈ applyFrame ids frame) :
    id ∈ ids ∨ id ∈ requested [frame] := by
  unfold applyFrame at h
  split_ifs at h with hrequest hcancel
  · rw [requested_cons, if_pos hrequest]
    rcases Finset.mem_insert.mp h with rfl | hold
    · exact .inr List.mem_cons_self
    · exact .inl hold
  · exact .inl (Finset.mem_of_mem_erase h)
  · exact .inl h

/-- A request in flight was so before, or its REQUEST is on the channel. -/
theorem mem_of_mem_after {id : UInt64} (h : id ∈ after ids frames) :
    id ∈ ids ∨ id ∈ requested frames := by
  induction frames generalizing ids with
  | nil => exact .inl h
  | cons frame frames ih =>
    rw [show frame :: frames = [frame] ++ frames from rfl, requested_append, List.mem_append]
    rcases ih h with happlied | hlater
    · exact (mem_of_mem_applyFrame happlied).imp_right .inl
    · exact .inr (.inr hlater)

end Channel

/-! ### What the server is working on -/

variable {label : ConnectionLabel}

section Server

/-- The task works on its request. -/
def IsAtWork (task : RequestTask) : Prop := task.phase = .running ∧ task.isAborted = false

instance (task : RequestTask) : Decidable (IsAtWork task) := inferInstanceAs (Decidable (_ ∧ _))

/-- The request the loop has admitted and not registered yet. -/
def registering : LoopPhase → List UInt64
  | .registering frame => [frame.requestId]
  | _ => []

/-- The requests the server is working on. -/
def pendingIds (server : ConnectionState) : Finset UInt64 :=
  ((server.tasks.filter fun task => IsAtWork task).map RequestTask.requestId ++
    registering server.loop).toFinset

/-- All requests the server has admitted. -/
def serverIds (server : ConnectionState) : List UInt64 :=
  server.tasks.map RequestTask.requestId ++ registering server.loop

/-- Every open task can be found in the table. -/
def Registered (server : ConnectionState) : Prop :=
  ∀ id i, Connection.OpenAt server.tasks id i → Connection.EntryAt server.active id i

variable {cfg : ConnectionConfig} {s t : ConnectionState} {id : UInt64} {i : ℕ}
  {task task' : RequestTask}

theorem mem_pendingIds : id ∈ pendingIds s ↔
    (∃ task ∈ s.tasks, IsAtWork task ∧ task.requestId = id) ∨ id ∈ registering s.loop := by
  simp [pendingIds, and_assoc]

theorem pendingIds_subset : pendingIds s ⊆ (serverIds s).toFinset := by
  intro id hid
  rw [List.mem_toFinset, serverIds, List.mem_append]
  rcases mem_pendingIds.mp hid with ⟨task, hmem, -, rfl⟩ | hreg
  · exact .inl (List.mem_map_of_mem hmem)
  · exact .inr hreg

/-- Changing a task that does not go back to work. -/
theorem pendingIds_set_subset (hi : s.tasks[i]? = some task) (hloop : t.loop = s.loop)
    (htasks : t.tasks = s.tasks.set i task') (hid : task'.requestId = task.requestId)
    (hwork : IsAtWork task' → IsAtWork task) : pendingIds t ⊆ pendingIds s := by
  intro id hmem
  rw [mem_pendingIds, htasks, hloop] at hmem
  rw [mem_pendingIds]
  rcases hmem with ⟨other, hother, hatWork, rfl⟩ | hreg
  · left
    rcases List.mem_or_eq_of_mem_set hother with hold | rfl
    · exact ⟨other, hold, hatWork, rfl⟩
    · exact ⟨task, List.mem_of_getElem? hi, hwork hatWork, hid.symm⟩
  · exact .inr hreg

theorem serverIds_set_sublist (hi : s.tasks[i]? = some task) (hloop : t.loop = s.loop)
    (htasks : t.tasks = s.tasks.set i task') (hid : task'.requestId = task.requestId) :
    (serverIds t).Sublist (serverIds s) := by
  obtain ⟨hlt, hget⟩ := List.getElem?_eq_some_iff.mp hi
  have hlt' : i < (s.tasks.map RequestTask.requestId).length := by simpa using hlt
  have hsame : task.requestId = (s.tasks.map RequestTask.requestId)[i] := by simp [hget]
  rw [serverIds, serverIds, hloop, htasks, List.map_set, hid, hsame, List.set_getElem_self]

/-- With all ids distinct, a task that is not at work keeps its id out of the pending. -/
theorem notMem_pendingIds_of_set (hnodup : (serverIds s).Nodup) (hi : s.tasks[i]? = some task)
    (hloop : t.loop = s.loop) (htasks : t.tasks = s.tasks.set i task')
    (hwork : ¬ IsAtWork task') : task.requestId ∉ pendingIds t := by
  obtain ⟨hlt, hget⟩ := List.getElem?_eq_some_iff.mp hi
  have hsplit := List.nodup_append.mp hnodup
  rw [mem_pendingIds, htasks, hloop]
  rintro (⟨other, hother, hatWork, hid⟩ | hreg)
  · obtain ⟨j, hj⟩ := List.mem_iff_getElem?.mp hother
    by_cases hij : i = j
    · subst hij
      rw [List.getElem?_set_self hlt] at hj
      exact hwork (Option.some.inj hj ▸ hatWork)
    · rw [List.getElem?_set_ne hij] at hj
      -- two positions of the list of ids hold the same id
      refine hij ?_
      have hlt' : i < (s.tasks.map RequestTask.requestId).length := by simpa using hlt
      refine (List.getElem?_inj hlt' hsplit.1).mp ?_
      rw [List.getElem?_map, List.getElem?_map, hi, hj]
      exact congrArg some hid.symm
  · exact hsplit.2.2 _ (List.mem_map_of_mem (List.mem_of_getElem? hi)) _ hreg rfl

/-- What a step of the server that takes up no frame can do. -/
structure Narrows (s t : ConnectionState) : Prop where
  pending : pendingIds t ⊆ pendingIds s
  ids : (serverIds t).Sublist (serverIds s)
  sent : ∀ frame ∈ t.sent, frame ∈ s.sent ∨
    frame.requestId ∈ serverIds s ∧ frame.requestId ∉ pendingIds t
  refused : ∀ frame ∈ t.refused, frame ∈ s.refused ∨ ∀ request, frame ≠ tooManyActive request

theorem serverIds_close : serverIds (Connection.close s) = s.tasks.map RequestTask.requestId := by
  rw [serverIds, Connection.map_tasks_close fun _ => rfl]
  exact List.append_nil _

theorem pendingIds_close_subset : pendingIds (Connection.close s) ⊆ pendingIds s := by
  intro id hmem
  rcases mem_pendingIds.mp hmem with ⟨task, htask, hwork, rfl⟩ | hreg
  · rw [mem_pendingIds]
    left
    obtain ⟨j, hj⟩ := List.mem_iff_getElem?.mp htask
    simp only [Connection.close, List.getElem?_mapIdx, Option.map_eq_some_iff] at hj
    obtain ⟨old, hold, rfl⟩ := hj
    split_ifs at hwork ⊢
    · cases hwork.2
    · exact ⟨old, List.mem_of_getElem? hold, hwork, rfl⟩
  · cases hreg

theorem narrows_close : Narrows s (Connection.close s) where
  pending := pendingIds_close_subset
  ids := by
    rw [serverIds_close]
    exact List.sublist_append_left _ _
  sent _ h := .inl h
  refused _ h := .inl h

theorem ne_tooManyActive (request : Frame) {code : ErrorCode} {message : String}
    (h : code.encode message ≠ ErrorCode.resourceExhausted.encode "too many active requests")
    (request' : Frame) : errorFrame request code message ≠ tooManyActive request' :=
  fun heq => h (congrArg Frame.body heq)

theorem not_isAtWork {phase : TaskPhase} (h : phase ≠ .running) :
    ¬ IsAtWork { task with phase } := fun hwork => h hwork.1

/-- A task that changes without sending anything, and does not go back to work. -/
theorem narrows_of_set (hi : s.tasks[i]? = some task) (htasks : t.tasks = s.tasks.set i task')
    (hid : task'.requestId = task.requestId) (hwork : IsAtWork task' → IsAtWork task)
    (hloop : t.loop = s.loop) (hsent : t.sent = s.sent) (hrefused : t.refused = s.refused) :
    Narrows s t := by
  refine ⟨pendingIds_set_subset hi hloop htasks hid hwork,
    serverIds_set_sublist hi hloop htasks hid, ?_, ?_⟩
  · rw [hsent]
    exact fun _ h => .inl h
  · rw [hrefused]
    exact fun _ h => .inl h

theorem narrows_taskMoves (hnodup : (serverIds s).Nodup) (hi : s.tasks[i]? = some task)
    {event : RequestEvent} (hmoves : Connection.TaskMoves s i task event t) : Narrows s t := by
  cases hmoves with
  | acquireCredit => exact narrows_of_set hi rfl rfl (fun hwork => hwork) rfl rfl rfl
  | deregister | drop | panic =>
    exact narrows_of_set hi rfl rfl (fun hwork => absurd hwork (not_isAtWork nofun)) rfl rfl rfl
  | answer hphase hids =>
    have hdone : ¬ IsAtWork { task with phase := .answered } := not_isAtWork (by decide)
    refine ⟨pendingIds_set_subset hi rfl rfl rfl fun h => absurd h hdone,
      serverIds_set_sublist hi rfl rfl rfl, ?_, fun _ h => .inl h⟩
    intro answer hanswer
    rcases List.mem_append.mp hanswer with hold | hnew
    · exact .inl hold
    · right
      rw [hids answer (Option.mem_toList.mp hnew)]
      refine ⟨?_, notMem_pendingIds_of_set hnodup hi rfl rfl hdone⟩
      exact List.mem_append_left _ (List.mem_map_of_mem (List.mem_of_getElem? hi))

variable {frame : Frame}

theorem narrows_registers (hnodup : (serverIds s).Nodup) (hloop : s.loop = .registering frame)
    (hregisters : Connection.Registers cfg s frame t) : Narrows s t := by
  have hids : serverIds s = s.tasks.map RequestTask.requestId ++ [frame.requestId] := by
    rw [serverIds, hloop]
    rfl
  have hregistering : frame.requestId ∈ registering s.loop := by simp [hloop, registering]
  cases hregisters with
  | refuse =>
    -- the request is neither with a task nor with the loop
    refine ⟨?_, ?_, ?_, ?_⟩
    · intro id hid
      rcases mem_pendingIds.mp hid with hwork | hreg
      · exact mem_pendingIds.mpr (.inl hwork)
      · cases hreg
    · rw [hids]
      change (s.tasks.map RequestTask.requestId ++ []).Sublist _
      rw [List.append_nil]
      exact List.sublist_append_left _ _
    · intro answer hanswer
      rcases List.mem_append.mp hanswer with hold | hnew
      · exact .inl hold
      · rw [List.mem_singleton.mp hnew]
        refine .inr ⟨List.mem_append_right _ hregistering, ?_⟩
        intro hpending
        rcases mem_pendingIds.mp hpending with ⟨task, htask, -, hid⟩ | hreg
        · rw [hids] at hnodup
          exact (List.nodup_append.mp hnodup).2.2 _ (List.mem_map_of_mem htask) _
            (List.mem_singleton_self _) hid
        · cases hreg
    · intro answer hanswer
      rcases List.mem_append.mp hanswer with hold | hnew
      · exact .inl hold
      · rw [List.mem_singleton.mp hnew]
        exact .inr (ne_tooManyActive frame (by decide))
  | duplicate =>
    refine ⟨?_, ?_, fun _ h => .inl h, fun _ h => .inl h⟩
    · exact (pendingIds_close_subset (s := { s with permits := s.permits + 1 }))
    · rw [serverIds_close]
      exact List.sublist_append_left _ _
  | register =>
    -- the request goes from the loop to its task
    refine ⟨?_, ?_, fun _ h => .inl h, fun _ h => .inl h⟩
    · intro id hid
      rcases mem_pendingIds.mp hid with ⟨task, htask, hwork, rfl⟩ | hreg
      · rcases List.mem_append.mp htask with hold | hnew
        · exact mem_pendingIds.mpr (.inl ⟨task, hold, hwork, rfl⟩)
        · rw [List.mem_singleton.mp hnew]
          exact mem_pendingIds.mpr (.inr hregistering)
      · cases hreg
    · rw [hids]
      simp [serverIds, registering]

/-- A step that takes up no frame puts no request in flight, and what it sends ends one. -/
theorem narrows_step (hnodup : (serverIds s).Nodup) (hlabel : ∀ frame, label ≠ .receive frame)
    (hstep : Connection.step cfg s label = some t) : Narrows s t := by
  cases Connection.steps_of_step hstep with
  | receive => exact absurd rfl (hlabel _)
  | register hloop =>
    exact narrows_registers hnodup hloop (Connection.registers_register cfg s _)
  | drain =>
    exact ⟨Finset.Subset.refl _, List.Sublist.refl _, fun _ h => .inl h, fun _ h => .inl h⟩
  | hangUp => exact narrows_close
  | task hi hmoves => exact narrows_taskMoves hnodup hi hmoves

/-! ### Taking up a frame -/

theorem IsAtWork.isOpen (h : IsAtWork task) : task.IsOpen := ⟨.inl h.1, h.2⟩

/-- A request without an entry is not being worked on. -/
theorem notMem_pendingIds_of_lookup_eq_none (hregistered : Registered s)
    (hloop : s.loop = .reading) (hnone : s.active.lookup id = none) : id ∉ pendingIds s := by
  intro hid
  rcases mem_pendingIds.mp hid with ⟨task, htask, hwork, rfl⟩ | hreg
  · obtain ⟨i, hi⟩ := List.mem_iff_getElem?.mp htask
    obtain ⟨entry, hsome, -⟩ := hregistered _ i ⟨task, hi, rfl, hwork.isOpen⟩
    cases hnone.symm.trans hsome
  · rw [hloop] at hreg
    cases hreg

/-- After CANCEL, the server no longer works on the request. -/
theorem pendingIds_abort_subset (hregistered : Registered s) (hloop : s.loop = .reading)
    {entry : ActiveRequest} (hsome : s.active.lookup id = some entry)
    (hloop' : t.loop = s.loop)
    (htasks : t.tasks = s.tasks.modify entry.task RequestTask.abort) :
    pendingIds t ⊆ (pendingIds s).erase id := by
  intro id' hid'
  rw [Finset.mem_erase]
  rw [mem_pendingIds, htasks, hloop', hloop] at hid'
  rcases hid' with ⟨task, htask, hwork, rfl⟩ | hreg
  · obtain ⟨i, hi⟩ := List.mem_iff_getElem?.mp htask
    simp only [List.getElem?_modify, Option.map_eq_map, Option.map_eq_some_iff] at hi
    obtain ⟨old, hold, rfl⟩ := hi
    split_ifs at hwork ⊢ with hsame
    · cases hwork.2
    · refine ⟨?_, mem_pendingIds.mpr (.inl ⟨old, List.mem_of_getElem? hold, hwork, rfl⟩)⟩
      -- a task at work on the request is the one its entry leads to
      intro hid
      have hentry := hregistered id i ⟨old, hold, hid, hwork.isOpen⟩
      exact hsame (Connection.EntryAt.unique ⟨entry, hsome, rfl⟩ hentry)
  · cases hreg

/-- What taking up a frame can do. -/
structure TakesUp (s : ConnectionState) (frame : Frame) (t : ConnectionState) : Prop where
  pending : pendingIds t ⊆ applyFrame (pendingIds s) frame
  ids : (serverIds t).Sublist (serverIds s ++ requested [frame])
  sent : ∀ answer ∈ t.sent, answer ∈ s.sent ∨
    frame.kind = .request ∧ answer.requestId = frame.requestId ∧ pendingIds t ⊆ pendingIds s
  refused : (frame.kind = .request → s.permits ≠ 0) → ∀ answer ∈ t.refused,
    answer ∈ s.refused ∨ ∀ request, answer ≠ tooManyActive request

/-- Frames other than REQUEST and CANCEL put no request in flight and answer none. -/
theorem takesUp_of_narrows (h : Narrows s t) (hsent : t.sent = s.sent)
    (hcancel : frame.kind ≠ .cancel) : TakesUp s frame t where
  pending := by
    refine h.pending.trans ?_
    unfold applyFrame
    split_ifs
    · exact Finset.subset_insert _ _
    · exact Finset.Subset.refl _
  ids := h.ids.trans (List.sublist_append_left _ _)
  sent := by
    rw [hsent]
    exact fun _ h => .inl h
  refused _ := h.refused

theorem takesUp_refuse (hloop : s.loop = .reading) (hkind : frame.kind = .request)
    (code : ErrorCode) (message : String)
    (hrefused : s.permits ≠ 0 → ∀ request, errorFrame frame code message ≠ tooManyActive request) :
    TakesUp s frame (Connection.refuse s frame code message) := by
  have hsame : pendingIds (Connection.refuse s frame code message) = pendingIds s := by
    simp only [pendingIds, Connection.refuse, hloop]
  refine ⟨?_, ?_, ?_, ?_⟩
  · rw [hsame, applyFrame, if_pos hkind]
    exact Finset.subset_insert _ _
  · simp only [serverIds, Connection.refuse, hloop]
    exact List.sublist_append_left _ _
  · intro answer hanswer
    rcases List.mem_append.mp hanswer with hold | hnew
    · exact .inl hold
    · rw [List.mem_singleton.mp hnew, hsame]
      exact .inr ⟨hkind, rfl, Finset.Subset.refl _⟩
  · intro hpermits answer hanswer
    rcases List.mem_append.mp hanswer with hold | hnew
    · exact .inl hold
    · rw [List.mem_singleton.mp hnew]
      exact .inr (hrefused (hpermits hkind))

theorem narrows_modify {f : RequestTask → RequestTask}
    (hid : ∀ task, (f task).requestId = task.requestId)
    (hwork : ∀ task, IsAtWork (f task) → IsAtWork task) (i : ℕ) :
    Narrows s { s with tasks := s.tasks.modify i f } := by
  refine ⟨?_, ?_, fun _ h => .inl h, fun _ h => .inl h⟩
  · intro id hmem
    rcases mem_pendingIds.mp hmem with ⟨task, htask, hatWork, rfl⟩ | hreg
    · obtain ⟨j, hj⟩ := List.mem_iff_getElem?.mp htask
      simp only [List.getElem?_modify, Option.map_eq_map, Option.map_eq_some_iff] at hj
      obtain ⟨old, hold, rfl⟩ := hj
      refine mem_pendingIds.mpr (.inl ⟨old, List.mem_of_getElem? hold, ?_, ?_⟩)
      · split_ifs at hatWork
        · exact hwork old hatWork
        · exact hatWork
      · split_ifs
        · exact (hid old).symm
        · rfl
    · exact mem_pendingIds.mpr (.inr hreg)
  · rw [serverIds, Connection.map_modify_of_forall_eq _ _ hid]
    exact List.Sublist.refl _

theorem takesUp_receives (hregistered : Registered s) (hloop : s.loop = .reading)
    (hreceives : Connection.Receives s frame t) : TakesUp s frame t := by
  cases hreceives with
  | refuseDraining hkind =>
    exact takesUp_refuse hloop hkind _ _ fun _ => ne_tooManyActive frame (by decide)
  | refuseFull hkind _ hfull =>
    exact takesUp_refuse hloop hkind _ _ fun hne => absurd hfull hne
  | accept hkind =>
    refine ⟨?_, ?_, fun _ h => .inl h, fun _ _ h => .inl h⟩
    · rw [applyFrame, if_pos hkind]
      intro id hid
      rcases mem_pendingIds.mp hid with hwork | hreg
      · exact Finset.mem_insert_of_mem (mem_pendingIds.mpr (.inl hwork))
      · exact Finset.mem_insert.mpr (.inl (List.mem_singleton.mp hreg))
    · simp [serverIds, registering, hloop, requested, hkind]
  | cancel hkind hentry =>
    refine ⟨?_, ?_, fun _ h => .inl h, fun _ _ h => .inl h⟩
    · rw [applyFrame, if_neg (by rw [hkind]; decide), if_pos hkind]
      exact pendingIds_abort_subset hregistered hloop hentry rfl rfl
    · refine List.Sublist.trans ?_ (List.sublist_append_left _ _)
      rw [serverIds, Connection.map_modify_of_forall_eq s.tasks _ (f := RequestTask.abort)
        fun _ => rfl]
      exact List.Sublist.refl _
  | credit i count hkind =>
    refine takesUp_of_narrows (narrows_modify ?_ ?_ i) rfl (by rw [hkind]; decide)
    · exact fun _ => rfl
    · exact fun _ hwork => hwork
  | ignore hrequest hnone =>
    refine ⟨?_, List.sublist_append_left _ _, fun _ h => .inl h, fun _ _ h => .inl h⟩
    rw [applyFrame, if_neg hrequest]
    split_ifs with hkind
    · have hout := notMem_pendingIds_of_lookup_eq_none hregistered hloop (hnone hkind)
      rw [Finset.erase_eq_of_notMem hout]
    · exact Finset.Subset.refl _
  | close _ hcancel => exact takesUp_of_narrows narrows_close rfl hcancel

/-! ### Open tasks stay registered -/

theorem Registered.congr (h : Registered s) (hactive : t.active = s.active)
    (hopen : ∀ id j, Connection.OpenAt t.tasks id j → Connection.OpenAt s.tasks id j) :
    Registered t := by
  intro id j hj
  rw [hactive]
  exact h id j (hopen id j hj)

theorem Registered.close (h : Registered s) : Registered (Connection.close s) :=
  fun _ _ hopen => absurd hopen (Connection.not_openAt_close h)

theorem Registered.receives (h : Registered s) (hreceives : Connection.Receives s frame t) :
    Registered t := by
  cases hreceives with
  | refuseDraining | refuseFull | accept | ignore => exact h
  | @cancel entry _ hentry =>
    intro id j hopen
    obtain ⟨hne, hopen⟩ := Connection.openAt_modify_abort.mp hopen
    have hentry' := h id j hopen
    refine Connection.entryAt_erase.mpr ⟨?_, hentry'⟩
    rintro rfl
    exact hne (hentry'.unique ⟨entry, hentry, rfl⟩)
  | credit i count =>
    exact h.congr rfl fun _ _ =>
      (Connection.openAt_modify_credits fun credits => addCredits credits count).mp
  | close => exact h.close

theorem Registered.registers (h : Registered s) (hregisters : Connection.Registers cfg s frame t) :
    Registered t := by
  cases hregisters with
  | refuse => exact h
  | duplicate => exact Registered.close (s := { s with permits := s.permits + 1 }) h
  | register hfresh =>
    intro id i hopen
    rw [Connection.entryAt_insert]
    rcases Connection.openAt_append.mp hopen with hold | ⟨rfl, rfl, -⟩
    · obtain ⟨entry, hentry, rfl⟩ := h id i hold
      refine .inr ⟨?_, entry, hentry, rfl⟩
      rintro rfl
      exact hfresh (AList.lookup_isSome.mp (by simp [hentry]))
    · exact .inl ⟨rfl, rfl⟩

/-- A task that changes, but does not open again. -/
theorem Registered.set (h : Registered s) (hi : s.tasks[i]? = some task)
    (htasks : t.tasks = s.tasks.set i task') (hid : task'.requestId = task.requestId)
    (hopen : task'.IsOpen → task.IsOpen) (hactive : t.active = s.active) : Registered t := by
  refine h.congr hactive fun id j hj => ?_
  rw [htasks, Connection.openAt_set hi] at hj
  rcases hj with ⟨rfl, rfl, hopen'⟩ | ⟨-, hj⟩
  · exact ⟨task, hi, hid.symm, hopen hopen'⟩
  · exact hj

theorem Registered.taskMoves (h : Registered s) (hnodup : (serverIds s).Nodup)
    (hi : s.tasks[i]? = some task) {event : RequestEvent}
    (hmoves : Connection.TaskMoves s i task event t) : Registered t := by
  cases hmoves with
  | acquireCredit => exact h.set hi rfl rfl (fun hopen => hopen) rfl
  | answer hphase => exact h.set hi rfl rfl (fun hopen => ⟨.inl hphase, hopen.2⟩) rfl
  | drop | panic => exact h.set hi rfl rfl (by simp [RequestTask.IsOpen]) rfl
  | deregister =>
    intro id j hj
    obtain ⟨hne, other, hother, rfl, hopen⟩ := (Connection.openAt_set_of_not_isOpen hi
      (by simp [RequestTask.IsOpen])).mp hj
    refine Connection.entryAt_erase.mpr ⟨?_, h _ j ⟨other, hother, rfl, hopen⟩⟩
    -- no other task has the id whose entry is removed
    intro hid
    obtain ⟨hlt, -⟩ := List.getElem?_eq_some_iff.mp hother
    refine hne ((List.getElem?_inj (by simpa using hlt) (List.nodup_append.mp hnodup).1).mp ?_)
    rw [List.getElem?_map, List.getElem?_map, hi, hother]
    exact congrArg some hid

/-- As long as ids are not reused, an open task is always registered. -/
theorem Registered.step (h : Registered s) (hnodup : (serverIds s).Nodup)
    (hstep : Connection.step cfg s label = some t) : Registered t := by
  cases Connection.steps_of_step hstep with
  | receive => exact h.receives (Connection.receives_receive s _)
  | register => exact h.registers (Connection.registers_register cfg s _)
  | drain => exact h
  | hangUp => exact h.close
  | task hi hmoves => exact h.taskMoves hnodup hi hmoves

end Server

/-! ### The client's calls -/

section Client

/-- A call with this id has sent its REQUEST. -/
def Begun (calls : List Call) (id : UInt64) : Prop :=
  ∃ call ∈ calls, call.requestId = id ∧ call.phase ≠ .admitted

/-- A call with this id still counts: it is pending, or its CANCEL is still to be sent. -/
def Covers (calls : List Call) (id : UInt64) : Prop :=
  ∃ call ∈ calls, call.requestId = id ∧ (call.phase = .pending ∨ call.phase = .released)

variable {calls : List Call} {call : Call} {id : UInt64} {i : ℕ} {phase : CallPhase}

theorem Begun.set (h : Begun calls id) (hi : calls[i]? = some call) (hphase : phase ≠ .admitted) :
    Begun (calls.set i { call with phase }) id := by
  obtain ⟨other, hother, rfl, hother'⟩ := h
  rcases List.eq_or_mem_set hi hother with rfl | hmem
  · exact ⟨_, List.mem_set_self hi, rfl, hphase⟩
  · exact ⟨other, hmem, rfl, hother'⟩

theorem Covers.set (h : Covers calls id) (hi : calls[i]? = some call)
    (hphase : call.requestId = id → call.phase = .pending ∨ call.phase = .released →
      phase = .pending ∨ phase = .released) :
    Covers (calls.set i { call with phase }) id := by
  obtain ⟨other, hother, rfl, hother'⟩ := h
  rcases List.eq_or_mem_set hi hother with rfl | hmem
  · exact ⟨_, List.mem_set_self hi, rfl, hphase rfl hother'⟩
  · exact ⟨other, hmem, rfl, hother'⟩

theorem map_requestId_set (hi : calls[i]? = some call) :
    (calls.set i { call with phase }).map Call.requestId = calls.map Call.requestId :=
  List.map_set_of_eq hi rfl

/-- A call that was admitted is not among those that count. -/
theorem countP_covering_lt (calls : List Call) (h : ∃ call ∈ calls, call.phase = .admitted) :
    (calls.countP fun call => call.phase = .pending ∨ call.phase = .released) + 1 ≤
      Calls.holding calls + releasedCount calls := by
  have hsum : ∀ l : List Call,
      (l.countP fun call => call.phase = .pending ∨ call.phase = .released) +
        (l.countP fun call => call.phase = .admitted) ≤ Calls.holding l + releasedCount l := by
    intro l
    induction l with
    | nil => exact le_rfl
    | cons call l ih =>
      have hhead :
          (if decide (call.phase = .pending ∨ call.phase = .released) = true then 1 else 0) +
          (if decide (call.phase = .admitted) = true then 1 else 0) ≤
          (if decide call.HoldsPermit = true then 1 else 0) +
            (if decide (call.phase = .released) = true then 1 else 0) := by
        cases hphase : call.phase <;> simp [Call.HoldsPermit, hphase]
      simp only [Calls.holding, releasedCount, List.countP_cons] at ih ⊢
      omega
  obtain ⟨call, hmem, hphase⟩ := h
  have hpos : 0 < calls.countP fun call => call.phase = .admitted :=
    List.countP_pos_iff.mpr ⟨call, hmem, by simpa using hphase⟩
  have := hsum calls
  omega

theorem card_le_countP {ids : Finset UInt64} (h : ∀ id ∈ ids, Covers calls id) :
    ids.card ≤ calls.countP fun call => call.phase = .pending ∨ call.phase = .released := by
  have hsubset : ids ⊆
      ((calls.filter fun call => call.phase = .pending ∨ call.phase = .released).map
      Call.requestId).toFinset := by
    intro id hid
    obtain ⟨call, hmem, rfl, hphase⟩ := h id hid
    exact List.mem_toFinset.mpr
      (List.mem_map_of_mem (List.mem_filter.mpr ⟨hmem, by simpa using hphase⟩))
  calc ids.card
      ≤ _ := Finset.card_le_card hsubset
    _ ≤ _ := List.toFinset_card_le _
    _ = _ := by rw [List.length_map, List.countP_eq_length_filter]

end Client

/-! ### Agreement -/

/-- What holds of the two parties as long as neither lags behind. -/
structure Agreement (cfg : ConnectionConfig) (s : State) : Prop where
  permits : Connection.PermitsConserved cfg s.server
  held : s.client.permits + Calls.holding s.client.calls = Connection.maxInFlight cfg
  registered : Registered s.server
  distinct : (s.client.calls.map Call.requestId).Nodup
  /-- no id is used twice -/
  nodup : (serverIds s.server ++ requested s.toServer).Nodup
  begun : ∀ id ∈ serverIds s.server ++ requested s.toServer, Begun s.client.calls id
  /-- an answered request is no longer in flight -/
  answered : ∀ frame ∈ s.server.sent, Begun s.client.calls frame.requestId ∧
    frame.requestId ∉ pendingIds s.server ∧ frame.requestId ∉ requested s.toServer
  /-- what will be in flight on the server counts on the client -/
  covered : ∀ id ∈ after (pendingIds s.server) s.toServer, Covers s.client.calls id
  room : Room (Connection.maxInFlight cfg) (pendingIds s.server) s.toServer
  neverRefused : NeverRefused s

section Agreement

variable {cfg : ConnectionConfig} {s t : State}

theorem agreement_init (cfg : ConnectionConfig) : Agreement cfg (init cfg) where
  permits := Connection.permitsConserved_init cfg
  held := rfl
  registered := fun _ _ ⟨_, htask, _⟩ => nomatch htask
  distinct := List.nodup_nil
  nodup := List.nodup_nil
  begun _ hid := absurd hid List.not_mem_nil
  answered _ hframe := absurd hframe List.not_mem_nil
  covered _ hid := absurd hid (Finset.notMem_empty _)
  room := trivial
  neverRefused _ := List.not_mem_nil

variable {server : ConnectionState}

/-- The server moves on by itself. -/
theorem Agreement.of_server (h : Agreement cfg s) (hlabel : ∀ frame, label ≠ .receive frame)
    (hstep : Connection.step cfg s.server label = some server) :
    Agreement cfg { s with server } := by
  have hnodup := List.nodup_append.mp h.nodup
  have hnarrows := narrows_step hnodup.1 hlabel hstep
  have hids := hnarrows.ids.append_right (requested s.toServer)
  refine ⟨Connection.permitsConserved_step h.permits hstep, h.held,
    h.registered.step hnodup.1 hstep, h.distinct, h.nodup.sublist hids,
    fun id hid => h.begun id (hids.subset hid), ?_, ?_, h.room.mono hnarrows.pending, ?_⟩
  · intro frame hframe
    rcases hnarrows.sent frame hframe with hold | ⟨hid, hdone⟩
    · obtain ⟨hbegun, hpending, hrequested⟩ := h.answered frame hold
      exact ⟨hbegun, fun hmem => hpending (hnarrows.pending hmem), hrequested⟩
    · refine ⟨h.begun _ (List.mem_append_left _ hid), hdone, fun hmem => ?_⟩
      exact hnodup.2.2 _ hid _ hmem rfl
  · exact fun id hid => h.covered id (after_mono hnarrows.pending _ hid)
  · intro request hmem
    rcases hnarrows.refused _ hmem with hold | hne
    · exact h.neverRefused request hold
    · exact hne request rfl

/-- A full server works on as many requests as the limit allows. -/
theorem maxInFlight_le_card_pendingIds (hpermits : Connection.PermitsConserved cfg server)
    (hloop : server.loop = .reading) (hnodup : (serverIds server).Nodup)
    (hfull : server.permits = 0)
    (hwork : ∀ task ∈ server.tasks, task.phase ≠ .ended → IsAtWork task) :
    Connection.maxInFlight cfg ≤ (pendingIds server).card := by
  have hlive : Connection.liveCount server.tasks = Connection.maxInFlight cfg := by
    simpa [Connection.PermitsConserved, hloop, hfull, Connection.loopPermits] using hpermits
  have hids : ((server.tasks.filter fun task => IsAtWork task).map RequestTask.requestId).Nodup :=
    (List.nodup_append.mp hnodup).1.sublist (List.filter_sublist.map _)
  calc Connection.maxInFlight cfg
      = server.tasks.countP fun task => task.phase ≠ .ended := hlive.symm
    _ ≤ server.tasks.countP fun task => IsAtWork task :=
        List.countP_mono_left fun task htask hended => by
          simpa using hwork task htask (by simpa using hended)
    _ = ((server.tasks.filter fun task => IsAtWork task).map RequestTask.requestId).length := by
        rw [List.length_map, List.countP_eq_length_filter]
    _ = ((server.tasks.filter fun task => IsAtWork task).map
          RequestTask.requestId).toFinset.card := (List.toFinset_card_of_nodup hids).symm
    _ ≤ (pendingIds server).card := by
        refine Finset.card_le_card fun id hid => ?_
        rw [pendingIds, List.toFinset_append]
        exact Finset.mem_union_left _ hid

variable {frame : Frame}

/-- The server takes up a frame. -/
theorem Agreement.of_deliver (h : Agreement cfg s) (hprompt : Prompt s .deliver)
    {toServer : List Frame} (hqueue : s.toServer = frame :: toServer)
    (hstep : Connection.step cfg s.server (.receive frame) = some server) :
    Agreement cfg { s with server, toServer } := by
  have hnodup := List.nodup_append.mp h.nodup
  have hpermits := Connection.permitsConserved_step h.permits hstep
  have hregistered := h.registered.step hnodup.1 hstep
  have hroom := h.room
  have hcovered := h.covered
  rw [hqueue] at hroom hcovered
  cases Connection.steps_of_step hstep with
  | receive hloop =>
  have htakes := takesUp_receives h.registered hloop (Connection.receives_receive s.server frame)
  have hrequested : requested s.toServer = requested [frame] ++ requested toServer := by
    rw [hqueue, ← requested_append]
    rfl
  have hids : (serverIds (Connection.receive s.server frame) ++ requested toServer).Sublist
      (serverIds s.server ++ requested s.toServer) := by
    rw [hrequested, ← List.append_assoc]
    exact htakes.ids.append_right _
  have hnew : frame.kind = .request → frame.requestId ∈ requested s.toServer := by
    intro hkind
    rw [hqueue, requested_cons, if_pos hkind]
    exact List.mem_cons_self
  refine ⟨hpermits, h.held, hregistered, h.distinct, h.nodup.sublist hids,
    fun id hid => h.begun id (hids.subset hid), ?_, ?_, hroom.2.mono htakes.pending, ?_⟩
  · intro answer hanswer
    rcases htakes.sent answer hanswer with hold | ⟨hkind, hid, hsubset⟩
    · obtain ⟨hbegun, hpending, hnot⟩ := h.answered answer hold
      rw [hrequested, List.mem_append, not_or] at hnot
      refine ⟨hbegun, fun hmem => ?_, hnot.2⟩
      -- it did not come into flight with this frame either
      rcases mem_of_mem_applyFrame (htakes.pending hmem) with hmem | hmem
      · exact hpending hmem
      · exact hnot.1 hmem
    · rw [hid]
      refine ⟨h.begun _ (List.mem_append_right _ (hnew hkind)), fun hmem => ?_, fun hmem => ?_⟩
      · have hserver := List.mem_toFinset.mp (pendingIds_subset (hsubset hmem))
        exact hnodup.2.2 _ hserver _ (hnew hkind) rfl
      · have hsplit := hnodup.2.1
        rw [hqueue, requested_cons, if_pos hkind] at hsplit
        exact (List.nodup_cons.mp hsplit).1 hmem
  · exact fun id hid => hcovered id (after_mono htakes.pending _ hid)
  · have hfree : frame.kind = .request → s.server.permits ≠ 0 := by
      intro hkind hfull
      have hwork := hprompt frame (by rw [hqueue]; rfl) hkind hfull
      have hcard := maxInFlight_le_card_pendingIds h.permits hloop hnodup.1 hfull hwork
      have hlimit := hroom.1 hkind
      omega
    intro request hmem
    rcases htakes.refused hfree _ hmem with hold | hne
    · exact h.neverRefused request hold
    · exact hne request rfl

variable {frames : List Frame}

theorem ne_admitted_of_moves {call : Call} {phase : CallPhase} {released : ℕ}
    (h : Calls.Moves call phase released frames) : phase ≠ .admitted := by
  cases h <;> nofun

/-- The id of a call that has not sent its REQUEST is nowhere else. -/
theorem not_begun_of_admitted {calls : List Call} {call : Call} {i : ℕ}
    (hdistinct : (calls.map Call.requestId).Nodup) (hi : calls[i]? = some call)
    (hphase : call.phase = .admitted) : ¬ Begun calls call.requestId := by
  rintro ⟨other, hother, hid, hnot⟩
  obtain ⟨j, hj⟩ := List.mem_iff_getElem?.mp hother
  obtain ⟨hlt, -⟩ := List.getElem?_eq_some_iff.mp hi
  have hij : i = j := by
    refine (List.getElem?_inj (by simpa using hlt) hdistinct).mp ?_
    rw [List.getElem?_map, List.getElem?_map, hi, hj]
    exact congrArg some hid.symm
  subst hij
  rw [Option.mem_unique hj hi] at hnot
  exact hnot hphase

section Moves

variable {i : ℕ} {call : Call} {phase : CallPhase} {released : ℕ}

/-- A call moves on without a word to the server. -/
theorem Agreement.of_move (h : Agreement cfg s) (hi : s.client.calls[i]? = some call)
    (hmoves : Calls.Moves call phase released [])
    (hcovers : call.phase = .pending → call.requestId ∈ after (pendingIds s.server) s.toServer →
      phase = .released) :
    Agreement cfg { s with client := Calls.move s.client i call phase released } := by
  have hadmitted := ne_admitted_of_moves hmoves
  refine ⟨h.permits, ?_, h.registered, ?_, h.nodup, fun id hid => (h.begun id hid).set hi hadmitted,
    fun frame hframe => ?_, fun id hid => ?_, h.room, h.neverRefused⟩
  · exact (Calls.permits_add_holding_move hi hmoves).trans h.held
  · change ((s.client.calls.set i { call with phase }).map Call.requestId).Nodup
    rw [map_requestId_set hi]
    exact h.distinct
  · obtain ⟨hbegun, hrest⟩ := h.answered frame hframe
    exact ⟨hbegun.set hi hadmitted, hrest⟩
  · refine (h.covered id hid).set hi ?_
    rintro rfl (hpending | hreleased)
    · exact .inr (hcovers hpending hid)
    · -- a released call does nothing but send CANCEL
      cases hmoves <;> simp_all

/-- A call sends its REQUEST. -/
theorem Agreement.of_request (h : Agreement cfg s) (hi : s.client.calls[i]? = some call)
    (hprompt : releasedCount s.client.calls ≤ s.client.permits)
    (hphase : call.phase = .admitted) {frame : Frame} (hkind : frame.kind = .request)
    (hid : frame.requestId = call.requestId) :
    Agreement cfg { s with
      client := Calls.move s.client i call .pending 0
      toServer := s.toServer ++ [frame] } := by
  have hfresh := not_begun_of_admitted h.distinct hi hphase
  have hrequested : requested (s.toServer ++ [frame]) =
      requested s.toServer ++ [call.requestId] := by
    rw [requested_append]
    simp [requested, hkind, hid]
  have hself : Begun (s.client.calls.set i { call with phase := .pending }) call.requestId :=
    ⟨_, List.mem_set_self hi, rfl, nofun⟩
  refine ⟨h.permits, ?_, h.registered, ?_, ?_, ?_, ?_, ?_, ?_, h.neverRefused⟩
  · exact (Calls.permits_add_holding_move hi (.request hphase hkind hid)).trans h.held
  · change ((s.client.calls.set i { call with phase := .pending }).map Call.requestId).Nodup
    rw [map_requestId_set hi]
    exact h.distinct
  · simp only [hrequested]
    rw [← List.append_assoc]
    refine List.nodup_append.mpr ⟨h.nodup, List.nodup_singleton _, ?_⟩
    rintro id hmem _ hsingle rfl
    exact hfresh (List.mem_singleton.mp hsingle ▸ h.begun id hmem)
  · simp only [hrequested]
    rw [← List.append_assoc]
    intro id hmem
    rcases List.mem_append.mp hmem with hold | hnew
    · exact (h.begun id hold).set hi nofun
    · exact List.mem_singleton.mp hnew ▸ hself
  · intro answer hanswer
    obtain ⟨hbegun, hpending, hnot⟩ := h.answered answer hanswer
    refine ⟨hbegun.set hi nofun, hpending, ?_⟩
    simp only [hrequested]
    intro hmem
    rcases List.mem_append.mp hmem with hold | hnew
    · exact hnot hold
    · exact hfresh (List.mem_singleton.mp hnew ▸ hbegun)
  · intro id hmem
    simp only [after_concat, applyFrame, hkind, if_true, hid] at hmem
    rcases Finset.mem_insert.mp hmem with rfl | hold
    · exact ⟨_, List.mem_set_self hi, rfl, .inl rfl⟩
    · exact (h.covered id hold).set hi fun _ _ => .inl rfl
  · refine room_concat.mpr ⟨h.room, fun _ => ?_⟩
    -- the requests in flight are covered by other calls than this one
    have hcard := card_le_countP h.covered
    have hcount := countP_covering_lt s.client.calls ⟨call, List.mem_of_getElem? hi, hphase⟩
    have hheld := h.held
    change (after (pendingIds s.server) s.toServer).card + 1 ≤ _
    omega

/-- A call sends its CANCEL. -/
theorem Agreement.of_cancel (h : Agreement cfg s) (hi : s.client.calls[i]? = some call)
    (hmoves : Calls.Moves call phase released [Calls.cancelFrame call.requestId]) :
    Agreement cfg { s with
      client := Calls.move s.client i call phase released
      toServer := s.toServer ++ [Calls.cancelFrame call.requestId] } := by
  have hadmitted := ne_admitted_of_moves hmoves
  have hrequested : requested (s.toServer ++ [Calls.cancelFrame call.requestId]) =
      requested s.toServer := by
    rw [requested_append]
    simp [requested, Calls.cancelFrame, Frame.new]
  refine ⟨h.permits, ?_, h.registered, ?_, ?_, ?_, ?_, ?_, ?_, h.neverRefused⟩
  · exact (Calls.permits_add_holding_move hi hmoves).trans h.held
  · change ((s.client.calls.set i { call with phase }).map Call.requestId).Nodup
    rw [map_requestId_set hi]
    exact h.distinct
  · simp only [hrequested]
    exact h.nodup
  · simp only [hrequested]
    exact fun id hmem => (h.begun id hmem).set hi hadmitted
  · intro answer hanswer
    obtain ⟨hbegun, hpending, hnot⟩ := h.answered answer hanswer
    simp only [hrequested]
    exact ⟨hbegun.set hi hadmitted, hpending, hnot⟩
  · intro id hmem
    rw [after_concat] at hmem
    have hmem : id ∈ (after (pendingIds s.server) s.toServer).erase call.requestId := hmem
    obtain ⟨hne, hold⟩ := Finset.mem_erase.mp hmem
    exact (h.covered id hold).set hi fun hid => absurd hid.symm hne
  · refine room_concat.mpr ⟨h.room, fun hkind => ?_⟩
    cases hkind

end Moves

/-- A call takes a permit. -/
theorem Agreement.of_acquire (h : Agreement cfg s) {requestId : UInt64} {client : CallState}
    (hstep : Calls.step s.client (.acquire requestId) = some (client, frames)) :
    Agreement cfg { s with client, toServer := s.toServer ++ frames } := by
  have hheld := Calls.permits_add_holding hstep
  simp only [Calls.step] at hstep
  split_ifs at hstep with hfree
  cases hstep
  have hbegun : ∀ {id}, Begun s.client.calls id →
      Begun (s.client.calls ++ [⟨requestId, .admitted⟩]) id := by
    intro id hbegun
    obtain ⟨call, hmem, hrest⟩ := hbegun
    exact ⟨call, List.mem_append_left _ hmem, hrest⟩
  rw [List.append_nil]
  refine ⟨h.permits, hheld.trans h.held, h.registered, ?_, h.nodup,
    fun id hid => hbegun (h.begun id hid), fun frame hframe => ?_, fun id hid => ?_, h.room,
    h.neverRefused⟩
  · rw [List.map_append]
    refine List.nodup_append.mpr ⟨h.distinct, List.nodup_singleton _, ?_⟩
    rintro id hmem _ hsingle rfl
    obtain ⟨call, hcall, rfl⟩ := List.mem_map.mp hmem
    exact hfree.2.2 call hcall (List.mem_singleton.mp hsingle)
  · obtain ⟨hold, hrest⟩ := h.answered frame hframe
    exact ⟨hbegun hold, hrest⟩
  · obtain ⟨call, hmem, hrest⟩ := h.covered id hid
    exact ⟨call, List.mem_append_left _ hmem, hrest⟩

/-- A frame that is neither REQUEST nor CANCEL changes nothing. -/
theorem Agreement.of_sendOther (h : Agreement cfg s) (hrequest : frame.kind ≠ .request)
    (hcancel : frame.kind ≠ .cancel) :
    Agreement cfg { s with toServer := s.toServer ++ [frame] } := by
  have hrequested : requested (s.toServer ++ [frame]) = requested s.toServer := by
    rw [requested_append]
    simp [requested, hrequest]
  have hafter : after (pendingIds s.server) (s.toServer ++ [frame]) =
      after (pendingIds s.server) s.toServer := by
    rw [after_concat, applyFrame, if_neg hrequest, if_neg hcancel]
  refine ⟨h.permits, h.held, h.registered, h.distinct, ?_, ?_, ?_, ?_, ?_, h.neverRefused⟩
  · simp only [hrequested]
    exact h.nodup
  · simp only [hrequested]
    exact h.begun
  · simp only [hrequested]
    exact h.answered
  · simp only [hafter]
    exact h.covered
  · exact room_concat.mpr ⟨h.room, fun hkind => absurd hkind hrequest⟩

theorem Agreement.of_client (h : Agreement cfg s) {label : CallLabel}
    (hprompt : Prompt s (.client label)) (hlabel : ∀ frame, label ≠ .receive frame)
    {client : CallState} (hstep : Calls.step s.client label = some (client, frames)) :
    Agreement cfg { s with client, toServer := s.toServer ++ frames } := by
  cases label with
  | acquire requestId => exact h.of_acquire hstep
  | call i event =>
    simp only [Calls.step] at hstep
    split at hstep
    swap
    · cases hstep
    rename_i call hi
    -- in the order of the events: a call that sends nothing, its REQUEST, its CANCEL
    cases event <;> simp only [Calls.callStep] at hstep <;> split_ifs at hstep with hphase <;>
      cases hstep
    · rw [List.append_nil]
      exact h.of_move hi (.giveUp hphase) fun hpending => by simp [hphase] at hpending
    · exact h.of_request hi hprompt hphase.1 hphase.2.1 hphase.2.2
    · rw [List.append_nil]
      exact h.of_move hi (.expire hphase) fun _ _ => rfl
    · exact h.of_cancel hi (.cancel hphase)
    · exact h.of_cancel hi (.cancelFirst hphase)
    · rw [List.append_nil]
      exact h.of_move hi (.finish (.inl hphase)) fun hpending => by simp [hphase] at hpending
    · rw [List.append_nil]
      exact h.of_move hi (.finish (.inr hphase)) fun hpending => by simp [hphase] at hpending
  | sendOther frame =>
    simp only [Calls.step] at hstep
    split_ifs at hstep with hkind
    cases hstep
    exact h.of_sendOther hkind.1 hkind.2
  | receive frame => exact absurd rfl (hlabel frame)

/-- The client reads an answer. -/
theorem Agreement.of_receive (h : Agreement cfg s) (hframe : frame ∈ s.server.sent) :
    Agreement cfg { s with
      client := Calls.receive s.client frame
      received := s.received + 1 } := by
  suffices hclient : Agreement cfg { s with client := Calls.receive s.client frame } from
    ⟨hclient.permits, hclient.held, hclient.registered, hclient.distinct, hclient.nodup,
      hclient.begun, hclient.answered, hclient.covered, hclient.room, hclient.neverRefused⟩
  obtain ⟨-, hpending, hrequested⟩ := h.answered frame hframe
  rcases Calls.moves_of_receive s.client frame with
    hsame | ⟨i, call, phase, released, hi, hid, hmoves, -, heq⟩
  · rw [hsame]
    exact h
  · rw [heq]
    refine h.of_move hi hmoves fun _ hmem => ?_
    -- the request was answered, so it is not in flight
    rw [hid] at hmem
    rcases mem_of_mem_after hmem with hin | hin
    · exact absurd hin hpending
    · exact absurd hin hrequested

/-- A prompt step keeps the two sides in agreement. -/
theorem agreement_step {label : Label} (hprompt : Prompt s label) (h : Agreement cfg s)
    (hstep : step cfg s label = some t) : Agreement cfg t := by
  unfold step at hstep
  split at hstep
  · cases hstep
  · cases hstep
  · rename_i label hlabel
    split at hstep
    · rename_i client frames hclient
      cases hstep
      exact h.of_client hprompt (fun frame heq => hlabel frame heq) hclient
    · cases hstep
  · rename_i label hlabel
    split at hstep
    · rename_i server hserver
      cases hstep
      exact h.of_server (fun frame heq => hlabel frame heq) hserver
    · cases hstep
  · split at hstep
    · cases hstep
    · rename_i frame toServer hqueue
      split at hstep
      · rename_i server hserver
        cases hstep
        exact h.of_deliver hprompt hqueue hserver
      · cases hstep
  · split at hstep
    · cases hstep
    · rename_i frame hframe
      cases hstep
      exact h.of_receive (List.mem_of_getElem? hframe)

end Agreement

/-- In no run of prompt steps is a request refused for want of a permit. -/
theorem neverRefused_of_prompt (cfg : ConnectionConfig) (labels : List Label) (s : State)
    (hrun : run (step cfg) (init cfg) labels = some s)
    (hprompt : MeetsGuard (step cfg) Prompt (init cfg) labels) : NeverRefused s :=
  (hprompt.invariant agreement_step hrun (agreement_init cfg)).neverRefused

instance (s : State) : (label : Label) → Decidable (Prompt s label)
  | .deliver => inferInstanceAs (Decidable (∀ frame ∈ s.toServer.head?, frame.kind = .request →
      s.server.permits = 0 → ∀ task ∈ s.server.tasks, task.phase ≠ .ended →
        task.phase = .running ∧ task.isAborted = false))
  | .client (.call _ (.sendRequest _)) =>
    inferInstanceAs (Decidable (releasedCount s.client.calls ≤ s.client.permits))
  | .receive | .server _ | .client (.acquire _) | .client (.sendOther _)
  | .client (.receive _) => isTrue trivial
  | .client (.call _ .giveUp) | .client (.call _ .expire) | .client (.call _ .sendCancel)
  | .client (.call _ .cancelFirst) | .client (.call _ .expireCancelled)
  | .client (.call _ .complete) => isTrue trivial

/-- The first call is answered and its task dropped before the second is made. -/
def inTurnRun : List Label :=
  [.client (.acquire 1), .client (.call 0 (.sendRequest (Frame.new .request 7 1 []))), .deliver,
    .server .register, .server (.task 0 (.answer (some (Frame.new .response 7 1 [])))), .receive,
    .client (.call 0 .complete), .server (.task 0 .deregister), .server (.task 0 .drop),
    .client (.acquire 2), .client (.call 1 (.sendRequest (Frame.new .request 7 2 []))), .deliver]

theorem neverRefused_inTurnRun :
    ∃ s, run (step Connection.oneInFlight) (init Connection.oneInFlight) inTurnRun = some s ∧
      MeetsGuard (step Connection.oneInFlight) Prompt (init Connection.oneInFlight) inTurnRun ∧
      NeverRefused s := by
  have hprompt : MeetsGuard (step Connection.oneInFlight) Prompt (init Connection.oneInFlight)
      inTurnRun := by
    decide +kernel
  obtain ⟨s, hrun⟩ : ∃ s, run (step Connection.oneInFlight) (init Connection.oneInFlight)
      inTurnRun = some s :=
    Option.isSome_iff_exists.mp (by decide +kernel)
  exact ⟨s, hrun, hprompt, neverRefused_of_prompt _ _ _ hrun hprompt⟩

/-! ### A server that is slower to let go than its client -/

/-- The client reads the answer, releases its permit and makes the next call, while the
task of the first is still about to leave the table and return. -/
def overtakenRun : List Label :=
  [.client (.acquire 1), .client (.call 0 (.sendRequest (Frame.new .request 7 1 []))), .deliver,
    .server .register, .server (.task 0 (.answer (some (Frame.new .response 7 1 [])))), .receive,
    .client (.call 0 .complete), .client (.acquire 2),
    .client (.call 1 (.sendRequest (Frame.new .request 7 2 []))), .deliver]

theorem not_neverRefused_overtakenRun :
    ∃ s, run (step Connection.oneInFlight) (init Connection.oneInFlight) overtakenRun = some s ∧
      ¬ NeverRefused s := by
  have hrefused : (run (step Connection.oneInFlight) (init Connection.oneInFlight)
      overtakenRun).map (fun s => s.server.refused) =
        some [tooManyActive (Frame.new .request 7 2 [])] := by
    decide +kernel
  obtain ⟨s, hrun, hrefused⟩ := Option.map_eq_some_iff.mp hrefused
  refine ⟨s, hrun, fun h => h (Frame.new .request 7 2 []) ?_⟩
  rw [hrefused]
  exact List.mem_singleton_self _

end MoonLightBridge.InFlight
