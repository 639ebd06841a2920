import MoonLightBridge.Semantics.Signals
import MoonLightBridge.Server.ResponseQueue

/-!
# A server-streaming request

The task of a streaming request (`dispatch_stream`) opens the handler's stream, polls
it, and sends each item as a STREAM_ITEM once the client has granted a credit for it.
The stream ends with STREAM_END or ERROR.

The model runs one such task together with everything that shares a resource with it:
other tasks take and release permits of the byte budgets and fill the channel, the
connection grants credits, the writer writes. What the application does (middleware,
handler, items) is the environment's choice, and so is when the task is aborted.
-/

namespace MoonLightBridge.Server

open Protocol Transition

/-- A streaming request of a connection. -/
structure StreamConfig where
  zstd : Zstd
  negotiated : Negotiated
  /-- the REQUEST frame -/
  request : Frame
  /-- the request carries a deadline -/
  hasDeadline : Bool

/-- Where the task of a streaming request stands. -/
inductive StreamTask where
  /-- the request is decoded, the handler looked up, the middleware run -/
  | starting
  | opening
  | polling
  | awaitingCredit (body : Bytes)
  /-- a frame is being sent; the task ends after the last one -/
  | sending (send : Sending) (isLast : Bool)
  /-- the task returned, was aborted, or panicked -/
  | ended
  deriving DecidableEq, Repr

/-- What a task of a streaming request meets with. -/
inductive TaskEvent where
  /-- the request is well formed and the middleware lets it through -/
  | admitted
  | opened
  | item (body : Bytes)
  | finished
  /-- the request, the middleware, the handler or the stream failed -/
  | failed (code : ErrorCode) (message : String)
  | timedOut
  | credited
  deriving DecidableEq, Repr

namespace StreamTask

variable (cfg : StreamConfig)

/-- Send a frame and return. -/
def answer (frame : Frame) : StreamTask := .sending (.tryConnection frame) true

/-- The task after it met with an event. `none` if the event cannot occur there. -/
def next : StreamTask → TaskEvent → Option StreamTask
  | .starting, .admitted => some .opening
  | .starting, .failed code message => some (answer (errorFrame cfg.request code message))
  | .opening, .opened => some .polling
  | .opening, .failed code message => some (answer (errorFrame cfg.request code message))
  | .polling, .item body =>
    if body.length ≤ cfg.negotiated.maxDecodedBodyLen.toNat then some (.awaitingCredit body)
    else some (answer (errorFrame cfg.request .resourceExhausted
      "stream item exceeds negotiated body limit"))
  | .polling, .failed code message => some (answer (errorFrame cfg.request code message))
  | .polling, .finished =>
    some (answer (Frame.new .streamEnd cfg.request.methodId cfg.request.requestId []))
  | .awaitingCredit body, .credited =>
    some (.sending
      (.tryConnection (Frame.new .streamItem cfg.request.methodId cfg.request.requestId body))
      false)
  -- each of the three waits is bounded by the same instant
  | .opening, .timedOut | .polling, .timedOut | .awaitingCredit _, .timedOut =>
    if cfg.hasDeadline then
      some (answer (errorFrame cfg.request .deadlineExceeded "request deadline exceeded"))
    else none
  | _, _ => none

/-- The task after a step of `send`. -/
def proceed (isLast : Bool) : SendProgress → StreamTask
  | .sending send => .sending send isLast
  -- only an error of `send` ends the loop, not an ERROR sent in place of the item
  | .returned ok => if isLast ∨ ok = false then .ended else .polling

/-- The permits released when the task is dropped. -/
def held : StreamTask → Budgets
  | .sending send _ => send.held
  | _ => ⟨0, 0⟩

end StreamTask

/-- The credits a task event uses up. -/
def TaskEvent.cost : TaskEvent → ℕ
  | .credited => 1
  | _ => 0

/-- `Semaphore::MAX_PERMITS`. -/
def maxPermits : ℕ := 2 ^ 61 - 1

/-- The STREAM_CREDIT handler: credits are added up to what a semaphore can hold. -/
def addCredits (credits count : ℕ) : ℕ := credits + min count (maxPermits - credits)

/-- A streaming request, and what it shares with others. -/
structure StreamState where
  task : StreamTask
  /-- the permits of the request's credit semaphore -/
  credits : ℕ
  /-- free permits of the response byte budgets -/
  free : Budgets
  /-- permits held by other tasks, here or (of the server's budget) elsewhere -/
  others : Budgets
  delivery : Delivery

inductive StreamLabel where
  | task (event : TaskEvent)
  /-- a step of the task's call of `send` before the channel -/
  | send
  /-- the channel takes the response -/
  | push
  /-- the channel is closed -/
  | pushFailed
  /-- the task is dropped: CANCEL, the end of the connection, or a panic -/
  | abort
  /-- a STREAM_CREDIT frame for the request arrives -/
  | grant (count : ℕ)
  | othersAcquire (permits : Budgets)
  | othersRelease (permits : Budgets)
  | othersPush (response : QueuedResponse)
  | writer (label : WriterLabel)

namespace Stream

/-- The state in which the request has just been admitted. -/
def init (budgets : Budgets) : StreamState where
  task := .starting
  credits := 0
  free := budgets
  others := ⟨0, 0⟩
  delivery := .init

/-- The channel has one place for each request in flight. -/
def capacity (cfg : StreamConfig) : ℕ := cfg.negotiated.maxInFlight.toNat

/-- One step of the task or of its surroundings. -/
def step (cfg : StreamConfig) (s : StreamState) : StreamLabel → Option StreamState
  | .task event =>
    match s.task.next cfg event with
    | some task =>
      if event.cost ≤ s.credits then some { s with task, credits := s.credits - event.cost }
      else none
    | none => none
  | .send =>
    match s.task with
    | .sending send isLast =>
      match send.advance s.free with
      | some (free, progress) => some { s with free, task := .proceed isLast progress }
      | none => none
    | _ => none
  | .push =>
    match s.task with
    | .sending (.enqueue response) isLast =>
      match s.delivery.push (capacity cfg) response with
      | some delivery => some { s with delivery, task := .proceed isLast (.returned true) }
      | none => none
    | _ => none
  | .pushFailed =>
    match s.task with
    | .sending (.enqueue response) isLast =>
      if s.delivery.isRunning then none
      else some { s with
        free := ⟨s.free.connection + response.bytes, s.free.global + response.bytes⟩
        task := .proceed isLast (.returned false) }
    | _ => none
  | .abort => some { s with
      free := ⟨s.free.connection + s.task.held.connection, s.free.global + s.task.held.global⟩
      task := .ended }
  | .grant count => some { s with credits := addCredits s.credits count }
  | .othersAcquire permits =>
    if permits.connection ≤ s.free.connection ∧ permits.global ≤ s.free.global then
      some { s with
        free := ⟨s.free.connection - permits.connection, s.free.global - permits.global⟩
        others := ⟨s.others.connection + permits.connection, s.others.global + permits.global⟩ }
    else none
  | .othersRelease permits =>
    if permits.connection ≤ s.others.connection ∧ permits.global ≤ s.others.global then
      some { s with
        free := ⟨s.free.connection + permits.connection, s.free.global + permits.global⟩
        others := ⟨s.others.connection - permits.connection, s.others.global - permits.global⟩ }
    else none
  | .othersPush response =>
    -- while a request is in flight its id is its own: a second REQUEST with it is refused
    if response.frame.requestId ≠ cfg.request.requestId ∧
        response.bytes ≤ s.others.connection ∧ response.bytes ≤ s.others.global then
      match s.delivery.push (capacity cfg) response with
      | some delivery => some { s with
          delivery
          others := ⟨s.others.connection - response.bytes, s.others.global - response.bytes⟩ }
      | none => none
    else none
  | .writer label =>
    match s.delivery.writerStep cfg.zstd cfg.negotiated label with
    | some (delivery, dropped) =>
      let bytes := (dropped.map QueuedResponse.bytes).sum
      some { s with
        delivery
        free := ⟨s.free.connection + bytes, s.free.global + bytes⟩ }
    | none => none

/-- What the task, or one of those it shares with, does in a step. -/
inductive Steps (cfg : StreamConfig) (s : StreamState) : StreamLabel → StreamState → Prop where
  | task {event : TaskEvent} {task : StreamTask} : s.task.next cfg event = some task →
      event.cost ≤ s.credits →
      Steps cfg s (.task event) { s with task, credits := s.credits - event.cost }
  | send {send : Sending} {isLast : Bool} {free : Budgets} {progress : SendProgress} :
      s.task = .sending send isLast → send.advance s.free = some (free, progress) →
      Steps cfg s .send { s with free, task := .proceed isLast progress }
  | push {response : QueuedResponse} {isLast : Bool} {delivery : Delivery} :
      s.task = .sending (.enqueue response) isLast →
      s.delivery.push (capacity cfg) response = some delivery →
      Steps cfg s .push { s with delivery, task := .proceed isLast (.returned true) }
  | pushFailed {response : QueuedResponse} {isLast : Bool} :
      s.task = .sending (.enqueue response) isLast →
      Steps cfg s .pushFailed { s with
        free := ⟨s.free.connection + response.bytes, s.free.global + response.bytes⟩
        task := .proceed isLast (.returned false) }
  | abort : Steps cfg s .abort { s with
      free := ⟨s.free.connection + s.task.held.connection, s.free.global + s.task.held.global⟩
      task := .ended }
  | grant {count : ℕ} : Steps cfg s (.grant count) { s with
      credits := addCredits s.credits count }
  | othersAcquire {permits free others : Budgets} :
      Steps cfg s (.othersAcquire permits) { s with free, others }
  | othersRelease {permits free others : Budgets} :
      Steps cfg s (.othersRelease permits) { s with free, others }
  | othersPush {response : QueuedResponse} {delivery : Delivery} {others : Budgets} :
      response.frame.requestId ≠ cfg.request.requestId →
      s.delivery.push (capacity cfg) response = some delivery →
      Steps cfg s (.othersPush response) { s with delivery, others }
  | writer {label : WriterLabel} {delivery : Delivery} {dropped : List QueuedResponse}
      {free : Budgets} :
      s.delivery.writerStep cfg.zstd cfg.negotiated label = some (delivery, dropped) →
      Steps cfg s (.writer label) { s with delivery, free }

theorem steps_of_step {cfg : StreamConfig} {s t : StreamState} {label : StreamLabel}
    (h : step cfg s label = some t) : Steps cfg s label t := by
  cases label with
  | task event =>
    simp only [step] at h
    split at h
    · rename_i task hnext
      split_ifs at h with hcost
      exact Option.some.inj h ▸ .task hnext hcost
    · cases h
  | send =>
    simp only [step] at h
    split at h
    · rename_i send isLast htask
      split at h
      · rename_i free progress hadvance
        exact Option.some.inj h ▸ .send htask hadvance
      · cases h
    · cases h
  | push =>
    simp only [step] at h
    split at h
    · rename_i response isLast htask
      split at h
      · rename_i delivery hpush
        exact Option.some.inj h ▸ .push htask hpush
      · cases h
    · cases h
  | pushFailed =>
    simp only [step] at h
    split at h
    · rename_i response isLast htask
      split_ifs at h
      exact Option.some.inj h ▸ .pushFailed htask
    · cases h
  | abort => exact Option.some.inj h ▸ .abort
  | grant count => exact Option.some.inj h ▸ .grant
  | othersAcquire permits =>
    simp only [step] at h
    split_ifs at h
    exact Option.some.inj h ▸ .othersAcquire
  | othersRelease permits =>
    simp only [step] at h
    split_ifs at h
    exact Option.some.inj h ▸ .othersRelease
  | othersPush response =>
    simp only [step] at h
    split_ifs at h with hother
    split at h
    · rename_i delivery hpush
      exact Option.some.inj h ▸ .othersPush hother.1 hpush
    · cases h
  | writer label =>
    simp only [step] at h
    split at h
    · rename_i delivery dropped hwriter
      exact Option.some.inj h ▸ .writer hwriter
    · cases h

/-! ### The discipline on the wire -/

/-- The frames of the request. -/
def ofRequest (cfg : StreamConfig) (frames : List Frame) : List Frame :=
  frames.filter fun frame => frame.requestId = cfg.request.requestId

def IsTerminal (frame : Frame) : Prop := frame.kind = .streamEnd ∨ frame.kind = .error

instance (frame : Frame) : Decidable (IsTerminal frame) :=
  inferInstanceAs (Decidable (_ ∨ _))

/-- STREAM_ITEM frames, and then at most one that ends the stream. -/
def WireDiscipline (frames : List Frame) : Prop :=
  Signals.WellFormed (fun frame : Frame => frame.kind = .streamItem) IsTerminal frames

/-- If the task is sending an item, the budgets have room for it. -/
def ItemAdmitted (free : Budgets) : StreamTask → Prop
  | .sending send _ => send.frame.kind = .streamItem → send.Admits free
  | _ => True

/-- If the frame is an item of the request, the writer leaves it of its kind. -/
def ItemKept (cfg : StreamConfig) (frame : Frame) : Prop :=
  frame.requestId = cfg.request.requestId → frame.kind = .streamItem →
    (outbound cfg.zstd cfg.negotiated frame).kind = .streamItem

/-- A step on which no item of the request is turned into an ERROR: `try_reserve` finds
room for it in both budgets, and the writer, whenever it receives it, leaves it of its
kind. -/
def Undisturbed (cfg : StreamConfig) (s : StreamState) : StreamLabel → Prop
  | .send => ItemAdmitted s.free s.task
  | .writer label => ∀ response ∈ s.delivery.received label, ItemKept cfg response.frame
  | _ => True

instance (free : Budgets) : (send : Sending) → Decidable (send.Admits free)
  | .tryConnection _ => inferInstanceAs (Decidable (_ ∧ _))
  | .tryGlobal _ => inferInstanceAs (Decidable (_ ≤ _))
  | .acquireConnection _ | .acquireGlobal _ | .enqueue _ => isTrue trivial

instance (free : Budgets) : (task : StreamTask) → Decidable (ItemAdmitted free task)
  | .sending send _ =>
    inferInstanceAs (Decidable (send.frame.kind = .streamItem → send.Admits free))
  | .starting | .opening | .polling | .awaitingCredit _ | .ended => isTrue trivial

instance (cfg : StreamConfig) (frame : Frame) : Decidable (ItemKept cfg frame) :=
  inferInstanceAs (Decidable (_ → _ → _))

instance (cfg : StreamConfig) (s : StreamState) :
    (label : StreamLabel) → Decidable (Undisturbed cfg s label)
  | .send => inferInstanceAs (Decidable (ItemAdmitted s.free s.task))
  | .writer label => inferInstanceAs
      (Decidable (∀ response ∈ s.delivery.received label, ItemKept cfg response.frame))
  | .task _ | .push | .pushFailed | .abort | .grant _ | .othersAcquire _ | .othersRelease _
  | .othersPush _ => isTrue trivial

/-! ### What a task sends -/

variable {frame : Frame}

section Task

variable {cfg : StreamConfig}

/-- The frame a task is sending is one of its request: an item, or a terminal frame
if it is the last. -/
def Sends (cfg : StreamConfig) : StreamTask → Prop
  | .sending send isLast => send.frame.requestId = cfg.request.requestId ∧
      if isLast then IsTerminal send.frame else send.frame.kind = .streamItem
  | _ => True

theorem sends_answer (hid : frame.requestId = cfg.request.requestId) (hkind : IsTerminal frame) :
    Sends cfg (.answer frame) :=
  ⟨hid, hkind⟩

theorem sends_errorFrame (code : ErrorCode) (message : String) :
    Sends cfg (.answer (errorFrame cfg.request code message)) :=
  sends_answer rfl (.inr rfl)

theorem sends_next {task task' : StreamTask} {event : TaskEvent}
    (h : task.next cfg event = some task') : Sends cfg task' ∧ task ≠ .ended := by
  unfold StreamTask.next at h
  split at h <;> (try split_ifs at h) <;> cases h
  -- besides items a task only ever sends frames that end the stream
  all_goals
    refine ⟨?_, nofun⟩
    first
    | trivial
    | exact sends_errorFrame _ _
    | exact sends_answer rfl (.inl rfl)

/-- A step of `send` keeps the frame, or rejects it, or fails. -/
theorem frame_of_advance {send : Sending} {free free' : Budgets} {progress : SendProgress}
    (h : send.advance free = some (free', progress)) :
    (∃ send', progress = .sending send' ∧ send'.frame = send.frame) ∨
      (¬ send.Admits free ∧ progress = rejected send.frame) ∨ progress = .returned false := by
  unfold Sending.advance at h
  split at h <;> (try split_ifs at h) <;> cases h
  -- `try_reserve` rejects exactly what the budgets do not admit
  all_goals simp_all [Sending.frame, Sending.Admits]

/-- A terminal frame that is rejected waits for its permits. -/
theorem rejected_of_isTerminal (h : IsTerminal frame) :
    rejected frame = .sending (.acquireConnection frame) := by
  rcases h with h | h <;> simp [rejected, h]

/-- A task whose item is not rejected keeps sending what it was sending. -/
theorem sends_advance {send : Sending} {isLast : Bool} {free free' : Budgets}
    {progress : SendProgress} (hsends : Sends cfg (.sending send isLast))
    (hadmits : send.frame.kind = .streamItem → send.Admits free)
    (h : send.advance free = some (free', progress)) :
    Sends cfg (.proceed isLast progress) := by
  rcases frame_of_advance h with ⟨send', rfl, hframe⟩ | ⟨hfull, rfl⟩ | rfl
  · simp only [StreamTask.proceed, Sends, hframe]
    exact hsends
  · cases isLast with
    -- an item is not rejected, by assumption; a terminal frame waits instead
    | false => exact absurd (hadmits hsends.2) hfull
    | true =>
      rw [rejected_of_isTerminal hsends.2]
      exact hsends
  · cases isLast <;> trivial

end Task

/-! ### The signals of a request -/

/-- Whether a frame ends its stream; `none` for a kind that no stream sends. -/
def signal (frame : Frame) : Option Bool :=
  match frame.kind with
  | .streamItem => some false
  | .streamEnd | .error => some true
  | _ => none

theorem signal_eq_some_true : signal frame = some true ↔ IsTerminal frame := by
  unfold signal IsTerminal
  split <;> simp_all

theorem signal_eq_some_false : signal frame = some false ↔ frame.kind = .streamItem := by
  unfold signal
  split <;> simp_all

/-- A frame of a stream that stands for another one and did not turn from an item into
an ERROR signals the same. -/
theorem signal_of_answers {answer : Frame} (h : Answers frame answer)
    (hstream : signal frame ≠ none) (hitem : frame.kind = .streamItem → answer.kind = .streamItem) :
    signal answer = signal frame := by
  match hsignal : signal frame with
  | none => exact absurd hsignal hstream
  | some false => exact signal_eq_some_false.mpr (hitem (signal_eq_some_false.mp hsignal))
  | some true =>
    -- an ERROR for a terminal frame is terminal, too
    refine signal_eq_some_true.mpr ?_
    rcases h.kind with hkind | hkind
    · exact (signal_eq_some_true.mp hsignal).imp hkind.trans hkind.trans
    · exact .inr hkind

section Signals

variable (cfg : StreamConfig)

/-- The signals of a request among the frames of its connection. -/
def signals (frames : List Frame) : List (Option Bool) := (ofRequest cfg frames).map signal

variable {cfg}

@[simp] theorem signals_append (xs ys : List Frame) :
    signals cfg (xs ++ ys) = signals cfg xs ++ signals cfg ys := by
  simp [signals, ofRequest]

theorem signals_singleton (h : frame.requestId = cfg.request.requestId) :
    signals cfg [frame] = [signal frame] := by
  simp [signals, ofRequest, h]

theorem signals_singleton_of_ne (h : frame.requestId ≠ cfg.request.requestId) :
    signals cfg [frame] = [] := by
  simp [signals, ofRequest, h]

theorem wireDiscipline_of_signals {frames : List Frame}
    (h : Signals.WellFormed (· = some false) (· = some true) (signals cfg frames)) :
    WireDiscipline (ofRequest cfg frames) := by
  have hmap := Signals.wellFormed_map.mp h
  simpa only [WireDiscipline, Function.comp_def, signal_eq_some_false, signal_eq_some_true]
    using hmap

/-- Transforming one frame in its place keeps the signals. -/
theorem signals_outbound {before after : List Frame}
    (hstream : none ∉ signals cfg (before ++ frame :: after)) (hitem : ItemKept cfg frame) :
    signals cfg (before ++ outbound cfg.zstd cfg.negotiated frame :: after) =
      signals cfg (before ++ frame :: after) := by
  have hanswers := answers_outbound cfg.zstd cfg.negotiated frame
  have hframe : signals cfg [outbound cfg.zstd cfg.negotiated frame] = signals cfg [frame] := by
    by_cases hid : frame.requestId = cfg.request.requestId
    · rw [signals_singleton hid, signals_singleton (hanswers.requestId.trans hid)]
      rw [List.append_cons, signals_append, signals_append, signals_singleton hid] at hstream
      have hne : signal frame ≠ none := fun hnone => hstream (by simp [hnone])
      rw [signal_of_answers hanswers hne (hitem hid)]
    · rw [signals_singleton_of_ne hid,
        signals_singleton_of_ne fun h => hid (hanswers.requestId.symm.trans h)]
  rw [List.append_cons, List.append_cons before frame]
  simp only [signals_append, hframe]

end Signals

/-! ### The invariant -/

/-- What holds of a request while nothing disturbs its items. -/
structure Discipline (cfg : StreamConfig) (s : StreamState) : Prop where
  sends : Sends cfg s.task
  /-- until the task ends, only items were sent -/
  items : s.task ≠ .ended → ∀ x ∈ signals cfg s.delivery.enqueued, x = some false
  enqueued : Signals.WellFormed (· = some false) (· = some true)
    (signals cfg s.delivery.enqueued)
  pipeline : signals cfg s.delivery.pipeline <+: signals cfg s.delivery.enqueued
  /-- nothing is lost as long as the writer runs -/
  complete : s.delivery.isRunning →
    signals cfg s.delivery.pipeline = signals cfg s.delivery.enqueued

section Invariant

variable {cfg : StreamConfig} {s t : StreamState}

theorem discipline_init (cfg : StreamConfig) (budgets : Budgets) :
    Discipline cfg (init budgets) where
  sends := trivial
  items _ _ hx := absurd hx List.not_mem_nil
  enqueued := Signals.wellFormed_of_forall fun _ hx => absurd hx List.not_mem_nil
  pipeline := List.prefix_rfl
  complete _ := rfl

section

variable (h : Discipline cfg s)

include h

/-- A step of the task that leaves the channel alone. -/
theorem Discipline.of_task (hdelivery : t.delivery = s.delivery) (hsends : Sends cfg t.task)
    (hended : t.task ≠ .ended → s.task ≠ .ended) : Discipline cfg t where
  sends := hsends
  items hne := hdelivery ▸ h.items (hended hne)
  enqueued := hdelivery ▸ h.enqueued
  pipeline := hdelivery ▸ h.pipeline
  complete := hdelivery ▸ h.complete

theorem Discipline.none_notMem : none ∉ signals cfg s.delivery.pipeline := by
  intro hnone
  obtain ⟨items, last, heq, hitems, -, hlast⟩ := h.enqueued
  have hmem : none ∈ items ++ last := heq ▸ h.pipeline.subset hnone
  rcases List.mem_append.mp hmem with hmem | hmem
  · exact nomatch hitems _ hmem
  · exact nomatch hlast _ hmem

/-- A frame of the request goes into the channel. -/
theorem Discipline.of_push {response : QueuedResponse} {isLast : Bool} {delivery : Delivery}
    (htask : s.task = .sending (.enqueue response) isLast)
    (hpush : s.delivery.push (capacity cfg) response = some delivery) :
    Discipline cfg
      { s with delivery, task := .proceed isLast (.returned true) } := by
  obtain ⟨hrunning, -, henqueued, -, hpipeline⟩ := Delivery.pipeline_push hpush
  have hsends : Sends cfg (.sending (.enqueue response) isLast) := htask ▸ h.sends
  have hid : response.frame.requestId = cfg.request.requestId := hsends.1
  have hitems := h.items (by rw [htask]; nofun)
  have hsignals : signals cfg delivery.enqueued =
      signals cfg s.delivery.enqueued ++ [signal response.frame] := by
    rw [henqueued, signals_append, signals_singleton hid]
  have hcomplete : signals cfg delivery.pipeline = signals cfg delivery.enqueued := by
    rw [hpipeline, henqueued, signals_append, signals_append, h.complete hrunning]
  -- the task is past its loop exactly if the frame it sent was the last
  have hsignal : signal response.frame = some isLast := by
    cases isLast with
    | false => exact signal_eq_some_false.mpr hsends.2
    | true => exact signal_eq_some_true.mpr hsends.2
  refine ⟨by cases isLast <;> trivial, ?_, ?_, by rw [hcomplete], fun _ => hcomplete⟩
  · intro hne x hx
    cases isLast with
    | true => exact absurd rfl hne
    | false =>
      rw [hsignals, hsignal] at hx
      rcases List.mem_append.mp hx with hx | hx
      · exact hitems x hx
      · exact List.mem_singleton.mp hx
  · change Signals.WellFormed _ _ (signals cfg delivery.enqueued)
    rw [hsignals, hsignal]
    exact Signals.wellFormed_concat hitems (by cases isLast <;> simp)

/-- A frame of another request goes into the channel. -/
theorem Discipline.of_othersPush {response : QueuedResponse}
    (hid : response.frame.requestId ≠ cfg.request.requestId) (htask : t.task = s.task)
    (hpush : s.delivery.push (capacity cfg) response = some t.delivery) : Discipline cfg t := by
  obtain ⟨hrunning, -, henqueued, -, hpipeline⟩ := Delivery.pipeline_push hpush
  have hsignals : signals cfg t.delivery.enqueued = signals cfg s.delivery.enqueued := by
    rw [henqueued, signals_append, signals_singleton_of_ne hid, List.append_nil]
  have hpipe : signals cfg t.delivery.pipeline = signals cfg s.delivery.pipeline := by
    rw [hpipeline, signals_append, signals_singleton_of_ne hid, List.append_nil]
  refine ⟨htask ▸ h.sends, ?_, hsignals ▸ h.enqueued, ?_, fun _ => ?_⟩
  · rw [hsignals, htask]
    exact h.items
  · rw [hsignals, hpipe]
    exact h.pipeline
  · rw [hsignals, hpipe]
    exact h.complete hrunning

/-- The writer moves on. -/
theorem Discipline.of_writerStep {label : WriterLabel} {dropped : List QueuedResponse}
    (htask : t.task = s.task)
    (hstep : s.delivery.writerStep cfg.zstd cfg.negotiated label = some (t.delivery, dropped))
    (hitem : ∀ response ∈ s.delivery.received label, ItemKept cfg response.frame) :
    Discipline cfg t := by
  have henqueued := Delivery.enqueued_of_writerStep hstep
  have hitems := h.items
  have hshape := h.enqueued
  rw [← henqueued] at hitems hshape
  by_cases hfail : label = .fail
  · subst hfail
    obtain ⟨hstopped, -, hpipeline⟩ := Delivery.pipeline_of_fail hstep
    refine ⟨htask ▸ h.sends, htask ▸ hitems, hshape, ?_, ?_⟩
    · -- only what was written remains of the pipeline
      have hwritten : signals cfg s.delivery.written <+: signals cfg s.delivery.pipeline := by
        rw [Delivery.pipeline, signals_append]
        exact List.prefix_append _ _
      rw [hpipeline, henqueued]
      exact hwritten.trans h.pipeline
    · rw [hstopped]
      exact fun h => absurd h Bool.false_ne_true
  · obtain ⟨hrunning, -, hpipeline⟩ := Delivery.pipeline_of_writerStep hstep hfail
    -- transforming a response in its place does not change what it signals
    have hsignals : signals cfg t.delivery.pipeline = signals cfg s.delivery.pipeline := by
      rcases hpipeline with hsame | ⟨before, response, after, hreceived, -, hold, hnew⟩
      · rw [hsame]
      · rw [hnew, hold]
        exact signals_outbound (hold ▸ h.none_notMem) (hitem response hreceived)
    have hrunning' := Delivery.isRunning_of_writerStep hstep
    refine ⟨htask ▸ h.sends, htask ▸ hitems, hshape, ?_, fun _ => ?_⟩
    · rw [hsignals, henqueued]
      exact h.pipeline
    · rw [hsignals, henqueued]
      exact h.complete hrunning'

end

/-- A step that does not turn an item into an ERROR keeps the discipline. -/
theorem discipline_step {label : StreamLabel} (hcalm : Undisturbed cfg s label)
    (h : Discipline cfg s) (hstep : step cfg s label = some t) : Discipline cfg t := by
  cases steps_of_step hstep with
  | task hnext => exact h.of_task rfl (sends_next hnext).1 fun _ => (sends_next hnext).2
  | @send send isLast _ _ htask hadvance =>
    have hsends : Sends cfg (.sending send isLast) := htask ▸ h.sends
    have hadmits : ItemAdmitted s.free (.sending send isLast) := htask ▸ hcalm
    exact h.of_task rfl (sends_advance hsends hadmits hadvance) fun _ => by rw [htask]; nofun
  | push htask hpush => exact h.of_push htask hpush
  | pushFailed => refine h.of_task rfl ?_ ?_ <;> simp [StreamTask.proceed, Sends]
  | abort => exact h.of_task rfl trivial fun hne => absurd rfl hne
  | grant | othersAcquire | othersRelease => exact h.of_task rfl h.sends id
  | othersPush hother hpush => exact h.of_othersPush hother rfl hpush
  | writer hwriter => exact h.of_writerStep rfl hwriter hcalm

end Invariant

/-- A streaming request under default settings. -/
def exampleConfig : StreamConfig where
  zstd := Writer.halvingZstd
  negotiated := Writer.defaultNegotiated
  request := Frame.new .request 7 1 []
  hasDeadline := false

/-- The byte budgets of the default limits. -/
def defaultBudgets : Budgets := ⟨32 * 1024 * 1024, 64 * 1024 * 1024⟩

/-- The stream is opened, one item is sent, and the stream ends. -/
def oneItemRun : List StreamLabel :=
  [.task .admitted, .task .opened, .grant 1, .task (.item [1]), .task .credited,
    .send, .send, .push, .task .finished, .send, .send, .push,
    .writer .take, .writer .fill, .writer .leave, .writer .flush]

/-- While the item is sent, other responses hold all the bytes of the connection. The
item is replaced by an ERROR, `send` succeeds, and the task carries on. -/
def rejectedItemRun : List StreamLabel :=
  [.task .admitted, .task .opened, .grant 1, .task (.item [1]), .task .credited,
    .othersAcquire ⟨32 * 1024 * 1024, 32 * 1024 * 1024⟩, .send,
    .othersRelease ⟨32 * 1024 * 1024, 32 * 1024 * 1024⟩, .send, .send, .push,
    .task .finished, .send, .send, .push,
    .writer .take, .writer .fill, .writer .leave, .writer .flush]

theorem not_wireDiscipline_of_error {frames : List Frame}
    (h : frames.map Frame.kind = [.error, .streamEnd]) : ¬ WireDiscipline frames := by
  intro hwf
  obtain ⟨first, rest, rfl, herror, hrest⟩ := List.map_eq_cons_iff.mp h
  have hnot : ¬ first.kind = .streamItem := by rw [herror]; decide
  -- nothing may follow an ERROR
  have hnil : rest = [] := @Signals.WellFormed.eq_nil _ _ _ [] rest first hwf hnot
  rw [hnil] at hrest
  exact nomatch hrest

end Stream

end MoonLightBridge.Server
