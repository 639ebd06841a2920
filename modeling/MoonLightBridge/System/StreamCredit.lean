import MoonLightBridge.Client.ServerStream
import MoonLightBridge.Server.StreamTask

/-!
# Stream credit across the wire

The client's end of a stream and the server's task for it, joined by the channel that
carries STREAM_CREDIT and CANCEL to the server and by the frames the writer has put on
the socket. Credit the client has granted is at any time on the way to the server, in
the task's semaphore, with the item the task is sending, or has become a STREAM_ITEM
the client has not read.
-/

namespace MoonLightBridge.StreamCredit

open Protocol Server Client Transition
open Client.ServerStream (creditCount creditSum creditSum_append)

structure State where
  client : ServerStream
  server : StreamState
  /-- frames of the stream the server has not taken up -/
  toServer : List Frame
  /-- how many of the frames on the socket the client has read -/
  received : ℕ

inductive Label where
  | client (label : ServerStreamLabel)
  | server (label : StreamLabel)
  /-- the server takes up the next frame -/
  | deliver
  /-- the client reads the next frame -/
  | receive

section Model

variable (cfg : StreamConfig)

/-- The request has been taken up; nobody has subscribed yet. -/
def init (budgets : Budgets) : State where
  client := ServerStream.init
  server := Stream.init budgets
  toServer := []
  received := 0

/-- What a frame of the stream makes the connection do to its task: a valid STREAM_CREDIT
grants, CANCEL aborts, and so does a protocol error, with the connection. -/
def takenUpAs (frame : Frame) : StreamLabel :=
  if frame.kind = .streamCredit ∧ frame.methodId = 0 ∧ frame.requestId ≠ 0 ∧
      frame.body.length = 8 ∧ creditCount frame ≠ 0 then
    .grant (creditCount frame)
  else .abort

def step (s : State) : Label → Option State
  -- what a party receives is what the other one sent
  | .client (.receive _) | .server (.grant _) => none
  | .client label =>
    match s.client.step cfg.request.requestId label with
    | some (client, frames) => some { s with client, toServer := s.toServer ++ frames }
    | none => none
  | .server label =>
    match Stream.step cfg s.server label with
    | some server => some { s with server }
    | none => none
  | .deliver =>
    match s.toServer with
    | [] => none
    | frame :: toServer =>
      match Stream.step cfg s.server (takenUpAs frame) with
      | some server => some { s with server, toServer }
      | none => none
  | .receive =>
    match s.server.delivery.written[s.received]? with
    | none => none
    | some frame =>
      if frame.requestId = cfg.request.requestId then
        let (client, frames) := s.client.receive cfg.request.requestId frame
        some { s with client, toServer := s.toServer ++ frames, received := s.received + 1 }
      else some { s with received := s.received + 1 }

/-- The credit of an item that the task is sending. -/
def heldCredit : StreamTask → ℕ
  | .sending _ false => 1
  | _ => 0

/-- The frames of the stream, behind the first `received` of the connection. -/
def unread (received : ℕ) (server : StreamState) : List Frame :=
  Stream.ofRequest cfg (server.delivery.pipeline.drop received)

def itemCount (frames : List Frame) : ℕ := frames.countP fun frame => frame.kind = .streamItem

/-- The server works on the stream: the task has not ended, and the connection is up. -/
def IsLive (server : StreamState) : Prop := server.task ≠ .ended ∧ server.delivery.isRunning

/-- The stream is open on both sides: the client has not seen it end, and the server
works on it and has sent nothing that ends it. -/
def IsOpen (s : State) : Prop :=
  s.client.ended = none ∧ IsLive s.server ∧
    ∀ frame ∈ unread cfg s.received s.server, ¬ Stream.IsTerminal frame

instance (server : StreamState) : Decidable (IsLive server) :=
  inferInstanceAs (Decidable (_ ∧ _))

instance (s : State) : Decidable (IsOpen cfg s) :=
  inferInstanceAs (Decidable (_ ∧ _ ∧ _))

/-- Credits in the semaphore, with the item being sent, and in items not yet read. -/
def serverCredit (received : ℕ) (server : StreamState) : ℕ :=
  server.credits + heldCredit server.task + itemCount (unread cfg received server)

/-- The same, with every unread frame of the stream: one that stands in the place of an
item has used up the item's credit. -/
def underWay (received : ℕ) (server : StreamState) : ℕ :=
  server.credits + heldCredit server.task + (unread cfg received server).length

/-- An item, or the ERROR that took its place. -/
def IsItemOrError (frame : Frame) : Prop := frame.kind = .streamItem ∨ frame.kind = .error

end Model

/-! ### The server's side -/

variable {frame : Frame}

section Server

variable {cfg : StreamConfig} {s t : StreamState} {received : ℕ}

theorem itemCount_append (xs ys : List Frame) :
    itemCount (xs ++ ys) = itemCount xs + itemCount ys := List.countP_append

theorem itemCount_singleton_of_ne (h : frame.kind ≠ .streamItem) : itemCount [frame] = 0 := by
  simp [itemCount, h]

theorem ofRequest_append (xs ys : List Frame) :
    Stream.ofRequest cfg (xs ++ ys) = Stream.ofRequest cfg xs ++ Stream.ofRequest cfg ys :=
  List.filter_append ..

theorem ofRequest_singleton (h : frame.requestId = cfg.request.requestId) :
    Stream.ofRequest cfg [frame] = [frame] := by
  simp [Stream.ofRequest, h]

theorem ofRequest_singleton_of_ne (h : frame.requestId ≠ cfg.request.requestId) :
    Stream.ofRequest cfg [frame] = [] := by
  simp [Stream.ofRequest, h]

/-- A task sends frames of its own request: terminal ones last, and before that items,
or what became of them. -/
def SendsOwn (cfg : StreamConfig) : StreamTask → Prop
  | .sending send isLast => send.frame.requestId = cfg.request.requestId ∧
      if isLast then Stream.IsTerminal send.frame
      else IsItemOrError send.frame
  | _ => True

theorem sendsOwn_of_sends {task : StreamTask} (h : Stream.Sends cfg task) : SendsOwn cfg task := by
  match task, h with
  | .sending send true, h => exact h
  | .sending send false, h => exact ⟨h.1, .inl h.2⟩
  | .starting, _ | .opening, _ | .polling, _ | .awaitingCredit _, _ | .ended, _ => trivial

theorem isTerminal_of_error (h : frame.kind = .error) : Stream.IsTerminal frame :=
  .inr h

theorem not_isTerminal_of_item (h : frame.kind = .streamItem) : ¬ Stream.IsTerminal frame := by
  rw [Stream.IsTerminal, h]
  decide

/-- A step of `send` goes on with a frame of the request, or ends the task. -/
theorem sendsOwn_advance {send : Sending} {isLast : Bool} {free free' : Budgets}
    {progress : SendProgress} (hsends : SendsOwn cfg (.sending send isLast))
    (h : send.advance free = some (free', progress)) :
    SendsOwn cfg (.proceed isLast progress) ∧
      (heldCredit (.proceed isLast progress) = heldCredit (.sending send isLast) ∨
        StreamTask.proceed isLast progress = .ended) := by
  rcases Stream.frame_of_advance h with ⟨send', rfl, hframe⟩ | ⟨-, rfl⟩ | rfl
  · refine ⟨?_, .inl (by cases isLast <;> rfl)⟩
    simp only [StreamTask.proceed, SendsOwn, hframe]
    exact hsends
  · cases isLast with
    | true =>
      rw [Stream.rejected_of_isTerminal hsends.2]
      exact ⟨hsends, .inl rfl⟩
    | false =>
      rcases hsends.2 with hitem | herror
      · -- the item becomes an ERROR of the same request
        simp only [rejected, hitem]
        exact ⟨⟨hsends.1, .inr rfl⟩, .inl rfl⟩
      · rw [Stream.rejected_of_isTerminal (isTerminal_of_error herror)]
        exact ⟨hsends, .inl rfl⟩
  · refine ⟨?_, .inr ?_⟩ <;> cases isLast <;> trivial

/-- Between two frames the task holds no credit, and it takes one to send an item. -/
theorem heldCredit_next {task task' : StreamTask} {event : TaskEvent}
    (h : task.next cfg event = some task') :
    heldCredit task' = heldCredit task + event.cost := by
  unfold StreamTask.next at h
  split at h <;> (try split_ifs at h) <;> cases h <;> rfl

/-- What a step that grants no credit does to the credit the server has. -/
structure Settles (cfg : StreamConfig) (received : ℕ) (s t : StreamState) : Prop where
  own : SendsOwn cfg t.task
  written : s.delivery.written <+: t.delivery.written
  credit : serverCredit cfg received t ≤ serverCredit cfg received s
  /-- as long as the server works on the stream, nothing is lost -/
  live : IsLive t → IsLive s ∧ underWay cfg received t = underWay cfg received s
  kinds : IsLive t → (∀ frame ∈ unread cfg received s, IsItemOrError frame) →
    ∀ frame ∈ unread cfg received t, IsItemOrError frame
  sent : itemCount (Stream.ofRequest cfg t.delivery.enqueued) + heldCredit t.task + t.credits ≤
    itemCount (Stream.ofRequest cfg s.delivery.enqueued) + heldCredit s.task + s.credits
  pipeline : itemCount (Stream.ofRequest cfg s.delivery.pipeline) ≤
      itemCount (Stream.ofRequest cfg s.delivery.enqueued) →
    itemCount (Stream.ofRequest cfg t.delivery.pipeline) ≤
      itemCount (Stream.ofRequest cfg t.delivery.enqueued)

/-- A step that leaves the channel alone. -/
theorem settles_of_task (hown : SendsOwn cfg t.task) (hdelivery : t.delivery = s.delivery)
    (hlive : t.task ≠ .ended → s.task ≠ .ended)
    (hcredit : t.credits + heldCredit t.task ≤ s.credits + heldCredit s.task)
    (hkept : t.task ≠ .ended → t.credits + heldCredit t.task = s.credits + heldCredit s.task) :
    Settles cfg received s t := by
  have hunread : unread cfg received t = unread cfg received s := by rw [unread, unread, hdelivery]
  refine ⟨hown, by rw [hdelivery], ?_, ?_, fun _ => hunread ▸ id, ?_, by rw [hdelivery]; exact id⟩
  · rw [serverCredit, serverCredit, hunread]
    omega
  · rintro ⟨htask, hrunning⟩
    refine ⟨⟨hlive htask, hdelivery ▸ hrunning⟩, ?_⟩
    rw [underWay, underWay, hunread, hkept htask]
  · rw [hdelivery]
    omega

/-- A frame of another request goes into the channel. -/
theorem settles_of_othersPush (hown : SendsOwn cfg s.task) {response : QueuedResponse}
    (hid : response.frame.requestId ≠ cfg.request.requestId)
    (hreceived : received ≤ s.delivery.written.length)
    (htask : t.task = s.task) (hcredits : t.credits = s.credits)
    (hpush : s.delivery.push (Stream.capacity cfg) response = some t.delivery) :
    Settles cfg received s t := by
  obtain ⟨hrunning, -, henqueued, hwritten, hpipeline⟩ := Delivery.pipeline_push hpush
  have hle : received ≤ s.delivery.pipeline.length := by
    rw [Delivery.pipeline, List.length_append]
    omega
  have hunread : unread cfg received t = unread cfg received s := by
    rw [unread, hpipeline, List.drop_append_of_le_length hle, ofRequest_append,
      ofRequest_singleton_of_ne hid, List.append_nil, unread]
  have hsent : Stream.ofRequest cfg t.delivery.enqueued =
      Stream.ofRequest cfg s.delivery.enqueued := by
    rw [henqueued, ofRequest_append, ofRequest_singleton_of_ne hid, List.append_nil]
  refine ⟨htask ▸ hown, by rw [hwritten], ?_, ?_, fun _ => hunread ▸ id, ?_, ?_⟩
  · rw [serverCredit, serverCredit, hunread, htask, hcredits]
  · rintro ⟨hended, -⟩
    refine ⟨⟨htask ▸ hended, hrunning⟩, ?_⟩
    rw [underWay, underWay, hunread, htask, hcredits]
  · rw [hsent, htask, hcredits]
  · rw [hsent, hpipeline, ofRequest_append, ofRequest_singleton_of_ne hid, List.append_nil]
    exact id

/-- The task puts a frame into the channel. -/
theorem settles_of_push {response : QueuedResponse} {isLast : Bool}
    (hown : SendsOwn cfg (.sending (.enqueue response) isLast))
    (hreceived : received ≤ s.delivery.written.length)
    (htask : s.task = .sending (.enqueue response) isLast) (hcredits : t.credits = s.credits)
    (htask' : t.task = .proceed isLast (.returned true))
    (hpush : s.delivery.push (Stream.capacity cfg) response = some t.delivery) :
    Settles cfg received s t := by
  obtain ⟨hrunning, -, henqueued, hwritten, hpipeline⟩ := Delivery.pipeline_push hpush
  have hid : response.frame.requestId = cfg.request.requestId := hown.1
  have hle : received ≤ s.delivery.pipeline.length := by
    rw [Delivery.pipeline, List.length_append]
    omega
  have hunread : unread cfg received t = unread cfg received s ++ [response.frame] := by
    rw [unread, hpipeline, List.drop_append_of_le_length hle, ofRequest_append,
      ofRequest_singleton hid, unread]
  have hsent : Stream.ofRequest cfg t.delivery.enqueued =
      Stream.ofRequest cfg s.delivery.enqueued ++ [response.frame] := by
    rw [henqueued, ofRequest_append, ofRequest_singleton hid]
  -- the credit of the item is now in the frame
  have hitem : itemCount [response.frame] + heldCredit t.task ≤ heldCredit s.task := by
    rw [htask, htask']
    cases isLast with
    | true =>
      have hne : response.frame.kind ≠ .streamItem := by
        exact fun hkind => not_isTerminal_of_item hkind hown.2
      rw [itemCount_singleton_of_ne hne]
      exact le_rfl
    | false => exact List.countP_le_length
  -- a frame that is not the last one was paid for
  have hkept : t.task ≠ .ended →
      heldCredit s.task = heldCredit t.task + 1 ∧ IsItemOrError response.frame := by
    intro hended
    rw [htask'] at hended ⊢
    rw [htask]
    cases isLast with
    | true => exact absurd rfl hended
    | false => exact ⟨rfl, hown.2⟩
  refine ⟨?_, by rw [hwritten], ?_, ?_, ?_, ?_, ?_⟩
  · rw [htask']
    cases isLast <;> trivial
  · rw [serverCredit, serverCredit, hunread, itemCount_append, hcredits]
    omega
  · rintro ⟨hended, -⟩
    refine ⟨⟨by simp [htask], hrunning⟩, ?_⟩
    rw [underWay, underWay, hunread, hcredits, List.length_append, (hkept hended).1,
      List.length_singleton]
    omega
  · rintro ⟨hended, -⟩ hkinds frame hframe
    rw [hunread] at hframe
    rcases List.mem_append.mp hframe with hframe | hframe
    · exact hkinds frame hframe
    · rw [List.mem_singleton.mp hframe]
      exact (hkept hended).2
  · rw [hsent, itemCount_append, hcredits]
    omega
  · rw [hsent, hpipeline, ofRequest_append, ofRequest_singleton hid, itemCount_append,
      itemCount_append]
    omega

/-- The writer keeps a frame with its request. -/
theorem ofRequest_map_outbound (frames : List Frame) :
    Stream.ofRequest cfg (frames.map (outbound cfg.zstd cfg.negotiated)) =
      (Stream.ofRequest cfg frames).map (outbound cfg.zstd cfg.negotiated) := by
  rw [Stream.ofRequest, Stream.ofRequest, List.filter_map]
  congr 1
  apply List.filter_congr
  intro frame _
  simp only [Function.comp_apply, (answers_outbound cfg.zstd cfg.negotiated frame).requestId]

theorem isItemOrError_outbound (h : IsItemOrError frame) :
    IsItemOrError (outbound cfg.zstd cfg.negotiated frame) := by
  rcases (answers_outbound cfg.zstd cfg.negotiated frame).kind with hkind | hkind
  · rw [IsItemOrError, hkind]
    exact h
  · exact .inr hkind

/-- The writer makes no items. -/
theorem itemCount_map_outbound (frames : List Frame) :
    itemCount (frames.map (outbound cfg.zstd cfg.negotiated)) ≤ itemCount frames := by
  rw [itemCount, itemCount, List.countP_map]
  refine List.countP_mono_left fun frame _ hitem => ?_
  have hitem : (outbound cfg.zstd cfg.negotiated frame).kind = .streamItem := by
    simpa using hitem
  rcases (answers_outbound cfg.zstd cfg.negotiated frame).kind with hkind | hkind
  · simpa using hkind.symm.trans hitem
  · exact nomatch hkind.symm.trans hitem

/-- The writer fails: what was not written is lost. -/
theorem settles_of_fail (hown : SendsOwn cfg s.task)
    (hreceived : received ≤ s.delivery.written.length)
    (htask : t.task = s.task) (hcredits : t.credits = s.credits)
    {dropped : List QueuedResponse}
    (hstep : s.delivery.writerStep cfg.zstd cfg.negotiated .fail = some (t.delivery, dropped)) :
    Settles cfg received s t := by
  have henqueued := Delivery.enqueued_of_writerStep hstep
  obtain ⟨hstopped, hwritten, hpipeline⟩ := Delivery.pipeline_of_fail hstep
  have hunread : unread cfg received s = unread cfg received t ++
      Stream.ofRequest cfg (s.delivery.live.map QueuedResponse.frame) := by
    rw [unread, unread, hpipeline, Delivery.pipeline,
      List.drop_append_of_le_length hreceived, ofRequest_append]
  have hdead : ¬ IsLive t := fun hlive =>
    Bool.false_ne_true (hstopped.symm.trans hlive.2)
  refine ⟨htask ▸ hown, by rw [hwritten], ?_, fun hlive => absurd hlive hdead,
    fun hlive => absurd hlive hdead, ?_, ?_⟩
  · rw [serverCredit, serverCredit, hunread, itemCount_append, htask, hcredits]
    omega
  · rw [henqueued, htask, hcredits]
  · rw [hpipeline, henqueued, Delivery.pipeline, ofRequest_append, itemCount_append]
    omega

/-- Some of the frames on their way to the client are transformed, none that it has read. -/
theorem settles_of_outbound (before middle after : List Frame) (hown : SendsOwn cfg s.task)
    (htask : t.task = s.task) (hcredits : t.credits = s.credits)
    (hrunning : s.delivery.isRunning = true)
    (hwritten : s.delivery.written <+: t.delivery.written)
    (henqueued : t.delivery.enqueued = s.delivery.enqueued)
    (hreceived : received ≤ before.length) (hold : s.delivery.pipeline = before ++ middle ++ after)
    (hnew : t.delivery.pipeline =
      before ++ middle.map (outbound cfg.zstd cfg.negotiated) ++ after) :
    Settles cfg received s t := by
  have hunread : unread cfg received s = Stream.ofRequest cfg (before.drop received) ++
      Stream.ofRequest cfg middle ++ Stream.ofRequest cfg after := by
    rw [unread, hold, List.append_assoc, List.drop_append_of_le_length hreceived,
      ofRequest_append, ofRequest_append, List.append_assoc]
  have hunread' : unread cfg received t = Stream.ofRequest cfg (before.drop received) ++
      (Stream.ofRequest cfg middle).map (outbound cfg.zstd cfg.negotiated) ++
      Stream.ofRequest cfg after := by
    rw [unread, hnew, List.append_assoc, List.drop_append_of_le_length hreceived,
      ofRequest_append, ofRequest_append, ofRequest_map_outbound, List.append_assoc]
  have hcount : itemCount ((Stream.ofRequest cfg middle).map
      (outbound cfg.zstd cfg.negotiated)) ≤ itemCount (Stream.ofRequest cfg middle) :=
    itemCount_map_outbound _
  refine ⟨htask ▸ hown, hwritten, ?_, ?_, ?_, ?_, ?_⟩
  · rw [serverCredit, serverCredit, hunread, hunread', htask, hcredits]
    simp only [itemCount_append]
    omega
  · rintro ⟨hended, -⟩
    refine ⟨⟨htask ▸ hended, hrunning⟩, ?_⟩
    rw [underWay, underWay, hunread, hunread', htask, hcredits]
    simp only [List.length_append, List.length_map]
  · intro _ hkinds frame hframe
    rw [hunread] at hkinds
    rw [hunread'] at hframe
    rcases List.mem_append.mp hframe with hframe | hframe
    · rcases List.mem_append.mp hframe with hframe | hframe
      · exact hkinds frame (List.mem_append_left _ (List.mem_append_left _ hframe))
      · obtain ⟨original, hmem, rfl⟩ := List.mem_map.mp hframe
        exact isItemOrError_outbound
          (hkinds original (List.mem_append_left _ (List.mem_append_right _ hmem)))
    · exact hkinds frame (List.mem_append_right _ hframe)
  · rw [henqueued, htask, hcredits]
  · rw [hold, hnew, henqueued]
    simp only [ofRequest_append, ofRequest_map_outbound, itemCount_append]
    omega

/-- The writer moves on. -/
theorem settles_of_writerStep (hown : SendsOwn cfg s.task)
    (hreceived : received ≤ s.delivery.written.length)
    (htask : t.task = s.task) (hcredits : t.credits = s.credits) {label : WriterLabel}
    {dropped : List QueuedResponse}
    (hstep : s.delivery.writerStep cfg.zstd cfg.negotiated label = some (t.delivery, dropped)) :
    Settles cfg received s t := by
  by_cases hfail : label = .fail
  · subst hfail
    exact settles_of_fail hown hreceived htask hcredits hstep
  have henqueued := Delivery.enqueued_of_writerStep hstep
  have hrunning := Delivery.isRunning_of_writerStep hstep
  obtain ⟨-, hwritten, hpipeline⟩ := Delivery.pipeline_of_writerStep hstep hfail
  rcases hpipeline with hsame | ⟨before, response, after, -, hle, hold, hnew⟩
  · refine settles_of_outbound s.delivery.pipeline [] [] hown htask hcredits hrunning hwritten
      henqueued ?_ (by simp) (by simp [hsame])
    rw [Delivery.pipeline, List.length_append]
    omega
  · -- one frame is transformed, behind everything the client has read
    refine settles_of_outbound before [response.frame] after hown htask hcredits hrunning
      hwritten henqueued (hreceived.trans hle) ?_ ?_
    · rw [hold, List.append_cons]
    · rw [hnew, List.append_cons]
      rfl

/-- What a step of the server does to the credit it has, unless it is granted more. -/
theorem settles_step (hown : SendsOwn cfg s.task) (hreceived : received ≤ s.delivery.written.length)
    {label : StreamLabel} (hlabel : ∀ count, label ≠ .grant count)
    (hstep : Stream.step cfg s label = some t) : Settles cfg received s t := by
  cases Stream.steps_of_step hstep with
  | task hnext hcost =>
    have hheld := heldCredit_next hnext
    obtain ⟨hsends, hended⟩ := Stream.sends_next hnext
    refine settles_of_task (sendsOwn_of_sends hsends) rfl (fun _ => hended) ?_ fun _ => ?_ <;>
      simp only <;> omega
  | send htask hadvance =>
    obtain ⟨hsends, hheld⟩ := sendsOwn_advance (htask ▸ hown) hadvance
    refine settles_of_task hsends rfl (fun _ => by simp [htask]) ?_ ?_
    · rcases hheld with hheld | hended
      · simp only [hheld, htask]
        exact le_rfl
      · simp only [hended, htask]
        exact Nat.add_le_add_left (Nat.zero_le _) _
    · intro hne
      simp only [hheld.resolve_right hne, htask]
  | push htask hpush => exact settles_of_push (htask ▸ hown) hreceived htask rfl rfl hpush
  | @pushFailed _ isLast =>
    have hended : StreamTask.proceed isLast (.returned false) = .ended := by cases isLast <;> rfl
    refine settles_of_task ?_ rfl ?_ ?_ ?_ <;> simp only [hended]
    · trivial
    · exact fun hne => absurd rfl hne
    · exact Nat.add_le_add_left (Nat.zero_le _) _
    · exact fun hne => absurd rfl hne
  | abort =>
    refine settles_of_task trivial rfl (fun hne => absurd rfl hne) ?_ fun hne => absurd rfl hne
    exact Nat.add_le_add_left (Nat.zero_le _) _
  | grant => exact absurd rfl (hlabel _)
  | othersAcquire | othersRelease => exact settles_of_task hown rfl id le_rfl fun _ => rfl
  | othersPush hother hpush => exact settles_of_othersPush hown hother hreceived rfl rfl hpush
  | writer hwriter => exact settles_of_writerStep hown hreceived rfl rfl hwriter

end Server

/-! ### Conservation -/

/-- What holds of the two ends of a stream. -/
structure Conserved (cfg : StreamConfig) (s : State) : Prop where
  balanced : s.client.Balanced
  own : SendsOwn cfg s.server.task
  received : s.received ≤ s.server.delivery.written.length
  /-- as long as the client listens, its credit covers all that is under way -/
  covered : s.client.ended = none →
    creditSum s.toServer + serverCredit cfg s.received s.server ≤ s.client.outstandingWireCredit
  /-- and while the server works on the stream, it is no more than that -/
  exact : s.client.ended = none → IsLive s.server →
    s.client.outstandingWireCredit = creditSum s.toServer + underWay cfg s.received s.server
  kinds : IsLive s.server → ∀ frame ∈ unread cfg s.received s.server, IsItemOrError frame
  granted : itemCount (Stream.ofRequest cfg s.server.delivery.enqueued) +
    heldCredit s.server.task + s.server.credits + creditSum s.toServer ≤ s.client.granted
  pipeline : itemCount (Stream.ofRequest cfg s.server.delivery.pipeline) ≤
    itemCount (Stream.ofRequest cfg s.server.delivery.enqueued)
  lawful : s.client.ended ≠ some .withoutCredit

section Conservation

variable {cfg : StreamConfig} {s t : State}

theorem conserved_init (cfg : StreamConfig) (budgets : Budgets) :
    Conserved cfg (init budgets) where
  balanced := ServerStream.balanced_init
  own := trivial
  received := le_rfl
  covered _ := le_rfl
  exact _ _ := rfl
  kinds _ := nofun
  granted := le_rfl
  pipeline := le_rfl
  lawful := nofun

variable {server : StreamState}

/-- The server moves on by itself. -/
theorem Conserved.of_server (h : Conserved cfg s)
    (hsettles : Settles cfg s.received s.server server) : Conserved cfg { s with server } where
  balanced := h.balanced
  own := hsettles.own
  received := h.received.trans hsettles.written.length_le
  covered hended := (Nat.add_le_add_left hsettles.credit _).trans (h.covered hended)
  exact hended hlive := by
    obtain ⟨hlive, hcredit⟩ := hsettles.live hlive
    exact (h.exact hended hlive).trans (by rw [hcredit])
  kinds hlive := hsettles.kinds hlive (h.kinds (hsettles.live hlive).1)
  granted := by
    have hsent := hsettles.sent
    have hgranted := h.granted
    simp only
    omega
  pipeline := hsettles.pipeline h.pipeline
  lawful := h.lawful

variable {client : ServerStream} {frames : List Frame}

/-- The client moves on by itself. -/
theorem Conserved.of_client (h : Conserved cfg s) (hbalanced : client.Balanced)
    (hgrants : ServerStream.Grants s.client client (creditSum frames)) :
    Conserved cfg { s with client, toServer := s.toServer ++ frames } where
  balanced := hbalanced
  own := h.own
  received := h.received
  covered hended := by
    have hcovered := h.covered (hgrants.ended hended)
    have houtstanding := hgrants.outstanding
    simp only [creditSum_append]
    omega
  exact hended hlive := by
    have hexact := h.exact (hgrants.ended hended) hlive
    have houtstanding := hgrants.outstanding
    simp only [creditSum_append]
    omega
  kinds := h.kinds
  granted := by
    have hgranted := h.granted
    have hgranted' := hgrants.granted
    simp only [creditSum_append]
    omega
  pipeline := h.pipeline
  lawful hended := h.lawful (hgrants.lawful hended)

theorem creditSum_cons (frame : Frame) (frames : List Frame) :
    creditSum (frame :: frames) = creditCount frame + creditSum frames := rfl

/-- The server takes up a frame: the credit it carries goes to the semaphore, or is lost
with the task. -/
theorem Conserved.of_deliver (h : Conserved cfg s) {toServer : List Frame}
    (hqueue : s.toServer = frame :: toServer)
    (hstep : Stream.step cfg s.server (takenUpAs frame) = some server) :
    Conserved cfg { s with server, toServer } := by
  have hsum : creditSum s.toServer = creditCount frame + creditSum toServer := by
    rw [hqueue, creditSum_cons]
  unfold takenUpAs at hstep
  split_ifs at hstep with hvalid
  · cases hstep
    have hadd : addCredits s.server.credits (creditCount frame) ≤
        s.server.credits + creditCount frame :=
      Nat.add_le_add_left (min_le_left _ _) _
    refine ⟨h.balanced, h.own, h.received, fun hended => ?_, fun hended hlive => ?_, h.kinds, ?_,
      h.pipeline, h.lawful⟩
    · have hcovered := h.covered hended
      simp only [serverCredit, unread] at hcovered ⊢
      omega
    · -- there is far less credit than a semaphore can hold
      have hexact := h.exact hended hlive
      have hsmall : s.client.outstandingWireCredit ≤ 32 := by
        have hpending := h.balanced.pending
        have hle : s.client.pendingCallbacks ≤ 32 := h.balanced.pending_le
        omega
      simp only [underWay, unread] at hexact ⊢
      have hroom : addCredits s.server.credits (creditCount frame) =
          s.server.credits + creditCount frame := by
        unfold addCredits
        rw [Nat.min_eq_left]
        have hmax : (32 : ℕ) ≤ maxPermits := by decide
        omega
      omega
    · have hgranted := h.granted
      simp only
      omega
  -- any other frame ends the task, and the credit it may announce is lost
  · have hsettles : Settles cfg s.received s.server server :=
      settles_step h.own h.received (by intro count; exact nofun) hstep
    have hserver := h.of_server hsettles
    cases hstep
    refine ⟨hserver.balanced, hserver.own, hserver.received, fun hended => ?_,
      fun _ hlive => absurd rfl hlive.1, hserver.kinds, ?_, hserver.pipeline, hserver.lawful⟩
    · have hcovered := hserver.covered hended
      simp only at hcovered ⊢
      omega
    · have hgranted := hserver.granted
      simp only at hgranted ⊢
      omega

variable {received : ℕ}

/-- A frame that is about to be read, and those behind it. -/
theorem unread_of_getElem? (hframe : server.delivery.written[received]? = some frame) :
    unread cfg received server =
      Stream.ofRequest cfg [frame] ++ unread cfg (received + 1) server := by
  obtain ⟨hlt, hget⟩ := List.getElem?_eq_some_iff.mp hframe
  have hdrop : server.delivery.pipeline.drop received =
      [frame] ++ server.delivery.pipeline.drop (received + 1) := by
    have hlt' : received < server.delivery.pipeline.length := by
      rw [Delivery.pipeline, List.length_append]
      omega
    have hframe' : server.delivery.pipeline[received] = frame := by
      simp only [Delivery.pipeline]
      rw [List.getElem_append_left hlt, hget]
    rw [List.drop_eq_getElem_cons hlt', hframe']
    rfl
  rw [unread, hdrop, ofRequest_append, unread]

theorem unread_subset (hframe : server.delivery.written[received]? = some frame) :
    unread cfg (received + 1) server ⊆ unread cfg received server := by
  rw [unread_of_getElem? hframe]
  exact List.subset_append_right _ _

/-- Reading a frame of another request changes nothing. -/
theorem Conserved.of_skip (h : Conserved cfg s)
    (hframe : s.server.delivery.written[s.received]? = some frame)
    (hid : frame.requestId ≠ cfg.request.requestId) :
    Conserved cfg { s with received := s.received + 1 } := by
  have hunread : unread cfg s.received s.server = unread cfg (s.received + 1) s.server := by
    rw [unread_of_getElem? hframe, ofRequest_singleton_of_ne hid, List.nil_append]
  have hcovered := h.covered
  have hexact := h.exact
  simp only [serverCredit, underWay, hunread] at hcovered hexact
  exact ⟨h.balanced, h.own, (List.getElem?_eq_some_iff.mp hframe).1, hcovered, hexact,
    hunread ▸ h.kinds, h.granted, h.pipeline, h.lawful⟩

/-- Reading a frame that ends the stream. -/
theorem Conserved.of_ended (h : Conserved cfg s)
    (hreceived : received ≤ s.server.delivery.written.length)
    (hunread : unread cfg received s.server ⊆ unread cfg s.received s.server)
    (hbalanced : client.Balanced) (hended : client.ended ≠ none)
    (hlawful : client.ended ≠ some .withoutCredit) (hgranted : client.granted = s.client.granted)
    (hframes : creditSum frames = 0) :
    Conserved cfg { s with client, toServer := s.toServer ++ frames, received } where
  balanced := hbalanced
  own := h.own
  received := hreceived
  covered hnone := absurd hnone hended
  exact hnone := absurd hnone hended
  kinds hlive frame hframe := h.kinds hlive frame (hunread hframe)
  granted := by
    have hgranted' := h.granted
    simp only [creditSum_append]
    omega
  pipeline := h.pipeline
  lawful := hlawful

/-- The client reads an item. It has credit for it. -/
theorem Conserved.of_item (h : Conserved cfg s)
    (hframe : s.server.delivery.written[s.received]? = some frame)
    (hid : frame.requestId = cfg.request.requestId) (hkind : frame.kind = .streamItem)
    (hemit : s.client.emit cfg.request.requestId = (client, frames)) :
    Conserved cfg { s with
      client, toServer := s.toServer ++ frames, received := s.received + 1 } := by
  have hreceived : s.received + 1 ≤ s.server.delivery.written.length :=
    (List.getElem?_eq_some_iff.mp hframe).1
  have hbalanced : client.Balanced := by
    have hbalanced : (s.client.emit cfg.request.requestId).1.Balanced := h.balanced.emit
    rw [hemit] at hbalanced
    exact hbalanced
  by_cases hended : s.client.ended = none
  swap
  · -- an ended stream ignores it
    rw [ServerStream.emit, if_pos (Option.isSome_iff_ne_none.mpr hended)] at hemit
    cases hemit
    exact h.of_ended hreceived (unread_subset hframe) hbalanced hended h.lawful rfl rfl
  have hunread : unread cfg s.received s.server =
      [frame] ++ unread cfg (s.received + 1) s.server := by
    rw [unread_of_getElem? hframe, ofRequest_singleton hid]
  have hcredit : serverCredit cfg s.received s.server =
      serverCredit cfg (s.received + 1) s.server + 1 := by
    have hone : itemCount [frame] = 1 := by simp [itemCount, hkind]
    rw [serverCredit, serverCredit, hunread, itemCount_append, hone]
    omega
  have hcovered := h.covered hended
  have hdemand := h.balanced.outstanding_le
  -- the item is itself credit that the client has granted, so no refusal of `emit` applies
  have hsubscribed : s.client.isSubscribed ≠ false := by
    intro hnot
    have hzero := h.balanced.subscribed hnot
    omega
  rw [ServerStream.emit, if_neg (by simp [hended]), if_neg] at hemit
  swap
  · rw [not_or, not_or]
    exact ⟨hsubscribed, by omega, by omega⟩
  cases hemit
  refine ⟨hbalanced, h.own, hreceived, fun _ => ?_, fun _ hlive => ?_,
    fun hlive other hother => h.kinds hlive other (unread_subset hframe hother), ?_, h.pipeline, ?_⟩
  · simp only [List.append_nil]
    omega
  · have hexact := h.exact hended hlive
    have hlength : underWay cfg s.received s.server =
        underWay cfg (s.received + 1) s.server + 1 := by
      rw [underWay, underWay, hunread, List.length_append, List.length_singleton]
      omega
    simp only [List.append_nil]
    omega
  · have hgranted := h.granted
    simp only [List.append_nil]
    exact hgranted
  · simp only [hended]
    exact nofun

theorem ended_finish_ne_none (client : ServerStream) (reason : StreamEnd) :
    (client.finish reason).ended ≠ none := nofun

/-- The client reads a frame of the stream. -/
theorem Conserved.of_receive (h : Conserved cfg s)
    (hframe : s.server.delivery.written[s.received]? = some frame)
    (hid : frame.requestId = cfg.request.requestId)
    (hreceive : s.client.receive cfg.request.requestId frame = (client, frames)) :
    Conserved cfg { s with
      client, toServer := s.toServer ++ frames, received := s.received + 1 } := by
  have hreceived : s.received + 1 ≤ s.server.delivery.written.length :=
    (List.getElem?_eq_some_iff.mp hframe).1
  have hfinish : ∀ reason, reason ≠ .withoutCredit →
      (s.client.finish reason, ([] : List Frame)) = (client, frames) →
      Conserved cfg { s with
        client, toServer := s.toServer ++ frames, received := s.received + 1 } := by
    intro reason hreason heq
    cases heq
    exact h.of_ended hreceived (unread_subset hframe) (h.balanced.finish reason)
      (ended_finish_ne_none _ _)
      (fun hended => h.lawful ((ServerStream.grants_finish hreason).lawful hended)) rfl rfl
  unfold ServerStream.receive at hreceive
  split at hreceive
  · rename_i hkind
    exact h.of_item hframe hid hkind hreceive
  · split_ifs at hreceive
    · exact hfinish .completed nofun hreceive
    · exact hfinish .failed nofun hreceive
  · exact hfinish .remoteError nofun hreceive
  · exact hfinish .failed nofun hreceive

/-- Every step conserves the credit of the stream. -/
theorem conserved_step {label : Label} (h : Conserved cfg s) (hstep : step cfg s label = some t) :
    Conserved cfg t := by
  unfold step at hstep
  split at hstep
  · cases hstep
  · cases hstep
  · rename_i label hlabel
    split at hstep
    · rename_i client frames hclient
      cases hstep
      exact h.of_client (ServerStream.balanced_step h.balanced hclient)
        (ServerStream.grants_step (fun frame heq => hlabel frame heq) hclient)
    · cases hstep
  · rename_i label hlabel
    split at hstep
    · rename_i server hserver
      cases hstep
      exact h.of_server (settles_step h.own h.received (fun count heq => hlabel count heq) hserver)
    · cases hstep
  · split at hstep
    · cases hstep
    · rename_i frame toServer hqueue
      split at hstep
      · rename_i server hserver
        cases hstep
        exact h.of_deliver hqueue hserver
      · cases hstep
  · split at hstep
    · cases hstep
    · rename_i frame hframe
      split_ifs at hstep with hid
      · cases hstep
        exact h.of_receive hframe hid rfl
      · cases hstep
        exact h.of_skip hframe hid

/-- With nothing on the way that ends the stream, all that is on the way are items. -/
theorem Conserved.itemCount_unread (h : Conserved cfg s) (hlive : IsLive s.server)
    (hterminal : ∀ frame ∈ unread cfg s.received s.server, ¬ Stream.IsTerminal frame) :
    itemCount (unread cfg s.received s.server) = (unread cfg s.received s.server).length := by
  refine List.countP_eq_length.mpr fun frame hframe => decide_eq_true ?_
  rcases h.kinds hlive frame hframe with hitem | herror
  · exact hitem
  · exact absurd (isTerminal_of_error herror) (hterminal frame hframe)

/-- Never more items on the socket than in the channel before it. -/
theorem itemCount_written_le (cfg : StreamConfig) (delivery : Delivery) :
    itemCount (Stream.ofRequest cfg delivery.written) ≤
      itemCount (Stream.ofRequest cfg delivery.pipeline) := by
  rw [Delivery.pipeline, ofRequest_append, itemCount_append]
  exact Nat.le_add_right _ _

end Conservation

/-- The credit the client counts as outstanding is on the way to the server, in the
semaphore, with an item not yet in the channel, or in an item not yet read. A task that
works on after an item was replaced by an ERROR has spent the item's credit on the ERROR.
The server never sends more items than it was granted, and the client never finds one
without credit. -/
theorem credit_conserved (cfg : StreamConfig) (budgets : Budgets) (labels : List Label) (s : State)
    (hrun : run (step cfg) (init budgets) labels = some s) :
    (IsOpen cfg s → s.client.outstandingWireCredit = creditSum s.toServer + s.server.credits +
        heldCredit s.server.task + itemCount (unread cfg s.received s.server)) ∧
      (s.client.ended = none → IsLive s.server →
        s.client.outstandingWireCredit = creditSum s.toServer + s.server.credits +
            heldCredit s.server.task + (unread cfg s.received s.server).length ∧
          ∀ frame ∈ unread cfg s.received s.server, IsItemOrError frame) ∧
      itemCount (Stream.ofRequest cfg s.server.delivery.enqueued) ≤ s.client.granted ∧
      itemCount (Stream.ofRequest cfg s.server.delivery.written) ≤ s.client.granted ∧
      s.client.ended ≠ some .withoutCredit := by
  have h : Conserved cfg s :=
    run_invariant conserved_step hrun (conserved_init cfg budgets)
  have hexact : s.client.ended = none → IsLive s.server →
      s.client.outstandingWireCredit = creditSum s.toServer + s.server.credits +
        heldCredit s.server.task + (unread cfg s.received s.server).length := by
    intro hended hlive
    rw [h.exact hended hlive, underWay]
    omega
  have hsent : itemCount (Stream.ofRequest cfg s.server.delivery.enqueued) ≤ s.client.granted := by
    have hgranted := h.granted
    omega
  refine ⟨?_, fun hended hlive => ⟨hexact hended hlive, h.kinds hlive⟩, hsent, ?_, h.lawful⟩
  · rintro ⟨hended, hlive, hterminal⟩
    rw [h.itemCount_unread hlive hterminal, hexact hended hlive]
  · calc itemCount (Stream.ofRequest cfg s.server.delivery.written)
        ≤ itemCount (Stream.ofRequest cfg s.server.delivery.pipeline) :=
          itemCount_written_le cfg s.server.delivery
      _ ≤ itemCount (Stream.ofRequest cfg s.server.delivery.enqueued) := h.pipeline
      _ ≤ s.client.granted := hsent

/-- The client has read one of three items it asked for, the second one is in the
channel, and the client asks for one more. -/
def openRun : List Label :=
  [.client .subscribe, .client (.request 3), .server (.task .admitted), .server (.task .opened),
    .deliver, .server (.task (.item [1])), .server (.task .credited), .server .send, .server .send,
    .server .push, .server (.writer .take), .server (.writer .leave), .server (.writer .flush),
    .receive, .server (.task (.item [2])), .server (.task .credited), .server .send,
    .server .send, .server .push, .client (.request 1)]

theorem credit_conserved_openRun :
    ∃ s, run (step Stream.exampleConfig) (init Stream.defaultBudgets) openRun = some s ∧
      IsOpen Stream.exampleConfig s ∧
      s.client.outstandingWireCredit = creditSum s.toServer + s.server.credits +
        heldCredit s.server.task + itemCount (unread Stream.exampleConfig s.received s.server) := by
  have hdecide : (run (step Stream.exampleConfig) (init Stream.defaultBudgets) openRun).map
      (fun s => decide (IsOpen Stream.exampleConfig s)) = some true := by
    decide +kernel
  obtain ⟨s, hrun, hopen⟩ := Option.map_eq_some_iff.mp hdecide
  have hopen : IsOpen Stream.exampleConfig s := of_decide_eq_true hopen
  exact ⟨s, hrun, hopen, (credit_conserved _ _ _ _ hrun).1 hopen⟩

end MoonLightBridge.StreamCredit
