import MoonLightBridge.Data.QueuedMap

/-!
# The idempotency cache

`IdempotencyCache::execute` shares one operation among all callers that use its key. The
first of them puts an entry into the cache and spawns a worker that runs its operation;
the others wait for the entry's result. A completed operation leaves the cache when its
result has expired or when room is needed, and one that panicked never does.

The critical section of `execute`, the worker's steps and those of a waiting caller are
the steps of the model. In between, any of them may come in any order, callers may be
cancelled, and time may pass.
-/

namespace MoonLightBridge.Server.Idempotency

inductive IdempotencyError (E : Type*) where
  | operation (error : E)
  | overloaded
  | indeterminate
  deriving DecidableEq, Repr

structure Idempotent (V : Type*) where
  value : V
  replayed : Bool
  deriving DecidableEq, Repr

abbrev Result (V E : Type*) := Except (IdempotencyError E) V

/-- How an operation ends. -/
inductive Completion (V E : Type*) where
  | returned (result : Except E V)
  | panicked

structure CacheConfig where
  capacity : ℕ
  ttl : ℕ
  /-- "idempotency cache capacity must be positive" -/
  capacity_pos : 0 < capacity
  /-- "idempotency cache TTL must be positive" -/
  ttl_pos : 0 < ttl

/-- An entry, with the key it was made for. The result is set once, with its instant. -/
structure Entry (K V E : Type*) where
  key : K
  result : Option (ℕ × Result V E)

/-- `CacheState`: the map gives the entry's place among all entries made so far. -/
abbrev CacheState (K : Type*) := QueuedMap K ℕ

/-- The task that runs an operation. -/
inductive WorkerPhase (V E : Type*) where
  | running
  /-- the operation has ended, and the worker waits for the lock -/
  | finished (result : Result V E)
  /-- the result is set, and the waiters are about to be notified -/
  | notifying
  | done

structure Worker (V E : Type*) where
  /-- the caller whose operation it is -/
  owner : ℕ
  phase : WorkerPhase V E

/-- Where `execute` stands behind its critical section. -/
inductive CallerPhase (V E : Type*) where
  /-- at the top of the loop -/
  | looping
  /-- registered for a notification, and about to look at the result -/
  | enabled
  | waiting
  | returned (result : Except (IdempotencyError E) (Idempotent V))
  | cancelled

structure Caller (V E : Type*) where
  /-- the entry it is attached to, unless the cache was full -/
  entry : Option ℕ
  replayed : Bool
  phase : CallerPhase V E
  notified : Bool

structure State (K V E : Type*) where
  now : ℕ
  cache : CacheState K
  entries : List (Entry K V E)
  workers : List (Worker V E)
  callers : List (Caller V E)

inductive Label (K V E : Type*) where
  | tick (duration : ℕ)
  /-- the critical section of `execute`, and the worker it spawns -/
  | execute (key : K)
  /-- an operation ends -/
  | finish (entry : ℕ) (completion : Completion V E)
  /-- its worker takes the lock and sets the result -/
  | publish (entry : ℕ)
  | notify (entry : ℕ)
  | enable (caller : ℕ)
  | inspect (caller : ℕ)
  | wake (caller : ℕ)
  | cancel (caller : ℕ)

section Model

variable {K V E : Type*}

def IsIndeterminate : Result V E → Prop
  | .error .indeterminate => True
  | _ => False

instance : (result : Result V E) → Decidable (IsIndeterminate result)
  | .error .indeterminate => isTrue trivial
  | .error (.operation _) | .error .overloaded | .ok _ => isFalse id

/-- What a worker makes of the end of its operation. -/
def Completion.result : Completion V E → Result V E
  | .returned (.ok value) => .ok value
  | .returned (.error error) => .error (.operation error)
  | .panicked => .error .indeterminate

/-- Whether a caller may still attach itself to an entry. -/
def IsLive (ttl now : ℕ) : Option (ℕ × Result V E) → Prop
  | none => True
  | some (completed, result) => IsIndeterminate result ∨ now - completed < ttl

instance (ttl now : ℕ) : (result : Option (ℕ × Result V E)) → Decidable (IsLive ttl now result)
  | none => isTrue trivial
  | some (_, _) => inferInstanceAs (Decidable (_ ∨ _))

/-- What the critical section of `execute` comes to. -/
inductive Admission where
  | attached (entry : ℕ) (replayed : Bool)
  | overloaded
  deriving DecidableEq, Repr

def State.result (s : State K V E) (entry : ℕ) : Option (ℕ × Result V E) :=
  s.entries[entry]?.bind Entry.result

def State.init : State K V E where
  now := 0
  cache := ⟨∅, []⟩
  entries := []
  workers := []
  callers := []

variable [DecidableEq K] (cfg : CacheConfig)

/-- The critical section of `execute`. A new entry is made at the next place. -/
def State.criticalSection (s : State K V E) (key : K) : CacheState K × Admission :=
  match s.cache.lookup key with
  | some entry =>
    if IsLive cfg.ttl s.now (s.result entry) then (s.cache, .attached entry true)
    else
      -- completed entries go up to this expired key
      let cache := QueuedMap.dropThrough key s.cache.entries s.cache.queue
      (cache.insert key s.entries.length, .attached s.entries.length false)
  | none =>
    if cfg.capacity ≤ s.cache.size then
      match QueuedMap.dropOldest s.cache.entries s.cache.queue with
      | (cache, true) => (cache.insert key s.entries.length, .attached s.entries.length false)
      | (cache, false) => (cache, .overloaded)
    else (s.cache.insert key s.entries.length, .attached s.entries.length false)

/-- `execute` up to its loop. -/
def State.execute (s : State K V E) (key : K) : State K V E :=
  match s.criticalSection cfg key with
  | (cache, .overloaded) =>
    { s with
      cache
      callers := s.callers ++ [⟨none, false, .returned (.error .overloaded), false⟩] }
  | (cache, .attached entry true) =>
    { s with cache, callers := s.callers ++ [⟨some entry, true, .looping, false⟩] }
  | (cache, .attached entry false) =>
    { s with
      cache
      entries := s.entries ++ [⟨key, none⟩]
      workers := s.workers ++ [⟨s.callers.length, .running⟩]
      callers := s.callers ++ [⟨some entry, false, .looping, false⟩] }

/-- The worker sets the result, once, and queues the key if the result may go one day. -/
def State.publish (s : State K V E) (entry : ℕ) (record : Entry K V E) (result : Result V E) :
    State K V E :=
  { s with
    entries := s.entries.set entry
      { record with result := record.result.or (some (s.now, result)) }
    cache := if IsIndeterminate result then s.cache else s.cache.enqueue record.key }

/-- `notify_waiters` reaches those who are registered. -/
def Caller.notify (entry : ℕ) (caller : Caller V E) : Caller V E :=
  match caller.phase with
  | .enabled | .waiting =>
    if caller.entry = some entry then { caller with notified := true } else caller
  | _ => caller

/-- A caller looks at the result of its entry. -/
def Caller.inspect (caller : Caller V E) : Option (ℕ × Result V E) → Caller V E
  | some (_, result) =>
    { caller with phase := .returned (result.map fun value => ⟨value, caller.replayed⟩) }
  | none => { caller with phase := .waiting }

def State.setWorker (s : State K V E) (entry : ℕ) (worker : Worker V E) : State K V E :=
  { s with workers := s.workers.set entry worker }

def State.setCaller (s : State K V E) (caller : ℕ) (record : Caller V E) : State K V E :=
  { s with callers := s.callers.set caller record }

def step (s : State K V E) : Label K V E → Option (State K V E)
  | .tick duration => some { s with now := s.now + duration }
  | .execute key => some (s.execute cfg key)
  | .finish entry completion =>
    match s.workers[entry]? with
    | some ⟨owner, .running⟩ => some (s.setWorker entry ⟨owner, .finished completion.result⟩)
    | _ => none
  | .publish entry =>
    match s.workers[entry]?, s.entries[entry]? with
    | some ⟨owner, .finished result⟩, some record =>
      some ((s.publish entry record result).setWorker entry ⟨owner, .notifying⟩)
    | _, _ => none
  | .notify entry =>
    match s.workers[entry]? with
    | some ⟨owner, .notifying⟩ =>
      some { s.setWorker entry ⟨owner, .done⟩ with callers := s.callers.map (Caller.notify entry) }
    | _ => none
  | .enable caller =>
    match s.callers[caller]? with
    | some ⟨entry, replayed, .looping, _⟩ =>
      some (s.setCaller caller ⟨entry, replayed, .enabled, false⟩)
    | _ => none
  | .inspect caller =>
    match s.callers[caller]? with
    | some ⟨some entry, replayed, .enabled, notified⟩ =>
      some (s.setCaller caller
        (Caller.inspect ⟨some entry, replayed, .enabled, notified⟩ (s.result entry)))
    | _ => none
  | .wake caller =>
    match s.callers[caller]? with
    | some ⟨entry, replayed, .waiting, true⟩ =>
      some (s.setCaller caller ⟨entry, replayed, .looping, true⟩)
    | _ => none
  | .cancel caller =>
    match s.callers[caller]? with
    | none | some ⟨_, _, .returned _, _⟩ => none
    | some ⟨entry, replayed, _, notified⟩ =>
      some (s.setCaller caller ⟨entry, replayed, .cancelled, notified⟩)

/-- The operation has ended, and not in a panic. -/
def State.Determinate (s : State K V E) (entry : ℕ) : Prop :=
  ∃ completed result, s.result entry = some (completed, result) ∧ ¬ IsIndeterminate result

/-- The key is in the cache, and its result has outlived its time. -/
def State.Expired (s : State K V E) (key : K) : Prop :=
  ∃ entry completed result, s.cache.lookup key = some entry ∧
    s.result entry = some (completed, result) ∧ ¬ IsIndeterminate result ∧
    cfg.ttl ≤ s.now - completed

/-- When the operation of a key in the cache completed. -/
def State.completedAt (s : State K V E) (key : K) : ℕ :=
  match (s.cache.lookup key).bind s.result with
  | some (completed, _) => completed
  | none => 0

end Model

end MoonLightBridge.Server.Idempotency
