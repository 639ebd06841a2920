import MoonLightBridge.Client.EventListeners

/-!
# The event listeners of the supervised client

`ReconnectingMoonLightClient.subscribe` puts a listener into a map of its own and then, if
there is one, subscribes it on the active connection. Closing the handle takes it out of
both. When a connection is replaced, `install` subscribes every listener in the own map on
the new one: it publishes the connection, goes through the map, and for each event through
the list as it is at that moment.

The map is traversed while it changes. An event that is in the map when the traversal
starts is visited unless it is removed from the map; any other may or may not be.

`Careful` is the condition under which the listeners readers find, in the own map and in
the one of the active connection, are those that are subscribed:

* no list is dropped that has an element, or that somebody is about to add to,
* `install` subscribes no listener after a call that closes its handle has looked for it in
  the map of the connection, and
* listeners are subscribed only on connections whose servers send events.

The first is needed for the reason it is for a single connection. Without the second
`install` brings a listener back that was removed. Without the third `subscribe` throws and
leaves its listener in the own map.
-/

namespace MoonLightBridge.Client

open SharedLists Transition

/-- Where a call of `subscribe` is. -/
inductive SupervisedSubscribing where
  /-- at the map of the supervised client -/
  | own (place : Adding)
  /-- before `active.get()` -/
  | readActive
  /-- in `client.subscribe` -/
  | client (connection : ℕ) (place : Adding)
  | returned
  /-- `client.subscribe` has thrown -/
  | failed
  deriving DecidableEq, Repr

/-- Where a call of `close` on a handle is. -/
inductive SupervisedClosing where
  /-- at the map of the supervised client -/
  | own (place : Removing)
  /-- before `active.get()` -/
  | readActive
  /-- in `current.removeEventListener` -/
  | client (connection : ℕ) (place : Removing)
  | returned
  deriving DecidableEq, Repr

def SupervisedSubscribing.own? : SupervisedSubscribing → Option Adding
  | .own place => some place
  | .readActive | .client _ _ | .returned | .failed => none

def SupervisedClosing.own? : SupervisedClosing → Option Removing
  | .own place => some place
  | .readActive | .client _ _ | .returned => none

/-- Where the call is in `client.subscribe` of the connection `k`. -/
def SupervisedSubscribing.at? (k : ℕ) : SupervisedSubscribing → Option Adding
  | .client connection place => if connection = k then some place else none
  | .own _ | .readActive | .returned | .failed => none

@[simp] theorem SupervisedSubscribing.at?_client (k : ℕ) (place : Adding) :
    (SupervisedSubscribing.client k place).at? k = some place := if_pos rfl

/-- Where the call is in `removeEventListener` of the connection `k`. -/
def SupervisedClosing.at? (k : ℕ) : SupervisedClosing → Option Removing
  | .client connection place => if connection = k then some place else none
  | .own _ | .readActive | .returned => none

@[simp] theorem SupervisedClosing.at?_client (k : ℕ) (place : Removing) :
    (SupervisedClosing.client k place).at? k = some place := if_pos rfl

/-- The call has not looked for its listener in the map of a connection yet. -/
def SupervisedClosing.HasNotLooked : SupervisedClosing → Prop
  | .own _ | .readActive | .client _ .get => True
  | .client _ (.remove _) | .client _ (.check _) | .client _ (.drop _) | .returned => False

instance decidableHasNotLooked : (place : SupervisedClosing) → Decidable place.HasNotLooked
  | .own _ | .readActive | .client _ .get => isTrue trivial
  | .client _ (.remove _) | .client _ (.check _) | .client _ (.drop _) | .returned => isFalse id

structure SupervisedSubscription where
  eventId : ℕ
  place : SupervisedSubscribing := .own .compute
  /-- the list the handle holds -/
  cell : ℕ := 0
  deriving DecidableEq, Repr

structure SupervisedUnsubscription where
  listener : ℕ
  place : SupervisedClosing
  deriving DecidableEq, Repr

/-- A run of `install` that has published its connection. -/
structure Resubscription where
  connection : ℕ
  /-- whether the traversal of the own map has started -/
  started : Bool := false
  /-- the events it has to visit -/
  unvisited : List ℕ := []
  /-- the event it is at, and the listeners of it that are still to be subscribed -/
  eventId : ℕ := 0
  left : List ℕ := []
  /-- where it is in `client.subscribe` for the first of them -/
  place : Adding := .compute
  deriving DecidableEq, Repr

structure ListeningConnection where
  /-- the server negotiated `FEATURE_SERVER_EVENTS` -/
  supportsEvents : Bool
  eventListeners : SharedLists ℕ ℕ := .empty

structure SupervisedListeners where
  eventListeners : SharedLists ℕ ℕ := .empty
  connections : List ListeningConnection := []
  active : Option ℕ := none
  resubscription : Option Resubscription := none
  subscriptions : List SupervisedSubscription := []
  unsubscriptions : List SupervisedUnsubscription := []

inductive SupervisedLabel where
  /-- `install` publishes a new connection -/
  | publish (supportsEvents : Bool)
  /-- the active connection is lost or closed -/
  | detach
  /-- `install` starts to traverse the map -/
  | traverse
  /-- the traversal visits an event -/
  | visit (eventId : ℕ)
  /-- `install` takes the next step of `client.subscribe` -/
  | resubscribe
  /-- the traversal is over -/
  | finish
  | subscribe (eventId : ℕ)
  | subscribing (listener : ℕ)
  | close (listener : ℕ)
  | closing (index : ℕ)
  deriving DecidableEq, Repr

/-- The traversal starts: it has to visit the events that are in the map now. -/
def Resubscription.traverse (r : Resubscription) (m : SharedLists ℕ ℕ) : Resubscription :=
  { connection := r.connection, started := true, unvisited := m.table.keys }

/-- The traversal visits an event: it takes the list as it is now. -/
def Resubscription.visit (r : Resubscription) (m : SharedLists ℕ ℕ) (eventId : ℕ) :
    Resubscription :=
  { r with
    unvisited := r.unvisited.filter (· ≠ eventId)
    eventId
    left := m.get eventId
    place := .compute }

/-- A traversal does not visit an event that was removed from the map. -/
def Resubscription.forget (r : Resubscription) (m : SharedLists ℕ ℕ) : Resubscription :=
  { r with unvisited := r.unvisited.filter fun eventId => (m.lookup eventId).isSome }

namespace SupervisedListeners

def setConnection (s : SupervisedListeners) (k : ℕ) (conn : ListeningConnection)
    (m : SharedLists ℕ ℕ) : SupervisedListeners :=
  { s with connections := s.connections.set k { conn with eventListeners := m } }

def setSubscription (s : SupervisedListeners) (i : ℕ) (sub : SupervisedSubscription) :
    SupervisedListeners :=
  { s with subscriptions := s.subscriptions.set i sub }

def setUnsubscription (s : SupervisedListeners) (j : ℕ) (unsub : SupervisedUnsubscription) :
    SupervisedListeners :=
  { s with unsubscriptions := s.unsubscriptions.set j unsub }

/-- A step of `subscribe` at the own map. -/
def ownSubscribing (s : SupervisedListeners) (i : ℕ) (sub : SupervisedSubscription)
    (place : Adding) : SupervisedListeners :=
  let edited := place.step s.eventListeners sub.eventId i
  { s with eventListeners := edited.1 }.setSubscription i
    { sub with
      place := edited.2.elim .readActive .own
      cell := match place with
        | .compute => sub.cell
        | .add c => c }

/-- A step of `client.subscribe`. -/
def clientSubscribing (s : SupervisedListeners) (i : ℕ) (sub : SupervisedSubscription) (k : ℕ)
    (conn : ListeningConnection) (place : Adding) : SupervisedListeners :=
  if place = .compute ∧ conn.supportsEvents = false then
    s.setSubscription i { sub with place := .failed }
  else
    let edited := place.step conn.eventListeners sub.eventId i
    (s.setConnection k conn edited.1).setSubscription i
      { sub with place := edited.2.elim .returned (.client k) }

def subscribingStep (s : SupervisedListeners) (i : ℕ) (sub : SupervisedSubscription) :
    SupervisedSubscribing → Option SupervisedListeners
  | .own place => some (s.ownSubscribing i sub place)
  | .readActive =>
    some (s.setSubscription i { sub with place := s.active.elim .returned (.client · .compute) })
  | .client k place =>
    s.connections[k]?.map fun conn => s.clientSubscribing i sub k conn place
  | .returned | .failed => none

/-- A step of `close` at the own map. -/
def ownClosing (s : SupervisedListeners) (j : ℕ) (unsub : SupervisedUnsubscription)
    (eventId : ℕ) (place : Removing) : SupervisedListeners :=
  let edited := place.step s.eventListeners eventId unsub.listener
  let s' := { s with
    eventListeners := edited.1
    resubscription := s.resubscription.map fun r : Resubscription => r.forget edited.1 }
  s'.setUnsubscription j { unsub with place := edited.2.elim .readActive .own }

/-- A step of `current.removeEventListener`. -/
def clientClosing (s : SupervisedListeners) (j : ℕ) (unsub : SupervisedUnsubscription)
    (eventId k : ℕ) (conn : ListeningConnection) (place : Removing) : SupervisedListeners :=
  let edited := place.step conn.eventListeners eventId unsub.listener
  (s.setConnection k conn edited.1).setUnsubscription j
    { unsub with place := edited.2.elim .returned (.client k) }

def closingStep (s : SupervisedListeners) (j : ℕ) (unsub : SupervisedUnsubscription)
    (eventId : ℕ) : SupervisedClosing → Option SupervisedListeners
  | .own place => some (s.ownClosing j unsub eventId place)
  | .readActive =>
    some (s.setUnsubscription j { unsub with place := s.active.elim .returned (.client · .get) })
  | .client k place =>
    s.connections[k]?.map fun conn => s.clientClosing j unsub eventId k conn place
  | .returned => none

/-- A step of `client.subscribe` for the next listener of `install`. -/
def resubscribeStep (s : SupervisedListeners) (r : Resubscription) (conn : ListeningConnection)
    (i : ℕ) (rest : List ℕ) : SupervisedListeners :=
  if r.place = .compute ∧ conn.supportsEvents = false then { s with resubscription := none }
  else
    let edited := r.place.step conn.eventListeners r.eventId i
    { s.setConnection r.connection conn edited.1 with
      resubscription := some (edited.2.elim { r with left := rest, place := .compute }
        fun place => { r with place }) }

def installStep (s : SupervisedListeners) (r : Resubscription) :
    SupervisedLabel → Option SupervisedListeners
  | .traverse =>
    if r.started then none
    else some { s with resubscription := some (r.traverse s.eventListeners) }
  | .visit eventId =>
    if r.started ∧ r.left = [] ∧ (s.eventListeners.lookup eventId).isSome then
      some { s with resubscription := some (r.visit s.eventListeners eventId) }
    else none
  | .resubscribe =>
    match r.left with
    | [] => none
    | i :: rest => s.connections[r.connection]?.map fun conn => s.resubscribeStep r conn i rest
  | .finish =>
    if r.started ∧ r.left = [] ∧ r.unvisited = [] then some { s with resubscription := none }
    else none
  | .publish _ | .detach | .subscribe _ | .subscribing _ | .close _ | .closing _ => none

def step (s : SupervisedListeners) (label : SupervisedLabel) : Option SupervisedListeners :=
  match label with
  | .publish supportsEvents =>
    if s.active = none ∧ s.resubscription = none then
      some { s with
        connections := s.connections ++ [{ supportsEvents }]
        active := some s.connections.length
        resubscription := some { connection := s.connections.length } }
    else none
  | .detach => some { s with active := none }
  | .traverse | .visit _ | .resubscribe | .finish =>
    s.resubscription.bind fun r => s.installStep r label
  | .subscribe eventId =>
    if eventId = 0 then none
    else some { s with subscriptions := s.subscriptions ++ [{ eventId }] }
  | .subscribing i => s.subscriptions[i]?.bind fun sub => s.subscribingStep i sub sub.place
  | .close i =>
    s.subscriptions[i]?.bind fun sub =>
      if sub.place = .returned then
        some { s with
          unsubscriptions := s.unsubscriptions ++ [⟨i, .own (.remove sub.cell)⟩] }
      else none
  | .closing j =>
    s.unsubscriptions[j]?.bind fun unsub =>
      s.subscriptions[unsub.listener]?.bind fun sub =>
        s.closingStep j unsub sub.eventId unsub.place

/-! ### The condition -/

/-- The supervised client's own map, and the calls as far as they deal with it. -/
def own (s : SupervisedListeners) : ClientListeners where
  eventListeners := s.eventListeners
  subscriptions := s.subscriptions.map fun sub => ⟨sub.eventId, sub.place.own?⟩
  unsubscriptions := s.unsubscriptions.map fun unsub => ⟨unsub.listener, unsub.place.own?⟩

/-- Somebody is about to add to the list of the event in the map of the connection `k`. -/
def IsAddingOn (s : SupervisedListeners) (k eventId : ℕ) : Prop :=
  (∃ sub ∈ s.subscriptions, sub.eventId = eventId ∧ ∃ place ∈ sub.place.at? k, place ≠ .compute) ∨
    ∃ r ∈ s.resubscription, r.connection = k ∧ r.eventId = eventId ∧ r.place ≠ .compute

instance decidableIsAddingOn (s : SupervisedListeners) (k eventId : ℕ) :
    Decidable (s.IsAddingOn k eventId) :=
  inferInstanceAs (Decidable ((∃ sub ∈ s.subscriptions, _) ∨ _))

/-- The connection on which a call of `subscribe` starts `client.subscribe`. -/
def startsOn (s : SupervisedListeners) (i : ℕ) : Option ListeningConnection :=
  s.subscriptions[i]?.bind fun sub =>
    match sub.place with
    | .client k .compute => s.connections[k]?
    | _ => none

/-- No list of the own map or of the active connection is dropped that has an element or that
somebody is about to add to; `install` adds no listener for which a call of `close` has
already looked; and no listener is subscribed on a connection that has no events. -/
def Careful (s : SupervisedListeners) : SupervisedLabel → Prop
  | .closing j => ∀ unsub ∈ s.unsubscriptions[j]?, ∀ sub ∈ s.subscriptions[unsub.listener]?,
      (∀ c ∈ unsub.place.own?.bind Removing.dropping,
        s.eventListeners.SafeToDrop sub.eventId c (s.own.IsAdding sub.eventId)) ∧
      ∀ k ∈ s.active, ∀ conn ∈ s.connections[k]?,
        ∀ c ∈ (unsub.place.at? k).bind Removing.dropping,
          conn.eventListeners.SafeToDrop sub.eventId c (s.IsAddingOn k sub.eventId)
  | .subscribing i => ∀ conn ∈ s.startsOn i, conn.supportsEvents = true
  | .resubscribe => ∀ r ∈ s.resubscription, ∀ conn ∈ s.connections[r.connection]?,
      conn.supportsEvents = true ∧ (r.place ≠ .compute → ∀ i ∈ r.left.head?,
        ∀ unsub ∈ s.unsubscriptions, unsub.listener = i → unsub.place.HasNotLooked)
  | .publish _ | .detach | .traverse | .visit _ | .finish | .subscribe _ | .close _ => True

instance decidableCareful (s : SupervisedListeners) :
    (label : SupervisedLabel) → Decidable (s.Careful label)
  | .closing j =>
    inferInstanceAs (Decidable (∀ unsub ∈ s.unsubscriptions[j]?,
      ∀ sub ∈ s.subscriptions[unsub.listener]?, _))
  | .subscribing i => inferInstanceAs (Decidable (∀ conn ∈ s.startsOn i, _))
  | .resubscribe => inferInstanceAs (Decidable (∀ r ∈ s.resubscription, _))
  | .publish _ | .detach | .traverse | .visit _ | .finish | .subscribe _ | .close _ =>
    isTrue trivial

/-- No call is being made, and no connection is being installed. -/
def IsQuiet (s : SupervisedListeners) : Prop :=
  (∀ sub ∈ s.subscriptions, sub.place = .returned ∨ sub.place = .failed) ∧
    (∀ unsub ∈ s.unsubscriptions, unsub.place = .returned) ∧ s.resubscription = none

instance decidableIsQuiet (s : SupervisedListeners) : Decidable s.IsQuiet :=
  inferInstanceAs (Decidable (_ ∧ _))

/-- A call of `subscribe` has returned the handle of the listener, and it was not closed. -/
def IsSubscribed (s : SupervisedListeners) (eventId i : ℕ) : Prop :=
  ∃ sub ∈ s.subscriptions[i]?, sub.eventId = eventId ∧ sub.place = .returned ∧
    ∀ unsub ∈ s.unsubscriptions, unsub.listener ≠ i

instance decidableIsSubscribed (s : SupervisedListeners) (eventId i : ℕ) :
    Decidable (s.IsSubscribed eventId i) :=
  inferInstanceAs (Decidable (∃ sub ∈ s.subscriptions[i]?, _))

end SupervisedListeners

end MoonLightBridge.Client
