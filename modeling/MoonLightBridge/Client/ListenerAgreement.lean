import MoonLightBridge.Client.SupervisedListeners

/-!
# Readers find the listeners that are subscribed

The own map of the supervised client is edited like the map of a single connection, so the
rules for the latter apply to it. For the map of the active connection the proof keeps two
statements apart. A listener that is found there was added to the own map, and no call that
closes its handle has overlooked it. A listener that is in the own map, and whose call of
`subscribe` will not add it to the active connection, is found there or is still to be
added by `install`.
-/

namespace MoonLightBridge.Client

open SharedLists Transition

/-- The call has not removed its listener from the map of the connection `k`, and will do so
while `k` is active. -/
def SupervisedClosing.MayFind (k : ℕ) : SupervisedClosing → Prop
  | .own _ | .readActive => True
  | .client connection place => connection = k ∧ place.WillRemove
  | .returned => False

/-- The call does not look in the map of another connection than `k`. -/
def SupervisedClosing.NotElsewhere (k : ℕ) : SupervisedClosing → Prop
  | .own _ | .readActive | .returned => True
  | .client connection _ => connection = k

/-- The call will not subscribe its listener on the connection `k`. -/
def SupervisedSubscribing.IsSettled (k : ℕ) : SupervisedSubscribing → Prop
  | .returned => True
  | .client connection _ => connection ≠ k
  | .own _ | .readActive | .failed => False

namespace SupervisedListeners

variable {s t : SupervisedListeners} {k k' : ℕ} {m : SharedLists ℕ ℕ}

/-- The listener was added to the own map, and the calls that close its handle are where `q`
says. -/
def IsAdded (s : SupervisedListeners) (q : SupervisedClosing → Prop) (eventId i : ℕ) : Prop :=
  ∃ sub, s.subscriptions[i]? = some sub ∧ sub.eventId = eventId ∧ sub.place.own? = none ∧
    ∀ unsub ∈ s.unsubscriptions, unsub.listener = i → q unsub.place

/-- The handle of the listener holds the list `c` of its event. -/
def Captured (s : SupervisedListeners) (eventId i c : ℕ) : Prop :=
  ∃ sub, s.subscriptions[i]? = some sub ∧ sub.eventId = eventId ∧ sub.place.own? = none ∧
    sub.cell = c

/-- Somebody is about to add to the list `c` of the event in the map of the connection. -/
def PendingOn (s : SupervisedListeners) (k eventId c : ℕ) : Prop :=
  (∃ sub ∈ s.subscriptions, sub.eventId = eventId ∧ sub.place.at? k = some (.add c)) ∨
    ∃ r, s.resubscription = some r ∧ r.connection = k ∧ r.eventId = eventId ∧ r.place = .add c

/-- A call is about to remove the listener from the list `c` of the connection. -/
def RefsOn (s : SupervisedListeners) (k i c : ℕ) : Prop :=
  ∃ unsub ∈ s.unsubscriptions, unsub.listener = i ∧ unsub.place.at? k = some (.remove c)

def IsSettled (s : SupervisedListeners) (k i : ℕ) : Prop :=
  ∃ sub, s.subscriptions[i]? = some sub ∧ sub.place.IsSettled k

/-- `install` has yet to subscribe the listener. -/
def IsCovered (s : SupervisedListeners) (eventId i : ℕ) : Prop :=
  ∃ r, s.resubscription = some r ∧
    (r.started = false ∨ eventId ∈ r.unvisited ∨ r.eventId = eventId ∧ i ∈ r.left)

/-- The map of the active connection. -/
structure Serves (s : SupervisedListeners) (k : ℕ) (m : SharedLists ℕ ℕ) : Prop where
  tracks : Tracks m (fun eventId i => i ∈ m.get eventId) (s.PendingOn k) fun _ => s.RefsOn k
  sound : ∀ eventId i, i ∈ m.get eventId → s.IsAdded (SupervisedClosing.MayFind k) eventId i
  complete : ∀ eventId i, s.own.IsHere eventId i → s.IsSettled k i →
    i ∈ m.get eventId ∨ s.IsCovered eventId i
  left : ∀ r, s.resubscription = some r → ∀ i ∈ r.left,
    s.IsAdded (SupervisedClosing.NotElsewhere k) r.eventId i

structure Consistent (s : SupervisedListeners) : Prop where
  own : s.own.Consistent s.Captured
  returned : ∀ unsub ∈ s.unsubscriptions, ∃ sub,
    s.subscriptions[unsub.listener]? = some sub ∧ sub.place = .returned
  accepted : ∀ sub ∈ s.subscriptions, sub.place ≠ .failed
  bounded : ∀ sub ∈ s.subscriptions, ∀ k place, sub.place = .client k place →
    k < s.connections.length
  active : ∀ k, s.active = some k → ∃ conn, s.connections[k]? = some conn ∧
    s.Serves k conn.eventListeners
  current : ∀ r, s.resubscription = some r → s.active = none ∨ s.active = some r.connection

/-! ### The own map -/

@[simp] theorem getElem?_own_subscriptions (i : ℕ) :
    s.own.subscriptions[i]? =
      s.subscriptions[i]?.map fun sub => ⟨sub.eventId, sub.place.own?⟩ := List.getElem?_map ..

@[simp] theorem getElem?_own_unsubscriptions (j : ℕ) :
    s.own.unsubscriptions[j]? =
      s.unsubscriptions[j]?.map fun unsub => ⟨unsub.listener, unsub.place.own?⟩ :=
  List.getElem?_map ..

/-- A call of `subscribe` moves on elsewhere. -/
theorem own_setSubscription {i : ℕ} {sub sub' : SupervisedSubscription}
    (hsub : s.subscriptions[i]? = some sub) (hevent : sub'.eventId = sub.eventId)
    (hown : sub'.place.own? = sub.place.own?) : (s.setSubscription i sub').own = s.own := by
  have hmap : (s.subscriptions.set i sub').map (fun sub => Subscription.mk sub.eventId
      sub.place.own?) = s.own.subscriptions :=
    List.map_set_of_eq hsub (by rw [hevent, hown])
  exact congrArg (fun subscriptions => { s.own with subscriptions }) hmap

theorem isHere_of_setSubscription {e i i' : ℕ} {sub sub' : SupervisedSubscription}
    (h : (s.setSubscription i' sub').own.IsHere e i) (hsub : s.subscriptions[i']? = some sub)
    (hevent : sub'.eventId = sub.eventId) (hown : sub'.place.own? = sub.place.own?) :
    s.own.IsHere e i := by
  rw [own_setSubscription hsub hevent hown] at h
  exact h

/-- A call of `close` moves on elsewhere. -/
theorem own_setUnsubscription {j : ℕ} {unsub unsub' : SupervisedUnsubscription}
    (hunsub : s.unsubscriptions[j]? = some unsub) (hlistener : unsub'.listener = unsub.listener)
    (hown : unsub'.place.own? = unsub.place.own?) :
    (s.setUnsubscription j unsub').own = s.own := by
  have hmap : (s.unsubscriptions.set j unsub').map (fun unsub => Unsubscription.mk unsub.listener
      unsub.place.own?) = s.own.unsubscriptions :=
    List.map_set_of_eq hunsub (by rw [hlistener, hown])
  exact congrArg (fun unsubscriptions => { s.own with unsubscriptions }) hmap

theorem isHere_of_setUnsubscription {e i j : ℕ} {unsub unsub' : SupervisedUnsubscription}
    (h : (s.setUnsubscription j unsub').own.IsHere e i)
    (hunsub : s.unsubscriptions[j]? = some unsub) (hlistener : unsub'.listener = unsub.listener)
    (hown : unsub'.place.own? = unsub.place.own?) : s.own.IsHere e i := by
  rw [own_setUnsubscription hunsub hlistener hown] at h
  exact h

theorem own_ownSubscribing (i : ℕ) (sub : SupervisedSubscription) (place : Adding) :
    (s.ownSubscribing i sub place).own =
      s.own.subscribingStep i ⟨sub.eventId, some place⟩ place := by
  have hplace (next : Option Adding) :
      (next.elim SupervisedSubscribing.readActive .own).own? = next := by
    cases next <;> rfl
  simp only [ownSubscribing, own, ClientListeners.subscribingStep, setSubscription, List.map_set,
    hplace]

theorem own_ownClosing (j : ℕ) (unsub : SupervisedUnsubscription) (eventId : ℕ)
    (place : Removing) :
    (s.ownClosing j unsub eventId place).own =
      s.own.closingStep j ⟨unsub.listener, some place⟩ eventId place := by
  have hplace (next : Option Removing) :
      (next.elim SupervisedClosing.readActive .own).own? = next := by
    cases next <;> rfl
  simp only [ownClosing, own, ClientListeners.closingStep, setUnsubscription, List.map_set,
    hplace]

/-! ### Single listeners -/

variable {c : ℕ}

section Listener

variable {q : SupervisedClosing → Prop} {e i i' j : ℕ} {sub sub' : SupervisedSubscription}
  {unsub unsub' : SupervisedUnsubscription}

/-- A listener in the own map is known to all calls that close its handle. -/
theorem isAdded_of_isHere (h : s.own.IsHere e i) (hq : ∀ place : Removing, q (.own place)) :
    s.IsAdded q e i := by
  obtain ⟨_, hmap, hevent, hnone, hkept⟩ := h
  rw [getElem?_own_subscriptions] at hmap
  obtain ⟨sub, hsub, rfl⟩ := Option.map_eq_some_iff.mp hmap
  refine ⟨sub, hsub, hevent, hnone, fun unsub hunsub heq => ?_⟩
  obtain ⟨place, hplace, -⟩ := hkept _ (List.mem_map_of_mem hunsub) heq
  cases hown : unsub.place with
  | own place => exact hq place
  | readActive | client | returned =>
    dsimp only at hplace
    rw [hown] at hplace
    cases hplace

theorem eq_eventId_of_isHere (h : s.own.IsHere e i) (hsub : s.subscriptions[i]? = some sub) :
    e = sub.eventId := by
  have hmap : s.own.subscriptions[i]? = some ⟨sub.eventId, sub.place.own?⟩ := by
    rw [getElem?_own_subscriptions, hsub, Option.map_some]
  exact h.eq_eventId hmap

/-- A listener is not in the own map once a call of `close` is past it. -/
theorem listener_ne_of_isHere (h : s.own.IsHere e i) (hunsub : unsub ∈ s.unsubscriptions)
    (hown : unsub.place.own? = none) : unsub.listener ≠ i := by
  intro heq
  obtain ⟨_, -, -, -, hkept⟩ := h
  obtain ⟨place, hplace, -⟩ := hkept _ (List.mem_map_of_mem hunsub) heq
  exact Option.some_ne_none place (hplace.symm.trans hown)

theorem IsAdded.eq_eventId (h : s.IsAdded q e i) (hsub : s.subscriptions[i]? = some sub) :
    e = sub.eventId := by
  obtain ⟨sub', hsub', rfl, -⟩ := h
  obtain rfl := Option.mem_unique hsub hsub'
  rfl

theorem IsAdded.setSubscription (h : s.IsAdded q e i) (hsub : s.subscriptions[i']? = some sub)
    (hevent : sub'.eventId = sub.eventId)
    (hown : sub.place.own? = none → sub'.place.own? = none) :
    (s.setSubscription i' sub').IsAdded q e i := by
  obtain ⟨other, hother, rfl, hnone, hq⟩ := h
  by_cases heq : i' = i
  · subst heq
    obtain rfl := Option.mem_unique hsub hother
    exact ⟨sub', List.getElem?_set_of_eq_some hsub _, hevent, hown hnone, hq⟩
  · exact ⟨other, (List.getElem?_set_ne heq).trans hother, rfl, hnone, hq⟩

theorem IsAdded.setUnsubscription (h : s.IsAdded q e i)
    (hunsub : s.unsubscriptions[j]? = some unsub) (hlistener : unsub'.listener = unsub.listener)
    (hq : unsub.listener = i → q unsub.place → q unsub'.place) :
    (s.setUnsubscription j unsub').IsAdded q e i := by
  obtain ⟨other, hother, hevent, hnone, hall⟩ := h
  refine ⟨other, hother, hevent, hnone, List.forall_mem_set hall fun heq => ?_⟩
  rw [hlistener] at heq
  exact hq heq (hall unsub (List.mem_of_getElem? hunsub) heq)

theorem IsSettled.of_setSubscription (h : (s.setSubscription i' sub').IsSettled k i)
    (hsub : s.subscriptions[i']? = some sub)
    (hsettled : sub'.place.IsSettled k → sub.place.IsSettled k) : s.IsSettled k i := by
  obtain ⟨other, hother, hplace⟩ := h
  rcases List.getElem?_set_eq_some hsub hother with ⟨rfl, rfl⟩ | hold
  · exact ⟨sub, hsub, hsettled hplace⟩
  · exact ⟨other, hold, hplace⟩

theorem PendingOn.of_setSubscription (h : (s.setSubscription i' sub').PendingOn k e c)
    (hsub : sub'.place.at? k ≠ some (.add c)) : s.PendingOn k e c := by
  refine h.imp_left ?_
  rintro ⟨other, hother, hevent, hplace⟩
  rcases List.mem_or_eq_of_mem_set hother with hold | rfl
  · exact ⟨other, hold, hevent, hplace⟩
  · exact absurd hplace hsub

theorem RefsOn.of_setUnsubscription (h : (s.setUnsubscription j unsub').RefsOn k i c)
    (hunsub : unsub'.place.at? k ≠ some (.remove c)) : s.RefsOn k i c := by
  obtain ⟨other, hother, hlistener, hplace⟩ := h
  rcases List.mem_or_eq_of_mem_set hother with hold | rfl
  · exact ⟨other, hold, hlistener, hplace⟩
  · exact absurd hplace hunsub

end Listener

/-! ### The map of the active connection -/

variable {place : Removing}

section Serves

variable {i j : ℕ} {sub sub' : SupervisedSubscription} {unsub unsub' : SupervisedUnsubscription}

/-- The maps of other connections do not matter. -/
theorem Serves.setConnections (h : s.Serves k m) (connections : List ListeningConnection) :
    { s with connections }.Serves k m :=
  ⟨h.tracks, h.sound, h.complete, h.left⟩

theorem Serves.subscribe (h : s.Serves k m) (eventId : ℕ) :
    { s with subscriptions := s.subscriptions ++ [{ eventId }] : SupervisedListeners }.Serves
      k m := by
  have hadded {q : SupervisedClosing → Prop} {e i : ℕ} (hi : s.IsAdded q e i) :
      { s with subscriptions := s.subscriptions ++ [{ eventId }] :
        SupervisedListeners }.IsAdded q e i := by
    obtain ⟨sub, hsub, hrest⟩ := hi
    exact ⟨sub, List.getElem?_concat_eq_some.mpr (.inl hsub), hrest⟩
  refine ⟨h.tracks.mono (fun _ _ => Iff.rfl) (fun e c hpending => ?_) fun _ _ _ hc _ => .inl hc,
    fun e i hi => hadded (h.sound e i hi), fun e i hhere hsettled => ?_,
    fun r hr i hi => hadded (h.left r hr i hi)⟩
  · refine hpending.imp_left ?_
    rintro ⟨sub, hsub, hevent, hplace⟩
    rcases List.mem_append.mp hsub with hold | hnew
    · exact ⟨sub, hold, hevent, hplace⟩
    · rw [List.mem_singleton.mp hnew] at hplace
      cases hplace
  · obtain ⟨sub, hsub, hplace⟩ := hsettled
    rcases List.getElem?_concat_eq_some.mp hsub with hold | ⟨-, rfl⟩
    · refine h.complete e i ?_ ⟨sub, hold, hplace⟩
      obtain ⟨own, hown, hrest⟩ := hhere
      refine ⟨own, ?_, hrest⟩
      rw [getElem?_own_subscriptions] at hown ⊢
      rw [← hown, hsub, hold]
    · exact hplace.elim

/-- A call of `subscribe` moves on without editing the map. -/
theorem Serves.setSubscription (h : s.Serves k m) (hsub : s.subscriptions[i]? = some sub)
    (hevent : sub'.eventId = sub.eventId) (hown : sub'.place.own? = sub.place.own?)
    (hpending : ∀ c, sub'.place.at? k ≠ some (.add c))
    (hsettled : sub'.place.IsSettled k → sub.place.IsSettled k) :
    (s.setSubscription i sub').Serves k m := by
  refine ⟨h.tracks.mono (fun _ _ => Iff.rfl) (fun e c hc => hc.of_setSubscription (hpending c))
    fun _ _ _ hc _ => .inl hc, fun e j hj => ?_, fun e j hhere hj => ?_, fun r hr j hj => ?_⟩
  · exact (h.sound e j hj).setSubscription hsub hevent hown.trans
  · exact h.complete e j (isHere_of_setSubscription hhere hsub hevent hown)
      (hj.of_setSubscription hsub hsettled)
  · exact (h.left r hr j hj).setSubscription hsub hevent hown.trans

theorem Serves.ownSubscribing (h : s.Serves k m) {place : Adding}
    (hsub : s.subscriptions[i]? = some sub) (hplace : sub.place = .own place) :
    (s.ownSubscribing i sub place).Serves k m := by
  have hown : sub.place.own? = some place := by rw [hplace]; rfl
  have hsub' : s.own.subscriptions[i]? = some ⟨sub.eventId, some place⟩ := by
    rw [getElem?_own_subscriptions, hsub, Option.map_some, hown]
  have hnot {sub' : SupervisedSubscription} (heq : sub.place.own? = none) :
      sub'.place.own? = none := by
    rw [hown] at heq
    cases heq
  refine ⟨h.tracks.mono (fun _ _ => Iff.rfl) (fun e c hc => ?_) fun _ _ _ hc _ => .inl hc,
    fun e j hj => ?_, fun e j hhere hj => ?_, fun r hr j hj => ?_⟩
  · refine PendingOn.of_setSubscription hc ?_
    dsimp only
    cases (place.step s.eventListeners sub.eventId i).2 <;> rintro ⟨⟩
  · exact IsAdded.setSubscription (h.sound e j hj) hsub rfl hnot
  · rw [own_ownSubscribing] at hhere
    rcases (ClientListeners.isHere_set_subscription hsub' rfl _ _ e j).mp hhere with hold | hnew
    · refine h.complete e j hold (hj.of_setSubscription hsub ?_)
      dsimp only
      cases (place.step s.eventListeners sub.eventId i).2 <;> exact False.elim
    · -- a call that has just added its listener is not settled
      obtain ⟨-, rfl, -, -⟩ := hnew
      obtain ⟨other, hother, hsettled⟩ := hj
      obtain rfl := Option.mem_unique (List.getElem?_set_of_eq_some hsub _) hother
      dsimp only at hsettled
      cases hnext : (place.step s.eventListeners sub.eventId j).2 <;> rw [hnext] at hsettled <;>
        exact hsettled.elim
  · exact IsAdded.setSubscription (h.left r hr j hj) hsub rfl hnot

theorem Serves.close (h : s.Serves k m) (c : ℕ) :
    { s with unsubscriptions := s.unsubscriptions ++ [⟨i, .own (.remove c)⟩] :
      SupervisedListeners }.Serves k m := by
  have hadded {q : SupervisedClosing → Prop} (hq : q (.own (.remove c))) {e j : ℕ}
      (hj : s.IsAdded q e j) :
      { s with unsubscriptions := s.unsubscriptions ++ [⟨i, .own (.remove c)⟩] :
        SupervisedListeners }.IsAdded q e j := by
    obtain ⟨sub, hsub, hevent, hnone, hall⟩ := hj
    exact ⟨sub, hsub, hevent, hnone, List.forall_mem_concat hall fun _ => hq⟩
  refine ⟨h.tracks.mono (fun _ _ => Iff.rfl) (fun _ _ => id) fun e j c' hc _ => .inl ?_,
    fun e j hj => hadded trivial (h.sound e j hj), fun e j hhere hj => ?_,
    fun r hr j hj => hadded trivial (h.left r hr j hj)⟩
  · obtain ⟨unsub, hunsub, hlistener, hplace⟩ := hc
    rcases List.mem_append.mp hunsub with hold | hnew
    · exact ⟨unsub, hold, hlistener, hplace⟩
    · rw [List.mem_singleton.mp hnew] at hplace
      cases hplace
  · refine h.complete e j ?_ hj
    obtain ⟨sub, hsub, hevent, hnone, hkept⟩ := hhere
    refine ⟨sub, hsub, hevent, hnone, fun unsub hunsub => hkept unsub ?_⟩
    change unsub ∈ List.map _ (s.unsubscriptions ++ _)
    rw [List.map_append]
    exact List.mem_append_left _ hunsub

/-- A call of `close` moves on without editing the map. -/
theorem Serves.setUnsubscription (h : s.Serves k m)
    (hunsub : s.unsubscriptions[j]? = some unsub) (hlistener : unsub'.listener = unsub.listener)
    (hown : unsub'.place.own? = unsub.place.own?)
    (hrefs : ∀ c, unsub'.place.at? k ≠ some (.remove c))
    (hfind : unsub.place.MayFind k → unsub'.place.MayFind k)
    (helse : unsub.place.NotElsewhere k → unsub'.place.NotElsewhere k) :
    (s.setUnsubscription j unsub').Serves k m := by
  refine ⟨h.tracks.mono (fun _ _ => Iff.rfl) (fun _ _ => id)
    fun e i c hc _ => .inl (hc.of_setUnsubscription (hrefs c)), fun e i hi => ?_,
    fun e i hhere hi => ?_, fun r hr i hi => ?_⟩
  · exact (h.sound e i hi).setUnsubscription hunsub hlistener fun _ => hfind
  · exact h.complete e i (isHere_of_setUnsubscription hhere hunsub hlistener hown) hi
  · exact (h.left r hr i hi).setUnsubscription hunsub hlistener fun _ => helse

variable {captured : ℕ → ℕ → ℕ → Prop}

theorem Serves.ownClosing (h : s.Serves k m) {eventId : ℕ} {captured' : ℕ → ℕ → ℕ → Prop}
    (hunsub : s.unsubscriptions[j]? = some unsub) (hown : s.own.Consistent captured)
    (hnext : (s.ownClosing j unsub eventId place).own.Consistent captured') :
    (s.ownClosing j unsub eventId place).Serves k m := by
  have hresub {r : Resubscription}
      (hr : (s.ownClosing j unsub eventId place).resubscription = some r) :
      ∃ r', s.resubscription = some r' ∧
        r'.forget (s.ownClosing j unsub eventId place).eventListeners = r :=
    Option.map_eq_some_iff.mp hr
  refine ⟨h.tracks.mono (fun _ _ => Iff.rfl) (fun e c hc => ?_) fun e i c hc _ => .inl ?_,
    fun e i hi => ?_, fun e i hhere hi => ?_, fun r hr i hi => ?_⟩
  · refine hc.imp_right ?_
    rintro ⟨r, hr, hrest⟩
    obtain ⟨r', hr', rfl⟩ := hresub hr
    exact ⟨r', hr', hrest⟩
  · refine RefsOn.of_setUnsubscription hc ?_
    dsimp only
    cases (place.step s.eventListeners eventId unsub.listener).2 <;> rintro ⟨⟩
  · refine IsAdded.setUnsubscription (h.sound e i hi) hunsub rfl fun _ _ => ?_
    dsimp only
    cases (place.step s.eventListeners eventId unsub.listener).2 <;> trivial
  · -- a listener that is still in the own map is in a list that was not dropped
    have hmem := (hnext.tracks.mem e i).mpr hhere
    have hold : s.own.IsHere e i :=
      (hown.tracks.mem e i).mp (mem_get_of_mem_removing_step (m := s.eventListeners) hmem)
    refine (h.complete e i hold hi).imp_right ?_
    rintro ⟨r, hr, hcovered⟩
    refine ⟨_, Option.map_eq_some_iff.mpr ⟨r, hr, rfl⟩, hcovered.imp_right (Or.imp_left ?_)⟩
    intro hunvisited
    obtain ⟨c, hlookup, -⟩ := mem_get.mp hmem
    exact List.mem_filter.mpr ⟨hunvisited, Option.isSome_iff_exists.mpr ⟨c, hlookup⟩⟩
  · obtain ⟨r', hr', rfl⟩ := hresub hr
    refine IsAdded.setUnsubscription (h.left r' hr' i hi) hunsub rfl fun _ _ => ?_
    dsimp only
    cases (place.step s.eventListeners eventId unsub.listener).2 <;> trivial

/-- A call of `subscribe` looks up its list in the map, or creates it. -/
theorem Serves.clientSubscribing_compute {conn : ListeningConnection}
    (h : s.Serves k conn.eventListeners) (hsub : s.subscriptions[i]? = some sub)
    (hplace : sub.place = .client k .compute) (hevents : conn.supportsEvents = true) :
    (s.clientSubscribing i sub k conn .compute).Serves k
      (conn.eventListeners.computeIfAbsent sub.eventId).1 := by
  have hown : sub.place.own? = none := by rw [hplace]; rfl
  have hget (e : ℕ) := get_computeIfAbsent conn.eventListeners sub.eventId e
  rw [clientSubscribing, if_neg (by rw [hevents]; exact fun heq => Bool.noConfusion heq.2)]
  refine ⟨(h.tracks.compute (fun _ _ => Iff.rfl) (fun e c hc => ?_) fun _ _ _ => id).self,
    fun e j hj => ?_, fun e j hhere hj => ?_, fun r hr j hj => ?_⟩
  · rcases hc with ⟨other, hother, hevent, hadd⟩ | hr
    · rcases List.mem_or_eq_of_mem_set hother with hold | rfl
      · exact .inl (.inl ⟨other, hold, hevent, hadd⟩)
      · obtain rfl := Adding.add.inj (Option.some_inj.mp ((if_pos rfl).symm.trans hadd))
        exact .inr ⟨hevent.symm, rfl⟩
    · exact .inl (.inr hr)
  · rw [hget] at hj
    exact IsAdded.setSubscription (h.sound e j hj) hsub rfl fun _ => rfl
  · rw [hget]
    refine h.complete e j ?_ (IsSettled.of_setSubscription hj hsub ?_)
    · exact isHere_of_setSubscription hhere hsub rfl hown.symm
    · rw [hplace]
      exact id
  · exact IsAdded.setSubscription (h.left r hr j hj) hsub rfl fun _ => rfl

/-- A call of `subscribe` adds its listener to the map. -/
theorem Serves.clientSubscribing_add {conn : ListeningConnection}
    (h : s.Serves k conn.eventListeners) (hsub : s.subscriptions[i]? = some sub)
    (hplace : sub.place = .client k (.add c))
    (hclosers : ∀ unsub ∈ s.unsubscriptions, unsub.listener ≠ i) :
    (s.clientSubscribing i sub k conn (.add c)).Serves k (conn.eventListeners.addIfAbsent c i) := by
  have hown : sub.place.own? = none := by rw [hplace]; rfl
  have hlookup : conn.eventListeners.lookup sub.eventId = some c := by
    refine h.tracks.pending _ _ (.inl ⟨sub, List.mem_of_getElem? hsub, rfl, ?_⟩)
    rw [hplace, SupervisedSubscribing.at?_client]
  have hmem {e j : ℕ} : j ∈ (conn.eventListeners.addIfAbsent c i).get e ↔ _ :=
    mem_get_addIfAbsent_iff hlookup
  rw [clientSubscribing, if_neg (fun heq => Adding.noConfusion heq.1)]
  refine ⟨(h.tracks.add hlookup (fun _ _ => Iff.rfl) (fun e c' hc => ?_)
    fun e j c' hc => .inl ⟨hc, ?_⟩).self, fun e j hj => ?_, fun e j hhere hj => ?_,
    fun r hr j hj => ?_⟩
  · refine PendingOn.of_setSubscription hc ?_
    rintro ⟨⟩
  · obtain ⟨unsub, hunsub, rfl, -⟩ := hc
    exact fun heq => hclosers unsub hunsub heq.2
  · rcases hmem.mp hj with hold | ⟨rfl, rfl⟩
    · exact IsAdded.setSubscription (h.sound e j hold) hsub rfl fun _ => rfl
    · exact ⟨_, List.getElem?_set_of_eq_some hsub _, rfl, rfl,
        fun unsub hunsub heq => absurd heq (hclosers unsub hunsub)⟩
  · have hhere' : s.own.IsHere e j := isHere_of_setSubscription hhere hsub rfl hown.symm
    by_cases heq : j = i
    · subst heq
      exact .inl (hmem.mpr (.inr ⟨eq_eventId_of_isHere hhere' hsub, rfl⟩))
    · obtain ⟨other, hother, hsettled⟩ := hj
      have hother' : s.subscriptions[j]? = some other :=
        (List.getElem?_set_ne (Ne.symm heq)).symm.trans hother
      exact (h.complete e j hhere' ⟨other, hother', hsettled⟩).imp_left fun hold =>
        hmem.mpr (.inl hold)
  · exact IsAdded.setSubscription (h.left r hr j hj) hsub rfl fun _ => rfl

section Closing

theorem own?_elim (next : Option Removing) :
    (next.elim SupervisedClosing.returned (.client k)).own? = none := by
  cases next <;> rfl

theorem at?_elim (next : Option Removing) :
    (next.elim SupervisedClosing.returned (.client k)).at? k = next := by
  cases next <;> simp [SupervisedClosing.at?]

theorem at?_elim_of_ne (hne : k ≠ k') (next : Option Removing) :
    (next.elim SupervisedClosing.returned (.client k)).at? k' = none := by
  cases next <;> simp [SupervisedClosing.at?, hne]

variable {conn : ListeningConnection} {next : Option Removing}
  (h : s.Serves k conn.eventListeners) (hunsub : s.unsubscriptions[j]? = some unsub)

include h hunsub

/-- A call of `close` edits the map, which does not concern other listeners than its own. -/
theorem Serves.clientClosing_of (hown : unsub.place.own? = none)
    (hmem : ∀ e i, i ∈ m.get e → i ∈ conn.eventListeners.get e ∧
      (i = unsub.listener → ∃ place, next = some place ∧ place.WillRemove))
    (hkeep : ∀ e i, i ∈ conn.eventListeners.get e → i ≠ unsub.listener → i ∈ m.get e)
    (htracks : Tracks m (fun e i => i ∈ m.get e) (s.PendingOn k)
      fun _ => ((s.setConnection k conn m).setUnsubscription j
        { unsub with place := next.elim .returned (.client k) }).RefsOn k) :
    ((s.setConnection k conn m).setUnsubscription j
      { unsub with place := next.elim .returned (.client k) }).Serves k m := by
  refine ⟨htracks, fun e i hi => ?_, fun e i hhere hi => ?_, fun r hr i hi => ?_⟩
  · obtain ⟨hold, hwill⟩ := hmem e i hi
    refine IsAdded.setUnsubscription (h.sound e i hold) hunsub rfl fun heq _ => ?_
    obtain ⟨place, rfl, hplace⟩ := hwill heq.symm
    exact ⟨rfl, hplace⟩
  · have hhere' : s.own.IsHere e i :=
      isHere_of_setUnsubscription hhere hunsub rfl ((own?_elim next).trans hown.symm)
    have hne := listener_ne_of_isHere hhere' (List.mem_of_getElem? hunsub) hown
    exact (h.complete e i hhere' hi).imp_left fun hold => hkeep e i hold hne.symm
  · refine IsAdded.setUnsubscription (h.left r hr i hi) hunsub rfl fun _ _ => ?_
    cases next with
    | none => trivial
    | some place => rfl

variable (hsub : s.subscriptions[unsub.listener]? = some sub)

include hsub

/-- While the listener is found, no call that looks for it here has removed it. -/
theorem Serves.find (hplace : unsub.place = .client k place) {e : ℕ}
    (hmem : unsub.listener ∈ conn.eventListeners.get e) :
    e = sub.eventId ∧ place.WillRemove := by
  have hadded := h.sound e unsub.listener hmem
  refine ⟨hadded.eq_eventId hsub, ?_⟩
  obtain ⟨_, -, -, -, hall⟩ := hadded
  have hmay := hall unsub (List.mem_of_getElem? hunsub) rfl
  rw [hplace] at hmay
  exact hmay.2

theorem Serves.clientClosing_get (hplace : unsub.place = .client k .get) :
    (s.clientClosing j unsub sub.eventId k conn .get).Serves k conn.eventListeners := by
  have hfind {e : ℕ} (hmem : unsub.listener ∈ conn.eventListeners.get e) :=
    h.find hunsub hsub hplace hmem
  refine h.clientClosing_of hunsub (by rw [hplace]; rfl) (fun e i hi => ⟨hi, ?_⟩)
    (fun _ _ hi _ => hi)
    (h.tracks.mono (fun _ _ => Iff.rfl) (fun _ _ => id) fun e i c hc hi => ?_)
  · rintro rfl
    obtain ⟨c, hlookup, -⟩ := mem_get.mp hi
    rw [(hfind hi).1] at hlookup
    exact ⟨.remove c, congrArg (Option.map Removing.remove) hlookup, trivial⟩
  · obtain ⟨other, hother, rfl, hremove⟩ := hc
    rcases List.mem_or_eq_of_mem_set hother with hold | rfl
    · exact .inl ⟨other, hold, rfl, hremove⟩
    · -- the list it got is the one of the event
      rw [at?_elim] at hremove
      obtain ⟨c', hlookup, heq⟩ := Option.map_eq_some_iff.mp hremove
      cases heq
      rw [(hfind hi).1]
      exact .inr hlookup

theorem Serves.clientClosing_remove (hplace : unsub.place = .client k (.remove c)) :
    (s.clientClosing j unsub sub.eventId k conn (.remove c)).Serves k
      (conn.eventListeners.remove c unsub.listener) := by
  have hlookup {e : ℕ} (hmem : unsub.listener ∈ conn.eventListeners.get e) :
      conn.eventListeners.lookup e = some c := by
    refine h.tracks.refs e unsub.listener c ⟨unsub, List.mem_of_getElem? hunsub, rfl, ?_⟩ hmem
    rw [hplace, SupervisedClosing.at?_client]
  refine h.clientClosing_of hunsub (by rw [hplace]; rfl) (fun e i hi => ?_)
    (fun e i hi hne => mem_get_remove.mpr ⟨hi, fun heq => hne heq.2⟩)
    (h.tracks.remove (hlookup (e := sub.eventId)) (fun e hi => (h.find hunsub hsub hplace hi).1)
      (fun _ _ => Iff.rfl) (fun _ _ => id) fun e i c' hc => ?_).self
  · obtain ⟨hold, hnot⟩ := mem_get_remove.mp hi
    refine ⟨hold, ?_⟩
    rintro rfl
    exact absurd ⟨hlookup hold, rfl⟩ hnot
  · refine RefsOn.of_setUnsubscription hc ?_
    rw [at?_elim]
    rintro ⟨⟩

theorem Serves.clientClosing_check (hplace : unsub.place = .client k (.check c)) :
    (s.clientClosing j unsub sub.eventId k conn (.check c)).Serves k conn.eventListeners := by
  refine h.clientClosing_of hunsub (by rw [hplace]; rfl) (fun e i hi => ⟨hi, ?_⟩)
    (fun _ _ hi _ => hi)
    (h.tracks.mono (fun _ _ => Iff.rfl) (fun _ _ => id) fun e i c' hc _ => .inl ?_)
  · rintro rfl
    exact (h.find hunsub hsub hplace hi).2.elim
  · refine RefsOn.of_setUnsubscription hc ?_
    rw [at?_elim, Removing.step]
    dsimp only
    split_ifs <;> rintro ⟨⟩

theorem Serves.clientClosing_drop (hplace : unsub.place = .client k (.drop c))
    (hsafe : conn.eventListeners.SafeToDrop sub.eventId c (∃ c', s.PendingOn k sub.eventId c')) :
    (s.clientClosing j unsub sub.eventId k conn (.drop c)).Serves k
      (conn.eventListeners.removeIfEqual sub.eventId c) := by
  have hget (e : ℕ) := get_removeIfEqual hsafe e
  refine h.clientClosing_of hunsub (by rw [hplace]; rfl) (fun e i hi => ?_) (fun e i hi _ => ?_)
    (h.tracks.drop hsafe (fun _ _ => Iff.rfl) (fun _ _ => id) fun e i c' hc => ?_).self
  · rw [Removing.step, hget] at hi
    refine ⟨hi, ?_⟩
    rintro rfl
    exact (h.find hunsub hsub hplace hi).2.elim
  · rw [Removing.step, hget]
    exact hi
  · refine RefsOn.of_setUnsubscription hc ?_
    rw [at?_elim]
    rintro ⟨⟩

theorem Serves.clientClosing (hplace : unsub.place = .client k place)
    (hsafe : ∀ c, place = .drop c →
      conn.eventListeners.SafeToDrop sub.eventId c (∃ c', s.PendingOn k sub.eventId c')) :
    (s.clientClosing j unsub sub.eventId k conn place).Serves k
      (place.step conn.eventListeners sub.eventId unsub.listener).1 := by
  cases place with
  | get => exact h.clientClosing_get hunsub hsub hplace
  | remove c => exact h.clientClosing_remove hunsub hsub hplace
  | check c => exact h.clientClosing_check hunsub hsub hplace
  | drop c => exact h.clientClosing_drop hunsub hsub hplace (hsafe c rfl)

end Closing

/-! ### `install` -/

section Install

variable {r r' : Resubscription}

/-- `install` moves on without editing the map. -/
theorem Serves.setResubscription (h : s.Serves k m) {next : Option Resubscription}
    (hplace : ∀ r' c, next = some r' → r'.place ≠ .add c)
    (hleft : ∀ r', next = some r' → ∀ i ∈ r'.left,
      s.IsAdded (SupervisedClosing.NotElsewhere k) r'.eventId i)
    (hcovered : ∀ e i, s.own.IsHere e i → s.IsCovered e i →
      { s with resubscription := next : SupervisedListeners }.IsCovered e i) :
    { s with resubscription := next : SupervisedListeners }.Serves k m := by
  refine ⟨h.tracks.mono (fun _ _ => Iff.rfl) (fun e c hc => ?_) fun _ _ _ hc _ => .inl hc,
    h.sound, fun e i hhere hi => ?_, hleft⟩
  · rcases hc with hsub | ⟨r', hr', -, -, hadd⟩
    · exact .inl hsub
    · exact absurd hadd (hplace r' c hr')
  · exact (h.complete e i hhere hi).imp_right (hcovered e i hhere)

/-- The traversal starts. -/
theorem Serves.traverse (h : s.Serves k m) (hown : s.own.Consistent captured) (r : Resubscription) :
    { s with resubscription := some (r.traverse s.eventListeners) : SupervisedListeners }.Serves
      k m := by
  refine h.setResubscription (fun r' c heq => ?_) (fun r' heq i hi => ?_) fun e i hhere _ => ?_
  · cases heq
    exact Adding.noConfusion
  · cases heq
    cases hi
  · obtain ⟨c, hlookup, -⟩ := mem_get.mp ((hown.tracks.mem e i).mpr hhere)
    refine ⟨_, rfl, .inr (.inl ?_)⟩
    exact AList.mem_keys.mp (AList.lookup_isSome.mp (Option.isSome_of_eq_some hlookup))

/-- The traversal visits an event. -/
theorem Serves.visit (h : s.Serves k m) (hr : s.resubscription = some r)
    (hown : s.own.Consistent captured) (hstarted : r.started = true) (hleft : r.left = [])
    (eventId : ℕ) : { s with resubscription := some (r.visit s.eventListeners eventId) :
      SupervisedListeners }.Serves k m := by
  refine h.setResubscription (fun r' c heq => ?_) (fun r' heq i hi => ?_)
    fun e i hhere hcovered => ?_
  · cases heq
    exact Adding.noConfusion
  · cases heq
    exact isAdded_of_isHere ((hown.tracks.mem eventId i).mp hi) fun _ => trivial
  · obtain ⟨r', hr', hcases⟩ := hcovered
    obtain rfl := Option.mem_unique hr hr'
    refine ⟨_, rfl, .inr ?_⟩
    rcases hcases with hnot | hunvisited | ⟨-, hi⟩
    · rw [hstarted] at hnot
      cases hnot
    · by_cases heq : e = eventId
      · subst heq
        exact .inr ⟨rfl, (hown.tracks.mem e i).mpr hhere⟩
      · exact .inl (List.mem_filter.mpr ⟨hunvisited, decide_eq_true heq⟩)
    · rw [hleft] at hi
      cases hi

/-- The traversal is over. -/
theorem Serves.finish (h : s.Serves k m) (hr : s.resubscription = some r)
    (hstarted : r.started = true) (hleft : r.left = []) (hunvisited : r.unvisited = []) :
    { s with resubscription := none : SupervisedListeners }.Serves k m := by
  refine h.setResubscription (fun r' c heq => ?_) (fun r' heq => ?_) fun e i _ hcovered => ?_
  · cases heq
  · cases heq
  · obtain ⟨r', hr', hcases⟩ := hcovered
    obtain rfl := Option.mem_unique hr hr'
    rw [hstarted, hleft, hunvisited] at hcases
    rcases hcases with hnot | hmem | ⟨-, hmem⟩
    · cases hnot
    · cases hmem
    · cases hmem

variable {conn : ListeningConnection} {rest : List ℕ}

/-- `install` looks up the list of a listener, or creates it. -/
theorem Serves.resubscribe_compute (h : s.Serves r.connection conn.eventListeners)
    (hr : s.resubscription = some r) (hplace : r.place = .compute)
    (hevents : conn.supportsEvents = true) :
    (s.resubscribeStep r conn i rest).Serves r.connection
      (conn.eventListeners.computeIfAbsent r.eventId).1 := by
  have hget (e : ℕ) := get_computeIfAbsent conn.eventListeners r.eventId e
  rw [resubscribeStep, if_neg (by rw [hevents]; exact fun heq => Bool.noConfusion heq.2), hplace]
  refine ⟨(h.tracks.compute (fun _ _ => Iff.rfl) (fun e c hc => ?_) fun _ _ _ => id).self,
    fun e j hj => ?_, fun e j hhere hj => ?_, fun r' hr' j hj => ?_⟩
  · rcases hc with hsub | ⟨r', hr', -, rfl, hadd⟩
    · exact .inl (.inl hsub)
    · obtain rfl := Option.some_inj.mp hr'
      exact .inr ⟨rfl, (Adding.add.inj hadd).symm⟩
  · rw [hget] at hj
    exact h.sound e j hj
  · rw [hget]
    refine (h.complete e j hhere hj).imp_right ?_
    rintro ⟨r', hr', hcases⟩
    obtain rfl := Option.mem_unique hr hr'
    exact ⟨_, rfl, hcases⟩
  · obtain rfl := Option.some_inj.mp hr'
    exact h.left r hr j hj

/-- `install` adds a listener. -/
theorem Serves.resubscribe_add (h : s.Serves r.connection conn.eventListeners)
    (hr : s.resubscription = some r) (hleft : r.left = i :: rest) (hplace : r.place = .add c)
    (hlooked : ∀ unsub ∈ s.unsubscriptions, unsub.listener = i → unsub.place.HasNotLooked) :
    (s.resubscribeStep r conn i rest).Serves r.connection
      (conn.eventListeners.addIfAbsent c i) := by
  have hlookup : conn.eventListeners.lookup r.eventId = some c :=
    h.tracks.pending _ _ (.inr ⟨r, hr, rfl, rfl, hplace⟩)
  have hmem {e j : ℕ} : j ∈ (conn.eventListeners.addIfAbsent c i).get e ↔ _ :=
    mem_get_addIfAbsent_iff hlookup
  have hadded := h.left r hr i (hleft ▸ List.mem_cons_self)
  rw [resubscribeStep, hplace, if_neg (fun heq => Adding.noConfusion heq.1)]
  refine ⟨(h.tracks.add hlookup (fun _ _ => Iff.rfl) (fun e c' hc => ?_)
    fun e j c' hc => .inl ⟨hc, ?_⟩).self, fun e j hj => ?_, fun e j hhere hj => ?_,
    fun r' hr' j hj => ?_⟩
  · rcases hc with hsub | ⟨r', hr', -, -, hadd⟩
    · exact .inl hsub
    · obtain rfl := Option.some_inj.mp hr'
      cases hadd
  · -- no call has looked for the listener, so none holds its list
    rintro ⟨-, rfl⟩
    obtain ⟨unsub, hunsub, heq, hremove⟩ := hc
    have hnot := hlooked unsub hunsub heq
    cases hp : unsub.place with
    | client connection place =>
      rw [hp] at hremove hnot
      rw [SupervisedClosing.at?] at hremove
      split_ifs at hremove
      cases hremove
      exact hnot
    | own | readActive | returned =>
      rw [hp] at hremove
      cases hremove
  · rcases hmem.mp hj with hold | ⟨rfl, rfl⟩
    · exact h.sound e j hold
    · obtain ⟨sub, hsub, hevent, hnone, hall⟩ := hadded
      refine ⟨sub, hsub, hevent, hnone, fun unsub hunsub heq => ?_⟩
      have hnot := hlooked unsub hunsub heq
      have helse := hall unsub hunsub heq
      cases hp : unsub.place with
      | own | readActive => trivial
      | client connection place =>
        rw [hp] at hnot helse
        cases place with
        | get => exact ⟨helse, trivial⟩
        | remove | check | drop => exact hnot.elim
      | returned =>
        rw [hp] at hnot
        exact hnot.elim
  · rcases h.complete e j hhere hj with hold | ⟨r', hr', hcases⟩
    · exact .inl (hmem.mpr (.inl hold))
    · obtain rfl := Option.mem_unique hr hr'
      rcases hcases with hnot | hunvisited | ⟨hevent, hjleft⟩
      · exact .inr ⟨_, rfl, .inl hnot⟩
      · exact .inr ⟨_, rfl, .inr (.inl hunvisited)⟩
      · rw [hleft] at hjleft
        rcases List.mem_cons.mp hjleft with rfl | hrest
        · exact .inl (hmem.mpr (.inr ⟨hevent.symm, rfl⟩))
        · exact .inr ⟨_, rfl, .inr (.inr ⟨hevent, hrest⟩)⟩
  · obtain rfl := Option.some_inj.mp hr'
    exact h.left r hr j (hleft ▸ List.mem_cons_of_mem i hj)

end Install

end Serves

/-! ### Both maps -/

section Consistent

variable {i j : ℕ} {sub sub' : SupervisedSubscription} {unsub unsub' : SupervisedUnsubscription}

theorem consistent_init : ({} : SupervisedListeners).Consistent := by
  refine ⟨ClientListeners.consistent_init, List.forall_mem_nil _, List.forall_mem_nil _,
    List.forall_mem_nil _, fun k hk => ?_, fun r hr => ?_⟩
  · cases hk
  · cases hr

theorem isAddingOn_iff {eventId : ℕ} : s.IsAddingOn k eventId ↔ ∃ c, s.PendingOn k eventId c := by
  constructor
  · rintro (⟨sub, hsub, hevent, place, hplace, hadd⟩ | ⟨r, hr, hk, hevent, hadd⟩)
    · cases place with
      | compute => exact absurd rfl hadd
      | add c => exact ⟨c, .inl ⟨sub, hsub, hevent, hplace⟩⟩
    · cases hplace : r.place with
      | compute => exact absurd hplace hadd
      | add c => exact ⟨c, .inr ⟨r, hr, hk, hevent, hplace⟩⟩
  · rintro ⟨c, ⟨sub, hsub, hevent, hplace⟩ | ⟨r, hr, hk, hevent, hplace⟩⟩
    · exact .inl ⟨sub, hsub, hevent, .add c, hplace, Adding.noConfusion⟩
    · exact .inr ⟨r, hr, hk, hevent, by simp [hplace]⟩

variable (h : s.Consistent)

include h

/-- `install` publishes a connection. -/
theorem Consistent.publish (supportsEvents : Bool) :
    { s with
      connections := s.connections ++ [{ supportsEvents }]
      active := some s.connections.length
      resubscription := some { connection := s.connections.length } :
      SupervisedListeners }.Consistent := by
  refine ⟨h.own, h.returned, h.accepted, fun sub hsub k place hplace => ?_, fun k hk => ?_,
    fun r hr => ?_⟩
  · rw [List.length_append]
    exact Nat.lt_add_right _ (h.bounded sub hsub k place hplace)
  · cases hk
    refine ⟨_, List.getElem?_concat_length, tracks_empty (fun _ _ => List.not_mem_nil) ?_,
      fun e i hi => absurd hi List.not_mem_nil, fun e i _ _ => .inr ⟨_, rfl, .inl rfl⟩,
      fun r hr i hi => ?_⟩
    · -- no call can have got hold of a connection that is new
      rintro e c (⟨sub, hsub, -, hplace⟩ | ⟨r, hr, -, -, hplace⟩)
      · cases hp : sub.place with
        | client k place =>
          rw [hp, SupervisedSubscribing.at?, if_neg (h.bounded sub hsub k place hp).ne] at hplace
          cases hplace
        | own | readActive | returned | failed =>
          rw [hp] at hplace
          cases hplace
      · cases hr
        cases hplace
    · cases hr
      cases hi
  · cases hr
    exact .inr rfl

/-- `install` moves on. -/
theorem Consistent.setResubscription {r : Resubscription}
    (hr : s.resubscription = some r) {next : Option Resubscription}
    (hconnection : ∀ r', next = some r' → r'.connection = r.connection)
    (hserves : ∀ k conn, s.active = some k → s.connections[k]? = some conn →
      s.Serves k conn.eventListeners →
      { s with resubscription := next : SupervisedListeners }.Serves k conn.eventListeners) :
    { s with resubscription := next : SupervisedListeners }.Consistent := by
  refine ⟨h.own, h.returned, h.accepted, h.bounded, fun k hk => ?_, fun r' hr' => ?_⟩
  · obtain ⟨conn, hconn, hs⟩ := h.active k hk
    exact ⟨conn, hconn, hserves k conn hk hconn hs⟩
  · rw [hconnection r' hr']
    exact h.current r hr

variable {conn : ListeningConnection}

theorem Consistent.resubscribe {r : Resubscription} {rest : List ℕ}
    (hr : s.resubscription = some r) (hleft : r.left = i :: rest)
    (hconn : s.connections[r.connection]? = some conn) (hevents : conn.supportsEvents = true)
    (hlooked : r.place ≠ .compute → ∀ unsub ∈ s.unsubscriptions, unsub.listener = i →
      unsub.place.HasNotLooked) : (s.resubscribeStep r conn i rest).Consistent := by
  have heq : s.resubscribeStep r conn i rest =
      { s.setConnection r.connection conn (r.place.step conn.eventListeners r.eventId i).1 with
        resubscription := some ((r.place.step conn.eventListeners r.eventId i).2.elim
          { r with left := rest, place := .compute } fun place => { r with place }) } :=
    if_neg (by rw [hevents]; exact fun heq => Bool.noConfusion heq.2)
  have hconnection : ((r.place.step conn.eventListeners r.eventId i).2.elim
      { r with left := rest, place := .compute }
      fun place => { r with place }).connection = r.connection := by
    cases (r.place.step conn.eventListeners r.eventId i).2 <;> rfl
  refine heq ▸ ⟨h.own, h.returned, h.accepted, fun sub hsub k place hp => ?_, fun k hk => ?_,
    fun r' hr' => ?_⟩
  · rw [setConnection, List.length_set]
    exact h.bounded sub hsub k place hp
  · -- what is being installed is the active connection
    obtain rfl : r.connection = k := by
      rcases h.current r hr with hnone | hsome
      · exact absurd (hnone.symm.trans hk) (Option.some_ne_none k).symm
      · exact Option.mem_unique hsome hk
    obtain ⟨conn', hconn', hserves⟩ := h.active _ hk
    obtain rfl := Option.mem_unique hconn hconn'
    refine ⟨_, List.getElem?_set_of_eq_some hconn _, ?_⟩
    rw [← heq]
    cases hplace : r.place with
    | compute => exact hserves.resubscribe_compute hr hplace hevents
    | add c =>
      have hnot : r.place ≠ .compute := by simp [hplace]
      exact hserves.resubscribe_add hr hleft hplace (hlooked hnot)
  · obtain rfl := Option.some_inj.mp hr'
    rw [hconnection]
    exact h.current r hr

theorem Consistent.subscribe (eventId : ℕ) :
    { s with subscriptions := s.subscriptions ++ [{ eventId }] :
      SupervisedListeners }.Consistent := by
  have hown : { s with subscriptions := s.subscriptions ++ [{ eventId }] :
      SupervisedListeners }.own =
        { s.own with subscriptions := s.own.subscriptions ++ [{ eventId }] } :=
    congrArg (fun subscriptions => { s.own with subscriptions }) List.map_append
  refine ⟨?_, fun unsub hunsub => ?_,
    List.forall_mem_concat h.accepted SupervisedSubscribing.noConfusion,
    List.forall_mem_concat h.bounded (by rintro k place ⟨⟩), fun k hk => ?_, h.current⟩
  · rw [hown]
    refine (h.own.subscribe eventId).mono ?_
    rintro e i c ⟨sub, hsub, hevent, hnone, hcell⟩
    rcases List.getElem?_concat_eq_some.mp hsub with hold | ⟨-, rfl⟩
    · exact ⟨sub, hold, hevent, hnone, hcell⟩
    · cases hnone
  · obtain ⟨sub, hsub, hplace⟩ := h.returned unsub hunsub
    exact ⟨sub, List.getElem?_concat_eq_some.mpr (.inl hsub), hplace⟩
  · obtain ⟨conn, hconn, hserves⟩ := h.active k hk
    exact ⟨conn, hconn, hserves.subscribe eventId⟩

section

variable (hsub : s.subscriptions[i]? = some sub)

include hsub

/-- Handles are closed when `subscribe` has returned them. -/
theorem Consistent.listener_ne (hmoves : sub.place ≠ .returned) :
    ∀ unsub ∈ s.unsubscriptions, unsub.listener ≠ i := by
  rintro unsub hunsub rfl
  obtain ⟨other, hother, hreturned⟩ := h.returned unsub hunsub
  obtain rfl := Option.mem_unique hsub hother
  exact hmoves hreturned

theorem Consistent.returned_set (hmoves : sub.place ≠ .returned) :
    ∀ unsub ∈ s.unsubscriptions, ∃ other,
      (s.subscriptions.set i sub')[unsub.listener]? = some other ∧ other.place = .returned := by
  intro unsub hunsub
  obtain ⟨other, hother, hreturned⟩ := h.returned unsub hunsub
  have hne := h.listener_ne hsub hmoves unsub hunsub
  exact ⟨other, (List.getElem?_set_ne hne.symm).trans hother, hreturned⟩

/-- A call of `subscribe` that is not at the own map moves on. -/
theorem Consistent.setSubscription (hevent : sub'.eventId = sub.eventId)
    (hcell : sub'.cell = sub.cell) (hown : sub'.place.own? = sub.place.own?)
    (hmoves : sub.place ≠ .returned) (haccepted : sub'.place ≠ .failed)
    (hbounded : ∀ k place, sub'.place = .client k place → k < s.connections.length)
    {connections : List ListeningConnection} (hlength : connections.length = s.connections.length)
    (hactive : ∀ k, s.active = some k → ∃ conn, connections[k]? = some conn ∧
      ({ s with connections }.setSubscription i sub').Serves k conn.eventListeners) :
    ({ s with connections }.setSubscription i sub').Consistent := by
  refine ⟨?_, h.returned_set hsub hmoves, List.forall_mem_set h.accepted haccepted, ?_, hactive,
    h.current⟩
  · have hsame : ({ s with connections }.setSubscription i sub').own = s.own :=
      own_setSubscription hsub hevent hown
    rw [hsame]
    refine h.own.mono ?_
    rintro e j c ⟨other, hother, rfl, hnone, rfl⟩
    rcases List.getElem?_set_eq_some hsub hother with ⟨rfl, rfl⟩ | hold
    · exact ⟨sub, hsub, hevent.symm, hown.symm.trans hnone, hcell.symm⟩
    · exact ⟨other, hold, rfl, hnone, rfl⟩
  · refine List.forall_mem_set (fun other hother k place hplace => ?_) fun k place hplace => ?_
    · exact (h.bounded other hother k place hplace).trans_eq hlength.symm
    · exact (hbounded k place hplace).trans_eq hlength.symm

theorem Consistent.ownSubscribing {place : Adding} (hplace : sub.place = .own place) :
    (s.ownSubscribing i sub place).Consistent := by
  have hown : s.own.subscriptions[i]? = some ⟨sub.eventId, some place⟩ := by
    rw [getElem?_own_subscriptions, hsub, Option.map_some, hplace]
    rfl
  have hmoves : sub.place ≠ .returned := by simp [hplace]
  refine ⟨?_, h.returned_set hsub hmoves, List.forall_mem_set h.accepted ?_,
    List.forall_mem_set h.bounded fun k p heq => ?_, fun k hk => ?_, h.current⟩
  · rw [own_ownSubscribing]
    refine h.own.subscribing hown rfl ?_
    rintro e j c ⟨other, hother, rfl, hnone, rfl⟩
    rcases List.getElem?_set_eq_some hsub hother with ⟨rfl, rfl⟩ | hold
    · cases place with
      | compute => cases hnone
      | add c => exact .inr ⟨rfl, rfl, rfl⟩
    · refine .inl ⟨⟨other, hold, rfl, hnone, rfl⟩, ?_⟩
      rintro rfl
      obtain rfl := Option.mem_unique hsub hold
      rw [hplace] at hnone
      cases hnone
  · dsimp only
    cases (place.step s.eventListeners sub.eventId i).2 <;> exact SupervisedSubscribing.noConfusion
  · dsimp only at heq
    cases hnext : (place.step s.eventListeners sub.eventId i).2 <;> rw [hnext] at heq <;> cases heq
  · obtain ⟨conn, hconn, hserves⟩ := h.active k hk
    exact ⟨conn, hconn, hserves.ownSubscribing hsub hplace⟩

theorem Consistent.clientSubscribing {place : Adding} (hplace : sub.place = .client k place)
    (hconn : s.connections[k]? = some conn)
    (hevents : place = .compute → conn.supportsEvents = true) :
    (s.clientSubscribing i sub k conn place).Consistent := by
  have hlt := (List.getElem?_eq_some_iff.mp hconn).1
  have heq : s.clientSubscribing i sub k conn place =
      (s.setConnection k conn (place.step conn.eventListeners sub.eventId i).1).setSubscription i
        ⟨sub.eventId, (place.step conn.eventListeners sub.eventId i).2.elim .returned (.client k),
          sub.cell⟩ := by
    refine if_neg fun hthrows => ?_
    rw [hevents hthrows.1] at hthrows
    exact Bool.noConfusion hthrows.2
  have hnext (next : Option Adding) :
      (next.elim SupervisedSubscribing.returned (.client k)).own? = none ∧
      next.elim SupervisedSubscribing.returned (.client k) ≠ .failed := by
    cases next <;> exact ⟨rfl, SupervisedSubscribing.noConfusion⟩
  have hmoves : sub.place ≠ .returned := by simp [hplace]
  have hown : sub.place.own? = none := by rw [hplace]; rfl
  rw [heq]
  refine h.setSubscription hsub ?_ ?_ ?_ hmoves ?_ (fun k' p hp => ?_) ?_ fun k' hk' => ?_
  · rfl
  · rfl
  · exact (hnext _).1.trans hown.symm
  · exact (hnext _).2
  · cases hn : (place.step conn.eventListeners sub.eventId i).2 <;> rw [hn] at hp <;> cases hp
    exact hlt
  · exact List.length_set
  · obtain ⟨conn', hconn', hserves⟩ := h.active k' hk'
    by_cases hkk : k = k'
    · subst hkk
      obtain rfl := Option.mem_unique hconn hconn'
      refine ⟨_, List.getElem?_set_of_eq_some hconn _, ?_⟩
      change ((s.setConnection k conn _).setSubscription i _).Serves k _
      rw [← heq]
      cases place with
      | compute => exact hserves.clientSubscribing_compute hsub hplace (hevents rfl)
      | add c => exact hserves.clientSubscribing_add hsub hplace (h.listener_ne hsub hmoves)
    · -- the connection was replaced in the meantime
      refine ⟨conn', (List.getElem?_set_ne hkk).trans hconn', ?_⟩
      refine (hserves.setConnections _).setSubscription hsub ?_ ?_ (fun c hc => ?_) ?_
      · rfl
      · exact (hnext _).1.trans hown.symm
      · cases hn : (place.step conn.eventListeners sub.eventId i).2 <;>
          simp [hn, SupervisedSubscribing.at?, hkk] at hc
      · rw [hplace]
        exact fun _ => hkk

theorem Consistent.close (hreturned : sub.place = .returned) :
    { s with unsubscriptions := s.unsubscriptions ++ [⟨i, .own (.remove sub.cell)⟩] :
      SupervisedListeners }.Consistent := by
  have hown : { s with unsubscriptions := s.unsubscriptions ++ [⟨i, .own (.remove sub.cell)⟩] :
      SupervisedListeners }.own = { s.own with
        unsubscriptions := s.own.unsubscriptions ++ [⟨i, some (.remove sub.cell)⟩] } :=
    congrArg (fun unsubscriptions => { s.own with unsubscriptions }) List.map_append
  have hsub' : s.own.subscriptions[i]? = some ⟨sub.eventId, none⟩ := by
    rw [getElem?_own_subscriptions, hsub, Option.map_some, hreturned]
    rfl
  refine ⟨?_, List.forall_mem_concat h.returned ⟨sub, hsub, hreturned⟩, h.accepted, h.bounded,
    fun k hk => ?_, h.current⟩
  · rw [hown]
    refine h.own.close hsub' rfl (.remove sub.cell) trivial fun c heq => ?_
    cases heq
    exact ⟨sub, hsub, rfl, by rw [hreturned]; rfl, rfl⟩
  · obtain ⟨conn, hconn, hserves⟩ := h.active k hk
    exact ⟨conn, hconn, hserves.close sub.cell⟩

theorem Consistent.subscribing (hguard : s.Careful (.subscribing i))
    (hstep : s.subscribingStep i sub sub.place = some t) : t.Consistent := by
  cases hplace : sub.place with
  | own place =>
    rw [hplace] at hstep
    cases hstep
    exact h.ownSubscribing hsub hplace
  | readActive =>
    rw [hplace] at hstep
    cases hstep
    have hown : sub.place.own? = none := by rw [hplace]; rfl
    refine h.setSubscription hsub ?_ ?_ ?_ ?_ ?_
      (fun k place hp => ?_) rfl fun k hk => ?_
    · rfl
    · rfl
    · rw [hown]
      cases s.active <;> rfl
    · simp [hplace]
    · cases s.active <;> exact SupervisedSubscribing.noConfusion
    · cases hactive : s.active <;> rw [hactive] at hp <;> cases hp
      obtain ⟨conn, hconn, -⟩ := h.active k hactive
      exact (List.getElem?_eq_some_iff.mp hconn).1
    · obtain ⟨conn, hconn, hserves⟩ := h.active k hk
      refine ⟨conn, hconn, hserves.setSubscription hsub ?_ ?_ (fun c hc => ?_) fun hsettled => ?_⟩
      · rfl
      · rw [hown, hk]
        rfl
      · rw [hk] at hc
        simp at hc
      · rw [hk] at hsettled
        exact absurd rfl hsettled
  | client k place =>
    rw [hplace] at hstep
    obtain ⟨conn, hconn, rfl⟩ := Option.map_eq_some_iff.mp hstep
    refine h.clientSubscribing hsub hplace hconn fun hcompute => ?_
    refine hguard conn (Option.bind_eq_some_iff.mpr ⟨sub, hsub, ?_⟩)
    rw [hplace, hcompute]
    exact hconn
  | returned | failed =>
    rw [hplace] at hstep
    cases hstep

end

section

variable (hunsub : s.unsubscriptions[j]? = some unsub)

include hunsub

/-- A call of `close` that is not at the own map moves on. -/
theorem Consistent.setUnsubscription (hlistener : unsub'.listener = unsub.listener)
    (hown : unsub'.place.own? = unsub.place.own?)
    {connections : List ListeningConnection} (hlength : connections.length = s.connections.length)
    (hactive : ∀ k, s.active = some k → ∃ conn, connections[k]? = some conn ∧
      ({ s with connections }.setUnsubscription j unsub').Serves k conn.eventListeners) :
    ({ s with connections }.setUnsubscription j unsub').Consistent := by
  refine ⟨?_, List.forall_mem_set h.returned ?_, h.accepted, fun sub hsub k place hplace => ?_,
    hactive, h.current⟩
  · have hsame : ({ s with connections }.setUnsubscription j unsub').own = s.own :=
      own_setUnsubscription hunsub hlistener hown
    rw [hsame]
    exact h.own
  · rw [hlistener]
    exact h.returned unsub (List.mem_of_getElem? hunsub)
  · exact (h.bounded sub hsub k place hplace).trans_eq hlength.symm

theorem Consistent.ownClosing
    (hsub : s.subscriptions[unsub.listener]? = some sub) (hplace : unsub.place = .own place)
    (hsafe : ∀ c, place = .drop c →
      s.eventListeners.SafeToDrop sub.eventId c (s.own.IsAdding sub.eventId)) :
    (s.ownClosing j unsub sub.eventId place).Consistent := by
  have hunsub' : s.own.unsubscriptions[j]? = some ⟨unsub.listener, some place⟩ := by
    rw [getElem?_own_unsubscriptions, hunsub, Option.map_some, hplace]
    rfl
  have hsub' : s.own.subscriptions[unsub.listener]? = some ⟨sub.eventId, sub.place.own?⟩ := by
    rw [getElem?_own_subscriptions, hsub, Option.map_some]
  have hown : (s.ownClosing j unsub sub.eventId place).own.Consistent s.Captured := by
    rw [own_ownClosing]
    exact h.own.closing hunsub' hsub' rfl hsafe
  refine ⟨hown, List.forall_mem_set h.returned (h.returned unsub (List.mem_of_getElem? hunsub)),
    h.accepted, h.bounded, fun k hk => ?_, fun r hr => ?_⟩
  · obtain ⟨conn, hconn, hserves⟩ := h.active k hk
    exact ⟨conn, hconn, hserves.ownClosing hunsub h.own hown⟩
  · obtain ⟨r', hr', rfl⟩ := Option.map_eq_some_iff.mp hr
    exact h.current r' hr'

theorem Consistent.clientClosing
    (hsub : s.subscriptions[unsub.listener]? = some sub) (hplace : unsub.place = .client k place)
    (hconn : s.connections[k]? = some conn) (hsafe : ∀ c, s.active = some k → place = .drop c →
      conn.eventListeners.SafeToDrop sub.eventId c (s.IsAddingOn k sub.eventId)) :
    (s.clientClosing j unsub sub.eventId k conn place).Consistent := by
  have hown : unsub.place.own? = none := by rw [hplace]; rfl
  refine h.setUnsubscription hunsub ?_ ?_ ?_ fun k' hk' => ?_
  · rfl
  · exact (own?_elim _).trans hown.symm
  · exact List.length_set
  · obtain ⟨conn', hconn', hserves⟩ := h.active k' hk'
    by_cases hkk : k = k'
    · subst hkk
      obtain rfl := Option.mem_unique hconn hconn'
      refine ⟨_, List.getElem?_set_of_eq_some hconn _, hserves.clientClosing hunsub hsub hplace ?_⟩
      intro c hdrop
      rw [← isAddingOn_iff]
      exact hsafe c hk' hdrop
    · -- the connection was replaced in the meantime
      refine ⟨conn', (List.getElem?_set_ne hkk).trans hconn',
        (hserves.setConnections _).setUnsubscription hunsub ?_ ?_ (fun c hc => ?_) ?_ ?_⟩
      · rfl
      · exact (own?_elim _).trans hown.symm
      · rw [at?_elim_of_ne hkk] at hc
        cases hc
      · rw [hplace]
        exact fun hfind => absurd hfind.1 hkk
      · rw [hplace]
        exact fun helse => absurd helse hkk

theorem Consistent.closing
    (hsub : s.subscriptions[unsub.listener]? = some sub) (hguard : s.Careful (.closing j))
    (hstep : s.closingStep j unsub sub.eventId unsub.place = some t) : t.Consistent := by
  obtain ⟨hsafe, hsafeOn⟩ := hguard unsub hunsub sub hsub
  cases hplace : unsub.place with
  | own place =>
    rw [hplace] at hstep
    cases hstep
    refine h.ownClosing hunsub hsub hplace fun c hdrop => hsafe c ?_
    rw [hplace, hdrop]
    rfl
  | readActive =>
    rw [hplace] at hstep
    cases hstep
    have hown : unsub.place.own? = none := by rw [hplace]; rfl
    refine h.setUnsubscription hunsub ?_ ?_ rfl fun k hk => ?_
    · rfl
    · rw [hown]
      cases s.active <;> rfl
    · obtain ⟨conn, hconn, hserves⟩ := h.active k hk
      refine ⟨conn, hconn, hserves.setUnsubscription hunsub ?_ ?_ (fun c hc => ?_)
        (fun _ => ?_) fun _ => ?_⟩
      · rfl
      · rw [hown, hk]
        rfl
      · rw [hk] at hc
        simp at hc
      · rw [hk]
        exact ⟨rfl, trivial⟩
      · rw [hk]
        exact rfl
  | client k place =>
    rw [hplace] at hstep
    obtain ⟨conn, hconn, rfl⟩ := Option.map_eq_some_iff.mp hstep
    refine h.clientClosing hunsub hsub hplace hconn fun c hk hdrop => hsafeOn k hk conn hconn c ?_
    rw [hplace, hdrop, SupervisedClosing.at?_client]
    rfl
  | returned =>
    rw [hplace] at hstep
    cases hstep

end

/-- Every careful step keeps both maps consistent. -/
theorem Consistent.step {label : SupervisedLabel} (hguard : s.Careful label)
    (hstep : step s label = some t) : t.Consistent := by
  cases label with
  | publish supportsEvents =>
    obtain ⟨-, hstep⟩ := Option.ite_none_right_eq_some.mp hstep
    cases hstep
    exact h.publish supportsEvents
  | detach =>
    cases hstep
    refine ⟨h.own, h.returned, h.accepted, h.bounded, fun k hk => ?_, fun r hr => .inl rfl⟩
    cases hk
  | traverse =>
    obtain ⟨r, hr, hstep⟩ := Option.bind_eq_some_iff.mp hstep
    obtain ⟨-, hstep⟩ := Option.ite_none_left_eq_some.mp hstep
    cases hstep
    refine h.setResubscription hr (fun r' heq => ?_) fun k conn _ _ hs => hs.traverse h.own r
    exact Option.some_inj.mp heq ▸ rfl
  | visit eventId =>
    obtain ⟨r, hr, hstep⟩ := Option.bind_eq_some_iff.mp hstep
    obtain ⟨⟨hstarted, hleft, -⟩, hstep⟩ := Option.ite_none_right_eq_some.mp hstep
    cases hstep
    refine h.setResubscription hr (fun r' heq => ?_) fun k conn _ _ hs =>
      hs.visit hr h.own hstarted hleft eventId
    exact Option.some_inj.mp heq ▸ rfl
  | resubscribe =>
    obtain ⟨r, hr, hstep⟩ := Option.bind_eq_some_iff.mp hstep
    cases hleft : r.left with
    | nil =>
      simp only [installStep, hleft] at hstep
      cases hstep
    | cons i rest =>
      simp only [installStep, hleft] at hstep
      obtain ⟨conn, hconn, rfl⟩ := Option.map_eq_some_iff.mp hstep
      obtain ⟨hevents, hlooked⟩ := hguard r hr conn hconn
      refine h.resubscribe hr hleft hconn hevents fun hplace => hlooked hplace i ?_
      rw [hleft]
      rfl
  | finish =>
    obtain ⟨r, hr, hstep⟩ := Option.bind_eq_some_iff.mp hstep
    obtain ⟨⟨hstarted, hleft, hunvisited⟩, hstep⟩ := Option.ite_none_right_eq_some.mp hstep
    cases hstep
    refine h.setResubscription hr (fun r' heq => ?_) fun k conn _ _ hs =>
      hs.finish hr hstarted hleft hunvisited
    cases heq
  | subscribe eventId =>
    obtain ⟨-, hstep⟩ := Option.ite_none_left_eq_some.mp hstep
    cases hstep
    exact h.subscribe eventId
  | subscribing i =>
    obtain ⟨sub, hsub, hstep⟩ := Option.bind_eq_some_iff.mp hstep
    exact h.subscribing hsub hguard hstep
  | close i =>
    obtain ⟨sub, hsub, hstep⟩ := Option.bind_eq_some_iff.mp hstep
    obtain ⟨hreturned, hstep⟩ := Option.ite_none_right_eq_some.mp hstep
    cases hstep
    exact h.close hsub hreturned
  | closing j =>
    obtain ⟨unsub, hunsub, hstep⟩ := Option.bind_eq_some_iff.mp hstep
    obtain ⟨sub, hsub, hstep⟩ := Option.bind_eq_some_iff.mp hstep
    exact h.closing hunsub hsub hguard hstep

/-! ### Quiet states -/

theorem Consistent.isHere_iff (hquiet : s.IsQuiet) {e : ℕ} :
    s.own.IsHere e i ↔ s.IsSubscribed e i := by
  constructor
  · rintro ⟨_, hmap, rfl, -, hkept⟩
    rw [getElem?_own_subscriptions] at hmap
    obtain ⟨sub, hsub, rfl⟩ := Option.map_eq_some_iff.mp hmap
    have hmem := List.mem_of_getElem? hsub
    refine ⟨sub, hsub, rfl, (hquiet.1 sub hmem).resolve_right (h.accepted sub hmem), ?_⟩
    intro unsub hunsub heq
    obtain ⟨place, hplace, -⟩ := hkept _ (List.mem_map_of_mem hunsub) heq
    dsimp only at hplace
    rw [hquiet.2.1 unsub hunsub] at hplace
    cases hplace
  · rintro ⟨sub, hsub, hevent, hreturned, hnone⟩
    refine ⟨⟨sub.eventId, sub.place.own?⟩, ?_, hevent, by rw [hreturned]; rfl, ?_⟩
    · rw [getElem?_own_subscriptions, hsub, Option.map_some]
    · intro _ hmem heq
      obtain ⟨unsub, hunsub, rfl⟩ := List.mem_map.mp hmem
      exact absurd heq (hnone unsub hunsub)

theorem Consistent.mem_get_iff (hquiet : s.IsQuiet) (hk : s.active = some k)
    (hconn : s.connections[k]? = some conn) (e i : ℕ) :
    i ∈ conn.eventListeners.get e ↔ s.IsSubscribed e i := by
  obtain ⟨conn', hconn', hserves⟩ := h.active k hk
  obtain rfl := Option.mem_unique hconn hconn'
  constructor
  · intro hmem
    obtain ⟨sub, hsub, rfl, hnone, hall⟩ := hserves.sound e i hmem
    have hmem := List.mem_of_getElem? hsub
    refine ⟨sub, hsub, rfl, (hquiet.1 sub hmem).resolve_right (h.accepted sub hmem), ?_⟩
    intro unsub hunsub heq
    have hfind := hall unsub hunsub heq
    rw [hquiet.2.1 unsub hunsub] at hfind
    exact hfind
  · intro hsubscribed
    have ⟨sub, hsub, _, hreturned, _⟩ := hsubscribed
    have hsettled : s.IsSettled k i := ⟨sub, hsub, by rw [hreturned]; trivial⟩
    refine (hserves.complete e i ((h.isHere_iff hquiet).mpr hsubscribed) hsettled).resolve_right ?_
    rintro ⟨r, hr, -⟩
    rw [hquiet.2.2] at hr
    cases hr

end Consistent

end SupervisedListeners

/-- When no call is being made and no connection installed, readers find exactly the listeners
that are subscribed: in the map of a client, in the own map of a supervised client, and in
the map of its active connection. -/
theorem subscriptions_exact (e i : ℕ) :
    (∀ (w : List ListenerLabel) (t : ClientListeners),
      MeetsGuard ClientListeners.step ClientListeners.DropsSafely {} w →
      run ClientListeners.step {} w = some t → t.IsQuiet →
      (i ∈ t.eventListeners.get e ↔ t.IsSubscribed e i)) ∧
    ∀ (w : List SupervisedLabel) (t : SupervisedListeners),
      MeetsGuard SupervisedListeners.step SupervisedListeners.Careful {} w →
      run SupervisedListeners.step {} w = some t → t.IsQuiet →
      (i ∈ t.eventListeners.get e ↔ t.IsSubscribed e i) ∧
        ∀ k conn, t.active = some k → t.connections[k]? = some conn →
          (i ∈ conn.eventListeners.get e ↔ t.IsSubscribed e i) := by
  refine ⟨fun w t hmeets hrun hquiet => ?_, fun w t hmeets hrun hquiet => ?_⟩
  · exact ClientListeners.mem_get_iff_of_run hmeets hrun hquiet e i
  · have h : t.Consistent :=
      hmeets.invariant (fun hguard h hstep => h.step hguard hstep) hrun
        SupervisedListeners.consistent_init
    refine ⟨(h.own.tracks.mem e i).trans (h.isHere_iff hquiet), fun k conn hk hconn => ?_⟩
    exact h.mem_get_iff hquiet hk hconn e i

/-- Two listeners of one event are subscribed and the handle of the first is closed. -/
def closeOneOfTwo : List ListenerLabel :=
  [.subscribe 1, .subscribing 0, .subscribing 0, .subscribe 1, .subscribing 1, .subscribing 1,
    .close 0, .closing 0, .closing 0, .closing 0]

/-- A listener is subscribed and its connection is lost; while the next one is installed a
second listener is subscribed, and then the handle of the first is closed. -/
def closeAfterInstall : List SupervisedLabel :=
  [.publish true, .traverse, .finish, .subscribe 1, .subscribing 0, .subscribing 0,
    .subscribing 0, .subscribing 0, .subscribing 0, .detach, .publish true, .traverse,
    .subscribe 1, .subscribing 1, .visit 1, .resubscribe, .subscribing 1, .subscribing 1,
    .subscribing 1, .resubscribe, .subscribing 1, .finish, .close 0, .closing 0, .closing 0,
    .closing 0, .closing 0, .closing 0, .closing 0]

theorem subscriptions_exact_closeOne :
    (∃ t, run ClientListeners.step {} closeOneOfTwo = some t ∧ t.IsQuiet ∧
      ∀ e i, i ∈ t.eventListeners.get e ↔ t.IsSubscribed e i) ∧
    ∃ t, run SupervisedListeners.step {} closeAfterInstall = some t ∧ t.IsQuiet ∧
      t.active = some 1 ∧
      ∀ e i, (i ∈ t.eventListeners.get e ↔ t.IsSubscribed e i) ∧
        ∀ k conn, t.active = some k → t.connections[k]? = some conn →
          (i ∈ conn.eventListeners.get e ↔ t.IsSubscribed e i) := by
  have hclient : ∃ t ∈ run ClientListeners.step {} closeOneOfTwo, t.IsQuiet := by
    decide +kernel
  have hsupervised : ∃ t ∈ run SupervisedListeners.step {} closeAfterInstall,
      t.IsQuiet ∧ t.active = some 1 := by
    decide +kernel
  obtain ⟨t, hrun, hquiet⟩ := hclient
  obtain ⟨t', hrun', hquiet', hactive⟩ := hsupervised
  have hmeets : MeetsGuard ClientListeners.step ClientListeners.DropsSafely {} closeOneOfTwo := by
    decide +kernel
  have hmeets' :
      MeetsGuard SupervisedListeners.step SupervisedListeners.Careful {} closeAfterInstall := by
    decide +kernel
  refine ⟨⟨t, hrun, hquiet, fun e i => ?_⟩, ⟨t', hrun', hquiet', hactive, fun e i => ?_⟩⟩
  · exact (subscriptions_exact e i).1 _ t hmeets hrun hquiet
  · exact (subscriptions_exact e i).2 _ t' hmeets' hrun' hquiet'

/-- The first listener of an event is closed: its list is found empty. The second listener is
added to that list, which is then dropped from the map. -/
def addBeforeDrop : List ListenerLabel :=
  [.subscribe 1, .subscribing 0, .subscribing 0, .close 0, .closing 0, .closing 0, .closing 0,
    .subscribe 1, .subscribing 1, .subscribing 1, .closing 0]

/-- `install` has taken the list of an event when the handle of its listener is closed. The
call looks for the listener on the new connection before `install` adds it there. -/
def closeBeforeInstall : List SupervisedLabel :=
  [.subscribe 1, .subscribing 0, .subscribing 0, .subscribing 0, .publish true, .traverse,
    .visit 1, .close 0, .closing 0, .closing 0, .closing 0, .closing 0, .closing 0,
    .resubscribe, .resubscribe, .finish]

/-- A listener that is subscribed is lost, and one whose handle was closed comes back. -/
theorem subscription_lost_and_resurrected :
    (∃ t ∈ run ClientListeners.step {} addBeforeDrop,
      t.IsQuiet ∧ t.IsSubscribed 1 1 ∧ 1 ∉ t.eventListeners.get 1) ∧
    ∃ t ∈ run SupervisedListeners.step {} closeBeforeInstall,
      t.IsQuiet ∧ ¬ t.IsSubscribed 1 0 ∧ ∃ k ∈ t.active, ∃ conn ∈ t.connections[k]?,
        0 ∈ conn.eventListeners.get 1 := by
  decide +kernel

end MoonLightBridge.Client
