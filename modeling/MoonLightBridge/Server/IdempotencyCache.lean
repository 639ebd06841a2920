import MoonLightBridge.Data.Update
import MoonLightBridge.Server.Idempotency

/-!
# The idempotency cache is consistent

The cache keeps a map of entries and a queue of the keys that have completed. Nothing in
its code says that the two agree; this file does. The sweep for an expired key relies on
the queue being in the order of completion, and the queue is in that order because a
worker reads the clock while it holds the lock.
-/

namespace MoonLightBridge.Server.Idempotency

section Cache

variable {K V E : Type*} [DecidableEq K] {cfg : CacheConfig} {s t : State K V E}

/-- The map, the queue and the entries agree. -/
structure Consistent (cfg : CacheConfig) (s : State K V E) : Prop where
  size_le : s.cache.size ≤ cfg.capacity
  known : ∀ {key i}, s.cache.lookup key = some i →
    ∃ entry, s.entries[i]? = some entry ∧ entry.key = key
  latest : ∀ {i entry}, s.entries[i]? = some entry →
    ∀ {j}, s.cache.lookup entry.key = some j → i ≤ j
  /-- an entry that is pending or indeterminate stays in the cache -/
  kept : ∀ {i entry}, s.entries[i]? = some entry → ¬ s.Determinate i →
    s.cache.lookup entry.key = some i
  nodup : s.cache.queue.Nodup
  queued : ∀ key, key ∈ s.cache.queue ↔ ∃ i, s.cache.lookup key = some i ∧ s.Determinate i
  sorted : s.cache.queue.Pairwise fun key key' => s.completedAt key ≤ s.completedAt key'
  past : ∀ {i completed result}, s.result i = some (completed, result) → completed ≤ s.now

theorem consistent_init (cfg : CacheConfig) : Consistent cfg (State.init : State K V E) where
  size_le := Nat.zero_le _
  known h := nomatch h
  latest h := nomatch h
  kept h := nomatch h
  nodup := List.nodup_nil
  queued _ := ⟨nofun, fun ⟨_, h, _⟩ => nomatch h⟩
  sorted := List.Pairwise.nil
  past h := nomatch h

/-- Only the cache, the entries and the clock matter. -/
theorem Consistent.congr (h : Consistent cfg s) (hcache : t.cache = s.cache)
    (hentries : t.entries = s.entries) (hnow : s.now ≤ t.now) : Consistent cfg t := by
  have hresult : t.result = s.result := by
    funext i
    rw [State.result, hentries, State.result]
  have hdeterminate : t.Determinate = s.Determinate := by
    funext i
    rw [State.Determinate, hresult, State.Determinate]
  have hcompleted : t.completedAt = s.completedAt := by
    funext key
    rw [State.completedAt, hcache, hresult, State.completedAt]
  refine ⟨?_, ?_, ?_, ?_, ?_, ?_, ?_, ?_⟩
  · rw [hcache]
    exact h.size_le
  · rw [hcache, hentries]
    exact h.known
  · rw [hcache, hentries]
    exact h.latest
  · rw [hcache, hentries, hdeterminate]
    exact h.kept
  · rw [hcache]
    exact h.nodup
  · rw [hcache, hdeterminate]
    exact h.queued
  · rw [hcache, hcompleted]
    exact h.sorted
  · rw [hresult]
    exact fun hi => le_trans (h.past hi) hnow

/-- What the critical section does for a caller that brings a new operation. -/
structure Admits (cfg : CacheConfig) (s : State K V E) (key : K) (cache : CacheState K)
    (dropped : List K) : Prop where
  lookup : ∀ key', cache.lookup key' =
    if key' = key then some s.entries.length
    else if key' ∈ dropped then none else s.cache.lookup key'
  queue : s.cache.queue = dropped ++ cache.queue
  absent : key ∉ cache.queue
  /-- an older entry of the key has gone -/
  replaced : s.cache.lookup key ≠ none → key ∈ dropped
  size_le : cache.size ≤ cfg.capacity
  /-- others have expired, or have made room in a full cache -/
  retired : ∀ key' ∈ dropped,
    s.Expired cfg key' ∨ s.cache.lookup key = none ∧ s.cache.size = cfg.capacity

variable {key : K}

theorem completedAt_eq {i completed : ℕ} {result : Result V E}
    (hlookup : s.cache.lookup key = some i) (hresult : s.result i = some (completed, result)) :
    s.completedAt key = completed := by
  rw [State.completedAt, hlookup, Option.bind_some, hresult]

variable {key' : K}

/-- Keys in front of an expired one have expired too. -/
theorem Consistent.expired_of_before (h : Consistent cfg s) {before after : List K}
    (hqueue : s.cache.queue = before ++ key :: after) (hexpired : s.Expired cfg key)
    (hkey' : key' ∈ before ++ [key]) : s.Expired cfg key' := by
  rcases List.mem_append.mp hkey' with hbefore | hself
  · obtain ⟨i, completed, result, hi, hresult, -, helapsed⟩ := hexpired
    have hmem : key' ∈ s.cache.queue := hqueue ▸ List.mem_append_left _ hbefore
    obtain ⟨j, hj, completed', result', hresult', hdeterminate⟩ := (h.queued key').mp hmem
    have hsorted := h.sorted
    rw [hqueue] at hsorted
    have hle : s.completedAt key' ≤ s.completedAt key :=
      (List.pairwise_append.mp hsorted).2.2 key' hbefore key List.mem_cons_self
    rw [completedAt_eq hi hresult, completedAt_eq hj hresult'] at hle
    exact ⟨j, completed', result', hj, hresult', hdeterminate, by omega⟩
  · rw [List.mem_singleton.mp hself]
    exact hexpired

theorem expired_of_not_isLive {i : ℕ} (hlookup : s.cache.lookup key = some i)
    (hnot : ¬ IsLive cfg.ttl s.now (s.result i)) : s.Expired cfg key := by
  match hresult : s.result i with
  | none => exact absurd (hresult ▸ trivial) hnot
  | some (completed, result) =>
    rw [hresult, IsLive, not_or, not_lt] at hnot
    exact ⟨i, completed, result, hlookup, hresult, hnot⟩

section

variable (h : Consistent cfg s)

include h

theorem Expired.mem_queue (hexpired : s.Expired cfg key) : key ∈ s.cache.queue := by
  obtain ⟨i, completed, result, hi, hresult, hdeterminate, -⟩ := hexpired
  exact (h.queued key).mpr ⟨i, hi, completed, result, hresult, hdeterminate⟩

/-- The key is in the cache with an expired result. -/
theorem admits_expired {i : ℕ} (hlookup : s.cache.lookup key = some i)
    (hexpired : s.Expired cfg key) :
    ∃ dropped, Admits cfg s key
      ((QueuedMap.dropThrough key s.cache.entries s.cache.queue).insert key s.entries.length)
      dropped := by
  obtain ⟨before, after, hqueue, hnotBefore⟩ :=
    List.eq_append_cons_of_mem (Expired.mem_queue h hexpired)
  have hdrops : QueuedMap.Drops s.cache
      (QueuedMap.dropThrough key s.cache.entries s.cache.queue) (before ++ [key]) := by
    have hdrops := @QueuedMap.drops_dropThrough _ _ _ key before after hnotBefore s.cache.entries
    rwa [← hqueue] at hdrops
  have hrest : (QueuedMap.dropThrough key s.cache.entries s.cache.queue).queue = after := by
    have heq := hqueue.symm.trans hdrops.queue
    rw [List.append_assoc] at heq
    exact (List.cons.inj (List.append_cancel_left heq)).2.symm
  have hnodup := h.nodup
  rw [hqueue] at hnodup
  refine ⟨before ++ [key], fun key' => ?_, hdrops.queue, ?_, fun _ => by simp, ?_,
    fun key' hkey' => ?_⟩
  · rw [QueuedMap.lookup_insert, hdrops.lookup]
  · change key ∉ (QueuedMap.dropThrough key s.cache.entries s.cache.queue).queue
    rw [hrest]
    exact (List.nodup_cons.mp (List.nodup_append.mp hnodup).2.1).1
  · have hroom := hdrops.size_lt (List.mem_append_right _ (List.mem_singleton_self key))
      (by rw [hlookup]; nofun)
    have hinsert := QueuedMap.size_insert_le
      (QueuedMap.dropThrough key s.cache.entries s.cache.queue) key s.entries.length
    have hle := h.size_le
    omega
  · exact .inl (h.expired_of_before hqueue hexpired hkey')

theorem not_mem_queue_of_lookup (hlookup : s.cache.lookup key = none) : key ∉ s.cache.queue := by
  intro hmem
  obtain ⟨i, hi, -⟩ := (h.queued key).mp hmem
  exact nomatch hlookup.symm.trans hi

/-- The key is not in the cache, and there is room for it. -/
theorem admits_room (hlookup : s.cache.lookup key = none) (hroom : s.cache.size < cfg.capacity) :
    Admits cfg s key (s.cache.insert key s.entries.length) [] where
  lookup key' := by
    rw [QueuedMap.lookup_insert]
    simp
  queue := rfl
  absent := not_mem_queue_of_lookup h hlookup
  replaced hne := absurd hlookup hne
  size_le := le_trans (QueuedMap.size_insert_le s.cache key s.entries.length) hroom
  retired := nofun

variable {cache : CacheState K}

/-- The key is not in a full cache, and the oldest completed one has made room. -/
theorem admits_evicting {oldest : K} (hlookup : s.cache.lookup key = none)
    (hfull : cfg.capacity ≤ s.cache.size) (holdest : oldest ∈ s.cache.queue)
    (hdrops : QueuedMap.Drops s.cache cache [oldest]) :
    Admits cfg s key (cache.insert key s.entries.length) [oldest] where
  lookup key' := by rw [QueuedMap.lookup_insert, hdrops.lookup]
  queue := hdrops.queue
  absent hmem := by
    refine not_mem_queue_of_lookup h hlookup ?_
    rw [hdrops.queue]
    exact List.mem_append_right _ hmem
  replaced hne := absurd hlookup hne
  size_le := by
    obtain ⟨i, hi, -⟩ := (h.queued oldest).mp holdest
    have hroom := hdrops.size_lt (List.mem_singleton_self oldest) (by rw [hi]; nofun)
    have hinsert := QueuedMap.size_insert_le cache key s.entries.length
    have hle := h.size_le
    omega
  retired _ _ := .inr ⟨hlookup, le_antisymm h.size_le hfull⟩

/-- The three ways through the critical section of `execute`. -/
theorem criticalSection_cases (key : K) :
    (∃ i, s.cache.lookup key = some i ∧ s.criticalSection cfg key = (s.cache, .attached i true)) ∨
    (∃ cache dropped, s.criticalSection cfg key = (cache, .attached s.entries.length false) ∧
      Admits cfg s key cache dropped) ∨
    (s.criticalSection cfg key = (s.cache, .overloaded) ∧ s.cache.lookup key = none ∧
      s.cache.size = cfg.capacity ∧ s.cache.queue = []) := by
  unfold State.criticalSection
  split
  · rename_i i hlookup
    split_ifs with hlive
    · exact .inl ⟨i, hlookup, rfl⟩
    · obtain ⟨dropped, hadmits⟩ := admits_expired h hlookup (expired_of_not_isLive hlookup hlive)
      exact .inr (.inl ⟨_, dropped, rfl, hadmits⟩)
  · rename_i hlookup
    split_ifs with hfull
    -- without a determinate result there is nothing to evict
    · rcases hqueue : s.cache.queue with _ | ⟨oldest, rest⟩
      · refine .inr (.inr ⟨?_, hlookup, le_antisymm h.size_le hfull, rfl⟩)
        rw [QueuedMap.dropOldest, ← hqueue]
      · have hmem : oldest ∈ s.cache.queue := hqueue ▸ List.mem_cons_self
        obtain ⟨i, hi, -⟩ := (h.queued oldest).mp hmem
        have hentry : oldest ∈ s.cache.entries :=
          AList.lookup_isSome.mp (Option.isSome_iff_exists.mpr ⟨i, hi⟩)
        obtain ⟨cache, hdrop, hdrops⟩ := @QueuedMap.drops_dropOldest _ _ _ _ oldest rest hentry
        rw [← hqueue] at hdrops
        rw [hdrop]
        exact .inr (.inl ⟨_, _, rfl, admits_evicting h hlookup hfull hmem hdrops⟩)
    · exact .inr (.inl ⟨_, [], rfl, admits_room h hlookup (not_le.mp hfull)⟩)

end

omit [DecidableEq K] in
/-- A new entry has no result yet. -/
theorem result_of_append (hentries : t.entries = s.entries ++ [⟨key, none⟩]) :
    t.result = s.result := by
  funext i
  rw [State.result, State.result, hentries, List.getElem?_append]
  split_ifs with hlt
  · rfl
  · rw [List.getElem?_eq_none (not_lt.mp hlt), List.getElem?_singleton]
    split_ifs <;> rfl

variable {dropped : List K}

/-- A key that leaves has a determinate result. -/
theorem Admits.determinate (h : Consistent cfg s) (hadmits : Admits cfg s key cache dropped)
    (hkey' : key' ∈ dropped) {i : ℕ} (hlookup : s.cache.lookup key' = some i) :
    s.Determinate i := by
  have hmem : key' ∈ s.cache.queue := hadmits.queue ▸ List.mem_append_left _ hkey'
  obtain ⟨j, hj, hdeterminate⟩ := (h.queued key').mp hmem
  obtain rfl := Option.mem_unique hlookup hj
  exact hdeterminate

/-- An entry that stays is found where it was. -/
theorem Admits.lookup_of_not_determinate (h : Consistent cfg s)
    (hadmits : Admits cfg s key cache dropped) {i : ℕ} (hlookup : s.cache.lookup key' = some i)
    (hnot : ¬ s.Determinate i) : cache.lookup key' = some i := by
  have hstays : key' ∉ dropped := fun hmem => hnot (hadmits.determinate h hmem hlookup)
  have hne : key' ≠ key := by
    rintro rfl
    exact hstays (hadmits.replaced (by rw [hlookup]; nofun))
  rw [hadmits.lookup, if_neg hne, if_neg hstays, hlookup]

theorem consistent_of_admits (h : Consistent cfg s) (hadmits : Admits cfg s key cache dropped)
    (hcache : t.cache = cache) (hentries : t.entries = s.entries ++ [⟨key, none⟩])
    (hnow : t.now = s.now) : Consistent cfg t := by
  subst hcache
  have hresult := result_of_append hentries
  have hdeterminate : t.Determinate = s.Determinate := by
    funext i
    rw [State.Determinate, hresult, State.Determinate]
  have hnodup := h.nodup
  rw [hadmits.queue, List.nodup_append] at hnodup
  obtain ⟨-, hnodup, hdisjoint⟩ := hnodup
  -- a key that is still queued is found where it was
  have hstays : ∀ key' ∈ t.cache.queue, t.cache.lookup key' = s.cache.lookup key' := by
    intro key' hmem
    have hne : key' ≠ key := fun heq => hadmits.absent (heq ▸ hmem)
    have hnot : key' ∉ dropped := fun hdropped => hdisjoint key' hdropped key' hmem rfl
    rw [hadmits.lookup, if_neg hne, if_neg hnot]
  have hcases : ∀ {i : ℕ} {entry : Entry K V E}, t.entries[i]? = some entry →
      s.entries[i]? = some entry ∨ i = s.entries.length ∧ entry = ⟨key, none⟩ := by
    intro i entry hi
    rw [hentries, List.getElem?_concat_eq_some] at hi
    exact hi.imp_right fun ⟨hlast, hnew⟩ => ⟨hlast, hnew.symm⟩
  refine ⟨hadmits.size_le, ?_, ?_, ?_, hnodup, fun key' => ⟨fun hmem => ?_, ?_⟩, ?_, ?_⟩
  · intro key' i hi
    rw [hadmits.lookup] at hi
    split_ifs at hi with hkey hdropped
    · cases hi
      exact ⟨⟨key, none⟩, by rw [hentries, List.getElem?_concat_length], hkey.symm⟩
    · obtain ⟨entry, hentry, hkey⟩ := h.known hi
      refine ⟨entry, ?_, hkey⟩
      rw [hentries, List.getElem?_append_left (List.getElem?_eq_some_iff.mp hentry).1, hentry]
  · intro i entry hi j hj
    rw [hadmits.lookup] at hj
    rcases hcases hi with hi | ⟨rfl, rfl⟩
    · split_ifs at hj with hkey hdropped
      · cases hj
        exact Nat.le_of_lt (List.getElem?_eq_some_iff.mp hi).1
      · exact h.latest hi hj
    · rw [if_pos rfl] at hj
      exact Nat.le_of_eq (Option.some.inj hj)
  · intro i entry hi hnot
    rw [hdeterminate] at hnot
    rcases hcases hi with hi | ⟨rfl, rfl⟩
    · exact hadmits.lookup_of_not_determinate h (h.kept hi hnot) hnot
    · rw [hadmits.lookup, if_pos rfl]
  · have hmem' : key' ∈ s.cache.queue := hadmits.queue ▸ List.mem_append_right _ hmem
    rw [hstays key' hmem, hdeterminate]
    exact (h.queued key').mp hmem'
  · rintro ⟨i, hi, hdet⟩
    rw [hdeterminate] at hdet
    rw [hadmits.lookup] at hi
    split_ifs at hi with hkey hdropped
    · -- the new entry is not determinate
      cases hi
      obtain ⟨completed, result, hsome, -⟩ := hdet
      rw [State.result, List.getElem?_eq_none le_rfl] at hsome
      cases hsome
    · have hmem : key' ∈ s.cache.queue := (h.queued key').mpr ⟨i, hi, hdet⟩
      rw [hadmits.queue] at hmem
      exact (List.mem_append.mp hmem).resolve_left hdropped
  · have hsorted := h.sorted
    rw [hadmits.queue] at hsorted
    refine (List.pairwise_append.mp hsorted).2.1.imp_of_mem fun hmem hmem' hle => ?_
    rw [State.completedAt, State.completedAt, hstays _ hmem, hstays _ hmem', hresult]
    exact hle
  · intro i completed result hi
    rw [hresult] at hi
    rw [hnow]
    exact h.past hi

omit [DecidableEq K] in
/-- One result is set. -/
theorem result_of_set {i : ℕ} {entry entry' : Entry K V E} (hentry : s.entries[i]? = some entry)
    (hentries : t.entries = s.entries.set i entry') (j : ℕ) :
    t.result j = if j = i then entry'.result else s.result j := by
  have hlt := (List.getElem?_eq_some_iff.mp hentry).1
  rw [State.result, hentries, List.getElem?_set]
  by_cases heq : j = i
  · rw [if_pos heq.symm, if_pos (heq ▸ hlt), if_pos heq]
    rfl
  · rw [if_neg (Ne.symm heq), if_neg heq]
    rfl

/-- What the worker does to the entry and the cache when it sets the result. -/
structure Publishes (s t : State K V E) (i : ℕ) (entry : Entry K V E) (result : Result V E) :
    Prop where
  entries : t.entries = s.entries.set i { entry with result := some (s.now, result) }
  cache : t.cache = if IsIndeterminate result then s.cache else s.cache.enqueue entry.key
  now : t.now = s.now

section Publishes

variable {i : ℕ} {entry : Entry K V E} {result : Result V E}

theorem Publishes.lookup (h : Publishes s t i entry result) (key : K) :
    t.cache.lookup key = s.cache.lookup key := by
  rw [h.cache]
  split_ifs <;> rfl

omit [DecidableEq K] in
theorem Publishes.determinate_iff (h : Publishes s t i entry result)
    (hentry : s.entries[i]? = some entry) (hpending : entry.result = none) (j : ℕ) :
    t.Determinate j ↔ s.Determinate j ∨ j = i ∧ ¬ IsIndeterminate result := by
  have hnone : s.result i = none := by rw [State.result, hentry, Option.bind_some, hpending]
  rw [State.Determinate, result_of_set hentry h.entries, State.Determinate]
  by_cases hj : j = i
  · subst hj
    simp [hnone]
  · simp [hj]

omit [DecidableEq K] in
theorem Publishes.getElem? (h : Publishes s t i entry result)
    (hentry : s.entries[i]? = some entry) {j : ℕ} {entry' : Entry K V E}
    (hj : t.entries[j]? = some entry') :
    ∃ original, s.entries[j]? = some original ∧ original.key = entry'.key := by
  rw [h.entries, List.getElem?_set] at hj
  split_ifs at hj with heq hlt
  · subst heq
    cases hj
    exact ⟨entry, hentry, rfl⟩
  · exact ⟨entry', hj, rfl⟩

theorem consistent_of_publishes (h : Consistent cfg s) (hpublishes : Publishes s t i entry result)
    (hentry : s.entries[i]? = some entry) (hpending : entry.result = none) : Consistent cfg t := by
  have hnone : s.result i = none := by rw [State.result, hentry, Option.bind_some, hpending]
  have hnot : ¬ s.Determinate i := fun ⟨_, _, hsome, _⟩ => nomatch hnone.symm.trans hsome
  have hlookup : s.cache.lookup entry.key = some i := h.kept hentry hnot
  have hdeterminate := hpublishes.determinate_iff hentry hpending
  have hfound : ∀ {key}, s.cache.lookup key = some i ↔ key = entry.key := by
    refine fun {key} => ⟨fun hkey => ?_, fun hkey => hkey ▸ hlookup⟩
    obtain ⟨original, horiginal, rfl⟩ := h.known hkey
    rw [Option.mem_unique hentry horiginal]
  -- the key of a pending entry is queued once it completes, and not before
  have hfresh : entry.key ∉ s.cache.queue := by
    intro hmem
    obtain ⟨j, hj, hdet⟩ := (h.queued _).mp hmem
    exact hnot (Option.mem_unique hlookup hj ▸ hdet)
  -- the instants of the other keys stay
  have hcompleted : ∀ key ∈ s.cache.queue, t.completedAt key = s.completedAt key := by
    intro key hmem
    obtain ⟨j, hj, completed, answer, hanswer, -⟩ := (h.queued key).mp hmem
    have hne : j ≠ i := by
      rintro rfl
      exact nomatch hnone.symm.trans hanswer
    have hsame : t.result j = some (completed, answer) := by
      rw [result_of_set hentry hpublishes.entries, if_neg hne, hanswer]
    rw [completedAt_eq hj hanswer, completedAt_eq ((hpublishes.lookup key).trans hj) hsame]
  refine ⟨?_, ?_, ?_, ?_, ?_, ?_, ?_, ?_⟩
  · rw [hpublishes.cache]
    split_ifs <;> exact h.size_le
  · intro key j hj
    rw [hpublishes.lookup] at hj
    obtain ⟨original, horiginal, hkey⟩ := h.known hj
    rw [hpublishes.entries, List.getElem?_set]
    split_ifs with heq hlt
    · subst heq
      exact ⟨_, rfl, Option.mem_unique hentry horiginal ▸ hkey⟩
    · exact absurd (List.getElem?_eq_some_iff.mp hentry).1 hlt
    · exact ⟨original, horiginal, hkey⟩
  · intro j entry' hj k hk
    obtain ⟨original, horiginal, hkey⟩ := hpublishes.getElem? hentry hj
    rw [hpublishes.lookup, ← hkey] at hk
    exact h.latest horiginal hk
  · intro j entry' hj hnotj
    obtain ⟨original, horiginal, hkey⟩ := hpublishes.getElem? hentry hj
    rw [hpublishes.lookup, ← hkey]
    exact h.kept horiginal fun hdet => hnotj ((hdeterminate j).mpr (.inl hdet))
  · rw [hpublishes.cache]
    split_ifs
    · exact h.nodup
    · exact List.nodup_append.mpr ⟨h.nodup, List.nodup_singleton _, fun key hmem key' hmem' heq =>
        hfresh (List.mem_singleton.mp hmem' ▸ heq ▸ hmem)⟩
  · intro key
    simp only [hpublishes.lookup, hdeterminate, and_or_left, exists_or, ← h.queued]
    rw [hpublishes.cache]
    split_ifs with hindeterminate
    · simp [hindeterminate]
    · simp only [QueuedMap.enqueue, List.mem_append, List.mem_singleton, hindeterminate,
        not_false_eq_true, and_true, exists_eq_right, hfound]
  · rw [hpublishes.cache]
    have hsorted : s.cache.queue.Pairwise fun key key' => t.completedAt key ≤ t.completedAt key' :=
      h.sorted.imp_of_mem fun hmem hmem' hle => by
        rw [hcompleted _ hmem, hcompleted _ hmem']
        exact hle
    split_ifs
    · exact hsorted
    · refine List.pairwise_append.mpr ⟨hsorted, List.pairwise_singleton _ _, ?_⟩
      intro key hmem key' hmem'
      rw [List.mem_singleton.mp hmem', hcompleted key hmem]
      obtain ⟨j, hj, completed, answer, hanswer, -⟩ := (h.queued key).mp hmem
      -- time does not run back, so the newest completion goes last
      have hlast : t.result i = some (s.now, result) := by
        rw [result_of_set hentry hpublishes.entries, if_pos rfl]
      rw [completedAt_eq ((hpublishes.lookup _).trans hlookup) hlast, completedAt_eq hj hanswer]
      exact h.past hanswer
  · intro j completed answer hj
    rw [result_of_set hentry hpublishes.entries] at hj
    rw [hpublishes.now]
    split_ifs at hj
    · cases hj
      exact le_rfl
    · exact h.past hj

end Publishes

end Cache

end MoonLightBridge.Server.Idempotency
