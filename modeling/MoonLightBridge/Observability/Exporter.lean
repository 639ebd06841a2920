import Mathlib.Algebra.Order.Ring.Int
import Mathlib.Data.List.Induction
import Mathlib.Data.UInt

/-!
# The exporter of metrics

`PrometheusSnapshotExporter` turns cumulative snapshots into increments. It remembers the
snapshot that it has applied last, and adds to each counter what the next one has more. If a
snapshot is smaller than one before it, nothing is added, but it is the one remembered; what it
lacks is then counted a second time with the next snapshot.
-/

namespace MoonLightBridge.Observability

structure MetricsSnapshot where
  started : UInt64
  succeeded : UInt64
  failed : UInt64
  requestBytes : UInt64
  responseBytes : UInt64
  totalLatencyNanos : UInt64
  maxLatencyNanos : UInt64
  deriving DecidableEq

/-- The counters that are made from a snapshot. -/
inductive Counter
  | started
  | succeeded
  | failed
  | requestBytes
  | responseBytes
  | latencyNanos

def MetricsSnapshot.value (snapshot : MetricsSnapshot) : Counter → UInt64
  | .started => snapshot.started
  | .succeeded => snapshot.succeeded
  | .failed => snapshot.failed
  | .requestBytes => snapshot.requestBytes
  | .responseBytes => snapshot.responseBytes
  | .latencyNanos => snapshot.totalLatencyNanos

structure PrometheusSnapshotExporter where
  counters : Counter → UInt64
  maxLatencyNanos : ℤ
  exporterDrops : UInt64
  previous : MetricsSnapshot

/-- A call of `try_update`; it gets the lock unless another call has it. -/
structure Update where
  current : MetricsSnapshot
  getsLock : Bool
  deriving DecidableEq

/-- `u64::saturating_sub` -/
def saturatingSub (a b : UInt64) : UInt64 := if b ≤ a then a - b else 0

namespace PrometheusSnapshotExporter

def new : PrometheusSnapshotExporter where
  counters _ := 0
  maxLatencyNanos := 0
  exporterDrops := 0
  previous := ⟨0, 0, 0, 0, 0, 0, 0⟩

def tryUpdate (exporter : PrometheusSnapshotExporter) (update : Update) :
    PrometheusSnapshotExporter × Bool :=
  if update.getsLock then
    ({ exporter with
        counters := fun counter => exporter.counters counter +
          saturatingSub (update.current.value counter) (exporter.previous.value counter)
        maxLatencyNanos := min update.current.maxLatencyNanos.toNat (2 ^ 63 - 1)
        previous := update.current }, true)
  else ({ exporter with exporterDrops := exporter.exporterDrops + 1 }, false)

/-- The exporter after some calls. -/
def updates (w : List Update) : PrometheusSnapshotExporter :=
  w.foldl (fun exporter update => (exporter.tryUpdate update).1) new

/-- The snapshots that are not dropped. -/
def applied (w : List Update) : List MetricsSnapshot :=
  (w.filter Update.getsLock).map Update.current

variable {w : List Update} {update : Update} {counter : Counter}

theorem updates_concat : updates (w ++ [update]) = ((updates w).tryUpdate update).1 :=
  List.foldl_append

theorem applied_concat :
    applied (w ++ [update]) = applied w ++ if update.getsLock then [update.current] else [] := by
  rw [applied, List.filter_append, List.map_append]
  cases hlock : update.getsLock <;> simp [applied, hlock]

/-- What is remembered is the snapshot that was applied last. -/
theorem previous_updates (w : List Update) :
    (updates w).previous = (applied w).getLast?.getD new.previous := by
  induction w using List.reverseRecOn with
  | nil => rfl
  | append_singleton w update ih =>
    rw [updates_concat, applied_concat, tryUpdate]
    split_ifs
    · rw [List.getLast?_concat]
      rfl
    · rw [List.append_nil]
      exact ih

/-- While the snapshots grow, a counter is what the last of them says. -/
theorem counters_updates
    (h : ((applied w).map (MetricsSnapshot.value · counter)).Pairwise (· ≤ ·)) :
    (updates w).counters counter = (updates w).previous.value counter := by
  induction w using List.reverseRecOn with
  | nil => cases counter <;> rfl
  | append_singleton w update ih =>
    rw [applied_concat, List.map_append, List.pairwise_append] at h
    obtain ⟨hbefore, -, hlast⟩ := h
    have hcounter := ih hbefore
    rw [updates_concat, tryUpdate]
    split_ifs with hlock
    · -- the increment is exactly what is missing
      have hle : (updates w).previous.value counter ≤ update.current.value counter := by
        rw [previous_updates]
        cases hprevious : (applied w).getLast? with
        | none =>
          rw [Option.getD_none]
          cases counter <;> exact UInt64.zero_le
        | some previous =>
          refine hlast _ (List.mem_map_of_mem (List.mem_of_getLast? hprevious)) _ ?_
          rw [if_pos hlock]
          exact List.mem_singleton_self _
      dsimp only
      rw [hcounter, saturatingSub, if_pos hle, add_sub_cancel]
    · exact hcounter

/-- If no snapshot has less of a counter than one that was applied before it, the counter does
not exceed what any bound of the snapshots allows, and is what the last of them says. -/
theorem counter_eq_last (counter : Counter) (w : List Update)
    (h : ((applied w).map (MetricsSnapshot.value · counter)).Pairwise (· ≤ ·)) :
    (∀ bound, (∀ snapshot ∈ applied w, snapshot.value counter ≤ bound) →
      (updates w).counters counter ≤ bound) ∧
    ∀ snapshot ∈ (applied w).getLast?, (updates w).counters counter = snapshot.value counter := by
  rw [counters_updates h, previous_updates]
  cases hlast : (applied w).getLast? with
  | none =>
    refine ⟨fun bound _ => ?_, by rintro snapshot ⟨⟩⟩
    rw [Option.getD_none]
    cases counter <;> exact UInt64.zero_le
  | some last =>
    refine ⟨fun bound hbound => hbound last (List.mem_of_getLast? hlast), ?_⟩
    rintro snapshot ⟨⟩
    rfl

/-- A snapshot in which so many requests have been started. -/
def startedSnapshot (started : UInt64) : MetricsSnapshot := ⟨started, 0, 0, 0, 0, 0, 0⟩

theorem counter_eq_last_dropped :
    (updates [⟨startedSnapshot 3, true⟩, ⟨startedSnapshot 5, false⟩,
      ⟨startedSnapshot 8, true⟩]).counters .started = 8 :=
  (counter_eq_last .started [⟨startedSnapshot 3, true⟩, ⟨startedSnapshot 5, false⟩,
    ⟨startedSnapshot 8, true⟩] (by decide)).2 (startedSnapshot 8) rfl

/-- Of three snapshots the first is applied after the second. -/
def outOfOrder : List Update :=
  [⟨startedSnapshot 10, true⟩, ⟨startedSnapshot 5, true⟩, ⟨startedSnapshot 10, true⟩]

/-- Ten requests have been started, and fifteen are counted. -/
theorem counter_exceeds :
    (applied outOfOrder).Perm [startedSnapshot 5, startedSnapshot 10, startedSnapshot 10] ∧
      (∀ snapshot ∈ applied outOfOrder, snapshot.started ≤ 10) ∧
      (updates outOfOrder).counters .started = 15 := by
  decide

end PrometheusSnapshotExporter

end MoonLightBridge.Observability
