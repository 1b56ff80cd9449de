import SimplyTransport.DatabaseStatistics
import SimplyTransport.DelayQueries
import SimplyTransport.Retention
import SimplyTransport.Transition

/-!
# Cleaning up the delays

Recordings append rows, and clean-ups delete the rows that are older than half a year at the time
at which a clean-up began. The queries of the delays and the statistics look back no further, from
the time at which they are made, so that a query finds what it would find if nothing had ever been
deleted, unless a clean-up that began later has overtaken it or the clock has been set back.
-/

namespace SimplyTransport.DelayRetention

open Retention Transition

def cleanupDelaysAfterDays : ℕ := 180

def cutoffTime (now : DateTime) : DateTime := now.addSeconds (-(cleanupDelaysAfterDays * 86400))

def defaultBulkInsertBatchSize : ℕ := 3000

/-- `bulk_insert`, an `INSERT` for each batch in one transaction. -/
def bulkInsert (table rows : List TSStopTimeRow) : List TSStopTimeRow :=
  (slices defaultBulkInsertBatchSize rows).foldl (fun table batch => table ++ batch) table

def dictRows (recordedAt : DateTime) (rows : List (TSStopTimeModel × Option DateTime)) :
    List TSStopTimeRow := rows.map (fun row => ⟨row.1, row.2.getD recordedAt⟩)

def bulkInsertDelayRecords (now : DateTime) (rows : List (TSStopTimeModel × Option DateTime))
    (table : List TSStopTimeRow) : List TSStopTimeRow :=
  if rows = [] then table else bulkInsert table (dictRows now rows)

def deleteOldDelays (cutoff : DateTime) (table : List TSStopTimeRow) : List TSStopTimeRow × ℕ :=
  (table.filter (fun row => !decide (row.timestamp < cutoff)),
    (table.filter (fun row => decide (row.timestamp < cutoff))).length)

def getTotalDelayRecordCount (table : List TSStopTimeRow) : ℕ := table.length

/-- `log` has every row that was ever inserted, `begun` the cut-offs of the clean-ups that have
begun and `executed` of those that have deleted their rows. -/
structure State where
  now : DateTime
  table : List TSStopTimeRow
  log : List TSStopTimeRow
  begun : List DateTime
  executed : List DateTime
  returned : List ℕ

inductive Event
  | setClock (now : DateTime)
  | record (rows : List (TSStopTimeModel × Option DateTime))
  | beginCleanup
  | delete (k : ℕ)
  | fail (k : ℕ)

def next (s : State) : Event → Option State
  | .setClock now => some { s with now }
  | .record rows => some { s with
      table := bulkInsertDelayRecords s.now rows s.table
      log := bulkInsertDelayRecords s.now rows s.log }
  | .beginCleanup => some { s with begun := cutoffTime s.now :: s.begun }
  | .delete k =>
      match s.begun[k]? with
      | some cutoff => some { s with
          table := (deleteOldDelays cutoff s.table).1
          begun := s.begun.eraseIdx k
          executed := cutoff :: s.executed
          returned := (deleteOldDelays cutoff s.table).2 :: s.returned }
      | none => none
  | .fail k => some { s with begun := s.begun.eraseIdx k }

def State.start (now : DateTime) (rows : List TSStopTimeRow) : State :=
  ⟨now, rows, rows, [], [], []⟩

def Forward (s : State) : Event → Prop
  | .setClock now => s.now ≤ now
  | _ => True

section Retained

/-- No clean-up that has deleted its rows has taken this one. -/
def Spared (executed : List DateTime) (row : TSStopTimeRow) : Prop :=
  ∀ cutoff ∈ executed, cutoff ≤ row.timestamp

/-- The table has every row that is young enough, and the numbers that clean-ups return add up to
the rows that it has lost. -/
structure Cleaned (s : State) : Prop where
  retains : Retains (Spared s.executed) s.table s.log
  count : getTotalDelayRecordCount s.table + s.returned.sum = getTotalDelayRecordCount s.log

theorem bulkInsertDelayRecords_eq (now : DateTime)
    (rows : List (TSStopTimeModel × Option DateTime)) (table : List TSStopTimeRow) :
    bulkInsertDelayRecords now rows table = table ++ dictRows now rows := by
  have happend : ∀ (batches : List (List TSStopTimeRow)) (table : List TSStopTimeRow),
      batches.foldl (fun table batch => table ++ batch) table = table ++ batches.flatten := by
    intro batches
    induction batches with
    | nil => exact fun table => (List.append_nil table).symm
    | cons batch batches ih =>
        intro table
        rw [List.foldl_cons, ih, List.flatten_cons, List.append_assoc]
  unfold bulkInsertDelayRecords
  split_ifs with hrows
  · rw [hrows]
    exact (List.append_nil table).symm
  · rw [bulkInsert, happend, flatten_slices (by decide)]

theorem cleaned_next {s t : State} {e : Event} (h : Cleaned s) (hnext : next s e = some t) :
    Cleaned t := by
  cases e with
  | setClock now =>
      obtain rfl := Option.some.inj hnext
      exact ⟨h.retains, h.count⟩
  | record rows =>
      obtain rfl := Option.some.inj hnext
      constructor
      · change Retains _ (bulkInsertDelayRecords s.now rows s.table)
          (bulkInsertDelayRecords s.now rows s.log)
        rw [bulkInsertDelayRecords_eq, bulkInsertDelayRecords_eq]
        exact h.retains.append _
      · have hcount := h.count
        unfold getTotalDelayRecordCount at *
        dsimp only
        rw [bulkInsertDelayRecords_eq, bulkInsertDelayRecords_eq, List.length_append,
          List.length_append]
        omega
  | beginCleanup =>
      obtain rfl := Option.some.inj hnext
      exact ⟨h.retains, h.count⟩
  | delete k =>
      simp only [next] at hnext
      split at hnext
      · rename_i cutoff hcutoff
        obtain rfl := Option.some.inj hnext
        constructor
        · apply h.retains.delete
          · exact fun row hrow c hc => hrow c (List.mem_cons_of_mem _ hc)
          · exact fun row _ hrow => decide_eq_false (not_lt.2 (hrow cutoff List.mem_cons_self))
        · have hcount := h.count
          have hsplit := length_filter_add (fun row => decide (row.timestamp < cutoff)) s.table
          unfold getTotalDelayRecordCount at *
          unfold deleteOldDelays
          rw [List.sum_cons]
          dsimp only
          omega
      · cases hnext
  | fail k =>
      obtain rfl := Option.some.inj hnext
      exact ⟨h.retains, h.count⟩

theorem cleaned_run {s t : State} (h : Cleaned s) (hrun : Run next s t) : Cleaned t :=
  hrun.invariant h (fun _ _ _ h hnext => cleaned_next h hnext)

theorem cleaned_start (now : DateTime) (rows : List TSStopTimeRow) :
    Cleaned (State.start now rows) := ⟨Retains.refl _ _, rfl⟩

end Retained

section Queries

/-- A query that is made at a time and finds in the table what it would find in the log. -/
structure QueriesRetained {F : Type} (S : DelayQueries.SqlAggregates F) (table log : List TSStopTimeRow)
    (now : DateTime) : Prop where
  aggregated : ∀ routeCode stopId scheduledTime startTime endTime,
    DelayQueries.getAggregatedDelayOnStopOnRouteOnTime S table now routeCode stopId scheduledTime
        startTime endTime =
      DelayQueries.getAggregatedDelayOnStopOnRouteOnTime S log now routeCode stopId scheduledTime
        startTime endTime
  listed : ∀ routeCode stopId scheduledTime startTime endTime,
    DelayQueries.getDelayOnStopOnRouteOnTime table now routeCode stopId scheduledTime startTime
        endTime =
      DelayQueries.getDelayOnStopOnRouteOnTime log now routeCode stopId scheduledTime startTime
        endTime
  graph : ∀ routeCode stopId scheduledTime startTime endTime,
    DelayQueries.getTruncatedDelayOnStopOnRouteOnTime table now routeCode stopId scheduledTime
        startTime endTime =
      DelayQueries.getTruncatedDelayOnStopOnRouteOnTime log now routeCode stopId scheduledTime
        startTime endTime
  statistics : ∀ {φ : Type} (sources : StatisticsSources φ),
    statisticCounts { sources with delays := table, now } =
      statisticCounts { sources with delays := log, now }

variable {executed : List DateTime} {table log : List TSStopTimeRow} {now : DateTime}

theorem spared_of_lt {row : TSStopTimeRow} (h : ∀ cutoff ∈ executed, cutoff ≤ cutoffTime now)
    (hrow : maximumTimestamp now < row.timestamp) : Spared executed row :=
  fun cutoff hcutoff => (h cutoff hcutoff).trans hrow.le

theorem sampleRows_retained (h : Retains (Spared executed) table log)
    (hspared : ∀ cutoff ∈ executed, cutoff ≤ cutoffTime now) (routeCode stopId : String)
    (scheduledTime : Time) (startTime endTime : Option DateTime) :
    DelayQueries.sampleRows table now routeCode stopId scheduledTime startTime endTime =
      DelayQueries.sampleRows log now routeCode stopId scheduledTime startTime endTime := by
  unfold DelayQueries.sampleRows newestRows
  rw [h.filter_eq]
  intro row hrow
  rw [decide_eq_true_eq] at hrow
  exact spared_of_lt hspared hrow.2.2.2.1

theorem aggregated_retained {α : Type} (h : Retains (Spared executed) table log)
    (hspared : ∀ cutoff ∈ executed, cutoff ≤ cutoffTime now) (q : DelayConditions)
    (aggregate : List ℤ → α) :
    getAggregatedDelay table now q aggregate = getAggregatedDelay log now q aggregate := by
  unfold getAggregatedDelay
  rw [h.filter_eq]
  intro row hrow
  exact spared_of_lt hspared (DelayConditions.hold_iff.1 hrow).2.1

/-- The statistics count the records of at most thirty days. -/
theorem recordCounts_retained {φ : Type} (h : Retains (Spared executed) table log)
    (hspared : ∀ cutoff ∈ executed, cutoff ≤ cutoffTime now) (sources : StatisticsSources φ)
    {hours : ℕ} (hhours : hours ≤ 24 * 30) :
    getDelayRecordCountsForLastNHours { sources with delays := table, now } hours =
      getDelayRecordCountsForLastNHours { sources with delays := log, now } hours := by
  unfold getDelayRecordCountsForLastNHours
  dsimp only
  rw [h.filter_eq]
  intro row hrow
  apply spared_of_lt hspared
  rw [decide_eq_true_eq, gt_iff_lt, DateTime.lt_iff] at hrow
  rw [DateTime.lt_iff]
  unfold maximumTimestamp maximumLimit
  unfold DateTime.addSeconds DateTime.addMicros at *
  dsimp only at *
  omega

theorem queriesRetained {F : Type} (S : DelayQueries.SqlAggregates F)
    (h : Retains (Spared executed) table log)
    (hspared : ∀ cutoff ∈ executed, cutoff ≤ cutoffTime now) :
    QueriesRetained S table log now where
  aggregated routeCode stopId scheduledTime startTime endTime := by
    unfold DelayQueries.getAggregatedDelayOnStopOnRouteOnTime
    rw [aggregated_retained h hspared]
  listed routeCode stopId scheduledTime startTime endTime := by
    unfold DelayQueries.getDelayOnStopOnRouteOnTime
    simp only [sampleRows_retained h hspared]
  graph routeCode stopId scheduledTime startTime endTime := by
    unfold DelayQueries.getTruncatedDelayOnStopOnRouteOnTime
    simp only [sampleRows_retained h hspared]
  statistics sources := by
    have hday := recordCounts_retained h hspared sources (show 24 ≤ 24 * 30 by omega)
    have hweek := recordCounts_retained h hspared sources (show 24 * 7 ≤ 24 * 30 by omega)
    have hmonth := recordCounts_retained h hspared sources (le_refl (24 * 30))
    rw [statisticCounts, statisticCounts, hday, hweek, hmonth]
    rfl

end Queries

section Runs

def BegunBefore (s : State) : Prop :=
  (∀ cutoff ∈ s.begun, cutoff ≤ cutoffTime s.now) ∧ ∀ cutoff ∈ s.executed, cutoff ≤ cutoffTime s.now

theorem cutoffTime_mono {now now' : DateTime} (h : now ≤ now') : cutoffTime now ≤ cutoffTime now' := by
  rw [DateTime.le_iff] at *
  unfold cutoffTime DateTime.addSeconds DateTime.addMicros
  dsimp only
  omega

theorem begunBefore_next {s t : State} {e : Event} (h : BegunBefore s) (hforward : Forward s e)
    (hnext : next s e = some t) : BegunBefore t := by
  cases e with
  | setClock now =>
      obtain rfl := Option.some.inj hnext
      have hle := cutoffTime_mono hforward
      exact ⟨fun c hc => (h.1 c hc).trans hle, fun c hc => (h.2 c hc).trans hle⟩
  | record rows =>
      obtain rfl := Option.some.inj hnext
      exact h
  | beginCleanup =>
      obtain rfl := Option.some.inj hnext
      refine ⟨fun c hc => ?_, h.2⟩
      rcases List.mem_cons.1 hc with rfl | hc
      · exact le_rfl
      · exact h.1 c hc
  | delete k =>
      simp only [next] at hnext
      split at hnext
      · rename_i cutoff hcutoff
        obtain rfl := Option.some.inj hnext
        refine ⟨fun c hc => h.1 c (List.mem_of_mem_eraseIdx hc), fun c hc => ?_⟩
        rcases List.mem_cons.1 hc with rfl | hc
        · exact h.1 c (List.mem_of_getElem? hcutoff)
        · exact h.2 c hc
      · cases hnext
  | fail k =>
      obtain rfl := Option.some.inj hnext
      exact ⟨fun c hc => h.1 c (List.mem_of_mem_eraseIdx hc), h.2⟩

/-- Clean-ups change no answer: of a query that no clean-up which began later has overtaken, and of
every query from now on where the clock has never been set back. -/
structure SurvivesCleanup {F : Type} (S : DelayQueries.SqlAggregates F) (start s : State) :
    Prop where
  answers : ∀ now, (∀ cutoff ∈ s.executed, cutoff ≤ cutoffTime now) →
    QueriesRetained S s.table s.log now
  forward : RunWhile next Forward start s → ∀ now, s.now ≤ now →
    QueriesRetained S s.table s.log now
  lost : ∀ row ∈ s.log, row ∉ s.table → ∃ cutoff ∈ s.executed, row.timestamp < cutoff
  counted : getTotalDelayRecordCount s.table + s.returned.sum = getTotalDelayRecordCount s.log

/-- In every run of recordings and of clean-ups that overtake each other. -/
theorem queries_survive_cleanup {F : Type} (S : DelayQueries.SqlAggregates F) (now : DateTime)
    (rows : List TSStopTimeRow) (s : State) (hrun : Run next (State.start now rows) s) :
    SurvivesCleanup S (State.start now rows) s := by
  have hcleaned := cleaned_run (cleaned_start now rows) hrun
  refine ⟨fun now hspared => queriesRetained S hcleaned.retains hspared, fun hforward now hnow => ?_,
    fun row hrow hlost => ?_, hcleaned.count⟩
  · have hbegun : BegunBefore s := hforward.invariant
      ⟨fun c hc => absurd hc List.not_mem_nil, fun c hc => absurd hc List.not_mem_nil⟩
      (fun _ _ _ h hC hnext => begunBefore_next h hC hnext)
    exact queriesRetained S hcleaned.retains
      (fun c hc => (hbegun.2 c hc).trans (cutoffTime_mono hnow))
  · by_contra hnone
    push Not at hnone
    exact hlost (hcleaned.retains.mem hrow hnone)

def sampleRecord : TSStopTimeModel := ⟨"8220DB000002", "46A", Time.midnight, 60⟩

def sampleStart : State := State.start ⟨63840000000000000⟩ [⟨sampleRecord, ⟨63840000000000000⟩⟩]

/-- The clean-up of 331 days later begins before another record and deletes after it. -/
def sampleEvents : List Event :=
  [.setClock ⟨63868608000000000⟩, .beginCleanup, .record [(sampleRecord, none)], .delete 0]

theorem sampleEvents_execute : (exec next sampleStart sampleEvents).isSome := by
  decide +kernel

theorem queries_survive_cleanup_sample : SurvivesCleanup singleDelayAggregates sampleStart
    ((exec next sampleStart sampleEvents).get sampleEvents_execute) :=
  queries_survive_cleanup singleDelayAggregates ⟨63840000000000000⟩
    [⟨sampleRecord, ⟨63840000000000000⟩⟩] _ (run_of_exec (exec_get sampleEvents sampleEvents_execute))

end Runs

end SimplyTransport.DelayRetention
