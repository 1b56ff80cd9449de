import SimplyTransport.CacheKeys
import SimplyTransport.DelaysService
import SimplyTransport.ScheduleRepo
import SimplyTransport.Transition
import Mathlib.Data.List.Nodup

/-!
# Recording of delays, run after run

A run looks its keys up, inserts the rows of the keys that are not there in one transaction, and
then sets these keys a thousand at a time. It may fail after each of these steps. The rows
inserted since a living key was set, by the run that set it and by later ones, are at most one
for each call, as long as no run finds two rows for one call that both have no key.
-/

namespace SimplyTransport.DelayRecording
open Transition

def padded (width n : ℕ) : String := "".pushn '0' (width - (toString n).length) ++ toString n

/-- `str(t)`; the fraction of a second is left out where it is zero. -/
def formatTime (t : Time) : String :=
  padded 2 t.hour ++ ":" ++ padded 2 t.minute ++ ":" ++ padded 2 t.second ++
    if t.micros % 1000000 = 0 then "" else "." ++ padded 6 (t.micros % 1000000)

def delayRecordingCacheKey (routeCode stopId : String) (scheduledTime : Time) : String :=
  "delays_recording:" ++ routeCode ++ ":" ++ stopId ++ ":" ++ formatTime scheduledTime

def call (row : TSStopTimeModel) : String × String × Time :=
  (row.routeCode, row.stopId, row.scheduledTime)

def callKey (c : String × String × Time) : String := delayRecordingCacheKey c.1 c.2.1 c.2.2

/-- A key with the run that set it; the value in Redis is empty. -/
structure RecordingKey where
  run : ℕ
  expires : DateTime

structure RecordedRow where
  record : TSStopTimeModel
  timestamp : DateTime
  run : ℕ

/-- How far the run is; `inserted` has the number of keys and those that are not set yet. -/
inductive Progress
  | idle
  | built (due : List TSStopTimeModel)
  | filtered (rows : List TSStopTimeModel)
  | inserted (count : ℕ) (keysToSet : List String)
  | returned (count : ℕ)

structure State where
  now : DateTime
  redis : String → Option RecordingKey
  table : List RecordedRow
  run : ℕ
  progress : Progress

inductive Event
  | tick (micros : ℕ)
  | start (due : List TSStopTimeModel)
  | checkKeysExist
  | bulkInsert
  | setEmptyKeys
  | finish
  | fail

namespace State

def keyExists (s : State) (key : String) : Bool := (s.redis key).any (fun e => s.now < e.expires)

def newRows (s : State) (due : List TSStopTimeModel) : List TSStopTimeModel :=
  due.filter (fun row => ¬ s.keyExists (callKey (call row)))

def insert (s : State) (rows : List TSStopTimeModel) : List RecordedRow :=
  s.table ++ rows.map (fun row => ⟨row, s.now, s.run⟩)

/-- The keys of the batch get an expiry of five minutes. -/
def setKeys (s : State) (batch : List String) : String → Option RecordingKey := fun key =>
  if key ∈ batch then some ⟨s.run, s.now.addSeconds (60 * 5)⟩ else s.redis key

end State

def batchSize : ℕ := 1000

def next (s : State) : Event → Option State
  | .tick micros => some { s with now := s.now.addMicros micros }
  | .start due =>
    match s.progress with
    | .idle | .returned _ => some { s with run := s.run + 1, progress := .built due }
    | _ => none
  | .checkKeysExist =>
    match s.progress with
    | .built due => some { s with progress := .filtered (s.newRows due) }
    | _ => none
  | .bulkInsert =>
    match s.progress with
    | .filtered rows =>
      some { s with
        table := s.insert rows
        progress := .inserted rows.length (rows.map (fun row => callKey (call row))) }
    | _ => none
  | .setEmptyKeys =>
    match s.progress with
    | .inserted _ [] => none
    | .inserted count keys =>
      some { s with
        redis := s.setKeys (keys.take batchSize)
        progress := .inserted count (keys.drop batchSize) }
    | _ => none
  | .finish =>
    match s.progress with
    | .inserted count [] => some { s with progress := .returned count }
    | _ => none
  | .fail =>
    match s.progress with
    | .idle | .returned _ => none
    | _ => some { s with progress := .idle }

namespace State

def Initial (s : State) : Prop :=
  s.progress = .idle ∧ (∀ key, s.redis key = none) ∧ ∀ r ∈ s.table, r.run ≤ s.run

def insertedBy (s : State) (run : ℕ) : List RecordedRow := s.table.filter (fun r => r.run = run)

def rowsSince (s : State) (run : ℕ) (c : String × String × Time) : List RecordedRow :=
  s.table.filter (fun r => call r.record = c ∧ run ≤ r.run)

/-- While a key lives, one row at most of each of its calls is inserted. -/
def OncePerKey (s : State) : Prop :=
  ∀ key e, s.redis key = some e → s.now < e.expires →
    ∀ c, callKey c = key → (s.rowsSince e.run c).length ≤ 1

def ReturnsInserted (s : State) : Prop :=
  ∀ n, s.progress = .returned n → (s.insertedBy s.run).length = n

end State

/-- The due rows that pass the check are of different calls. -/
def DistinctDue (s : State) (e : Event) : Prop :=
  e = .checkKeysExist → ∀ due, s.progress = .built due → ((s.newRows due).map call).Nodup

/-- What holds of the rows that the run has found or inserted. -/
def ProgressInv (s : State) : Prop :=
  match s.progress with
  | .idle => True
  | .built _ => s.insertedBy s.run = []
  | .filtered rows => s.insertedBy s.run = [] ∧ (rows.map call).Nodup ∧
      ∀ row ∈ rows, s.keyExists (callKey (call row)) = false
  | .inserted count _ => (s.insertedBy s.run).length = count ∧
      ((s.insertedBy s.run).map (fun r => call r.record)).Nodup
  | .returned count => (s.insertedBy s.run).length = count

structure Inv (s : State) : Prop where
  rows_run : ∀ r ∈ s.table, r.run ≤ s.run
  keys_run : ∀ key e, s.redis key = some e → e.run ≤ s.run
  once : s.OncePerKey
  progress : ProgressInv s

variable {s : State}

theorem keyExists_iff {key : String} :
    s.keyExists key = true ↔ ∃ e, s.redis key = some e ∧ s.now < e.expires := by
  rw [State.keyExists, Option.any_eq_true]
  simp only [decide_eq_true_eq]

theorem inv_initial (h : s.Initial) : Inv s := by
  obtain ⟨hidle, hredis, hrows⟩ := h
  refine ⟨hrows, fun key e he => ?_, fun key e he => ?_, ?_⟩
  · rw [hredis] at he
    cases he
  · rw [hredis] at he
    cases he
  · rw [ProgressInv, hidle]
    trivial

theorem insertedBy_of_gt (h : ∀ r ∈ s.table, r.run ≤ s.run) : s.insertedBy (s.run + 1) = [] := by
  rw [State.insertedBy, List.filter_eq_nil_iff]
  intro r hr
  have := h r hr
  rw [decide_eq_true_eq]
  omega

/-- A key that has expired does not live again by itself. -/
theorem Inv.tick (h : Inv s) (micros : ℕ) : Inv { s with now := s.now.addMicros micros } := by
  have hle := DateTime.le_addMicros s.now micros
  refine ⟨h.rows_run, h.keys_run, fun key e he hlt => h.once key e he (hle.trans_lt hlt), ?_⟩
  have hp := h.progress
  simp only [ProgressInv] at hp ⊢
  cases hprogress : s.progress with
  | filtered rows =>
      rw [hprogress] at hp
      refine ⟨hp.1, hp.2.1, fun row hrow => ?_⟩
      rw [Bool.eq_false_iff, ne_eq, keyExists_iff]
      rintro ⟨e, he, hlt⟩
      have hlive : s.keyExists (callKey (call row)) = true :=
        keyExists_iff.2 ⟨e, he, hle.trans_lt hlt⟩
      rw [hp.2.2 row hrow] at hlive
      exact Bool.false_ne_true hlive
  | _ =>
      rw [hprogress] at hp
      exact hp

theorem Inv.start (h : Inv s) (due : List TSStopTimeModel) :
    Inv { s with run := s.run + 1, progress := .built due } :=
  ⟨fun r hr => (h.rows_run r hr).trans (Nat.le_succ _),
    fun key e he => (h.keys_run key e he).trans (Nat.le_succ _), h.once,
    insertedBy_of_gt h.rows_run⟩

theorem Inv.check (h : Inv s) {due : List TSStopTimeModel} (hs : s.progress = .built due)
    (hdistinct : ((s.newRows due).map call).Nodup) :
    Inv { s with progress := .filtered (s.newRows due) } := by
  have hp := h.progress
  rw [ProgressInv, hs] at hp
  refine ⟨h.rows_run, h.keys_run, h.once, hp, hdistinct, fun row hrow => ?_⟩
  have hnot := (List.mem_filter.1 hrow).2
  rw [decide_eq_true_eq] at hnot
  exact Bool.eq_false_iff.2 hnot

theorem rowsSince_insert (s : State) (rows : List TSStopTimeModel) (progress : Progress) (run : ℕ)
    (c : String × String × Time) (h : c ∉ rows.map call) :
    State.rowsSince { s with table := s.insert rows, progress := progress } run c =
      s.rowsSince run c := by
  have hnone : (rows.map (fun row => (⟨row, s.now, s.run⟩ : RecordedRow))).filter
      (fun r => call r.record = c ∧ run ≤ r.run) = [] := by
    rw [List.filter_eq_nil_iff]
    intro r hr hc
    obtain ⟨row, hrow, rfl⟩ := List.mem_map.1 hr
    rw [decide_eq_true_eq] at hc
    exact h (hc.1 ▸ List.mem_map_of_mem hrow)
  simp only [State.rowsSince, State.insert, List.filter_append, hnone, List.append_nil]

theorem insertedBy_insert (s : State) (rows : List TSStopTimeModel) (progress : Progress)
    (h : s.insertedBy s.run = []) :
    State.insertedBy { s with table := s.insert rows, progress := progress } s.run =
      rows.map (fun row => ⟨row, s.now, s.run⟩) := by
  rw [State.insertedBy] at h
  have hall : (rows.map (fun row => (⟨row, s.now, s.run⟩ : RecordedRow))).filter
      (fun r => r.run = s.run) = rows.map (fun row => ⟨row, s.now, s.run⟩) := by
    rw [List.filter_eq_self]
    intro r hr
    obtain ⟨row, _, rfl⟩ := List.mem_map.1 hr
    exact decide_eq_true rfl
  simp only [State.insertedBy, State.insert, List.filter_append, h, hall, List.nil_append]

/-- The keys of the inserted rows do not live, so no living key gets another row. -/
theorem Inv.insert (h : Inv s) {rows : List TSStopTimeModel} (hs : s.progress = .filtered rows) :
    Inv { s with
      table := s.insert rows
      progress := .inserted rows.length (rows.map (fun row => callKey (call row))) } := by
  have hp := h.progress
  rw [ProgressInv, hs] at hp
  obtain ⟨hnone, hdistinct, hkeys⟩ := hp
  refine ⟨fun r hr => ?_, h.keys_run, fun key e he hlt c hc => ?_, ?_⟩
  · rcases List.mem_append.1 hr with hr | hr
    · exact h.rows_run r hr
    · obtain ⟨row, _, rfl⟩ := List.mem_map.1 hr
      exact le_refl _
  · rw [rowsSince_insert]
    · exact h.once key e he hlt c hc
    · intro hmem
      obtain ⟨row, hrow, rfl⟩ := List.mem_map.1 hmem
      have hlive : s.keyExists (callKey (call row)) = true :=
        keyExists_iff.2 ⟨e, hc ▸ he, hlt⟩
      rw [hkeys row hrow] at hlive
      exact Bool.false_ne_true hlive
  · dsimp only [ProgressInv]
    rw [insertedBy_insert s rows _ hnone, List.length_map, List.map_map]
    exact ⟨rfl, hdistinct⟩

/-- The rows of the current run are of different calls, and no later run has any. -/
theorem length_rowsSince_run (hrows : ∀ r ∈ s.table, r.run ≤ s.run)
    (hdistinct : ((s.insertedBy s.run).map (fun r => call r.record)).Nodup)
    (c : String × String × Time) : (s.rowsSince s.run c).length ≤ 1 := by
  have hsame : s.rowsSince s.run c =
      (s.insertedBy s.run).filter (fun r => call r.record = c) := by
    rw [State.rowsSince, State.insertedBy, List.filter_filter]
    apply List.filter_congr
    intro r hr
    have := hrows r hr
    rw [← Bool.decide_and]
    exact decide_eq_decide.2 (and_congr_right fun _ => ⟨fun hle => le_antisymm this hle, ge_of_eq⟩)
  rw [hsame]
  exact Joins.length_filter_le_one hdistinct c

theorem Inv.setKeys (h : Inv s) {count : ℕ} {keys : List String}
    (hs : s.progress = .inserted count keys) (batch rest : List String) :
    Inv { s with redis := s.setKeys batch, progress := .inserted count rest } := by
  have hp := h.progress
  rw [ProgressInv, hs] at hp
  refine ⟨h.rows_run, fun key e he => ?_, fun key e he hlt c hc => ?_, hp⟩
  · simp only [State.setKeys] at he
    split_ifs at he
    · obtain rfl := Option.some.inj he
      exact le_refl _
    · exact h.keys_run key e he
  · simp only [State.setKeys] at he
    split_ifs at he
    · obtain rfl := Option.some.inj he
      exact length_rowsSince_run h.rows_run hp.2 c
    · exact h.once key e he hlt c hc

theorem Inv.setProgress (h : Inv s) {progress : Progress}
    (hp : ProgressInv { s with progress := progress }) : Inv { s with progress := progress } :=
  ⟨h.rows_run, h.keys_run, h.once, hp⟩

theorem Inv.finish (h : Inv s) {count : ℕ} (hs : s.progress = .inserted count []) :
    Inv { s with progress := .returned count } := by
  have hp := h.progress
  rw [ProgressInv, hs] at hp
  exact h.setProgress hp.1

theorem inv_next {e : Event} {t : State} (h : Inv s) (hC : DistinctDue s e)
    (he : next s e = some t) : Inv t := by
  cases e with
  | tick micros =>
      obtain rfl := Option.some.inj he
      exact h.tick micros
  | start due =>
      simp only [next] at he
      split at he <;> cases he
      · exact h.start due
      · exact h.start due
  | checkKeysExist =>
      simp only [next] at he
      split at he <;> cases he
      rename_i due hs
      exact h.check hs (hC rfl due hs)
  | bulkInsert =>
      simp only [next] at he
      split at he <;> cases he
      rename_i rows hs
      exact h.insert hs
  | setEmptyKeys =>
      simp only [next] at he
      split at he <;> cases he
      rename_i count keys _ hs
      exact h.setKeys hs _ _
  | finish =>
      simp only [next] at he
      split at he <;> cases he
      rename_i count hs
      exact h.finish hs
  | fail =>
      simp only [next] at he
      split at he <;> cases he
      exact h.setProgress trivial

/-- The run goes on to set all its keys at once. -/
theorem exists_setAll {count : ℕ} {keys : List String} (hs : s.progress = .inserted count keys) :
    ∃ t, Run next s t ∧ t.table = s.table ∧ t.now = s.now ∧ ∀ key,
      key ∈ keys ∨ s.redis key = some ⟨s.run, s.now.addSeconds 300⟩ →
        t.redis key = some ⟨s.run, s.now.addSeconds 300⟩ := by
  induction hn : keys.length using Nat.strong_induction_on generalizing s keys with
  | _ n ih =>
      cases keys with
      | nil =>
          refine ⟨s, RunWhile.refl s, rfl, rfl, fun key hkey => ?_⟩
          exact hkey.resolve_left List.not_mem_nil
      | cons k keys =>
          let u : State := { s with
            redis := s.setKeys ((k :: keys).take batchSize)
            progress := .inserted count ((k :: keys).drop batchSize) }
          have hu : next s .setEmptyKeys = some u := by
            simp only [next, hs]
            rfl
          have hlen : ((k :: keys).drop batchSize).length < n := by
            rw [List.length_drop, ← hn, List.length_cons, batchSize]
            omega
          obtain ⟨t, ht, htable, hnow, hkeys⟩ := @ih _ hlen u _ rfl rfl
          refine ⟨t, (RunWhile.tail (RunWhile.refl s) trivial hu).trans ht, htable, hnow, ?_⟩
          intro key hkey
          apply hkeys
          by_cases hbatch : key ∈ (k :: keys).take batchSize
          · exact Or.inr (if_pos hbatch)
          · refine hkey.imp (fun hmem => ?_) (fun hset => ?_)
            · rw [← List.take_append_drop batchSize (k :: keys), List.mem_append] at hmem
              exact hmem.resolve_left hbatch
            · exact (if_neg hbatch).trans hset

/-- Two rows of one call that both pass the check are both inserted before the key is set. -/
theorem exists_recorded_twice {due : List TSStopTimeModel} (hs : s.progress = .built due)
    (hdup : ¬ ((s.newRows due).map call).Nodup) : ∃ t, Run next s t ∧ ¬ t.OncePerKey := by
  rw [List.nodup_iff_count_le_one, not_forall] at hdup
  obtain ⟨c, hc⟩ := hdup
  rw [not_le] at hc
  let rows := s.newRows due
  let u : State := { s with
    table := s.insert rows
    progress := .inserted rows.length (rows.map (fun row => callKey (call row))) }
  have hcheck : next s .checkKeysExist = some { s with progress := .filtered rows } := by
    simp only [next, hs, rows]
  have hu : Run next s u :=
    RunWhile.tail (RunWhile.tail (RunWhile.refl s) trivial hcheck) trivial
      (rfl : next _ .bulkInsert = some u)
  obtain ⟨t, ht, htable, hnow, hkeys⟩ := exists_setAll (s := u) rfl
  refine ⟨t, hu.trans ht, fun honce => ?_⟩
  have hmem : callKey c ∈ rows.map (fun row => callKey (call row)) := by
    obtain ⟨row, hrow, hcall⟩ := List.mem_map.1 (List.count_pos_iff.1 (Nat.zero_lt_of_lt hc))
    exact List.mem_map.2 ⟨row, hrow, congrArg callKey hcall⟩
  have hlive : t.now < u.now.addSeconds 300 := by
    rw [hnow, DateTime.lt_iff]
    exact Int.lt_add_of_pos_right _ (by decide)
  have hone : (t.rowsSince u.run c).length ≤ 1 :=
    honce (callKey c) _ (hkeys (callKey c) (Or.inl hmem)) hlive c rfl
  have htwo : ((s.newRows due).map call).count c ≤ (t.rowsSince u.run c).length := by
    rw [State.rowsSince, htable]
    change _ ≤ (List.filter _ (s.table ++ _)).length
    rw [List.filter_append, List.length_append, List.filter_map, List.length_map,
      List.count_eq_countP, List.countP_map, List.countP_eq_length_filter]
    refine le_add_left (le_of_eq ?_)
    congr 1
    apply List.filter_congr
    intro row _
    simp only [Function.comp_apply, beq_eq_decide, u, le_refl, and_true]
  omega

/-- In every sequence of runs that check rows of different calls, a living key has one row for
each call, and a run returns the number of its rows; a check of two rows of one call can be
followed by both of them under a living key. -/
theorem delays_recorded_once {s : State} (h₀ : s.Initial) :
    (∀ t, RunWhile next DistinctDue s t → t.OncePerKey ∧ t.ReturnsInserted) ∧
    ∀ t due, Run next s t → t.progress = .built due → ¬ ((t.newRows due).map call).Nodup →
      ∃ u, Run next t u ∧ ¬ u.OncePerKey := by
  refine ⟨fun t h => ?_, fun t due _ hs hdup => exists_recorded_twice hs hdup⟩
  have hinv := h.invariant (inv_initial h₀) (fun _ _ _ hI hC he => inv_next hI hC he)
  refine ⟨hinv.once, fun n hn => ?_⟩
  have hp := hinv.progress
  rw [ProgressInv, hn] at hp
  exact hp

def firstState : State := ⟨⟨0⟩, fun _ => none, [], 0, .idle⟩

theorem initial_firstState : firstState.Initial := ⟨rfl, fun _ => rfl, nofun⟩

def distinctDue (s : State) (e : Event) : Bool :=
  match e, s.progress with
  | .checkKeysExist, .built due => decide ((s.newRows due).map call).Nodup
  | _, _ => true

theorem distinctDue_iff (s : State) (e : Event) : distinctDue s e = true ↔ DistinctDue s e := by
  unfold distinctDue DistinctDue
  constructor
  · rintro h rfl due hdue
    rw [hdue] at h
    exact of_decide_eq_true h
  · intro h
    split
    · next due hdue => exact decide_eq_true (h rfl due hdue)
    · rfl

/-- Three runs, two minutes after each other. The first records two rows; the second finds the key of
one of them and fails after it has inserted another row, which the third inserts again. -/
def sampleRuns : List Event :=
  [.start [⟨"S", "15", Time.midnight, 60⟩, ⟨"S", "16", Time.midnight, 0⟩], .checkKeysExist,
    .bulkInsert, .setEmptyKeys, .finish, .tick 120000000,
    .start [⟨"S", "15", Time.midnight, 90⟩, ⟨"S2", "15", Time.midnight, 30⟩], .checkKeysExist,
    .bulkInsert, .fail, .tick 120000000,
    .start [⟨"S", "15", Time.midnight, 120⟩, ⟨"S2", "15", Time.midnight, 30⟩], .checkKeysExist,
    .bulkInsert, .setEmptyKeys, .finish]

def sampleNext (s : State) (e : Event) : Option State := if distinctDue s e then next s e else none

theorem sampleRuns_execute : (exec sampleNext firstState sampleRuns).isSome := by
  decide +kernel

theorem delays_recorded_once_one :
    ∃ t, exec sampleNext firstState sampleRuns = some t ∧ t.table.length = 4 ∧ t.OncePerKey ∧
      t.ReturnsInserted := by
  have hexec := exec_get sampleRuns sampleRuns_execute
  refine ⟨_, hexec, by decide +kernel, (delays_recorded_once initial_firstState).1 _ ?_⟩
  refine (run_of_exec hexec).runWhile (I := fun _ => True) trivial ?_
  intro s e t _ hnext
  obtain ⟨hdistinct, hstate⟩ := Option.ite_none_right_eq_some.1 hnext
  exact ⟨(distinctDue_iff s e).1 hdistinct, hstate, trivial⟩

/-- Two trips of one route are due at one stop at one scheduled time. -/
theorem delays_recorded_twice :
    ¬ ∀ s t : State, s.Initial → Run next s t → t.OncePerKey ∧ t.ReturnsInserted := by
  intro h
  let due : List TSStopTimeModel := [⟨"S", "15", Time.midnight, 60⟩, ⟨"S", "15", Time.midnight, 0⟩]
  let t : State := { firstState with run := 1, progress := .built due }
  have hstart : Run next firstState t :=
    RunWhile.tail (RunWhile.refl _) trivial (rfl : next firstState (.start due) = some t)
  have hdup : ¬ ((t.newRows due).map call).Nodup := by decide
  obtain ⟨u, hu, hnot⟩ := exists_recorded_twice rfl hdup
  exact hnot (h firstState u initial_firstState (hstart.trans hu)).1

end SimplyTransport.DelayRecording
