import SimplyTransport.RealtimeSnapshot

/-!
# Runs of imports and readers

Each table holds one whole payload in every reachable state; the tables hold the same one
whenever no import is between its two commits and none has failed there since.
-/

namespace SimplyTransport.RealtimeSnapshot
open Transition

variable {dataset : String} {s s' : State dataset}

structure Inv (s : State dataset) : Prop where
  trips : HoldsTrips s.tripsOf.payload s.trips
  stops : HoldsStops s.stopsOf.payload s.stopTimes
  committed : ∀ i, s.importer.committed? = some i → s.tripsOf = i
  reading : ∀ c rows i, s.readers c = .readTrips rows i → HoldsTrips i.payload rows
  done : ∀ c rows i rows' j, s.readers c = .done rows i rows' j →
    HoldsTrips i.payload rows ∧ HoldsStops j.payload rows'

theorem setReader_readers (s : State dataset) (c c' : ℕ) (r : Reader dataset) :
    (s.setReader c r).readers c' = if c' = c then r else s.readers c' := by
  simp [State.setReader, Function.update_apply]

theorem lookupFails_cases (he : next s .lookupFails = some s') : s' = s := by
  simp only [next] at he
  split at he
  · exact (Option.some.inj he).symm
  · cases he

theorem start_cases {trips : List TripModel} {stops : List StopModel} {createdAt : DateTime}
    {today : Date} {data : List FeedEntity}
    (he : next s (.start trips stops createdAt today data) = some s') :
    s.importer = .idle ∧ (s' = s ∨ ∃ i : Import dataset, i.number = s.imports + 1 ∧
      s' = { s with importer := .built i, imports := s.imports + 1 }) := by
  simp only [next] at he
  split at he
  · next hidle =>
    refine ⟨hidle, ?_⟩
    split at he
    · exact Or.inr ⟨_, rfl, (Option.some.inj he).symm⟩
    · exact Or.inl (Option.some.inj he).symm
  · cases he

theorem fail_cases (he : next s .fail = some s') :
    s.importer ≠ .idle ∧ s' = { s with importer := .idle } := by
  cases h : s.importer with
  | idle => simp [next, h] at he
  | _ =>
      simp only [next, h] at he
      exact ⟨nofun, (Option.some.inj he).symm⟩

theorem copyTrips_cases {firstId : ℤ} (he : next s (.copyTrips firstId) = some s') :
    ∃ i, s.importer = .built i ∧ s' = { s with importer := .copiedTrips i firstId } := by
  simp only [next] at he
  split at he
  · next i h => exact ⟨i, h, (Option.some.inj he).symm⟩
  · cases he

theorem commitTrips_cases (he : next s .commitTrips = some s') :
    ∃ i firstId, s.importer = .copiedTrips i firstId ∧ s' = { s with
      trips := snapshotRtTrip s.trips i.payload.trips dataset firstId
      tripsOf := i
      importer := .committedTrips i } := by
  simp only [next] at he
  split at he
  · next i firstId h => exact ⟨i, firstId, h, (Option.some.inj he).symm⟩
  · cases he

theorem copyStops_cases {firstId : ℤ} (he : next s (.copyStops firstId) = some s') :
    ∃ i, s.importer = .committedTrips i ∧ s' = { s with importer := .copiedStops i firstId } := by
  simp only [next] at he
  split at he
  · next i h => exact ⟨i, h, (Option.some.inj he).symm⟩
  · cases he

theorem commitStops_cases (he : next s .commitStops = some s') :
    ∃ i firstId, s.importer = .copiedStops i firstId ∧ s' = { s with
      stopTimes := snapshotRtStopTime s.stopTimes i.payload.stops dataset firstId
      stopsOf := i
      importer := .idle } := by
  simp only [next] at he
  split at he
  · next i firstId h => exact ⟨i, firstId, h, (Option.some.inj he).symm⟩
  · cases he

theorem readStops_cases {c : ℕ} (he : next s (.readStops c) = some s') :
    ∃ rows i, s.readers c = .readTrips rows i ∧
      s' = s.setReader c (.done rows i s.stopTimes s.stopsOf) := by
  simp only [next] at he
  split at he
  · next rows i h => exact ⟨rows, i, h, (Option.some.inj he).symm⟩
  · cases he

/-- An import that moves on without a commit keeps the tables. -/
theorem Inv.setImporter (h : Inv s) {pc : Pc dataset} (n : ℕ)
    (hpc : ∀ i, pc.committed? = some i → s.importer.committed? = some i) :
    Inv { s with importer := pc, imports := n } :=
  ⟨h.trips, h.stops, fun i hi => h.committed i (hpc i hi), h.reading, h.done⟩

theorem inv_next {e : Event} (h : Inv s) (he : next s e = some s') : Inv s' := by
  cases e with
  | lookupFails =>
      obtain rfl := lookupFails_cases he
      exact h
  | start trips stops createdAt today data =>
      obtain ⟨_, rfl | ⟨i, _, rfl⟩⟩ := start_cases he
      · exact h
      · exact h.setImporter _ (fun _ hi => by cases hi)
  | copyTrips firstId =>
      obtain ⟨i, _, rfl⟩ := copyTrips_cases he
      exact h.setImporter _ (fun _ hi => by cases hi)
  | commitTrips =>
      obtain ⟨i, firstId, _, rfl⟩ := commitTrips_cases he
      refine ⟨holdsTrips_snapshot _ _ _, h.stops, ?_, h.reading, h.done⟩
      exact fun j hj => Option.some.inj hj
  | copyStops firstId =>
      obtain ⟨i, hi, rfl⟩ := copyStops_cases he
      exact h.setImporter _ (fun j hj => by rw [hi]; exact hj)
  | commitStops =>
      obtain ⟨i, firstId, _, rfl⟩ := commitStops_cases he
      exact ⟨h.trips, holdsStops_snapshot _ _ _, fun _ hj => (by cases hj), h.reading, h.done⟩
  | fail =>
      obtain ⟨_, rfl⟩ := fail_cases he
      exact h.setImporter _ (fun _ hi => by cases hi)
  | readTrips c =>
      obtain rfl := Option.some.inj he
      refine ⟨h.trips, h.stops, h.committed, ?_, ?_⟩
      · intro c' rows i hc
        rw [setReader_readers] at hc
        split_ifs at hc
        · cases hc
          exact h.trips
        · exact h.reading c' rows i hc
      · intro c' rows i rows' j hc
        rw [setReader_readers] at hc
        split_ifs at hc
        exact h.done c' rows i rows' j hc
  | readStops c =>
      obtain ⟨rows, i, hr, rfl⟩ := readStops_cases he
      refine ⟨h.trips, h.stops, h.committed, ?_, ?_⟩
      · intro c' rows₁ i₁ hc
        rw [setReader_readers] at hc
        split_ifs at hc
        exact h.reading c' rows₁ i₁ hc
      · intro c' rows₁ i₁ rows' j hc
        rw [setReader_readers] at hc
        split_ifs at hc
        · cases hc
          exact ⟨h.reading c rows i hr, h.stops⟩
        · exact h.done c' rows₁ i₁ rows' j hc

theorem inv_run {trips : List RTTripModel} {stopTimes : List RTStopTimeModel}
    {p : Payload dataset} (htrips : HoldsTrips p trips) (hstops : HoldsStops p stopTimes)
    (hr : Run next (initial trips stopTimes p) s) : Inv s := by
  apply Run.invariant hr
  · exact ⟨htrips, hstops, fun _ h => (by cases h), fun _ _ _ h => (by cases h),
      fun _ _ _ _ _ h => (by cases h)⟩
  · exact fun _ _ _ h he => inv_next h he

def NoStart (_ : State dataset) : Event → Prop
  | .start _ _ _ _ _ => False
  | _ => True

def NoCommit (_ : State dataset) : Event → Prop
  | .commitTrips => False
  | .commitStops => False
  | _ => True

def Since (s t : State dataset) : Prop :=
  t.importer = .idle ∨ (t.stopTimes = s.stopTimes ∧ t.stopsOf = s.stopsOf ∧
    (t.importer.committed? = none → t.trips = s.trips ∧ t.tripsOf = s.tripsOf))

theorem since_next {t t' : State dataset} {e : Event} (h : Since s t) (hx : NoStart t e)
    (he : next t e = some t') : Since s t' := by
  cases e with
  | lookupFails =>
      obtain rfl := lookupFails_cases he
      exact h
  | start trips stops createdAt today data => exact hx.elim
  | copyTrips firstId =>
      obtain ⟨i, hi, rfl⟩ := copyTrips_cases he
      obtain hidle | ⟨hs, hof, ht⟩ := h
      · rw [hidle] at hi
        cases hi
      · exact Or.inr ⟨hs, hof, fun _ => ht (by rw [hi]; rfl)⟩
  | commitTrips =>
      obtain ⟨i, firstId, hi, rfl⟩ := commitTrips_cases he
      obtain hidle | ⟨hs, hof, _⟩ := h
      · rw [hidle] at hi
        cases hi
      · exact Or.inr ⟨hs, hof, fun hnone => (by cases hnone)⟩
  | copyStops firstId =>
      obtain ⟨i, hi, rfl⟩ := copyStops_cases he
      obtain hidle | ⟨hs, hof, _⟩ := h
      · rw [hidle] at hi
        cases hi
      · exact Or.inr ⟨hs, hof, fun hnone => (by cases hnone)⟩
  | commitStops =>
      obtain ⟨i, firstId, _, rfl⟩ := commitStops_cases he
      exact Or.inl rfl
  | fail =>
      obtain ⟨_, rfl⟩ := fail_cases he
      exact Or.inl rfl
  | readTrips c =>
      obtain rfl := Option.some.inj he
      exact h
  | readStops c =>
      obtain ⟨_, _, _, rfl⟩ := readStops_cases he
      exact h

theorem since_start {trips : List TripModel} {stops : List StopModel} {createdAt : DateTime}
    {today : Date} {data : List FeedEntity}
    (he : next s (.start trips stops createdAt today data) = some s') : Since s s' := by
  obtain ⟨hidle, rfl | ⟨i, _, rfl⟩⟩ := start_cases he
  · exact Or.inl hidle
  · exact Or.inr ⟨rfl, rfl, fun _ => ⟨rfl, rfl⟩⟩

/-- A reader that has begun with the tables `s` sees them as long as no commit falls between. -/
structure Undisturbed (s : State dataset) (c : ℕ) (t : State dataset) : Prop where
  trips : t.trips = s.trips
  tripsOf : t.tripsOf = s.tripsOf
  stopTimes : t.stopTimes = s.stopTimes
  stopsOf : t.stopsOf = s.stopsOf
  reading : ∀ rows i, t.readers c = .readTrips rows i → rows = s.trips ∧ i = s.tripsOf

theorem undisturbed_next {t t' : State dataset} {c : ℕ} {e : Event} (h : Undisturbed s c t)
    (hx : NoCommit t e) (he : next t e = some t') : Undisturbed s c t' := by
  cases e with
  | lookupFails =>
      obtain rfl := lookupFails_cases he
      exact h
  | start trips stops createdAt today data =>
      obtain ⟨_, rfl | ⟨i, _, rfl⟩⟩ := start_cases he
      · exact h
      · exact ⟨h.trips, h.tripsOf, h.stopTimes, h.stopsOf, h.reading⟩
  | copyTrips firstId =>
      obtain ⟨_, _, rfl⟩ := copyTrips_cases he
      exact ⟨h.trips, h.tripsOf, h.stopTimes, h.stopsOf, h.reading⟩
  | commitTrips => exact hx.elim
  | copyStops firstId =>
      obtain ⟨_, _, rfl⟩ := copyStops_cases he
      exact ⟨h.trips, h.tripsOf, h.stopTimes, h.stopsOf, h.reading⟩
  | commitStops => exact hx.elim
  | fail =>
      obtain ⟨_, rfl⟩ := fail_cases he
      exact ⟨h.trips, h.tripsOf, h.stopTimes, h.stopsOf, h.reading⟩
  | readTrips c' =>
      obtain rfl := Option.some.inj he
      refine ⟨h.trips, h.tripsOf, h.stopTimes, h.stopsOf, fun rows i hc => ?_⟩
      rw [setReader_readers] at hc
      split_ifs at hc
      · cases hc
        exact ⟨h.trips, h.tripsOf⟩
      · exact h.reading rows i hc
  | readStops c' =>
      obtain ⟨rows', i', _, rfl⟩ := readStops_cases he
      refine ⟨h.trips, h.tripsOf, h.stopTimes, h.stopsOf, fun rows i hc => ?_⟩
      rw [setReader_readers] at hc
      split_ifs at hc
      exact h.reading rows i hc

/-- What the reader `c` has read comes from one import, and so does every overlay made of it. -/
def ReadsOneImport (s : State dataset) (c : ℕ) : Prop :=
  ∃ rows rows' i, s.readers c = .done rows i rows' i ∧ HoldsTrips i.payload rows ∧
    HoldsStops i.payload rows' ∧ ∀ now schedules,
      (∀ first ∈ schedules.head?, first.trip.dataset = dataset) →
        OverlayFrom i.payload (loadRecentRtOverlayForSchedules rows rows' now schedules)

theorem reads_one_import {c : ℕ} {s₁ s₂ s₃ : State dataset} (h : Inv s)
    (hsame : s.tripsOf = s.stopsOf) (h₁ : next s (.readTrips c) = some s₁)
    (hrun : RunWhile next NoCommit s₁ s₂) (h₃ : next s₂ (.readStops c) = some s₃) :
    ReadsOneImport s₃ c := by
  obtain rfl := Option.some.inj h₁
  have hstart : Undisturbed s c (s.setReader c (.readTrips s.trips s.tripsOf)) := by
    refine ⟨rfl, rfl, rfl, rfl, fun rows i hc => ?_⟩
    rw [setReader_readers, if_pos rfl] at hc
    cases hc
    exact ⟨rfl, rfl⟩
  have hu := hrun.invariant hstart (fun _ _ _ h hx he => undisturbed_next h hx he)
  obtain ⟨rows, i, hr, rfl⟩ := readStops_cases h₃
  obtain ⟨rfl, rfl⟩ := hu.reading rows i hr
  have hstops : HoldsStops s.tripsOf.payload s.stopTimes := by
    rw [hsame]
    exact h.stops
  refine ⟨s.trips, s.stopTimes, s.tripsOf, ?_, h.trips, hstops,
    fun now _ hd => overlayFrom_load h.trips hstops now hd⟩
  rw [setReader_readers, if_pos rfl, hu.stopTimes, hu.stopsOf, hsame]

def WholePayloads (s : State dataset) : Prop :=
  (HoldsTrips s.tripsOf.payload s.trips ∧ HoldsStops s.stopsOf.payload s.stopTimes) ∧
    ∀ c rows i rows' j, s.readers c = .done rows i rows' j →
      HoldsTrips i.payload rows ∧ HoldsStops j.payload rows'

section Sample

def sampleTrips : List TripModel :=
  [⟨"T", "R1", "W", "", "", "", 0, "", "TFI"⟩, ⟨"U", "R2", "W", "", "", "", 0, "", "TFI"⟩]

def sampleStops : List StopModel := [⟨"S", "", "Main Street", "", "", "", none, none, "TFI"⟩]

def entityOf (trip : String) (delay : ℤ) : FeedEntity :=
  ⟨some "1", some ⟨⟨some trip, none, none, none, none, none⟩, ⟨none, none⟩,
    [⟨some "S", some (.int 1), none, some delay, none⟩]⟩⟩

def oldRecords : List RtTripRecord × List RtStopTimeRecord :=
  (importRecords sampleTrips sampleStops "TFI" ⟨0⟩ ⟨1⟩ [entityOf "T" 60]).toOption.get rfl

theorem oldRecords_build :
    importRecords sampleTrips sampleStops "TFI" ⟨0⟩ ⟨1⟩ [entityOf "T" 60] = .ok oldRecords := rfl

def oldPayload : Payload "TFI" := ⟨oldRecords.1, oldRecords.2, snapshot_of_build oldRecords_build⟩

def sampleStart : State "TFI" :=
  initial (snapshotRtTrip [snapshotTrip 1 "V" "R3" "SCHEDULED" "GAI" ⟨0⟩] oldPayload.trips "TFI" 2)
    (snapshotRtStopTime [snapshotStop 1 "V" "S" 1 "SCHEDULED" "GAI" ⟨0⟩] oldPayload.stops "TFI" 2)
    oldPayload

def startNew : Event :=
  .start sampleTrips sampleStops ⟨60000000⟩ ⟨1⟩ [entityOf "T" 120, entityOf "U" 0]

def builtState : State "TFI" := (next sampleStart startNew).get rfl

def copiedState : State "TFI" := (next builtState (.copyTrips 3)).get rfl

def committedState : State "TFI" := (next copiedState .commitTrips).get rfl

def copiedStopsState : State "TFI" := (next committedState (.copyStops 3)).get rfl

theorem builtState_run : Run next sampleStart builtState :=
  (RunWhile.refl sampleStart).tail (e := startNew) trivial rfl

theorem copiedStopsState_run : RunWhile next NoStart builtState copiedStopsState :=
  (((RunWhile.refl builtState).tail (e := .copyTrips 3) trivial rfl).tail (e := .commitTrips)
    trivial rfl).tail (e := .copyStops 3) trivial rfl

/-- A reader comes in between the two commits. -/
def tornState : State "TFI" := (exec next committedState [.readTrips 0, .readStops 0]).get rfl

theorem tornState_run : Run next sampleStart tornState :=
  builtState_run.trans ((((RunWhile.refl builtState).tail (e := .copyTrips 3) trivial rfl).tail
    (e := .commitTrips) trivial rfl).trans
    (run_of_exec (exec_get [Event.readTrips 0, .readStops 0] rfl)))

theorem realtime_import_torn :
    (¬ ∀ s : State "TFI", Run next sampleStart s →
      ∀ c rows i rows' j, s.readers c = .done rows i rows' j → i = j) ∧
    (¬ ∀ s s₁ s₂ s₃ : State "TFI", next s startNew = some s₁ → RunWhile next NoStart s₁ s₂ →
      next s₂ .fail = some s₃ → s₃.trips = s.trips) := by
  constructor
  · intro h
    have heq := h tornState tornState_run 0 _ _ _ _ rfl
    exact absurd (congrArg Import.number heq) (by decide)
  · intro h
    have heq := h sampleStart builtState copiedStopsState _ rfl copiedStopsState_run rfl
    exact absurd (congrArg List.length heq) (by decide)

end Sample

/-- Each table always holds one whole payload. An import that raises keeps the stop rows, and
keeps the trip rows unless it raises after its first commit; one that succeeds leaves both
tables with its payload. Where both tables are of one import, a reader that no commit
interrupts sees one payload, and every stop row stands beside a trip row of its trip. -/
theorem realtime_import_snapshots {trips : List RTTripModel} {stopTimes : List RTStopTimeModel}
    {p : Payload dataset} (htrips : HoldsTrips p trips) (hstops : HoldsStops p stopTimes) :
    (∀ s, Run next (initial trips stopTimes p) s → WholePayloads s) ∧
    (∀ s s₁ s₂ s₃ tripTable stopTable createdAt today data,
      Run next (initial trips stopTimes p) s →
      next s (.start tripTable stopTable createdAt today data) = some s₁ →
      RunWhile next NoStart s₁ s₂ → next s₂ .fail = some s₃ →
        s₃.stopTimes = s.stopTimes ∧ (s₂.importer.committed? = none → s₃.trips = s.trips) ∧
          ∀ i, s₂.importer.committed? = some i → HoldsTrips i.payload s₃.trips) ∧
    (∀ s s', Run next (initial trips stopTimes p) s → next s .commitStops = some s' →
      s'.tripsOf = s'.stopsOf) ∧
    (∀ c s s₁ s₂ s₃, Run next (initial trips stopTimes p) s → s.tripsOf = s.stopsOf →
      next s (.readTrips c) = some s₁ → RunWhile next NoCommit s₁ s₂ →
      next s₂ (.readStops c) = some s₃ → ReadsOneImport s₃ c) ∧
    (∀ s, Run next (initial trips stopTimes p) s → s.tripsOf = s.stopsOf →
      ∀ st ∈ s.stopTimes, st.dataset = dataset →
        ∃ r ∈ s.trips, BelongsTo st.toRtStopTimeRecord r.toRtTripRecord) := by
  have hInv : ∀ s, Run next (initial trips stopTimes p) s → Inv s :=
    fun s hr => inv_run htrips hstops hr
  refine ⟨fun s hr => ⟨⟨(hInv s hr).trips, (hInv s hr).stops⟩, (hInv s hr).done⟩, ?_, ?_, ?_, ?_⟩
  · intro s s₁ s₂ s₃ tripTable stopTable createdAt today data hr h₁ hrun h₃
    have hr₂ : Run next (initial trips stopTimes p) s₂ :=
      (RunWhile.tail hr trivial h₁).trans hrun.toRun
    have hsince := hrun.invariant (since_start h₁) (fun _ _ _ h hx he => since_next h hx he)
    obtain ⟨hne, rfl⟩ := fail_cases h₃
    obtain ⟨hs, _, ht⟩ := hsince.resolve_left hne
    refine ⟨hs, fun hnone => (ht hnone).1, fun i hi => ?_⟩
    rw [← (hInv s₂ hr₂).committed i hi]
    exact (hInv s₂ hr₂).trips
  · intro s s' hr he
    obtain ⟨i, firstId, hi, rfl⟩ := commitStops_cases he
    exact (hInv s hr).committed i (by rw [hi]; rfl)
  · exact fun c s _ _ _ hr hsame h₁ hrun h₃ => reads_one_import (hInv s hr) hsame h₁ hrun h₃
  · intro s hr hsame st hst hd
    have hholds := (hInv s hr).stops
    rw [← hsame] at hholds
    exact exists_trip_row (hInv s hr).trips hholds hst hd

section Sample

def failedState : State "TFI" := (next copiedStopsState .fail).get rfl

def completeState : State "TFI" := (next copiedStopsState .commitStops).get rfl

theorem completeState_run : Run next sampleStart completeState :=
  (builtState_run.trans copiedStopsState_run.toRun).tail (e := .commitStops) trivial rfl

def readingState : State "TFI" := (next completeState (.readTrips 0)).get rfl

/-- While the reader is between its statements, the next import copies its trips. -/
def overlappedState : State "TFI" := (exec next readingState [startNew, .copyTrips 5]).get rfl

theorem overlappedState_run : RunWhile next NoCommit readingState overlappedState := by
  apply runWhile_of_exec _ (exec_get [startNew, .copyTrips 5] rfl)
  intro e he _
  rcases List.mem_pair.1 he with rfl | rfl <;> trivial

def readState : State "TFI" := (next overlappedState (.readStops 0)).get rfl

/-- An import over the rows of another one: a reader between its commits, its failure, its success,
and a reader after that. -/
theorem realtime_import_snapshots_one :
    WholePayloads tornState ∧
    (failedState.stopTimes = sampleStart.stopTimes ∧
      ∃ i, copiedStopsState.importer.committed? = some i ∧ HoldsTrips i.payload failedState.trips) ∧
    completeState.tripsOf = completeState.stopsOf ∧ ReadsOneImport readState 0 ∧
    ∀ st ∈ completeState.stopTimes, st.dataset = "TFI" →
      ∃ r ∈ completeState.trips, BelongsTo st.toRtStopTimeRecord r.toRtTripRecord := by
  obtain ⟨hwhole, hfailed, hsame, hreads, hbelongs⟩ := realtime_import_snapshots
    (holdsTrips_snapshot oldPayload [snapshotTrip 1 "V" "R3" "SCHEDULED" "GAI" ⟨0⟩] 2)
    (holdsStops_snapshot oldPayload [snapshotStop 1 "V" "S" 1 "SCHEDULED" "GAI" ⟨0⟩] 2)
  have hcomplete : completeState.tripsOf = completeState.stopsOf :=
    hsame copiedStopsState completeState (builtState_run.trans copiedStopsState_run.toRun) rfl
  obtain ⟨hstops, -, htrips⟩ := hfailed sampleStart builtState copiedStopsState failedState sampleTrips
    sampleStops ⟨60000000⟩ ⟨1⟩ [entityOf "T" 120, entityOf "U" 0] (RunWhile.refl sampleStart) rfl
    copiedStopsState_run rfl
  refine ⟨hwhole tornState tornState_run, ⟨hstops, _, rfl, htrips _ rfl⟩, hcomplete, ?_, ?_⟩
  · exact hreads 0 completeState readingState overlappedState readState completeState_run hcomplete
      rfl overlappedState_run rfl
  · exact hbelongs completeState completeState_run hcomplete

end Sample

end SimplyTransport.RealtimeSnapshot
