import SimplyTransport.DelaysService
import SimplyTransport.OverlayOrder

/-!
# The overlay of a list and the overlay of one schedule

The overlay of a list is read from the dataset of its first schedule. For a schedule of that
dataset it is the overlay that the schedule has alone, unless two rows tie and the two calls get
them in different orders; for another one it is not, unless both are empty.
-/

namespace SimplyTransport

variable {rtTrips : List RTTripModel} {rtStopTimes : List RTStopTimeModel} {nowUtc : DateTime}

def overlayAlone (rtTrips : List RTTripModel) (rtStopTimes : List RTStopTimeModel)
    (nowUtc : DateTime) (s : StaticScheduleModel) : Overlay :=
  loadRecentRtOverlayForSchedules rtTrips rtStopTimes nowUtc [s]

def NoRecentRows (rtTrips : List RTTripModel) (rtStopTimes : List RTStopTimeModel)
    (nowUtc : DateTime) (dataset tripId : String) : Prop :=
  recentTripRows rtTrips nowUtc dataset tripId = [] ∧
    recentStopRows rtStopTimes nowUtc dataset tripId = []

/-- The list reads the schedule's own dataset and none of its rows tie, or neither dataset has a
recent row of its trip. -/
def ReadsOwnDataset (rtTrips : List RTTripModel) (rtStopTimes : List RTStopTimeModel)
    (nowUtc : DateTime) (first s : StaticScheduleModel) : Prop :=
  (s.trip.dataset = first.trip.dataset ∧
      Untied rtTrips rtStopTimes nowUtc first.trip.dataset s) ∨
    (NoRecentRows rtTrips rtStopTimes nowUtc first.trip.dataset s.trip.id ∧
      NoRecentRows rtTrips rtStopTimes nowUtc s.trip.dataset s.trip.id)

/-- What the list gives to a schedule is what the schedule has alone, in whatever orders the
statements of the two calls return the rows. -/
def SameAlone (rtTrips : List RTTripModel) (rtStopTimes : List RTStopTimeModel)
    (nowUtc : DateTime) (schedules : List StaticScheduleModel) (s : StaticScheduleModel) : Prop :=
  ∀ batchTrips aloneTrips : List RTTripModel, batchTrips.Perm rtTrips →
    aloneTrips.Perm rtTrips → ∀ batchStopTimes aloneStopTimes : List RTStopTimeModel,
    batchStopTimes.Perm rtStopTimes → aloneStopTimes.Perm rtStopTimes →
    let batch := loadRecentRtOverlayForSchedules batchTrips batchStopTimes nowUtc schedules
    let alone := overlayAlone aloneTrips aloneStopTimes nowUtc s
    s.rtTrip batch = s.rtTrip alone ∧ s.stopOverlay batch = s.stopOverlay alone

theorem dataset_of_newest {now : DateTime} {dataset tripId : String} {r : RTTripModel}
    (h : newestTripRow (recentTripRows rtTrips now dataset tripId) = some r) :
    r.dataset = dataset := by
  have hmem := (List.mem_filter.1 (List.argmax_mem h)).2
  simp only [decide_eq_true_eq] at hmem
  exact hmem.2.1

theorem dataset_of_cell {now : DateTime} {dataset tripId stopId : String} {sequence : ℤ}
    {o : RTStopTimeOverlay}
    (h : resolveCell (recentStopRows rtStopTimes now dataset tripId) stopId sequence = some o) :
    o.row.dataset = dataset := by
  have hmem := (List.mem_filter.1 (resolveCell_mem h)).2
  simp only [decide_eq_true_eq] at hmem
  exact hmem.2.1

/-- Rows of two datasets give the same overlay only where both give none. -/
theorem newest_eq_iff {now : DateTime} {dataset dataset' tripId : String}
    (hne : dataset ≠ dataset') :
    newestTripRow (recentTripRows rtTrips now dataset tripId) =
        newestTripRow (recentTripRows rtTrips now dataset' tripId) ↔
      recentTripRows rtTrips now dataset tripId = [] ∧
        recentTripRows rtTrips now dataset' tripId = [] := by
  constructor
  · intro h
    cases hr : newestTripRow (recentTripRows rtTrips now dataset tripId) with
    | some r => exact absurd ((dataset_of_newest hr).symm.trans (dataset_of_newest (h ▸ hr))) hne
    | none => exact ⟨List.argmax_eq_none.1 hr, List.argmax_eq_none.1 (h ▸ hr)⟩
  · rintro ⟨h, h'⟩
    rw [h, h']

theorem cell_eq_iff {now : DateTime} {dataset dataset' tripId stopId : String} {sequence : ℤ}
    (hne : dataset ≠ dataset') :
    resolveCell (recentStopRows rtStopTimes now dataset tripId) stopId sequence =
        resolveCell (recentStopRows rtStopTimes now dataset' tripId) stopId sequence ↔
      recentStopRows rtStopTimes now dataset tripId = [] ∧
        recentStopRows rtStopTimes now dataset' tripId = [] := by
  constructor
  · intro h
    cases ho : resolveCell (recentStopRows rtStopTimes now dataset tripId) stopId sequence with
    | some o => exact absurd ((dataset_of_cell ho).symm.trans (dataset_of_cell (h ▸ ho))) hne
    | none =>
        exact ⟨(resolveCell_eq_none_iff _ _ _).1 ho, (resolveCell_eq_none_iff _ _ _).1 (h ▸ ho)⟩
  · rintro ⟨h, h'⟩
    rw [h, h']

theorem NoRecentRows.perm {batchTrips : List RTTripModel}
    {batchStopTimes : List RTStopTimeModel} {dataset tripId : String}
    (h : NoRecentRows rtTrips rtStopTimes nowUtc dataset tripId) (ht : batchTrips.Perm rtTrips)
    (hs : batchStopTimes.Perm rtStopTimes) :
    NoRecentRows batchTrips batchStopTimes nowUtc dataset tripId := by
  have htrips := ht.filter
    (fun r => r.tripId = tripId ∧ r.dataset = dataset ∧ thirtyMinsAgo nowUtc ≤ r.createdAt)
  have hstops := recentStopRows_perm hs nowUtc dataset tripId
  constructor
  · exact List.perm_nil.1 (htrips.trans (List.Perm.of_eq h.1))
  · exact List.perm_nil.1 (hstops.trans (List.Perm.of_eq h.2))

theorem untied_of_noRecentRows {dataset : String} {s : StaticScheduleModel}
    (h : NoRecentRows rtTrips rtStopTimes nowUtc dataset s.trip.id) :
    Untied rtTrips rtStopTimes nowUtc dataset s := by
  apply untied_of_nodup
  · rw [h.1]
    exact List.nodup_nil
  · rw [h.2]
    exact List.nodup_nil

/-- The two orders of one dataset give a schedule the same overlay exactly where none of its rows
tie. -/
theorem orders_agree_iff (hu : UniqueStopTimes rtStopTimes) (dataset : String)
    (s : StaticScheduleModel) :
    (∀ t t' : List RTTripModel, t.Perm rtTrips → t'.Perm rtTrips →
      ∀ u u' : List RTStopTimeModel, u.Perm rtStopTimes → u'.Perm rtStopTimes →
      newestTripRow (recentTripRows t nowUtc dataset s.trip.id) =
          newestTripRow (recentTripRows t' nowUtc dataset s.trip.id) ∧
        resolveCell (recentStopRows u nowUtc dataset s.trip.id) s.stop.id
            s.stopTime.stopSequence =
          resolveCell (recentStopRows u' nowUtc dataset s.trip.id) s.stop.id
            s.stopTime.stopSequence) ↔
      Untied rtTrips rtStopTimes nowUtc dataset s := by
  have htrip := newestTripRow_perm_iff rtTrips nowUtc dataset s.trip.id
  have hcell := resolveCell_perm_iff hu nowUtc dataset s.trip.id s.stop.id
    s.stopTime.stopSequence
  constructor
  · intro h
    constructor
    · apply htrip.1
      intro t ht
      exact (h t rtTrips ht (List.Perm.refl _) _ _ (List.Perm.refl _) (List.Perm.refl _)).1
    · apply hcell.1
      intro u hu
      exact (h _ _ (List.Perm.refl _) (List.Perm.refl _) u rtStopTimes hu (List.Perm.refl _)).2
  · intro h t t' ht ht' u u' hu hu'
    exact ⟨(htrip.2 h.1 t ht).trans (htrip.2 h.1 t' ht').symm,
      (hcell.2 h.2 u hu).trans (hcell.2 h.2 u' hu').symm⟩

theorem sameAlone_iff (hu : UniqueStopTimes rtStopTimes) {first : StaticScheduleModel}
    {rest : List StaticScheduleModel} {s : StaticScheduleModel} (hs : s ∈ first :: rest) :
    SameAlone rtTrips rtStopTimes nowUtc (first :: rest) s ↔
      ReadsOwnDataset rtTrips rtStopTimes nowUtc first s := by
  simp only [SameAlone, overlayAlone, rtTrip_load hs, stopOverlay_load hs,
    rtTrip_load List.mem_cons_self, stopOverlay_load List.mem_cons_self]
  by_cases hd : s.trip.dataset = first.trip.dataset
  · rw [hd, orders_agree_iff hu, ReadsOwnDataset]
    constructor
    · exact fun h => Or.inl ⟨hd, h⟩
    · rintro (⟨_, h⟩ | ⟨h, _⟩)
      · exact h
      · exact untied_of_noRecentRows h
  · rw [ReadsOwnDataset, or_iff_right (fun h => hd h.1)]
    constructor
    · intro h
      have hrows := h _ _ (List.Perm.refl _) (List.Perm.refl _) _ _ (List.Perm.refl _)
        (List.Perm.refl _)
      rw [newest_eq_iff (Ne.symm hd), cell_eq_iff (Ne.symm hd)] at hrows
      exact ⟨⟨hrows.1.1, hrows.2.1⟩, hrows.1.2, hrows.2.2⟩
    · rintro ⟨hfirst, hown⟩ t t' ht ht' u u' hu hu'
      obtain ⟨htrips, hstops⟩ := hfirst.perm ht hu
      obtain ⟨htrips', hstops'⟩ := hown.perm ht' hu'
      rw [htrips, htrips', hstops, hstops']
      exact ⟨rfl, rfl⟩

/-- The records of the models that each schedule has alone, each read in an order of its own. -/
def recordsAlone (rtTrips : StaticScheduleModel → List RTTripModel)
    (rtStopTimes : StaticScheduleModel → List RTStopTimeModel) (nowUtc now : DateTime)
    (schedules : List StaticScheduleModel) : List TSStopTimeModel :=
  schedules.filterMap (fun s =>
    let r := realtimeScheduleFor (overlayAlone (rtTrips s) (rtStopTimes s) nowUtc s) now s
    if r.isRecorded then some r.record else none)

/-- The record of a schedule depends on its own overlay only. -/
theorem dueDelayRecord_congr {overlay overlay' : Overlay} {now : DateTime}
    {s : StaticScheduleModel} (ht : s.rtTrip overlay = s.rtTrip overlay')
    (hs : s.stopOverlay overlay = s.stopOverlay overlay') :
    dueDelayRecord overlay now s = dueDelayRecord overlay' now s := by
  unfold dueDelayRecord
  rw [ht, hs]

/-- Two datasets in one list: the update of the second schedule is not found. -/
theorem overlay_batch_differs :
    ¬ ∀ rtTrips rtStopTimes nowUtc schedules, UniqueTrips rtTrips → UniqueStopTimes rtStopTimes →
      ∀ s ∈ schedules, SameAlone rtTrips rtStopTimes nowUtc schedules s := by
  intro h
  have hs := (h [snapshotTrip 1 "T2" "R1" "CANCELED" "B" ⟨0⟩] [] ⟨0⟩
    [timetableRow "T1" "A" "S" 1 Time.midnight, timetableRow "T2" "B" "S" 1 Time.midnight]
    (by decide) (by decide) (timetableRow "T2" "B" "S" 1 Time.midnight) (by decide) _ _
    (List.Perm.refl _) (List.Perm.refl _) _ _ (List.Perm.refl _) (List.Perm.refl _)).1
  have hid := congrArg (Option.map (fun r : RTTripModel => r.id)) hs
  revert hid
  decide

/-- A schedule of a list has the overlay that it has alone, whatever orders the rows come in,
exactly where the list reads its own dataset and no rows tie, or there is nothing to read. Where
this holds of all schedules, the recorded delays are those of the models that each schedule has
alone. -/
theorem overlay_batch_iff (rtTrips : List RTTripModel) (rtStopTimes : List RTStopTimeModel)
    (nowUtc : DateTime) (schedules : List StaticScheduleModel)
    (hu : UniqueStopTimes rtStopTimes) :
    (∀ first ∈ schedules.head?, ∀ s ∈ schedules,
      (SameAlone rtTrips rtStopTimes nowUtc schedules s ↔
        ReadsOwnDataset rtTrips rtStopTimes nowUtc first s)) ∧
    ((∀ first ∈ schedules.head?, ∀ s ∈ schedules,
        ReadsOwnDataset rtTrips rtStopTimes nowUtc first s) →
      ∀ batchTrips batchStopTimes aloneTrips aloneStopTimes now,
        batchTrips.Perm rtTrips → batchStopTimes.Perm rtStopTimes →
        (∀ s, (aloneTrips s).Perm rtTrips) → (∀ s, (aloneStopTimes s).Perm rtStopTimes) →
        dueDelayRecords schedules
            (loadRecentRtOverlayForSchedules batchTrips batchStopTimes nowUtc schedules) now =
          recordsAlone aloneTrips aloneStopTimes nowUtc now schedules) := by
  cases schedules with
  | nil => exact ⟨fun _ _ s hs => absurd hs List.not_mem_nil, fun _ _ _ _ _ _ _ _ _ _ => rfl⟩
  | cons first rest =>
      simp only [List.head?_cons, Option.mem_def, Option.some.injEq, forall_eq']
      refine ⟨fun s hs => sameAlone_iff hu hs, ?_⟩
      intro h batchTrips batchStopTimes aloneTrips aloneStopTimes now ht hst hat has
      apply List.filterMap_congr
      intro s hs
      have hsame := (sameAlone_iff hu hs).2 (h s hs) _ _ ht (hat s) _ _ hst (has s)
      rw [dueDelayRecord_congr hsame.1 hsame.2, dueDelayRecord_eq]

/-- In a list of one dataset the second schedule keeps its newer trip row, its cancellation, and
the first one its delay, when the list gets the rows in the other order. -/
theorem overlay_batch_iff_one_dataset :
    let rtTrips := [snapshotTrip 1 "T2" "R1" "SCHEDULED" "A" ⟨0⟩,
      snapshotTrip 2 "T2" "R2" "CANCELED" "A" ⟨60000000⟩]
    let rtStopTimes := [snapshotStop 1 "T1" "S1" 1 "SCHEDULED" "A" ⟨60000000⟩,
      snapshotStop 2 "T1" "S2" 2 "SCHEDULED" "A" ⟨60000000⟩]
    let schedules :=
      [timetableRow "T1" "A" "S4" 4 Time.midnight, timetableRow "T2" "A" "S4" 4 Time.midnight]
    (∀ s ∈ schedules, SameAlone rtTrips rtStopTimes ⟨60000000⟩ schedules s) ∧
      dueDelayRecords schedules (loadRecentRtOverlayForSchedules rtTrips.reverse
          rtStopTimes.reverse ⟨60000000⟩ schedules) ⟨60000000⟩ =
        recordsAlone (fun _ => rtTrips) (fun _ => rtStopTimes) ⟨60000000⟩ ⟨60000000⟩ schedules := by
  intro rtTrips rtStopTimes schedules
  have hbatch := overlay_batch_iff rtTrips rtStopTimes ⟨60000000⟩ schedules (by decide)
  have hown : ∀ first ∈ schedules.head?, ∀ s ∈ schedules,
      ReadsOwnDataset rtTrips rtStopTimes ⟨60000000⟩ first s := by
    intro first hfirst s hs
    obtain rfl := Option.some.inj hfirst
    simp only [schedules, List.mem_cons, List.not_mem_nil, or_false] at hs
    rcases hs with rfl | rfl <;> exact Or.inl ⟨rfl, untied_of_nodup (by decide) (by decide)⟩
  exact ⟨fun s hs => (hbatch.1 _ rfl s hs).2 (hown _ rfl s hs),
    hbatch.2 hown _ _ _ _ _ (List.reverse_perm _) (List.reverse_perm _)
      (fun _ => List.Perm.refl _) (fun _ => List.Perm.refl _)⟩

end SimplyTransport
