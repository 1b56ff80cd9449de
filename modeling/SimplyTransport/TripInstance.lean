import SimplyTransport.OverlayOrder
import SimplyTransport.RealtimeController
import SimplyTransport.RealtimeSnapshot

/-!
# Updates and the date of their trip

The importer stores the start date of a trip update and the overlay does not compare it: an
update is shown on its own trip and only while it is recent, but on the schedule of every date
that is asked for.
-/

namespace SimplyTransport
open RealtimeSnapshot

structure FeedImport where
  trips : List TripModel
  stops : List StopModel
  dataset : String
  createdAt : DateTime
  today : Date
  data : List FeedEntity

namespace FeedImport

def lookups (f : FeedImport) : OrderedDict String (String × ℤ) × List String :=
  let ids := collectTripUpdateFeedIds f.data
  loadRealtimeLookups f.trips f.stops f.dataset ids.1 ids.2

def records (f : FeedImport) : Except PyError (List RtTripRecord × List RtStopTimeRecord) :=
  importRecords f.trips f.stops f.dataset f.createdAt f.today f.data

def entityRecords (f : FeedImport) (item : FeedEntity) :
    Except PyError (Option (RtTripRecord × List RtStopTimeRecord)) :=
  SimplyTransport.entityRecords f.dataset f.lookups.1 f.lookups.2 f.createdAt f.today item

def LeavesTrip (f : FeedImport) (u : TripUpdate) (r : RtTripRecord) : Prop :=
  ∃ item ∈ f.data, item.tripUpdate = some u ∧ ∃ stops, f.entityRecords item = .ok (some (r, stops))

def LeavesStop (f : FeedImport) (u : TripUpdate) (st : RtStopTimeRecord) : Prop :=
  ∃ item ∈ f.data, item.tripUpdate = some u ∧
    ∃ r stops, f.entityRecords item = .ok (some (r, stops)) ∧ st ∈ stops

end FeedImport

/-- The update is for `date`: it says so, or says no date and `date` is the current one. -/
def TripUpdate.DatedOn (u : TripUpdate) (date current : Date) : Prop :=
  parseRtStartDate u.startDate current = .ok date

/-- The updates that the row carries are for the date of the request. -/
def ShowsOwnDate (f : FeedImport) (onDate current : Date) (m : RealtimeScheduleModel) : Prop :=
  (∀ rt ∈ m.rtTrip, rt.dataset = f.dataset →
    ∃ u, f.LeavesTrip u rt.toRtTripRecord ∧ u.DatedOn onDate current) ∧
  (∀ st ∈ m.rtStopTime, st.dataset = f.dataset →
    ∃ u, f.LeavesStop u st.toRtStopTimeRecord ∧ u.DatedOn onDate current)

structure TripOverlaid (f : FeedImport) (nowUtc : DateTime) (tripId : String)
    (rt : RTTripModel) : Prop where
  tripId_eq : rt.tripId = tripId
  recent : thirtyMinsAgo nowUtc ≤ rt.createdAt
  update : rt.dataset = f.dataset → ∃ u, f.LeavesTrip u rt.toRtTripRecord ∧
    effectiveTripIdForTripUpdate u = some tripId ∧ u.DatedOn rt.startDate f.today ∧
    (u.startDate ≠ none → ∀ onDate current, u.DatedOn onDate current ↔ rt.startDate = onDate)

structure StopOverlaid (f : FeedImport) (nowUtc : DateTime) (tripId : String)
    (st : RTStopTimeModel) : Prop where
  tripId_eq : st.tripId = tripId
  recent : thirtyMinsAgo nowUtc ≤ st.createdAt
  update : st.dataset = f.dataset → ∃ u, f.LeavesStop u st.toRtStopTimeRecord ∧
    effectiveTripIdForTripUpdate u = some tripId

section Update

variable {f : FeedImport} {out : List RtTripRecord × List RtStopTimeRecord} {u : TripUpdate}

theorem FeedImport.exists_leavesTrip (h : f.records = .ok out) :
    ∀ r ∈ out.1, ∃ u, f.LeavesTrip u r ∧ effectiveTripIdForTripUpdate u = some r.tripId ∧
      u.DatedOn r.startDate f.today := by
  obtain ⟨raw, hraw, rfl⟩ := buildRtTripAndStopTimeRecords_eq h
  intro r hr
  obtain ⟨item, hitem, stops, hleft⟩ :=
    (feedRecords_mem hraw).1 r (OrderedDict.mem_of_mem_lastBy_values hr)
  obtain ⟨u, hu, hrec, _⟩ := entityRecords_some hleft
  obtain ⟨_, hc⟩ := hrec.contributes
  exact ⟨u, ⟨item, hitem, hu, stops, hleft⟩, effectiveTripId_of_contribution hc, hrec.startDate⟩

theorem FeedImport.exists_leavesStop (h : f.records = .ok out) :
    ∀ st ∈ out.2, ∃ u, f.LeavesStop u st ∧ effectiveTripIdForTripUpdate u = some st.tripId := by
  obtain ⟨raw, hraw, rfl⟩ := buildRtTripAndStopTimeRecords_eq h
  intro st hst
  obtain ⟨item, hitem, r, _, stops, hleft, hmem⟩ :=
    (feedRecords_mem hraw).2 st (OrderedDict.mem_of_mem_lastBy_values hst)
  obtain ⟨u, hu, hrec, hstops⟩ := entityRecords_some hleft
  obtain ⟨_, hc⟩ := hrec.contributes
  refine ⟨u, ⟨item, hitem, hu, r, stops, hleft, hmem⟩, ?_⟩
  rw [(hstops st hmem).tripId_eq]
  exact effectiveTripId_of_contribution hc

/-- An update that says its date is for that date only. -/
theorem datedOn_iff {date onDate today current : Date} (hsome : u.startDate ≠ none)
    (h : u.DatedOn date today) : u.DatedOn onDate current ↔ date = onDate := by
  obtain ⟨d, hd⟩ := Option.ne_none_iff_exists'.1 hsome
  have htruthy : d.truthy = true := (Option.filter_eq_some_iff.1 hd).2
  have hsame : parseRtStartDate u.startDate current = parseRtStartDate u.startDate today := by
    rw [hd]
    simp only [parseRtStartDate, Option.filter_some, htruthy, if_true]
    cases d <;> rfl
  rw [TripUpdate.DatedOn] at h ⊢
  rw [hsame, h]
  exact ⟨Except.ok.inj, congrArg _⟩

end Update

section Request

variable {f : FeedImport} {out : List RtTripRecord × List RtStopTimeRecord}
  {db : StaticDatabase} {rtTrips : List RTTripModel} {rtStopTimes : List RTStopTimeModel}
  {nowUtc : DateTime}

theorem tripOverlaid (h : f.records = .ok out)
    (hholds : HoldsTrips ⟨out.1, out.2, snapshot_of_build h⟩ rtTrips) {dataset tripId : String}
    {rt : RTTripModel}
    (hrt : newestTripRow (recentTripRows rtTrips nowUtc dataset tripId) = some rt) :
    TripOverlaid f nowUtc tripId rt := by
  obtain ⟨hmem, hrow⟩ := List.mem_filter.1 (List.argmax_mem hrt)
  obtain ⟨hid, _, hrecent⟩ := of_decide_eq_true hrow
  refine ⟨hid, hrecent, fun hd => ?_⟩
  obtain ⟨u, hleaves, heff, hdate⟩ := f.exists_leavesTrip h _ (hholds.mem hmem hd)
  refine ⟨u, hleaves, ?_, hdate, fun hsome _ _ => datedOn_iff hsome hdate⟩
  rw [heff, ← hid]

theorem stopOverlaid (h : f.records = .ok out)
    (hholds : HoldsStops ⟨out.1, out.2, snapshot_of_build h⟩ rtStopTimes)
    {dataset tripId stopId : String} {sequence : ℤ} {o : RTStopTimeOverlay}
    (ho : resolveCell (recentStopRows rtStopTimes nowUtc dataset tripId) stopId sequence =
      some o) : StopOverlaid f nowUtc tripId o.row := by
  obtain ⟨hmem, hrow⟩ := List.mem_filter.1 (resolveCell_mem ho)
  obtain ⟨hid, _, hrecent⟩ := of_decide_eq_true hrow
  refine ⟨hid, hrecent, fun hd => ?_⟩
  obtain ⟨u, hleaves, heff⟩ := f.exists_leavesStop h _ (hholds.mem hmem hd)
  refine ⟨u, hleaves, ?_⟩
  rw [heff, ← hid]

end Request

def requestedDate (now : DateTime) (day : Option DayOfWeek) : Date :=
  nextDateForDay (day.getD (DayOfWeek.ofDate now.date)).value now.date

def mondayMidnight : DateTime := DateTime.combine ⟨739005⟩ Time.midnight

def mondayCancellation : FeedImport where
  trips := [(timetableRow "T" "TFI" "S" 1 Time.midnight).trip]
  stops := []
  dataset := "TFI"
  createdAt := mondayMidnight
  today := ⟨739005⟩
  data := [⟨some "1", some ⟨⟨some "T", none, none, some (.str "20240429"), some "CANCELED", none⟩,
    ⟨none, none⟩, []⟩⟩]

def oneTripDatabase : StaticDatabase :=
  let s := timetableRow "T" "TFI" "S" 1 Time.midnight
  { routes := [s.route]
    calendars := [s.calendar]
    calendarDates := []
    stops := [s.stop]
    trips := [s.trip]
    stopTimes := [s.stopTime]
    routes_nodup := List.nodup_singleton _
    calendars_nodup := List.nodup_singleton _
    stops_nodup := List.nodup_singleton _
    trips_nodup := List.nodup_singleton _ }

/-- Monday's cancellation is shown on Tuesday's schedule. -/
theorem update_of_another_date :
    ¬ ∀ (f : FeedImport) out oldTrips oldStopTimes i j db nowUtc now stopId startTime endTime day
      models, f.records = .ok out →
      getRealtimeScheduleByStopId db (snapshotRtTrip oldTrips out.1 f.dataset i)
        (snapshotRtStopTime oldStopTimes out.2 f.dataset j) nowUtc now stopId startTime endTime
        day = .ok models →
      ∀ m ∈ models, ShowsOwnDate f (requestedDate now day) now.date m := by
  intro h
  let f := mondayCancellation
  let row := timetableRow "T" "TFI" "S" 1 Time.midnight
  have hshown := h f _ [] [] 1 1 oneTripDatabase mondayMidnight mondayMidnight "S"
    (some Time.midnight) (some ⟨3600000000, by decide⟩) (some .tuesday) _ rfl rfl
  have hrow : row ∈ schedulesOnDate oneTripDatabase .tuesday ⟨739006⟩
      ⟨some "S", some Time.midnight, some ⟨3600000000, by decide⟩, none⟩ := by
    rw [mem_schedulesOnDate (by decide) (by decide)]
    refine ⟨⟨List.mem_singleton_self _, ⟨List.mem_singleton_self _, rfl⟩,
      ⟨List.mem_singleton_self _, rfl⟩, ⟨List.mem_singleton_self _, rfl⟩,
      ⟨List.mem_singleton_self _, rfl⟩, rfl⟩, by decide, by decide, ?_⟩
    exact fun e he => absurd he List.not_mem_nil
  obtain ⟨m, hm, hstatic⟩ :=
    List.mem_map.1 ((liveSchedules_staticSchedule_perm _ _ _ _ _).mem_iff.2 hrow)
  obtain ⟨t, ht, hrt, _⟩ := mem_liveSchedules hm
  rw [hstatic, List.mem_singleton.1 ht] at hrt
  obtain ⟨u, ⟨item, hitem, hu, _⟩, hdated⟩ := (hshown m hm).1 _ hrt rfl
  obtain rfl := List.mem_singleton.1 hitem
  obtain rfl := Option.some.inj hu
  have hdate : (⟨739005⟩ : Date) = ⟨739006⟩ := Except.ok.inj hdated
  exact absurd hdate (by decide)

/-- Every update that a returned row carries is recent and comes from an update of its own trip.
Where the database has one dataset, a call carries the same update whatever the day that is
asked for. -/
theorem update_of_own_trip {f : FeedImport} {out : List RtTripRecord × List RtStopTimeRecord}
    (h : f.records = .ok out) (oldTrips : List RTTripModel) (oldStopTimes : List RTStopTimeModel)
    (i j : ℤ) (db : StaticDatabase) (nowUtc now : DateTime) :
    let rtTrips := snapshotRtTrip oldTrips out.1 f.dataset i
    let rtStopTimes := snapshotRtStopTime oldStopTimes out.2 f.dataset j
    (∀ stopId startTime endTime day models,
      getRealtimeScheduleByStopId db rtTrips rtStopTimes nowUtc now stopId startTime endTime day =
        .ok models →
      ∀ m ∈ models,
        (∀ rt ∈ m.rtTrip, TripOverlaid f nowUtc m.staticSchedule.trip.id rt) ∧
        ∀ st ∈ m.rtStopTime, StopOverlaid f nowUtc m.staticSchedule.trip.id st) ∧
    ((∀ t ∈ db.trips, t.dataset = f.dataset) →
      ∀ stopId startTime endTime day models stopId' startTime' endTime' day' models',
      getRealtimeScheduleByStopId db rtTrips rtStopTimes nowUtc now stopId startTime endTime day =
        .ok models →
      getRealtimeScheduleByStopId db rtTrips rtStopTimes nowUtc now stopId' startTime' endTime'
        day' = .ok models' →
      ∀ m ∈ models, ∀ m' ∈ models', m.staticSchedule.cell = m'.staticSchedule.cell →
        m.rtTrip = m'.rtTrip ∧ m.rtStopTime = m'.rtStopTime) := by
  intro rtTrips rtStopTimes
  have htrips : HoldsTrips ⟨out.1, out.2, snapshot_of_build h⟩ rtTrips :=
    holdsTrips_snapshot ⟨out.1, out.2, snapshot_of_build h⟩ oldTrips i
  have hstops : HoldsStops ⟨out.1, out.2, snapshot_of_build h⟩ rtStopTimes :=
    holdsStops_snapshot ⟨out.1, out.2, snapshot_of_build h⟩ oldStopTimes j
  constructor
  · intro stopId startTime endTime day models hmodels m hm
    obtain ⟨_, _, rfl⟩ := getRealtimeScheduleByStopId_ok hmodels
    obtain ⟨t, _, hrt, hst⟩ := mem_liveSchedules hm
    constructor
    · exact fun rt hmem => tripOverlaid h htrips (hrt.symm.trans hmem)
    · intro st hmem
      rw [hst] at hmem
      split_ifs at hmem
      · cases hmem
      · obtain ⟨o, ho, rfl⟩ := Option.map_eq_some_iff.1 hmem
        exact stopOverlaid h hstops ho
  · intro hdataset stopId startTime endTime day models stopId' startTime' endTime' day' models'
      hmodels hmodels' m hm m' hm' hcell
    obtain ⟨_, _, rfl⟩ := getRealtimeScheduleByStopId_ok hmodels
    obtain ⟨_, _, rfl⟩ := getRealtimeScheduleByStopId_ok hmodels'
    obtain ⟨t, ht, hrt, hst⟩ := mem_liveSchedules hm
    obtain ⟨t', ht', hrt', hst'⟩ := mem_liveSchedules hm'
    simp only [StaticScheduleModel.cell, Prod.mk.injEq] at hcell
    obtain ⟨hid, hstop, hsequence⟩ := hcell
    have hsame : m.rtTrip = m'.rtTrip := by
      rw [hrt, hrt', hdataset t ht, hdataset t' ht', hid]
    refine ⟨hsame, ?_⟩
    rw [hst, hst', hsame, hdataset t ht, hdataset t' ht', hid, hstop, hsequence]

/-- Tuesday's schedule after Monday's cancellation. -/
theorem update_of_own_trip_tuesday :
    ∃ models, getRealtimeScheduleByStopId oneTripDatabase
        (snapshotRtTrip [] (mondayCancellation.records.toOption.get rfl).1 "TFI" 1) []
        mondayMidnight mondayMidnight "S" (some Time.midnight) (some ⟨3600000000, by decide⟩)
        (some .tuesday) = .ok models ∧
      ∀ m ∈ models, ∀ rt ∈ m.rtTrip,
        TripOverlaid mondayCancellation mondayMidnight m.staticSchedule.trip.id rt := by
  refine ⟨_, rfl, fun m hm => ?_⟩
  exact ((@update_of_own_trip mondayCancellation _ rfl [] [] 1 1 oneTripDatabase mondayMidnight
    mondayMidnight).1 "S" (some Time.midnight) (some ⟨3600000000, by decide⟩) (some .tuesday) _ rfl
    m hm).1

end SimplyTransport
