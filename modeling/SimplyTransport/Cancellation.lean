import SimplyTransport.OverlayBatch
import SimplyTransport.RealtimeSnapshot
import SimplyTransport.RealtimeVehicles

/-!
# Cancelled trips

A trip whose last update in the payload is cancelled is shown as cancelled everywhere, in every
order of the rows, exactly where the last update of each route that the payload gives the trip
is cancelled too: the records are unique by trip and route, so an earlier update under another
route leaves a row of the same instant beside the cancelled one.
-/

namespace SimplyTransport
open RealtimeSnapshot Selection

def importTripDir (trips : List TripModel) (stops : List StopModel) (dataset : String)
    (data : List FeedEntity) : OrderedDict String (String × ℤ) :=
  let ids := collectTripUpdateFeedIds data
  (loadRealtimeLookups trips stops dataset ids.1 ids.2).1

/-- The last trip update of the trip is cancelled or deleted, and its route resolves. -/
def CanceledLast (tripDir : OrderedDict String (String × ℤ)) (tripId : String)
    (data : List FeedEntity) : Prop :=
  ∃ u, ((data.filterMap (fun item => item.tripUpdate)).filter
      (fun u => effectiveTripIdForTripUpdate u = some tripId)).getLast? = some u ∧
    tripDescriptorRelationship u.trip ∈ removedTripRelationships ∧
    (contribution tripDir u).isSome

/-- For every order of the rows, the models of the trip's schedules are removed, none of its
schedules is recorded, and no vehicle of the trip is returned. -/
def CancellationHonoured (tripId : String) (trips : List TripModel) (rtTrips : List RTTripModel)
    (rtStopTimes : List RTStopTimeModel) (nowUtc : DateTime)
    (schedules : List StaticScheduleModel) : Prop :=
  ∀ trips' rows stopRows, trips'.Perm trips → rows.Perm rtTrips → stopRows.Perm rtStopTimes →
    (∀ now, ∀ m ∈ getRealtimeSchedulesForStaticSchedules rows stopRows nowUtc now schedules,
      m.staticSchedule.trip.id = tripId → m.isTripRemoved = true) ∧
    (∀ now, dueDelayRecords schedules
        (loadRecentRtOverlayForSchedules rows stopRows nowUtc schedules) now =
      dueDelayRecords (schedules.filter (fun s => s.trip.id ≠ tripId))
        (loadRecentRtOverlayForSchedules rows stopRows nowUtc schedules) now) ∧
    (∀ vehicles routes agencies routeIds direction,
      ∀ v ∈ getVehiclesOnRoutes vehicles trips' routes agencies rows routeIds direction true,
        v.tripId ≠ tripId)

/-- The trip has recent rows in the dataset, and each of the newest marks it removed. -/
def NewestRemoved (rtTrips : List RTTripModel) (nowUtc : DateTime) (dataset tripId : String) :
    Prop :=
  recentTripRows rtTrips nowUtc dataset tripId ≠ [] ∧
    ∀ r, Greatest (fun r : RTTripModel => r.createdAt)
      (recentTripRows rtTrips nowUtc dataset tripId) r → r.isRemoved = true

/-- A list with the first schedule `first` is read in time, or from another dataset in whose
rows, which the import keeps, the trip was removed before. -/
def ReadsRemoved (old : List RTTripModel) (createdAt nowUtc : DateTime) (dataset tripId : String)
    (first : StaticScheduleModel) : Prop :=
  if first.trip.dataset = dataset then thirtyMinsAgo nowUtc ≤ createdAt
  else NewestRemoved old nowUtc first.trip.dataset tripId

/-- The last update under each of the trip's routes is cancelled, and the overlay of a schedule
of the trip reads it. -/
structure StaysCanceled (tripDir : OrderedDict String (String × ℤ)) (tripId dataset : String)
    (createdAt : DateTime) (data : List FeedEntity) (old : List RTTripModel) (nowUtc : DateTime)
    (schedules : List StaticScheduleModel) : Prop where
  routes : ∀ routeId, ∀ u ∈ (updatesFor tripDir tripId routeId data).getLast?,
    tripDescriptorRelationship u.trip ∈ removedTripRelationships
  read : ∀ s ∈ schedules, s.trip.id = tripId →
    ∀ first ∈ schedules.head?, ReadsRemoved old createdAt nowUtc dataset tripId first

section Rows

variable {rtTrips : List RTTripModel} {rtStopTimes : List RTStopTimeModel} {nowUtc : DateTime}

theorem newestRemoved_iff (dataset tripId : String) :
    (∀ rows, rows.Perm rtTrips →
      (newestTripRow (recentTripRows rows nowUtc dataset tripId)).any (fun r => r.isRemoved) =
        true) ↔ NewestRemoved rtTrips nowUtc dataset tripId := by
  have hdecides := (decides_argmax (fun r : RTTripModel => r.createdAt)).filter
    (p := fun _ r => r.tripId = tripId ∧ r.dataset = dataset ∧ thirtyMinsAgo nowUtc ≤ r.createdAt)
    (fun _ _ _ => rfl)
  refine (hdecides.forall_perm_any_iff (fun r => r.isRemoved) rtTrips).trans
    (and_congr_left fun _ => ?_)
  constructor
  · rintro ⟨r, hr⟩
    exact List.ne_nil_of_mem hr.1
  · intro h
    obtain ⟨r, hr⟩ := exists_argmax (fun r : RTTripModel => r.createdAt) h
    exact ⟨r, (decides_argmax _).sound _ r hr⟩

/-- What the three paths show of a trip is decided by the rows of the trip: the overlay shows
the newest recent ones, and the vehicles need a row that is not removed. -/
theorem cancellationHonoured_iff_rows {t : TripModel} {trips : List TripModel} (ht : t ∈ trips)
    (hunique : ∀ t' ∈ trips, t'.id = t.id → t' = t) (schedules : List StaticScheduleModel) :
    CancellationHonoured t.id trips rtTrips rtStopTimes nowUtc schedules ↔
      AllRemoved rtTrips t ∧ ∀ s ∈ schedules, s.trip.id = t.id → ∀ first ∈ schedules.head?,
        NewestRemoved rtTrips nowUtc first.trip.dataset t.id := by
  constructor
  · intro h
    constructor
    · rw [← no_vehicle_iff ht hunique]
      exact (h trips rtTrips rtStopTimes (.refl _) (.refl _) (.refl _)).2.2
    · intro s hs hid first hfirst
      rw [← newestRemoved_iff]
      intro rows hp
      have hmodel := (h trips rows rtStopTimes (.refl _) hp (.refl _)).1 ⟨0⟩
      cases schedules with
      | nil => exact absurd hs List.not_mem_nil
      | cons f rest =>
          obtain rfl := Option.some.inj hfirst
          have hremoved := hmodel _ (List.mem_map_of_mem hs)
          rw [realtimeScheduleFor_staticSchedule, realtimeScheduleFor_isTripRemoved,
            rtTrip_load hs, hid] at hremoved
          exact hremoved rfl
  · rintro ⟨hall, hnewest⟩ trips' rows stopRows hpt hpr _
    have hremoved : ∀ s ∈ schedules, s.trip.id = t.id →
        (s.rtTrip (loadRecentRtOverlayForSchedules rows stopRows nowUtc schedules)).any
          (fun r => r.isRemoved) = true := by
      intro s hs hid
      cases schedules with
      | nil => exact absurd hs List.not_mem_nil
      | cons f rest =>
          rw [rtTrip_load hs, hid]
          exact (newestRemoved_iff _ _).2 (hnewest s hs hid f rfl) rows hpr
    refine ⟨fun now m hm hid => ?_, fun now => ?_, ?_⟩
    · unfold getRealtimeSchedulesForStaticSchedules at hm
      split_ifs at hm
      · exact absurd hm List.not_mem_nil
      · obtain ⟨s, hs, rfl⟩ := List.mem_map.1 hm
        rw [realtimeScheduleFor_isTripRemoved]
        rw [realtimeScheduleFor_staticSchedule] at hid
        exact hremoved s hs hid
    · rw [dueDelayRecords, dueDelayRecords, List.filterMap_filter]
      apply List.filterMap_congr
      intro s hs
      by_cases hid : s.trip.id = t.id
      · rw [dueDelayRecord, if_pos (hremoved s hs hid)]
        simp [hid]
      · simp [hid]
    · exact (no_vehicle_iff (hpt.mem_iff.2 ht)
        (fun t' ht' => hunique t' (hpt.mem_iff.1 ht'))).2 (hall.perm hpr)

end Rows

section Build

variable {dataset : String} {tripDir : OrderedDict String (String × ℤ)} {stopsInDb : List String}
  {createdAt : DateTime} {today : Date} {data : List FeedEntity}
  {out : List RtTripRecord × List RtStopTimeRecord}

/-- The record kept for a trip and a route has the relationship of their last update. -/
theorem last_relationship {raw : List RtTripRecord × List RtStopTimeRecord}
    (h : feedRecords dataset tripDir stopsInDb createdAt today data = .ok raw)
    (tripId routeId : String) :
    ((OrderedDict.lastBy RtTripRecord.key raw.1).get? (tripId, routeId, dataset)).map
        (fun r => r.scheduleRelationship) =
      (updatesFor tripDir tripId routeId data).getLast?.map
        (fun u => tripDescriptorRelationship u.trip) := by
  rw [OrderedDict.get?_lastBy, ← List.getLast?_map, ← List.getLast?_map,
    feedRecords_relationships h tripId routeId]

theorem build_createdAt
    (h : buildRtTripAndStopTimeRecords dataset tripDir stopsInDb createdAt today data = .ok out) :
    ∀ r ∈ out.1, r.createdAt = createdAt := by
  obtain ⟨raw, hraw, rfl⟩ := buildRtTripAndStopTimeRecords_eq h
  intro r hr
  obtain ⟨_, _, _, _, hrec⟩ := feedRecords_trip hraw r (OrderedDict.mem_of_mem_lastBy_values hr)
  exact hrec.createdAt_eq

theorem exists_last_update
    (h : buildRtTripAndStopTimeRecords dataset tripDir stopsInDb createdAt today data = .ok out) :
    ∀ r ∈ out.1, ∃ u ∈ (updatesFor tripDir r.tripId r.routeId data).getLast?,
      r.scheduleRelationship = tripDescriptorRelationship u.trip := by
  have hdataset := (snapshot_of_build h).trips_dataset
  obtain ⟨raw, hraw, rfl⟩ := buildRtTripAndStopTimeRecords_eq h
  intro r hr
  have hlast := last_relationship hraw r.tripId r.routeId
  have hget : (OrderedDict.lastBy RtTripRecord.key raw.1).get?
      (r.tripId, r.routeId, dataset) = some r := by
    rw [OrderedDict.get?_lastBy, ← hdataset r hr]
    exact OrderedDict.mem_lastBy_values.1 hr
  rw [hget, Option.map_some, eq_comm, Option.map_eq_some_iff] at hlast
  obtain ⟨u, hu, hrel⟩ := hlast
  exact ⟨u, hu, hrel.symm⟩

theorem exists_record
    (h : buildRtTripAndStopTimeRecords dataset tripDir stopsInDb createdAt today data = .ok out)
    {tripId routeId : String} {u : TripUpdate}
    (hu : u ∈ (updatesFor tripDir tripId routeId data).getLast?) :
    ∃ r ∈ out.1, r.tripId = tripId ∧
      r.scheduleRelationship = tripDescriptorRelationship u.trip := by
  obtain ⟨raw, hraw, rfl⟩ := buildRtTripAndStopTimeRecords_eq h
  have hlast := last_relationship hraw tripId routeId
  rw [Option.mem_def.1 hu, Option.map_some, Option.map_eq_some_iff] at hlast
  obtain ⟨r, hr, hrel⟩ := hlast
  refine ⟨r, OrderedDict.mem_values.2 ⟨_, hr⟩, ?_, hrel⟩
  rw [OrderedDict.get?_lastBy] at hr
  have hkey := (List.mem_filter.1 (List.mem_of_getLast? hr)).2
  simp only [RtTripRecord.key, decide_eq_true_eq, Prod.mk.injEq] at hkey
  exact hkey.1

theorem CanceledLast.exists_record {tripId : String}
    (h : buildRtTripAndStopTimeRecords dataset tripDir stopsInDb createdAt today data = .ok out)
    (hlast : CanceledLast tripDir tripId data) : ∃ r ∈ out.1, r.tripId = tripId := by
  obtain ⟨u, hu, _, hc⟩ := hlast
  obtain ⟨⟨tripId', routeId, direction⟩, hc⟩ := Option.isSome_iff_exists.1 hc
  have hmem := List.mem_filter.1 (List.mem_of_getLast? hu)
  have hid : tripId' = tripId := by
    simp only [contribution, Option.bind_eq_bind, Option.bind_eq_some_iff] at hc
    obtain ⟨id, hid, _, _, _, _, hc⟩ := hc
    rw [of_decide_eq_true hmem.2] at hid
    rw [Option.some.inj hid]
    exact (Prod.mk.inj (Option.some.inj hc)).1.symm
  have hupdates : updatesFor tripDir tripId routeId data ≠ [] := by
    apply List.ne_nil_of_mem (a := u)
    rw [updatesFor, List.mem_filter, hc]
    exact ⟨hmem.1, by simp [hid]⟩
  obtain ⟨u', hu'⟩ := Option.ne_none_iff_exists'.1 (mt List.getLast?_eq_none_iff.1 hupdates)
  obtain ⟨r, hr, hrid, _⟩ := SimplyTransport.exists_record h hu'
  exact ⟨r, hr, hrid⟩

end Build

section Import

variable {trips : List TripModel} {stops : List StopModel} {dataset : String}
  {createdAt : DateTime} {today : Date} {data : List FeedEntity}
  {out : List RtTripRecord × List RtStopTimeRecord}

/-- The rows of another dataset are kept. -/
theorem recentTripRows_snapshot_of_ne {old : List RTTripModel} {records : List RtTripRecord}
    (hrecords : ∀ r ∈ records, r.dataset = dataset) (firstId : ℤ) {dataset' : String}
    (hne : dataset' ≠ dataset) (nowUtc : DateTime) (tripId : String) :
    recentTripRows (snapshotRtTrip old records dataset firstId) nowUtc dataset' tripId =
      recentTripRows old nowUtc dataset' tripId := by
  have hnew : recentTripRows ((IdRanges.recordsWithIds records firstId).map
      (fun p => rtTripWithId p.1 p.2)) nowUtc dataset' tripId = [] := by
    rw [recentTripRows, List.filter_eq_nil_iff]
    intro r hr hrow
    obtain ⟨p, hp, rfl⟩ := List.mem_map.1 hr
    have hmem : p.2 ∈ records := by
      rw [← recordsWithIds_snd records firstId]
      exact List.mem_map_of_mem hp
    have hdataset : p.2.dataset = dataset' := (of_decide_eq_true hrow).2.1
    exact hne (hdataset.symm.trans (hrecords p.2 hmem))
  have hold : recentTripRows (old.filter (fun r => r.dataset ≠ dataset)) nowUtc dataset' tripId =
      recentTripRows old nowUtc dataset' tripId := by
    rw [recentTripRows, List.filter_filter]
    apply List.filter_congr
    intro r _
    by_cases hd : r.dataset = dataset'
    · simp [hd, hne]
    · simp [hd]
  rw [snapshotRtTrip, snapshotCopyTable, recentTripRows, List.filter_append]
  change recentTripRows _ nowUtc dataset' tripId ++ recentTripRows _ nowUtc dataset' tripId = _
  rw [hold, hnew, List.append_nil]

/-- After the import the trip's rows are all removed exactly where the last update of each of
its routes removes it. -/
theorem allRemoved_snapshot_iff (old : List RTTripModel) (firstId : ℤ) {t : TripModel}
    (hdataset : t.dataset = dataset)
    (h : importRecords trips stops dataset createdAt today data = .ok out)
    (hlast : CanceledLast (importTripDir trips stops dataset data) t.id data) :
    AllRemoved (snapshotRtTrip old out.1 dataset firstId) t ↔
      ∀ routeId, ∀ u ∈ (updatesFor (importTripDir trips stops dataset data) t.id routeId
        data).getLast?, tripDescriptorRelationship u.trip ∈ removedTripRelationships := by
  let p : Payload dataset := ⟨out.1, out.2, snapshot_of_build h⟩
  have hholds : HoldsTrips p (snapshotRtTrip old out.1 dataset firstId) :=
    holdsTrips_snapshot p old firstId
  constructor
  · rintro ⟨_, hall⟩ routeId u hu
    obtain ⟨record, hrecord, hid, hrel⟩ := exists_record h hu
    obtain ⟨r, hr, rfl⟩ := hholds.exists_row hrecord
    have hremoved := hall r hr hid ((p.snapshot.trips_dataset _ hrecord).trans hdataset.symm)
    rw [← hrel]
    exact of_decide_eq_true hremoved
  · intro hroutes
    constructor
    · obtain ⟨record, hrecord, hid⟩ := hlast.exists_record h
      obtain ⟨r, hr, rfl⟩ := hholds.exists_row hrecord
      exact ⟨r, hr, hid, (p.snapshot.trips_dataset _ hrecord).trans hdataset.symm⟩
    · intro r hr hid hd
      obtain ⟨u, hu, hrel⟩ := exists_last_update h _ (hholds.mem hr (hd.trans hdataset))
      rw [hid] at hu
      unfold RtTripRecord.isRemoved
      rw [hrel]
      exact decide_eq_true (hroutes _ u hu)

/-- Rows that are all removed are read as removed as long as the import is recent. -/
theorem newestRemoved_snapshot_iff (old : List RTTripModel) (firstId : ℤ) {t : TripModel}
    (hdataset : t.dataset = dataset)
    (h : importRecords trips stops dataset createdAt today data = .ok out)
    (hall : AllRemoved (snapshotRtTrip old out.1 dataset firstId) t) (nowUtc : DateTime)
    (first : StaticScheduleModel) :
    NewestRemoved (snapshotRtTrip old out.1 dataset firstId) nowUtc first.trip.dataset t.id ↔
      ReadsRemoved old createdAt nowUtc dataset t.id first := by
  let p : Payload dataset := ⟨out.1, out.2, snapshot_of_build h⟩
  have hholds : HoldsTrips p (snapshotRtTrip old out.1 dataset firstId) :=
    holdsTrips_snapshot p old firstId
  have hcreated : ∀ r ∈ snapshotRtTrip old out.1 dataset firstId, r.dataset = dataset →
      r.createdAt = createdAt :=
    fun r hr hd => build_createdAt h _ (hholds.mem hr hd)
  unfold ReadsRemoved
  split_ifs with hd
  · rw [hd]
    constructor
    · rintro ⟨hne, _⟩
      obtain ⟨r, hr⟩ := List.exists_mem_of_ne_nil _ hne
      obtain ⟨hr, hrow⟩ := List.mem_filter.1 hr
      obtain ⟨_, hrd, hrecent⟩ := of_decide_eq_true hrow
      rwa [hcreated r hr hrd] at hrecent
    · intro hrecent
      constructor
      · obtain ⟨r, hr, hid, hrd⟩ := hall.1
        rw [hdataset] at hrd
        refine List.ne_nil_of_mem (List.mem_filter.2 ⟨hr, decide_eq_true ⟨hid, hrd, ?_⟩⟩)
        rw [hcreated r hr hrd]
        exact hrecent
      · intro r hr
        obtain ⟨hr, hrow⟩ := List.mem_filter.1 hr.1
        obtain ⟨hid, hrd, _⟩ := of_decide_eq_true hrow
        exact hall.2 r hr hid (hrd.trans hdataset.symm)
  · rw [NewestRemoved, NewestRemoved, recentTripRows_snapshot_of_ne
      (snapshot_of_build h).trips_dataset firstId hd nowUtc t.id]

end Import

def updateOf (route relationship : String) : FeedEntity :=
  ⟨some "1", some ⟨⟨some "T", some route, none, none, some relationship, none⟩, ⟨none, none⟩, []⟩⟩

def tripT : TripModel := ⟨"T", "R1", "W", "", "", "", 0, "", "TFI"⟩

def rerouted : List FeedEntity := [updateOf "R1" "SCHEDULED", updateOf "R2" "CANCELED"]

theorem rerouted_canceledLast : CanceledLast (importTripDir [tripT] [] "TFI" rerouted) "T"
    rerouted :=
  ⟨_, rfl, by decide, rfl⟩

/-- The earlier update under the other route leaves a row that is not removed. -/
theorem cancellation_not_honoured :
    ¬ ∀ trips stops dataset createdAt today data out old firstId rtStopTimes nowUtc schedules t,
      (trips.map (fun t : TripModel => t.id)).Nodup → t ∈ trips → t.dataset = dataset →
      importRecords trips stops dataset createdAt today data = .ok out →
      CanceledLast (importTripDir trips stops dataset data) t.id data →
      thirtyMinsAgo nowUtc ≤ createdAt →
      (∀ s ∈ schedules, s.trip.dataset = dataset) →
        CancellationHonoured t.id trips (snapshotRtTrip old out.1 dataset firstId) rtStopTimes
          nowUtc schedules := by
  intro h
  have hhonoured := h [tripT] [] "TFI" ⟨0⟩ ⟨1⟩ rerouted _ [] 1 [] ⟨0⟩ [] tripT
    (List.nodup_singleton _) (List.mem_singleton.2 rfl) rfl rfl rerouted_canceledLast (by decide)
    (fun s hs => absurd hs List.not_mem_nil)
  have hall := ((cancellationHonoured_iff_rows (List.mem_singleton.2 rfl)
    (fun t' ht' _ => List.mem_singleton.1 ht') []).1 hhonoured).1
  exact absurd (hall.2 _ List.mem_cons_self rfl rfl) (by decide)

/-- A trip whose last update is cancelled is shown as cancelled on the three paths, in every
order of the rows, exactly where the last update of each of its routes is cancelled and the
overlay of its schedules reads the import. -/
theorem cancellation_honoured_iff {trips : List TripModel} {stops : List StopModel}
    {dataset : String} {createdAt : DateTime} {today : Date} {data : List FeedEntity}
    {out : List RtTripRecord × List RtStopTimeRecord} {t : TripModel}
    (hids : (trips.map (fun t => t.id)).Nodup) (ht : t ∈ trips) (hdataset : t.dataset = dataset)
    (h : importRecords trips stops dataset createdAt today data = .ok out)
    (hlast : CanceledLast (importTripDir trips stops dataset data) t.id data)
    (old : List RTTripModel) (firstId : ℤ) (rtStopTimes : List RTStopTimeModel)
    (nowUtc : DateTime) (schedules : List StaticScheduleModel) :
    CancellationHonoured t.id trips (snapshotRtTrip old out.1 dataset firstId) rtStopTimes nowUtc
        schedules ↔
      StaysCanceled (importTripDir trips stops dataset data) t.id dataset createdAt data old
        nowUtc schedules := by
  have hunique : ∀ t' ∈ trips, t'.id = t.id → t' = t :=
    fun t' ht' hid => List.inj_on_of_nodup_map hids ht' ht hid
  rw [cancellationHonoured_iff_rows ht hunique]
  constructor
  · rintro ⟨hall, hnewest⟩
    refine ⟨(allRemoved_snapshot_iff old firstId hdataset h hlast).1 hall, ?_⟩
    intro s hs hid first hfirst
    exact (newestRemoved_snapshot_iff old firstId hdataset h hall nowUtc first).1
      (hnewest s hs hid first hfirst)
  · rintro ⟨hroutes, hread⟩
    have hall := (allRemoved_snapshot_iff old firstId hdataset h hlast).2 hroutes
    refine ⟨hall, fun s hs hid first hfirst => ?_⟩
    exact (newestRemoved_snapshot_iff old firstId hdataset h hall nowUtc first).2
      (hread s hs hid first hfirst)

def tripU : TripModel := ⟨"U", "R1", "W", "", "", "", 0, "", "TFI"⟩

def stopS : StopModel := ⟨"S", "", "Main Street", "", "", "", none, none, "TFI"⟩

def runsWithStop : FeedEntity :=
  ⟨some "1", some ⟨⟨some "T", some "R1", none, none, some "SCHEDULED", none⟩, ⟨none, none⟩,
    [⟨some "S", some (.int 1), none, some 60, none⟩]⟩⟩

def canceled : List FeedEntity := [runsWithStop, updateOf "R2" "DELETED", updateOf "R1" "CANCELED"]

def canceledDir : OrderedDict String (String × ℤ) :=
  importTripDir [tripT, tripU] [stopS] "TFI" canceled

def canceledRecords : List RtTripRecord × List RtStopTimeRecord :=
  (importRecords [tripT, tripU] [stopS] "TFI" ⟨0⟩ ⟨1⟩ canceled).toOption.get rfl

theorem canceled_routes (routeId : String) :
    ∀ u ∈ (updatesFor canceledDir "T" routeId canceled).getLast?,
      tripDescriptorRelationship u.trip ∈ removedTripRelationships := by
  intro u hu
  obtain ⟨hmem, hroute⟩ := List.mem_filter.1 (List.mem_of_getLast? hu)
  obtain ⟨c, hc, hkey⟩ := (Option.any_eq_true _ _).1 hroute
  have hroutes : ∀ u ∈ canceled.filterMap (fun item => item.tripUpdate),
      ∀ c ∈ contribution canceledDir u, c.2.1 = "R1" ∨ c.2.1 = "R2" := by decide
  rcases hroutes u hmem c hc with hrouteId | hrouteId
  · obtain rfl : routeId = "R1" := (of_decide_eq_true hkey).2.symm.trans hrouteId
    have hlast : ∀ u ∈ (updatesFor canceledDir "T" "R1" canceled).getLast?,
        tripDescriptorRelationship u.trip ∈ removedTripRelationships := by decide
    exact hlast u hu
  · obtain rfl : routeId = "R2" := (of_decide_eq_true hkey).2.symm.trans hrouteId
    have hlast : ∀ u ∈ (updatesFor canceledDir "T" "R2" canceled).getLast?,
        tripDescriptorRelationship u.trip ∈ removedTripRelationships := by decide
    exact hlast u hu

/-- A trip that first runs and is deleted under another route, and then cancelled, beside a trip
that runs. -/
theorem cancellation_honoured_iff_one :
    CancellationHonoured "T" [tripT, tripU]
      (snapshotRtTrip [snapshotTrip 1 "T" "R1" "SCHEDULED" "TFI" ⟨0⟩,
        snapshotTrip 2 "U" "R1" "SCHEDULED" "GAI" ⟨0⟩] canceledRecords.1 "TFI" 3)
      [snapshotStop 1 "T" "S" 1 "SCHEDULED" "TFI" ⟨0⟩] ⟨0⟩
      [timetableRow "T" "TFI" "S" 1 Time.midnight, timetableRow "U" "TFI" "S" 2 Time.midnight] := by
  refine (@cancellation_honoured_iff [tripT, tripU] [stopS] "TFI" ⟨0⟩ ⟨1⟩ canceled canceledRecords
    tripT (by decide) List.mem_cons_self rfl rfl ⟨_, rfl, by decide, rfl⟩ _ 3 _ ⟨0⟩ _).2
    ⟨canceled_routes, fun s _ _ first hfirst => ?_⟩
  obtain rfl := Option.some.inj hfirst
  exact (if_pos rfl).mpr (by decide)

end SimplyTransport
