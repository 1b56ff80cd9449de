import SimplyTransport.VehicleImporter

/-!
# Lookups that are restricted to a payload

The importers load only the trips and stops that a first walk over the payload names. The
builders, which walk it again, ask for no other ones, so that they make the records that the
whole tables of the dataset give.
-/

namespace SimplyTransport

def datasetLookups (trips : List TripModel) (stops : List StopModel) (dataset : String) :
    OrderedDict String (String × ℤ) × List String :=
  (OrderedDict.collect (fun t => t.id) (fun t => some (t.routeId, t.direction))
      (trips.filter (fun t => t.dataset = dataset)),
    (stops.filter (fun s => s.dataset = dataset)).map (fun s => s.id))

def loadRealtimeImportSharedContext (trips : List TripModel) (dataset : String)
    (tripIds : List String) : OrderedDict String (String × ℤ) :=
  (loadRealtimeLookups trips [] dataset tripIds []).1

section Lookups

variable {trips : List TripModel} {stops : List StopModel} {dataset : String}
  {tripIds stopIds : List String}

theorem get?_loadRealtimeLookups {id : String} (hid : id ∈ tripIds) :
    (loadRealtimeLookups trips stops dataset tripIds stopIds).1.get? id =
      (datasetLookups trips stops dataset).1.get? id := by
  have hrows : trips.filter (fun t => t.dataset = dataset ∧ t.id ∈ tripIds) =
      (trips.filter (fun t => t.dataset = dataset)).filter (fun t => t.id ∈ tripIds) := by
    rw [List.filter_filter]
    apply List.filter_congr
    intro t _
    rw [Bool.decide_and, Bool.and_comm]
  simp only [loadRealtimeLookups, datasetLookups, hrows]
  exact OrderedDict.get?_collect_filter (p := fun id => decide (id ∈ tripIds))
    (decide_eq_true hid) _ _ _

theorem mem_loadRealtimeLookups {id : String} (hid : id ∈ stopIds) :
    id ∈ (loadRealtimeLookups trips stops dataset tripIds stopIds).2 ↔
      id ∈ (datasetLookups trips stops dataset).2 := by
  simp only [loadRealtimeLookups, datasetLookups, List.mem_map, List.mem_filter,
    decide_eq_true_eq]
  constructor
  · rintro ⟨s, ⟨hs, hd, _⟩, rfl⟩
    exact ⟨s, ⟨hs, hd⟩, rfl⟩
  · rintro ⟨s, ⟨hs, hd⟩, rfl⟩
    exact ⟨s, ⟨hs, hd, hid⟩, rfl⟩

end Lookups

section TripUpdates

variable {dataset : String} {tripDir tripDir' : OrderedDict String (String × ℤ)}
  {stopsInDb stopsInDb' : List String} {createdAt : DateTime} {today : Date}

theorem contribution_congr {u : TripUpdate}
    (h : ∀ id, effectiveTripIdForTripUpdate u = some id → tripDir.get? id = tripDir'.get? id) :
    contribution tripDir u = contribution tripDir' u := by
  unfold contribution
  cases hid : effectiveTripIdForTripUpdate u with
  | none => rfl
  | some id => simp only [Option.bind_eq_bind, Option.bind_some, h id hid]

theorem stopTimeRecordOf_congr {tripId entityId : String} {st : StopTimeUpdate}
    (h : ∀ id, truthy st.stopId = some id → (id ∈ stopsInDb ↔ id ∈ stopsInDb')) :
    stopTimeRecordOf dataset stopsInDb createdAt tripId entityId st =
      stopTimeRecordOf dataset stopsInDb' createdAt tripId entityId st := by
  have hstop : st.knownStop stopsInDb = st.knownStop stopsInDb' := by
    unfold StopTimeUpdate.knownStop
    cases hid : truthy st.stopId with
    | none => rfl
    | some id => simp only [Option.filter_some, h id hid]
  rw [stopTimeRecordOf, stopTimeRecordOf, hstop]

def TripUpdate.stopIds (u : TripUpdate) : List String :=
  if skipStopTimeImportForTripRelationship (tripDescriptorRelationship u.trip) then []
  else u.stopTimeUpdate.filterMap (fun st => truthy st.stopId)

theorem stopTimeRecords_congr {tripId entityId : String} {u : TripUpdate}
    (h : ∀ id ∈ u.stopIds, (id ∈ stopsInDb ↔ id ∈ stopsInDb')) :
    stopTimeRecords dataset stopsInDb createdAt tripId entityId u =
      stopTimeRecords dataset stopsInDb' createdAt tripId entityId u := by
  unfold stopTimeRecords
  split_ifs with hskip
  · rfl
  · have hsame : ∀ st ∈ u.stopTimeUpdate,
        stopTimeRecordOf dataset stopsInDb createdAt tripId entityId st =
          stopTimeRecordOf dataset stopsInDb' createdAt tripId entityId st := by
      intro st hst
      apply stopTimeRecordOf_congr
      intro id hid
      apply h
      rw [TripUpdate.stopIds, if_neg hskip]
      exact List.mem_filterMap.2 ⟨st, hst, hid⟩
    rw [mapM_congr hsame]

/-- An entity asks for its effective trip id and, unless its trip does not run, for the stops of
its updates. -/
theorem entityRecords_congr {item : FeedEntity}
    (htrip : ∀ u, item.tripUpdate = some u → ∀ id, effectiveTripIdForTripUpdate u = some id →
      tripDir.get? id = tripDir'.get? id)
    (hstop : ∀ u, item.tripUpdate = some u → ∀ id ∈ u.stopIds,
      (id ∈ stopsInDb ↔ id ∈ stopsInDb')) :
    entityRecords dataset tripDir stopsInDb createdAt today item =
      entityRecords dataset tripDir' stopsInDb' createdAt today item := by
  unfold entityRecords
  cases hu : item.tripUpdate with
  | none => rfl
  | some u =>
      simp only [contribution_congr (htrip u hu)]
      cases contribution tripDir' u with
      | none => rfl
      | some c => simp only [stopTimeRecords_congr (hstop u hu)]

theorem mem_collectTripUpdateFeedIds {data : List FeedEntity} {item : FeedEntity} {u : TripUpdate}
    (hitem : item ∈ data) (hu : item.tripUpdate = some u) :
    (∀ id, effectiveTripIdForTripUpdate u = some id → id ∈ (collectTripUpdateFeedIds data).1) ∧
      ∀ id ∈ u.stopIds, id ∈ (collectTripUpdateFeedIds data).2 := by
  have hmem : u ∈ data.filterMap (fun item => item.tripUpdate) :=
    List.mem_filterMap.2 ⟨item, hitem, hu⟩
  constructor
  · intro id hid
    exact List.mem_filterMap.2 ⟨u, hmem, hid⟩
  · intro id hid
    unfold TripUpdate.stopIds at hid
    split_ifs at hid with hskip
    · exact absurd hid List.not_mem_nil
    · refine List.mem_flatMap.2 ⟨u, List.mem_filter.2 ⟨hmem, ?_⟩, hid⟩
      simpa using hskip

end TripUpdates

section Vehicles

variable {dataset : String} {tripDir tripDir' : OrderedDict String (String × ℤ)}
  {createdAt : DateTime}

theorem vehicleRecordOf_congr {item : VehicleEntity}
    (h : ∀ u, item.vehicle = some u → ∀ id, truthy u.tripId = some id →
      tripDir.get? id = tripDir'.get? id) :
    vehicleRecordOf dataset tripDir createdAt item =
      vehicleRecordOf dataset tripDir' createdAt item := by
  unfold vehicleRecordOf
  cases hu : item.vehicle with
  | none => rfl
  | some u =>
      have htrip : (truthy u.tripId).filter (fun t => (tripDir.get? t).isSome) =
          (truthy u.tripId).filter (fun t => (tripDir'.get? t).isSome) := by
        cases hid : truthy u.tripId with
        | none => rfl
        | some id => simp only [Option.filter_some, h u hu id hid]
      simp only [htrip]

theorem mem_collectVehicleTripIds {data : List VehicleEntity} {item : VehicleEntity}
    {u : VehicleUpdate} {id : String} (hitem : item ∈ data) (hu : item.vehicle = some u)
    (hid : truthy u.tripId = some id) : id ∈ collectVehicleTripIds data := by
  refine List.mem_filterMap.2 ⟨item, hitem, ?_⟩
  rw [hu, Option.bind_some, hid]

end Vehicles

/-- The records that are built from the lookups of a payload are those that the whole tables of
the dataset give. -/
theorem restricted_lookups_lose_nothing (trips : List TripModel) (stops : List StopModel)
    (dataset : String) (createdAt : DateTime) (today : Date) :
    (∀ data, let ids := collectTripUpdateFeedIds data
      let lookups := loadRealtimeLookups trips stops dataset ids.1 ids.2
      let full := datasetLookups trips stops dataset
      buildRtTripAndStopTimeRecords dataset lookups.1 lookups.2 createdAt today data =
        buildRtTripAndStopTimeRecords dataset full.1 full.2 createdAt today data) ∧
    ∀ data, let tripDir :=
        loadRealtimeImportSharedContext trips dataset (collectVehicleTripIds data)
      buildRtVehicleRecords dataset tripDir createdAt data =
        buildRtVehicleRecords dataset (datasetLookups trips stops dataset).1 createdAt data := by
  constructor
  · intro data ids lookups full
    have hsame : ∀ item ∈ data,
        entityRecords dataset lookups.1 lookups.2 createdAt today item =
          entityRecords dataset full.1 full.2 createdAt today item := by
      intro item hitem
      apply entityRecords_congr
      · intro u hu id hid
        exact get?_loadRealtimeLookups ((mem_collectTripUpdateFeedIds hitem hu).1 id hid)
      · intro u hu id hid
        exact mem_loadRealtimeLookups ((mem_collectTripUpdateFeedIds hitem hu).2 id hid)
    rw [buildRtTripAndStopTimeRecords, buildRtTripAndStopTimeRecords, feedRecords, feedRecords,
      mapM_congr hsame]
  · intro data tripDir
    have hsame : ∀ item ∈ data, vehicleRecordOf dataset tripDir createdAt item =
        vehicleRecordOf dataset (datasetLookups trips stops dataset).1 createdAt item := by
      intro item hitem
      apply vehicleRecordOf_congr
      intro u hu id hid
      exact get?_loadRealtimeLookups (mem_collectVehicleTripIds hitem hu hid)
    rw [buildRtVehicleRecords, buildRtVehicleRecords, mapM_congr hsame]

end SimplyTransport
