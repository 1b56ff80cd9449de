import SimplyTransport.RealtimeImporters
import Mathlib.Data.List.ReduceOption

/-!
# The records of a payload

What the builder's records say about the entities they come from: the trip, route and
relationship of each trip record, where its start date is taken from, and that a stop record
stands beside a trip record of its trip.
-/

namespace SimplyTransport

variable {dataset : String} {tripDir : OrderedDict String (String × ℤ)} {stopsInDb : List String}
  {createdAt : DateTime} {today : Date}

def TripUpdate.startDate (u : TripUpdate) : Option JsonScalar :=
  ((u.trip.startDate.filter JsonScalar.truthy).or u.tripProperties.startDate).filter
    JsonScalar.truthy

structure Records (dataset : String) (tripDir : OrderedDict String (String × ℤ))
    (createdAt : DateTime) (today : Date) (u : TripUpdate) (r : RtTripRecord) : Prop where
  contributes : ∃ direction, contribution tripDir u = some (r.tripId, r.routeId, direction)
  relationship : r.scheduleRelationship = tripDescriptorRelationship u.trip
  startDate : parseRtStartDate u.startDate today = .ok r.startDate
  dataset_eq : r.dataset = dataset
  createdAt_eq : r.createdAt = createdAt

structure BelongsTo (st : RtStopTimeRecord) (r : RtTripRecord) : Prop where
  tripId_eq : st.tripId = r.tripId
  dataset_eq : st.dataset = r.dataset
  createdAt_eq : st.createdAt = r.createdAt

theorem effectiveTripId_of_contribution {u : TripUpdate}
    {c : String × String × ℤ} (h : contribution tripDir u = some c) :
    effectiveTripIdForTripUpdate u = some c.1 := by
  simp only [contribution, Option.bind_eq_bind, Option.bind_eq_some_iff] at h
  obtain ⟨id, hid, _, _, _, _, hc⟩ := h
  rw [hid, ← Option.some.inj hc]

theorem parseRtStartDate_filter (d : Option JsonScalar) (fallback : Date) :
    parseRtStartDate (d.filter JsonScalar.truthy) fallback = parseRtStartDate d fallback := by
  unfold parseRtStartDate
  rw [Option.filter_filter]
  simp only [Bool.and_self]

theorem stopTimeRecordOf_spec {tripId entityId : String} {st : StopTimeUpdate}
    {r : RtStopTimeRecord}
    (h : stopTimeRecordOf dataset stopsInDb createdAt tripId entityId st = .ok (some r)) :
    r.tripId = tripId ∧ r.dataset = dataset ∧ r.createdAt = createdAt := by
  unfold stopTimeRecordOf at h
  split at h
  · split at h
    · cases h
    · cases h
    · cases h
    · rw [← Option.some.inj (Except.ok.inj h)]
      exact ⟨rfl, rfl, rfl⟩
  · cases h

theorem stopTimeRecords_spec {tripId entityId : String} {u : TripUpdate}
    {stops : List RtStopTimeRecord}
    (h : stopTimeRecords dataset stopsInDb createdAt tripId entityId u = .ok stops) :
    ∀ r ∈ stops, r.tripId = tripId ∧ r.dataset = dataset ∧ r.createdAt = createdAt := by
  unfold stopTimeRecords at h
  split_ifs at h
  · rw [← Except.ok.inj h]
    exact fun r hr => absurd hr List.not_mem_nil
  · obtain ⟨records, hrecords, h⟩ := bind_eq_ok.1 h
    rw [← Except.ok.inj h]
    intro r hr
    obtain ⟨st, _, hst⟩ :=
      exists_line_of_forall₂ (forall₂_of_mapM hrecords) _ (List.reduceOption_mem_iff.1 hr)
    exact stopTimeRecordOf_spec hst

/-- An entity leaves no record, or one trip record with the stop records of its trip. -/
theorem entityRecords_cases {item : FeedEntity}
    {p : Option (RtTripRecord × List RtStopTimeRecord)}
    (h : entityRecords dataset tripDir stopsInDb createdAt today item = .ok p) :
    (p = none ∧ ∀ u, item.tripUpdate = some u → contribution tripDir u = none) ∨
      ∃ u r stops, item.tripUpdate = some u ∧ p = some (r, stops) ∧
        Records dataset tripDir createdAt today u r ∧ ∀ st ∈ stops, BelongsTo st r := by
  unfold entityRecords at h
  cases hu : item.tripUpdate with
  | none =>
      rw [hu] at h
      refine Or.inl ⟨(Except.ok.inj h).symm, fun u hu' => ?_⟩
      cases hu'
  | some u =>
      rw [hu] at h
      cases hc : contribution tripDir u with
      | none =>
          simp only [hc] at h
          refine Or.inl ⟨(Except.ok.inj h).symm, fun u' hu' => ?_⟩
          rw [← Option.some.inj hu', hc]
      | some c =>
          obtain ⟨tripId, routeId, staticDirection⟩ := c
          simp only [hc] at h
          obtain ⟨direction, _, h⟩ := bind_eq_ok.1 h
          obtain ⟨startTime, _, h⟩ := bind_eq_ok.1 h
          obtain ⟨startDate, hdate, h⟩ := bind_eq_ok.1 h
          obtain ⟨stops, hstops, h⟩ := bind_eq_ok.1 h
          refine Or.inr ⟨u, _, _, rfl, (Except.ok.inj h).symm, ⟨⟨_, hc⟩, rfl, ?_, rfl, rfl⟩, ?_⟩
          · rw [TripUpdate.startDate, parseRtStartDate_filter]
            exact hdate
          · intro st hst
            obtain ⟨ht, hd, hcreated⟩ := stopTimeRecords_spec hstops st hst
            exact ⟨ht, hd, hcreated⟩

theorem feedRecords_cons {item : FeedEntity} {data : List FeedEntity}
    {out : List RtTripRecord × List RtStopTimeRecord}
    (h : feedRecords dataset tripDir stopsInDb createdAt today (item :: data) = .ok out) :
    ∃ p rest, entityRecords dataset tripDir stopsInDb createdAt today item = .ok p ∧
      feedRecords dataset tripDir stopsInDb createdAt today data = .ok rest ∧
      out = ((p.map Prod.fst).toList ++ rest.1, (p.map Prod.snd).getD [] ++ rest.2) := by
  obtain ⟨parts, hparts, h⟩ := bind_eq_ok.1 h
  rw [List.mapM_cons] at hparts
  obtain ⟨p, hp, hparts⟩ := bind_eq_ok.1 hparts
  obtain ⟨ps, hps, hparts⟩ := bind_eq_ok.1 hparts
  obtain rfl := Except.ok.inj hparts
  refine ⟨p, _, hp, bind_eq_ok.2 ⟨ps, hps, rfl⟩, ?_⟩
  rw [← Except.ok.inj h, List.filterMap_cons, List.flatMap_cons]
  cases p <;> rfl

theorem feedRecords_cons_of {item : FeedEntity} {data : List FeedEntity}
    {p : Option (RtTripRecord × List RtStopTimeRecord)}
    {rest : List RtTripRecord × List RtStopTimeRecord}
    (hp : entityRecords dataset tripDir stopsInDb createdAt today item = .ok p)
    (hrest : feedRecords dataset tripDir stopsInDb createdAt today data = .ok rest) :
    feedRecords dataset tripDir stopsInDb createdAt today (item :: data) =
      .ok ((p.map Prod.fst).toList ++ rest.1, (p.map Prod.snd).getD [] ++ rest.2) := by
  obtain ⟨parts, hparts, hrest⟩ := bind_eq_ok.1 hrest
  refine bind_eq_ok.2 ⟨p :: parts, ?_, ?_⟩
  · rw [List.mapM_cons]
    exact bind_eq_ok.2 ⟨p, hp, bind_eq_ok.2 ⟨parts, hparts, rfl⟩⟩
  · rw [← Except.ok.inj hrest, List.filterMap_cons, List.flatMap_cons]
    cases p <;> rfl

/-- Each record is left by some entity of the payload, a stop record beside a trip record. -/
theorem feedRecords_mem {data : List FeedEntity}
    {out : List RtTripRecord × List RtStopTimeRecord}
    (h : feedRecords dataset tripDir stopsInDb createdAt today data = .ok out) :
    (∀ r ∈ out.1, ∃ item ∈ data, ∃ stops,
      entityRecords dataset tripDir stopsInDb createdAt today item = .ok (some (r, stops))) ∧
    (∀ st ∈ out.2, ∃ item ∈ data, ∃ r ∈ out.1, ∃ stops,
      entityRecords dataset tripDir stopsInDb createdAt today item = .ok (some (r, stops)) ∧
        st ∈ stops) := by
  induction data generalizing out with
  | nil =>
      obtain rfl := Except.ok.inj h
      exact ⟨fun r hr => absurd hr List.not_mem_nil, fun st hst => absurd hst List.not_mem_nil⟩
  | cons item data ih =>
      obtain ⟨p, rest, hp, hrest, rfl⟩ := feedRecords_cons h
      obtain ⟨ihTrip, ihStop⟩ := ih hrest
      constructor
      · intro r hr
        rcases List.mem_append.1 hr with hr | hr
        · obtain ⟨q, hq, rfl⟩ := Option.map_eq_some_iff.1 (Option.mem_toList.1 hr)
          rw [hq] at hp
          exact ⟨item, List.mem_cons_self, q.2, hp⟩
        · obtain ⟨item', hitem', hleft⟩ := ihTrip r hr
          exact ⟨item', List.mem_cons_of_mem _ hitem', hleft⟩
      · intro st hst
        rcases List.mem_append.1 hst with hst | hst
        · cases p with
          | none => exact absurd hst List.not_mem_nil
          | some q =>
              refine ⟨item, List.mem_cons_self, q.1, ?_, q.2, hp, hst⟩
              exact List.mem_append_left _ (List.mem_singleton.2 rfl)
        · obtain ⟨item', hitem', r, hr, hleft⟩ := ihStop st hst
          exact ⟨item', List.mem_cons_of_mem _ hitem', r, List.mem_append_right _ hr, hleft⟩

/-- What an entity that leaves records says of them. -/
theorem entityRecords_some {item : FeedEntity} {r : RtTripRecord} {stops : List RtStopTimeRecord}
    (h : entityRecords dataset tripDir stopsInDb createdAt today item = .ok (some (r, stops))) :
    ∃ u, item.tripUpdate = some u ∧ Records dataset tripDir createdAt today u r ∧
      ∀ st ∈ stops, BelongsTo st r := by
  rcases entityRecords_cases h with ⟨hnone, _⟩ | ⟨u, r', stops', hu, hsome, hrec, hstops⟩
  · cases hnone
  · cases hsome
    exact ⟨u, hu, hrec, hstops⟩

/-- Each trip record is the record of some trip update of the payload. -/
theorem feedRecords_trip {data : List FeedEntity}
    {out : List RtTripRecord × List RtStopTimeRecord}
    (h : feedRecords dataset tripDir stopsInDb createdAt today data = .ok out) :
    ∀ r ∈ out.1, ∃ item ∈ data, ∃ u, item.tripUpdate = some u ∧
      Records dataset tripDir createdAt today u r := by
  intro r hr
  obtain ⟨item, hitem, stops, hleft⟩ := (feedRecords_mem h).1 r hr
  obtain ⟨u, hu, hrec, _⟩ := entityRecords_some hleft
  exact ⟨item, hitem, u, hu, hrec⟩

theorem feedRecords_stop {data : List FeedEntity}
    {out : List RtTripRecord × List RtStopTimeRecord}
    (h : feedRecords dataset tripDir stopsInDb createdAt today data = .ok out) :
    ∀ st ∈ out.2, ∃ r ∈ out.1, BelongsTo st r := by
  intro st hst
  obtain ⟨item, _, r, hr, stops, hleft, hmem⟩ := (feedRecords_mem h).2 st hst
  obtain ⟨_, _, _, hstops⟩ := entityRecords_some hleft
  exact ⟨r, hr, hstops st hmem⟩

def updatesFor (tripDir : OrderedDict String (String × ℤ)) (tripId routeId : String)
    (data : List FeedEntity) : List TripUpdate :=
  (data.filterMap (fun item => item.tripUpdate)).filter (fun u =>
    (contribution tripDir u).any (fun c => c.1 = tripId ∧ c.2.1 = routeId))

/-- The records of a key carry the relationships of the updates of its trip and route. -/
theorem feedRecords_relationships {data : List FeedEntity}
    {out : List RtTripRecord × List RtStopTimeRecord}
    (h : feedRecords dataset tripDir stopsInDb createdAt today data = .ok out)
    (tripId routeId : String) :
    (out.1.filter (fun r => r.key = (tripId, routeId, dataset))).map
        (fun r => r.scheduleRelationship) =
      (updatesFor tripDir tripId routeId data).map
        (fun u => tripDescriptorRelationship u.trip) := by
  induction data generalizing out with
  | nil =>
      obtain rfl := Except.ok.inj h
      rfl
  | cons item data ih =>
      obtain ⟨p, rest, hp, hrest, rfl⟩ := feedRecords_cons h
      rw [List.filter_append, List.map_append, ih hrest]
      rcases entityRecords_cases hp with ⟨rfl, hnone⟩ | ⟨u, r, stops, hu, rfl, hrec, _⟩
      · have hskip : updatesFor tripDir tripId routeId (item :: data) =
            updatesFor tripDir tripId routeId data := by
          cases hu : item.tripUpdate with
          | none => simp only [updatesFor, List.filterMap_cons, hu]
          | some u =>
              simp only [updatesFor, List.filterMap_cons, hu, List.filter_cons, hnone u hu]
              rfl
        rw [hskip]
        rfl
      · obtain ⟨direction, hc⟩ := hrec.contributes
        have hkey : (r.key = (tripId, routeId, dataset)) ↔
            r.tripId = tripId ∧ r.routeId = routeId := by
          simp only [RtTripRecord.key, hrec.dataset_eq, Prod.mk.injEq, and_true]
        simp only [updatesFor, List.filterMap_cons, hu, List.filter_cons, hc, Option.any_some,
          Option.map_some, Option.toList_some, List.filter_nil, hkey]
        by_cases hk : r.tripId = tripId ∧ r.routeId = routeId
        · simp only [hk, and_self, decide_true, if_true, List.map_cons, List.map_nil,
            hrec.relationship, List.singleton_append]
        · simp only [hk, decide_false, Bool.false_eq_true, if_false, List.map_nil, List.nil_append]

/-- What is true of the records of every payload: they are of the dataset and the instant of the
import, their keys are unique, and each stop record stands beside a trip record of its trip. -/
structure Snapshot (dataset : String) (trips : List RtTripRecord)
    (stops : List RtStopTimeRecord) : Prop where
  trips_dataset : ∀ r ∈ trips, r.dataset = dataset
  stops_dataset : ∀ st ∈ stops, st.dataset = dataset
  trips_nodup : (trips.map RtTripRecord.key).Nodup
  stops_nodup : (stops.map RtStopTimeRecord.key).Nodup
  belongs : ∀ st ∈ stops, ∃ r ∈ trips, BelongsTo st r

theorem buildRtTripAndStopTimeRecords_eq {data : List FeedEntity}
    {out : List RtTripRecord × List RtStopTimeRecord}
    (h : buildRtTripAndStopTimeRecords dataset tripDir stopsInDb createdAt today data = .ok out) :
    ∃ raw, feedRecords dataset tripDir stopsInDb createdAt today data = .ok raw ∧
      out = (dedupRecordsByKey RtTripRecord.key raw.1,
        dedupRecordsByKey RtStopTimeRecord.key raw.2) := by
  obtain ⟨raw, hraw, h⟩ := bind_eq_ok.1 h
  exact ⟨raw, hraw, (Except.ok.inj h).symm⟩

theorem snapshot_of_build {data : List FeedEntity}
    {out : List RtTripRecord × List RtStopTimeRecord}
    (h : buildRtTripAndStopTimeRecords dataset tripDir stopsInDb createdAt today data = .ok out) :
    Snapshot dataset out.1 out.2 := by
  obtain ⟨raw, hraw, rfl⟩ := buildRtTripAndStopTimeRecords_eq h
  have hbelongs := feedRecords_stop hraw
  have hof : ∀ r ∈ raw.1, r.dataset = dataset ∧ r.createdAt = createdAt := by
    intro r hr
    obtain ⟨_, _, u, _, hrec⟩ := feedRecords_trip hraw r hr
    exact ⟨hrec.dataset_eq, hrec.createdAt_eq⟩
  refine ⟨?_, ?_, OrderedDict.nodup_lastBy_values _ _, OrderedDict.nodup_lastBy_values _ _, ?_⟩
  · exact fun r hr => (hof r (OrderedDict.mem_of_mem_lastBy_values hr)).1
  · intro st hst
    obtain ⟨r, hr, hb⟩ := hbelongs st (OrderedDict.mem_of_mem_lastBy_values hst)
    exact hb.dataset_eq.trans (hof r hr).1
  · -- The trip record of a stop record may have given way to a later one of its key.
    intro st hst
    obtain ⟨r, hr, hb⟩ := hbelongs st (OrderedDict.mem_of_mem_lastBy_values hst)
    obtain ⟨r', hr', hkey⟩ := OrderedDict.exists_mem_lastBy_values RtTripRecord.key hr
    have hcreated := (hof r' (OrderedDict.mem_of_mem_lastBy_values hr')).2
    simp only [RtTripRecord.key, Prod.mk.injEq] at hkey
    exact ⟨r', hr', hb.tripId_eq.trans hkey.1.symm, hb.dataset_eq.trans hkey.2.2.symm,
      (hb.createdAt_eq.trans (hof r hr).2).trans hcreated.symm⟩

end SimplyTransport
