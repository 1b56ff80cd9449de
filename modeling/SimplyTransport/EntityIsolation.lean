import SimplyTransport.SnapshotSemantics
import SimplyTransport.SourcedRecords

/-!
# Malformed entities of a payload

The builders catch the errors of one conversion, that of a stop sequence, and of these not the one
of a number out of the range of a float. Any other value that cannot be read stops the whole import
where its entity is of a known trip.
-/

namespace SimplyTransport
open OrderedDict SnapshotCopy

section Readable

def reads {α : Type} (convert : JsonScalar → Except PyError α) (v : Option JsonScalar) : Bool :=
  v.all (fun s => (convert s).isOk)

def TripUpdate.tripReads (u : TripUpdate) : Bool :=
  reads JsonScalar.toInt u.trip.directionId ∧ (parseRtStartTime u.trip.startTime).isOk ∧
    (parseRtStartDate u.startDate ⟨0⟩).isOk

def StopTimeUpdate.sequenceReads (st : StopTimeUpdate) : Bool :=
  reads JsonScalar.toInt st.stopSequence

/-- Every value of the entity that is converted can be read. -/
def FeedEntity.wellFormed (item : FeedEntity) : Bool :=
  item.tripUpdate.all (fun u =>
    u.tripReads ∧ u.stopTimeUpdate.all (fun st => st.sequenceReads))

def VehicleUpdate.idReads (u : VehicleUpdate) : Bool :=
  match u.vehicle with
  | .absent => true
  | .null => false
  | .value id => reads JsonScalar.toInt id

def VehicleUpdate.timestampReads (u : VehicleUpdate) : Bool :=
  reads (fun s => s.toInt >>= DateTime.fromTimestamp) u.timestamp

def VehicleEntity.wellFormed (item : VehicleEntity) : Bool :=
  item.vehicle.all (fun u => u.idReads ∧ u.timestampReads)

theorem toOption_eq_some {ε α : Type} {x : Except ε α} {a : α} (h : x.toOption = some a) :
    x = .ok a := by
  cases x with
  | error e => cases h
  | ok b => exact congrArg Except.ok (Option.some.inj h)

theorem isOk_iff {ε α : Type} {x : Except ε α} : x.isOk = true ↔ ∃ a, x = .ok a := by
  cases x with
  | error e => exact iff_of_false Bool.false_ne_true (fun ⟨_, h⟩ => by cases h)
  | ok a => exact iff_of_true rfl ⟨a, rfl⟩

theorem reads_some_iff {α : Type} {convert : JsonScalar → Except PyError α} {s : JsonScalar} :
    reads convert (some s) = true ↔ ∃ a, convert s = .ok a := isOk_iff

theorem pyInt_cases (cs : List Char) : (∃ n, pyInt cs = .ok n) ∨ pyInt cs = .error .valueError := by
  unfold pyInt
  split_ifs
  · exact Or.inr rfl
  · dsimp only
    split
    · exact Or.inl ⟨_, rfl⟩
    · exact Or.inr rfl

/-- The errors of `int` on a leaf value: all but that of an infinity are caught. -/
theorem toInt_cases (s : JsonScalar) :
    (∃ n, s.toInt = .ok n) ∨ s.toInt = .error .valueError ∨
      ∃ negative, s = .infinity negative ∧ s.toInt = .error .overflowError := by
  cases s with
  | str s => exact (pyInt_cases s.toList).imp id Or.inl
  | int n => exact Or.inl ⟨n, rfl⟩
  | float q => exact Or.inl ⟨truncate q, rfl⟩
  | infinity negative => exact Or.inr (Or.inr ⟨negative, rfl, rfl⟩)
  | nan => exact Or.inr (Or.inl rfl)

theorem parseRtStartDate_isOk (d : Option JsonScalar) (today today' : Date) :
    (parseRtStartDate d today).isOk = (parseRtStartDate d today').isOk := by
  unfold parseRtStartDate
  cases d.filter JsonScalar.truthy with
  | none => rfl
  | some v => cases v <;> rfl

end Readable

section TripUpdates

variable (dataset : String) (tripDir : OrderedDict String (String × ℤ)) (stopsInDb : List String)
  (createdAt : DateTime) (today : Date)

/-- The builder reads what it converts of the trip update, or catches the error. -/
def TripUpdate.Tolerated (u : TripUpdate) : Prop :=
  u.tripReads = true ∧
    (skipStopTimeImportForTripRelationship (tripDescriptorRelationship u.trip) = false →
      ∀ st ∈ u.stopTimeUpdate, (st.knownStop stopsInDb).isSome →
        ∀ negative, st.stopSequence ≠ some (.infinity negative))

def FeedTolerated (data : List FeedEntity) : Prop :=
  ∀ item ∈ data, ∀ u, item.tripUpdate = some u → (contribution tripDir u).isSome →
    u.Tolerated stopsInDb

def tripKeys (item : FeedEntity) : List (String × String × String) :=
  (item.tripUpdate.bind (contribution tripDir)).toList.map (fun c => (c.1, c.2.1, dataset))

def stopKey (tripId : String) (st : StopTimeUpdate) : Option (String × String × ℤ × String) := do
  let sid ← st.knownStop stopsInDb
  let rawSeq ← st.stopSequence
  let stopSeq ← rawSeq.toInt.toOption
  return (sid, tripId, stopSeq, dataset)

def stopKeys (item : FeedEntity) : List (String × String × ℤ × String) :=
  match item.tripUpdate with
  | none => []
  | some u =>
    match contribution tripDir u with
    | none => []
    | some c =>
      if skipStopTimeImportForTripRelationship (tripDescriptorRelationship u.trip) then []
      else u.stopTimeUpdate.filterMap (stopKey dataset stopsInDb c.1)

/-- The build does not raise, and what it returns for the well-formed entities is what it returns
for the payload without the other ones. -/
def FeedIsolated (data : List FeedEntity) : Prop :=
  ∃ out out',
    buildRtTripAndStopTimeRecords dataset tripDir stopsInDb createdAt today data = .ok out ∧
    buildRtTripAndStopTimeRecords dataset tripDir stopsInDb createdAt today
      (data.filter FeedEntity.wellFormed) = .ok out' ∧
    (returnedFor (fun item =>
        (tripContribution dataset tripDir stopsInDb createdAt today item).toList)
      RtTripRecord.key FeedEntity.wellFormed data).Perm out'.1 ∧
    (returnedFor (stopContributions dataset tripDir stopsInDb createdAt today)
      RtStopTimeRecord.key FeedEntity.wellFormed data).Perm out'.2

end TripUpdates

section Build

variable {dataset : String} {tripDir : OrderedDict String (String × ℤ)} {stopsInDb : List String}
  {createdAt : DateTime} {today : Date}

theorem stopTimeRecordOf_ok_iff (dataset : String) (createdAt : DateTime)
    (tripId entityId : String) (st : StopTimeUpdate) :
    (∃ p, stopTimeRecordOf dataset stopsInDb createdAt tripId entityId st = .ok p) ↔
      ((st.knownStop stopsInDb).isSome →
        ∀ negative, st.stopSequence ≠ some (.infinity negative)) := by
  unfold stopTimeRecordOf
  cases st.knownStop stopsInDb with
  | none => exact iff_of_true ⟨none, rfl⟩ (fun h => by cases h)
  | some sid =>
      cases st.stopSequence with
      | none => exact iff_of_true ⟨none, rfl⟩ (fun _ _ h => by cases h)
      | some rawSeq =>
          simp only [Option.isSome_some, forall_const, ne_eq, Option.some.injEq]
          rcases toInt_cases rawSeq with ⟨n, h⟩ | h | ⟨negative, rfl, h⟩
          · simp only [h]
            refine iff_of_true ⟨_, rfl⟩ (fun negative hinf => ?_)
            rw [hinf] at h
            cases h
          · simp only [h]
            refine iff_of_true ⟨_, rfl⟩ (fun negative hinf => ?_)
            rw [hinf] at h
            cases h
          · simp only [h]
            exact iff_of_false (fun ⟨_, h⟩ => by cases h) (fun h => h negative rfl)

theorem stopTimeRecordOf_key {tripId entityId : String} {st : StopTimeUpdate}
    {p : Option RtStopTimeRecord}
    (h : stopTimeRecordOf dataset stopsInDb createdAt tripId entityId st = .ok p) :
    p.map RtStopTimeRecord.key = stopKey dataset stopsInDb tripId st := by
  unfold stopTimeRecordOf at h
  unfold stopKey
  cases hstop : st.knownStop stopsInDb with
  | none =>
      rw [hstop] at h
      rw [← Except.ok.inj h]
      rfl
  | some sid =>
      rw [hstop] at h
      cases hseq : st.stopSequence with
      | none =>
          rw [hseq] at h
          rw [← Except.ok.inj h]
          rfl
      | some rawSeq =>
          rw [hseq] at h
          simp only at h
          rcases toInt_cases rawSeq with ⟨n, hn⟩ | hn | ⟨negative, rfl, hn⟩
          · simp only [hn] at h
            rw [← Except.ok.inj h]
            simp only [Option.bind_eq_bind, Option.bind_some, hn]
            rfl
          · simp only [hn] at h
            rw [← Except.ok.inj h]
            simp only [Option.bind_eq_bind, Option.bind_some, hn]
            rfl
          · simp only [hn] at h
            cases h

theorem stopTimeRecords_ok_iff (dataset : String) (createdAt : DateTime)
    (tripId entityId : String) (u : TripUpdate) :
    (∃ stops, stopTimeRecords dataset stopsInDb createdAt tripId entityId u = .ok stops) ↔
      (skipStopTimeImportForTripRelationship (tripDescriptorRelationship u.trip) = false →
        ∀ st ∈ u.stopTimeUpdate, (st.knownStop stopsInDb).isSome →
          ∀ negative, st.stopSequence ≠ some (.infinity negative)) := by
  unfold stopTimeRecords
  split_ifs with hskip
  · exact iff_of_true ⟨[], rfl⟩ (fun h => by rw [hskip] at h; cases h)
  · rw [Bool.not_eq_true] at hskip
    simp only [hskip, forall_const]
    rw [← forall₂_congr (fun st _ => stopTimeRecordOf_ok_iff dataset createdAt tripId entityId st),
      ← exists_mapM_iff]
    constructor
    · rintro ⟨stops, h⟩
      obtain ⟨records, hrecords, _⟩ := bind_eq_ok.1 h
      exact ⟨records, hrecords⟩
    · rintro ⟨records, hrecords⟩
      exact ⟨_, bind_eq_ok.2 ⟨records, hrecords, rfl⟩⟩

theorem stopTimeRecords_keys {tripId entityId : String} {u : TripUpdate}
    {stops : List RtStopTimeRecord}
    (h : stopTimeRecords dataset stopsInDb createdAt tripId entityId u = .ok stops) :
    stops.map RtStopTimeRecord.key =
      if skipStopTimeImportForTripRelationship (tripDescriptorRelationship u.trip) then []
      else u.stopTimeUpdate.filterMap (stopKey dataset stopsInDb tripId) := by
  unfold stopTimeRecords at h
  split_ifs at h ⊢
  · rw [← Except.ok.inj h]
    rfl
  · obtain ⟨records, hrecords, h⟩ := bind_eq_ok.1 h
    rw [← Except.ok.inj h]
    have hkeys : records.map (Option.map RtStopTimeRecord.key) =
        u.stopTimeUpdate.map (stopKey dataset stopsInDb tripId) :=
      (map_eq_of_forall₂ (f := stopKey dataset stopsInDb tripId)
        (g := Option.map RtStopTimeRecord.key) (fun _ _ hst => (stopTimeRecordOf_key hst).symm)
        (forall₂_of_mapM hrecords)).symm
    rw [← List.reduceOption_map, hkeys, List.reduceOption, List.filterMap_map]
    rfl

theorem entityRecords_ok_iff (dataset : String) (createdAt : DateTime) (today : Date)
    (item : FeedEntity) :
    (∃ p, entityRecords dataset tripDir stopsInDb createdAt today item = .ok p) ↔
      ∀ u, item.tripUpdate = some u → (contribution tripDir u).isSome → u.Tolerated stopsInDb := by
  unfold entityRecords
  cases item.tripUpdate with
  | none => exact iff_of_true ⟨none, rfl⟩ (fun u hu => by cases hu)
  | some u =>
      simp only [Option.some.injEq, forall_eq']
      cases contribution tripDir u with
      | none => exact iff_of_true ⟨none, rfl⟩ (fun h => by cases h)
      | some c =>
          obtain ⟨tripId, routeId, staticDirection⟩ := c
          have hdirection : (∃ n, (u.trip.directionId.map JsonScalar.toInt).getD
              (.ok staticDirection) = .ok n) ↔ reads JsonScalar.toInt u.trip.directionId := by
            cases u.trip.directionId with
            | none => exact iff_of_true ⟨staticDirection, rfl⟩ rfl
            | some s =>
                rw [reads_some_iff]
                rfl
          have hdate : (∃ date, parseRtStartDate ((u.trip.startDate.filter JsonScalar.truthy).or
              u.tripProperties.startDate) today = .ok date) ↔
              (parseRtStartDate u.startDate ⟨0⟩).isOk = true := by
            rw [← isOk_iff, TripUpdate.startDate, parseRtStartDate_filter]
            rw [parseRtStartDate_isOk _ today ⟨0⟩]
          simp only [Option.isSome_some, forall_const, TripUpdate.Tolerated, TripUpdate.tripReads,
            decide_eq_true_eq, ← hdirection, ← hdate, isOk_iff,
            ← stopTimeRecords_ok_iff dataset createdAt tripId ((truthy item.id).getD "")]
          constructor
          · rintro ⟨p, h⟩
            obtain ⟨direction, hdir, h⟩ := bind_eq_ok.1 h
            obtain ⟨startTime, htime, h⟩ := bind_eq_ok.1 h
            obtain ⟨startDate, hdate, h⟩ := bind_eq_ok.1 h
            obtain ⟨stops, hstops, _⟩ := bind_eq_ok.1 h
            exact ⟨⟨⟨direction, hdir⟩, ⟨startTime, htime⟩, startDate, hdate⟩, stops, hstops⟩
          · rintro ⟨⟨⟨direction, hdir⟩, ⟨startTime, htime⟩, startDate, hdate⟩, stops, hstops⟩
            exact ⟨_, bind_eq_ok.2 ⟨direction, hdir, bind_eq_ok.2 ⟨startTime, htime,
              bind_eq_ok.2 ⟨startDate, hdate, bind_eq_ok.2 ⟨stops, hstops, rfl⟩⟩⟩⟩⟩

theorem entityRecords_keys {item : FeedEntity}
    {p : Option (RtTripRecord × List RtStopTimeRecord)}
    (h : entityRecords dataset tripDir stopsInDb createdAt today item = .ok p) :
    (tripContribution dataset tripDir stopsInDb createdAt today item).toList.map
        RtTripRecord.key = tripKeys dataset tripDir item ∧
      (stopContributions dataset tripDir stopsInDb createdAt today item).map
        RtStopTimeRecord.key = stopKeys dataset tripDir stopsInDb item := by
  rw [tripContribution, stopContributions, h, tripKeys, stopKeys]
  unfold entityRecords at h
  cases hu : item.tripUpdate with
  | none =>
      rw [hu] at h
      rw [← Except.ok.inj h]
      exact ⟨rfl, rfl⟩
  | some u =>
      rw [hu] at h
      simp only [Option.bind_some]
      cases hc : contribution tripDir u with
      | none =>
          simp only [hc] at h
          rw [← Except.ok.inj h]
          exact ⟨rfl, rfl⟩
      | some c =>
          simp only [hc] at h
          obtain ⟨direction, _, h⟩ := bind_eq_ok.1 h
          obtain ⟨startTime, _, h⟩ := bind_eq_ok.1 h
          obtain ⟨startDate, _, h⟩ := bind_eq_ok.1 h
          obtain ⟨stops, hstops, h⟩ := bind_eq_ok.1 h
          rw [← Except.ok.inj h]
          exact ⟨rfl, stopTimeRecords_keys hstops⟩

theorem build_ok_iff {data : List FeedEntity} :
    (∃ out, buildRtTripAndStopTimeRecords dataset tripDir stopsInDb createdAt today data =
      .ok out) ↔ FeedTolerated tripDir stopsInDb data := by
  rw [FeedTolerated,
    ← forall₂_congr (fun item _ => entityRecords_ok_iff dataset createdAt today item),
    ← exists_mapM_iff]
  constructor
  · rintro ⟨out, h⟩
    obtain ⟨raw, hraw, _⟩ := bind_eq_ok.1 h
    obtain ⟨parts, hparts, _⟩ := bind_eq_ok.1 hraw
    exact ⟨parts, hparts⟩
  · rintro ⟨parts, hparts⟩
    exact ⟨_, bind_eq_ok.2 ⟨_, bind_eq_ok.2 ⟨parts, hparts, rfl⟩, rfl⟩⟩

theorem build_eq {data : List FeedEntity} {out : List RtTripRecord × List RtStopTimeRecord}
    (h : buildRtTripAndStopTimeRecords dataset tripDir stopsInDb createdAt today data = .ok out) :
    out.1 = (lastBy RtTripRecord.key (data.flatMap (fun item =>
        (tripContribution dataset tripDir stopsInDb createdAt today item).toList))).values ∧
      out.2 = (lastBy RtStopTimeRecord.key (data.flatMap
        (stopContributions dataset tripDir stopsInDb createdAt today))).values := by
  obtain ⟨raw, hraw, rfl⟩ := buildRtTripAndStopTimeRecords_eq h
  rw [feedRecords_eq hraw]
  refine ⟨?_, rfl⟩
  rw [dedupRecordsByKey, List.filterMap_eq_flatMap_toList]

theorem feedIsolated_iff (data : List FeedEntity) :
    FeedIsolated dataset tripDir stopsInDb createdAt today data ↔
      FeedTolerated tripDir stopsInDb data ∧
      NoneReplaced (tripKeys dataset tripDir) FeedEntity.wellFormed data ∧
      NoneReplaced (stopKeys dataset tripDir stopsInDb) FeedEntity.wellFormed data := by
  have hkeys : FeedTolerated tripDir stopsInDb data → ∀ item ∈ data,
      (tripContribution dataset tripDir stopsInDb createdAt today item).toList.map
          RtTripRecord.key = tripKeys dataset tripDir item ∧
        (stopContributions dataset tripDir stopsInDb createdAt today item).map
          RtStopTimeRecord.key = stopKeys dataset tripDir stopsInDb item := by
    intro htolerated item hitem
    obtain ⟨p, hp⟩ :=
      (entityRecords_ok_iff dataset createdAt today item).2 (htolerated item hitem)
    exact entityRecords_keys hp
  constructor
  · rintro ⟨out, out', hout, hout', htrips, hstops⟩
    have htolerated := build_ok_iff.1 ⟨out, hout⟩
    rw [(build_eq hout').1, perm_returnedFor_iff,
      NoneReplaced.congr (fun item hitem => (hkeys htolerated item hitem).1)] at htrips
    rw [(build_eq hout').2, perm_returnedFor_iff,
      NoneReplaced.congr (fun item hitem => (hkeys htolerated item hitem).2)] at hstops
    exact ⟨htolerated, htrips, hstops⟩
  · rintro ⟨htolerated, htrips, hstops⟩
    obtain ⟨out, hout⟩ := build_ok_iff.2 htolerated
    obtain ⟨out', hout'⟩ := build_ok_iff.2
      (show FeedTolerated tripDir stopsInDb (data.filter FeedEntity.wellFormed) from
        fun item hitem => htolerated item (List.mem_of_mem_filter hitem))
    refine ⟨out, out', hout, hout', ?_, ?_⟩
    · rw [(build_eq hout').1, perm_returnedFor_iff]
      exact (NoneReplaced.congr (fun item hitem => (hkeys htolerated item hitem).1)).2 htrips
    · rw [(build_eq hout').2, perm_returnedFor_iff]
      exact (NoneReplaced.congr (fun item hitem => (hkeys htolerated item hitem).2)).2 hstops

end Build

section Vehicles

variable (dataset : String) (tripDir : OrderedDict String (String × ℤ)) (createdAt : DateTime)

def VehicleUpdate.knownTrip (u : VehicleUpdate) : Option String :=
  (truthy u.tripId).filter (fun t => (tripDir.get? t).isSome)

def VehicleUpdate.Complete (u : VehicleUpdate) : Prop :=
  (∃ vid, u.vehicle = .value (some vid)) ∧ u.timestamp.isSome ∧ u.latitude.isSome ∧
    u.longitude.isSome

def VehicleUpdate.Tolerated (u : VehicleUpdate) : Prop :=
  u.vehicle ≠ .null ∧ (u.Complete → u.idReads = true ∧ u.timestampReads = true)

def VehiclesTolerated (data : List VehicleEntity) : Prop :=
  ∀ item ∈ data, ∀ u, item.vehicle = some u → (u.knownTrip tripDir).isSome → u.Tolerated

/-- The build does not raise, and what it returns for the well-formed vehicles is what it returns
for the payload without the other ones. -/
def VehiclesIsolated (data : List VehicleEntity) : Prop :=
  ∃ out out',
    buildRtVehicleRecords dataset tripDir createdAt data = .ok out ∧
    buildRtVehicleRecords dataset tripDir createdAt (data.filter VehicleEntity.wellFormed) =
      .ok out' ∧
    (returnedFor (fun item => (vehicleContribution dataset tripDir createdAt item).toList)
      RtVehicleRecord.key VehicleEntity.wellFormed data).Perm out'

variable {dataset tripDir createdAt}

theorem rtVehicleRecord_ok_iff {tripId : String} {vid ts lat lon : JsonScalar} :
    (∃ r, rtVehicleRecord dataset createdAt tripId vid ts lat lon = .ok r) ↔
      (∃ n, vid.toInt = .ok n) ∧ ∃ t, (ts.toInt >>= DateTime.fromTimestamp) = .ok t := by
  unfold rtVehicleRecord
  constructor
  · rintro ⟨r, h⟩
    obtain ⟨n, hn, h⟩ := bind_eq_ok.1 h
    obtain ⟨t, ht, _⟩ := bind_eq_ok.1 h
    exact ⟨⟨n, hn⟩, t, ht⟩
  · rintro ⟨⟨n, hn⟩, t, ht⟩
    exact ⟨_, bind_eq_ok.2 ⟨n, hn, bind_eq_ok.2 ⟨t, ht, rfl⟩⟩⟩

/-- A vehicle of a known trip raises where it is null, leaves no record where it is not complete, and
else the one of its values. -/
theorem vehicleRecordOf_known (dataset : String) (createdAt : DateTime) {item : VehicleEntity}
    {u : VehicleUpdate} {tripId : String}
    (hu : item.vehicle = some u) (htrip : u.knownTrip tripDir = some tripId) :
    (u.vehicle = .null ∧ vehicleRecordOf dataset tripDir createdAt item = .error .attributeError) ∨
    (u.vehicle ≠ .null ∧ ¬ u.Complete ∧
      vehicleRecordOf dataset tripDir createdAt item = .ok none) ∨
    ∃ vid ts lat lon, u.vehicle = .value (some vid) ∧ u.timestamp = some ts ∧ u.Complete ∧
      vehicleRecordOf dataset tripDir createdAt item =
        (rtVehicleRecord dataset createdAt tripId vid ts lat lon).map some := by
  unfold VehicleUpdate.knownTrip at htrip
  simp only [vehicleRecordOf, hu, htrip, VehicleUpdate.vehicleId]
  cases hv : u.vehicle with
  | null => exact Or.inl ⟨rfl, rfl⟩
  | absent =>
      refine Or.inr (Or.inl ⟨fun hnull => (by cases hnull), fun hcomplete => ?_, rfl⟩)
      obtain ⟨vid, hvid⟩ := hcomplete.1
      rw [hv] at hvid
      cases hvid
  | value id =>
      by_cases hcomplete : u.Complete
      · have hparts := hcomplete
        obtain ⟨⟨vid, hvid⟩, hts, hlat, hlon⟩ := hparts
        rw [hv] at hvid
        obtain rfl := JsonField.value.inj hvid
        obtain ⟨ts, hts⟩ := Option.isSome_iff_exists.1 hts
        obtain ⟨lat, hlat⟩ := Option.isSome_iff_exists.1 hlat
        obtain ⟨lon, hlon⟩ := Option.isSome_iff_exists.1 hlon
        refine Or.inr (Or.inr ⟨vid, ts, lat, lon, rfl, hts, hcomplete, ?_⟩)
        rw [hts, hlat, hlon]
        change (rtVehicleRecord dataset createdAt tripId vid ts lat lon >>= fun r => pure (some r)) = _
        cases rtVehicleRecord dataset createdAt tripId vid ts lat lon <;> rfl
      · refine Or.inr (Or.inl ⟨fun hnull => (by cases hnull), hcomplete, ?_⟩)
        cases id with
        | none => rfl
        | some vid =>
            cases hts : u.timestamp <;> cases hlat : u.latitude <;> cases hlon : u.longitude <;>
              try rfl
            next ts lat lon =>
              exact absurd ⟨⟨vid, hv⟩, by rw [hts]; rfl, by rw [hlat]; rfl, by rw [hlon]; rfl⟩
                hcomplete

theorem vehicleRecordOf_ok_iff (dataset : String) (createdAt : DateTime) (item : VehicleEntity) :
    (∃ p, vehicleRecordOf dataset tripDir createdAt item = .ok p) ↔
      ∀ u, item.vehicle = some u → (u.knownTrip tripDir).isSome → u.Tolerated := by
  cases hu : item.vehicle with
  | none =>
      refine iff_of_true ⟨none, ?_⟩ (fun u hu => by cases hu)
      rw [vehicleRecordOf, hu]
  | some u =>
      simp only [Option.some.injEq, forall_eq']
      cases htrip : u.knownTrip tripDir with
      | none =>
          refine iff_of_true ⟨none, ?_⟩ (fun h => by cases h)
          unfold VehicleUpdate.knownTrip at htrip
          simp only [vehicleRecordOf, hu, htrip]
      | some tripId =>
          simp only [Option.isSome_some, forall_const]
          rcases vehicleRecordOf_known dataset createdAt hu htrip with
            ⟨hnull, h⟩ | ⟨hnull, hcomplete, h⟩ | ⟨vid, ts, lat, lon, hvid, hts, hcomplete, h⟩
          · rw [h]
            refine iff_of_false ?_ (fun h => h.1 hnull)
            rintro ⟨_, h⟩
            cases h
          · exact iff_of_true ⟨none, h⟩ ⟨hnull, fun h => absurd h hcomplete⟩
          · have hreads : (∃ r, rtVehicleRecord dataset createdAt tripId vid ts lat lon = .ok r) ↔
                u.idReads = true ∧ u.timestampReads = true := by
              rw [rtVehicleRecord_ok_iff, VehicleUpdate.idReads, VehicleUpdate.timestampReads, hvid,
                hts, reads_some_iff, reads_some_iff]
            have hnull : u.vehicle ≠ .null := by
              rw [hvid]
              intro h
              cases h
            rw [VehicleUpdate.Tolerated, ← hreads, h]
            constructor
            · rintro ⟨p, hp⟩
              refine ⟨hnull, fun _ => ?_⟩
              cases hr : rtVehicleRecord dataset createdAt tripId vid ts lat lon with
              | error e =>
                  rw [hr] at hp
                  cases hp
              | ok r => exact ⟨r, rfl⟩
            · rintro ⟨_, hr⟩
              obtain ⟨r, hr⟩ := hr hcomplete
              exact ⟨some r, by rw [hr]; rfl⟩

/-- Only well-formed vehicles leave a record. -/
theorem wellFormed_of_vehicleRecordOf {item : VehicleEntity} {r : RtVehicleRecord}
    (h : vehicleRecordOf dataset tripDir createdAt item = .ok (some r)) :
    item.wellFormed = true := by
  rw [VehicleEntity.wellFormed, Option.all_eq_true]
  intro u hu
  have htolerated := (vehicleRecordOf_ok_iff dataset createdAt item).1 ⟨some r, h⟩ u hu
  cases htrip : u.knownTrip tripDir with
  | none =>
      unfold VehicleUpdate.knownTrip at htrip
      simp only [vehicleRecordOf, hu, htrip, Except.ok.injEq, reduceCtorEq] at h
  | some tripId =>
      rcases vehicleRecordOf_known dataset createdAt hu htrip with
        ⟨_, h'⟩ | ⟨_, _, h'⟩ | ⟨_, _, _, _, _, _, hcomplete, _⟩
      · rw [h] at h'
        cases h'
      · rw [h] at h'
        cases h'
      · rw [htrip] at htolerated
        exact decide_eq_true ((htolerated rfl).2 hcomplete)

theorem buildVehicles_ok_iff {data : List VehicleEntity} :
    (∃ out, buildRtVehicleRecords dataset tripDir createdAt data = .ok out) ↔
      VehiclesTolerated tripDir data := by
  rw [VehiclesTolerated,
    ← forall₂_congr (fun item _ => vehicleRecordOf_ok_iff dataset createdAt item),
    ← exists_mapM_iff]
  constructor
  · rintro ⟨out, h⟩
    obtain ⟨records, hrecords, _⟩ := bind_eq_ok.1 h
    exact ⟨records, hrecords⟩
  · rintro ⟨records, hrecords⟩
    exact ⟨_, bind_eq_ok.2 ⟨records, hrecords, rfl⟩⟩

theorem buildVehicles_eq {data : List VehicleEntity} {out : List RtVehicleRecord}
    (h : buildRtVehicleRecords dataset tripDir createdAt data = .ok out) :
    out = (lastBy RtVehicleRecord.key (data.flatMap (fun item =>
      (vehicleContribution dataset tripDir createdAt item).toList))).values := by
  obtain ⟨records, hrecords, h⟩ := bind_eq_ok.1 h
  rw [← Except.ok.inj h, (mapM_vehicleRecordOf hrecords).1, List.filterMap_eq_flatMap_toList]
  rfl

theorem vehiclesIsolated_iff (data : List VehicleEntity) :
    VehiclesIsolated dataset tripDir createdAt data ↔ VehiclesTolerated tripDir data := by
  constructor
  · rintro ⟨out, _, hout, _⟩
    exact buildVehicles_ok_iff.1 ⟨out, hout⟩
  · intro htolerated
    obtain ⟨out, hout⟩ := buildVehicles_ok_iff.2 htolerated
    obtain ⟨out', hout'⟩ := buildVehicles_ok_iff.2
      (show VehiclesTolerated tripDir (data.filter VehicleEntity.wellFormed) from
        fun item hitem => htolerated item (List.mem_of_mem_filter hitem))
    refine ⟨out, out', hout, hout', ?_⟩
    rw [buildVehicles_eq hout', perm_returnedFor_iff]
    -- A malformed vehicle has no key that it could take over.
    intro before item after _ hmalformed k hk
    obtain ⟨r, hr, _⟩ := List.mem_map.1 hk
    rw [Option.mem_toList, vehicleContribution, Option.join_eq_some_iff] at hr
    have hwell := wellFormed_of_vehicleRecordOf (toOption_eq_some hr)
    rw [hmalformed] at hwell
    cases hwell

end Vehicles

/-- A build leaves the records of the well-formed entities alone exactly where it can read, of known
trips, all that it converts or catches, and no malformed entity takes over a key of theirs. -/
theorem malformed_entities_isolated_iff (dataset : String)
    (tripDir : OrderedDict String (String × ℤ)) (stopsInDb : List String) (createdAt : DateTime)
    (today : Date) :
    (∀ data, FeedIsolated dataset tripDir stopsInDb createdAt today data ↔
      FeedTolerated tripDir stopsInDb data ∧
      NoneReplaced (tripKeys dataset tripDir) FeedEntity.wellFormed data ∧
      NoneReplaced (stopKeys dataset tripDir stopsInDb) FeedEntity.wellFormed data) ∧
    ∀ data, VehiclesIsolated dataset tripDir createdAt data ↔ VehiclesTolerated tripDir data :=
  ⟨feedIsolated_iff, vehiclesIsolated_iff⟩

def startsAtNoon : FeedEntity where
  id := "n"
  tripUpdate := some {
    trip := ⟨some "T1", none, some (.str "noon"), none, none, none⟩
    tripProperties := ⟨none, none⟩
    stopTimeUpdate := [] }

/-- The entity of another trip, before or after it, is lost with it. -/
theorem malformed_start_time_stops_import :
    ¬ ∀ dataset tripDir stopsInDb createdAt today data,
      FeedIsolated dataset tripDir stopsInDb createdAt today data := by
  intro h
  obtain ⟨out, _, hout, _⟩ := h "TFI" oneTripDir ["S1"] ⟨0⟩ ⟨739000⟩
    [undatedTrip "a", startsAtNoon, undatedTrip "b"]
  have herror : buildRtTripAndStopTimeRecords "TFI" oneTripDir ["S1"] ⟨0⟩ ⟨739000⟩
      [undatedTrip "a", startsAtNoon, undatedTrip "b"] = .error .valueError := rfl
  rw [herror] at hout
  cases hout

end SimplyTransport
