import SimplyTransport.OverlayOrder
import SimplyTransport.RealtimeRecords
import SimplyTransport.RealtimeService

/-!
# The response of the realtime endpoint

`RealtimeSchedule.model_validate` turns the model of a schedule into the response. Its integers
reject null and its enumerations reject other values, while the importer stores null delays, any
relationship and any direction. Every model of every list of schedules is accepted exactly where
no row that can be shown has such a value.
-/

namespace SimplyTransport

namespace ApiContracts

inductive Direction
  | outbound
  | inbound
  deriving DecidableEq

/-- A value of `DirectionField` is first given the name of the domain's direction. -/
def directionField (value : ℤ) : Except PyError Direction :=
  if value = 0 then .ok .outbound
  else if value = 1 then .ok .inbound
  else .error .valueError

def intField : Option ℤ → Except PyError ℤ
  | some n => .ok n
  | none => .error .valueError

def scheduleRelationships : List ScheduleRelationship :=
  [.scheduled, .skipped, .noData, .unscheduled, .added, .canceled, .replacement, .duplicated, .new,
    .deleted]

def scheduleRelationshipField (value : String) : Except PyError ScheduleRelationship :=
  match scheduleRelationships.find? (fun r => r.value = value) with
  | some r => .ok r
  | none => .error .valueError

structure RTStopTime where
  stopId : String
  tripId : String
  stopSequence : ℤ
  scheduleRelationship : ScheduleRelationship
  arrivalDelay : ℤ
  departureDelay : ℤ

structure RTTrip where
  tripId : String
  routeId : String
  startTime : Time
  startDate : Date
  scheduleRelationship : ScheduleRelationship
  direction : Direction

structure RealtimeSchedule where
  rtStopTime : Option RTStopTime
  rtTrip : Option RTTrip
  delay : String
  delayInSeconds : ℤ
  realArrivalTime : Time
  realEtaText : String
  onTimeStatus : OnTimeStatus
  isTripRemoved : Bool

def RTStopTime.modelValidate (row : RTStopTimeModel) : Except PyError RTStopTime := do
  let scheduleRelationship ← scheduleRelationshipField row.scheduleRelationship
  let arrivalDelay ← intField row.arrivalDelay
  let departureDelay ← intField row.departureDelay
  return ⟨row.stopId, row.tripId, row.stopSequence, scheduleRelationship, arrivalDelay,
    departureDelay⟩

def RTTrip.modelValidate (row : RTTripModel) : Except PyError RTTrip := do
  let scheduleRelationship ← scheduleRelationshipField row.scheduleRelationship
  let direction ← directionField row.direction
  return ⟨row.tripId, row.routeId, row.startTime, row.startDate, scheduleRelationship, direction⟩

def RealtimeSchedule.modelValidate (r : RealtimeScheduleModel) :
    Except PyError RealtimeSchedule := do
  let rtStopTime ← r.rtStopTime.mapM RTStopTime.modelValidate
  let rtTrip ← r.rtTrip.mapM RTTrip.modelValidate
  return ⟨rtStopTime, rtTrip, r.delay, r.delayInSeconds, r.realArrivalTime, r.realEtaText,
    r.onTimeStatus, r.isTripRemoved⟩

end ApiContracts

open ApiContracts

def Accepted {α : Type} (x : Except PyError α) : Prop := ∃ a, x = .ok a

def KnownRelationship (value : String) : Prop :=
  ∃ r : ScheduleRelationship, r.value = value

structure ServableTrip (row : RTTripModel) : Prop where
  relationship : KnownRelationship row.scheduleRelationship
  direction : row.direction = 0 ∨ row.direction = 1

structure ServableStopTime (row : RTStopTimeModel) : Prop where
  relationship : KnownRelationship row.scheduleRelationship
  arrivalDelay : row.arrivalDelay ≠ none
  departureDelay : row.departureDelay ≠ none

theorem accepted_intField {value : Option ℤ} :
    Accepted (ApiContracts.intField value) ↔ value ≠ none := by
  cases value with
  | none => exact iff_of_false (fun ⟨_, h⟩ => by cases h) (fun h => h rfl)
  | some n => exact iff_of_true ⟨n, rfl⟩ (by simp)

theorem accepted_scheduleRelationshipField {value : String} :
    Accepted (scheduleRelationshipField value) ↔ KnownRelationship value := by
  unfold scheduleRelationshipField
  cases h : scheduleRelationships.find? (fun r => r.value = value) with
  | none =>
      refine iff_of_false (fun ⟨_, h⟩ => by cases h) (fun ⟨r, hr⟩ => ?_)
      have hmem : r ∈ scheduleRelationships := by cases r <;> decide
      exact absurd (decide_eq_true hr) (List.find?_eq_none.1 h r hmem)
  | some r =>
      have hr := List.find?_some h
      exact iff_of_true ⟨r, rfl⟩ ⟨r, of_decide_eq_true hr⟩

theorem accepted_directionField {value : ℤ} :
    Accepted (directionField value) ↔ value = 0 ∨ value = 1 := by
  unfold directionField
  by_cases h₀ : value = 0
  · exact iff_of_true ⟨.outbound, if_pos h₀⟩ (Or.inl h₀)
  · rw [if_neg h₀]
    by_cases h₁ : value = 1
    · exact iff_of_true ⟨.inbound, if_pos h₁⟩ (Or.inr h₁)
    · rw [if_neg h₁]
      exact iff_of_false (fun ⟨_, h⟩ => by cases h) (not_or.2 ⟨h₀, h₁⟩)

theorem accepted_rtStopTime {row : RTStopTimeModel} :
    Accepted (RTStopTime.modelValidate row) ↔ ServableStopTime row := by
  constructor
  · rintro ⟨_, h⟩
    obtain ⟨rel, hrel, h⟩ := bind_eq_ok.1 h
    obtain ⟨arrival, harrival, h⟩ := bind_eq_ok.1 h
    obtain ⟨departure, hdeparture, _⟩ := bind_eq_ok.1 h
    exact ⟨accepted_scheduleRelationshipField.1 ⟨rel, hrel⟩,
      accepted_intField.1 ⟨arrival, harrival⟩, accepted_intField.1 ⟨departure, hdeparture⟩⟩
  · intro h
    obtain ⟨rel, hrel⟩ := accepted_scheduleRelationshipField.2 h.relationship
    obtain ⟨arrival, harrival⟩ := accepted_intField.2 h.arrivalDelay
    obtain ⟨departure, hdeparture⟩ := accepted_intField.2 h.departureDelay
    exact ⟨_, bind_eq_ok.2 ⟨rel, hrel, bind_eq_ok.2 ⟨arrival, harrival,
      bind_eq_ok.2 ⟨departure, hdeparture, rfl⟩⟩⟩⟩

theorem accepted_rtTrip {row : RTTripModel} :
    Accepted (RTTrip.modelValidate row) ↔ ServableTrip row := by
  constructor
  · rintro ⟨_, h⟩
    obtain ⟨rel, hrel, h⟩ := bind_eq_ok.1 h
    obtain ⟨direction, hdirection, _⟩ := bind_eq_ok.1 h
    exact ⟨accepted_scheduleRelationshipField.1 ⟨rel, hrel⟩,
      accepted_directionField.1 ⟨_, hdirection⟩⟩
  · intro h
    obtain ⟨rel, hrel⟩ := accepted_scheduleRelationshipField.2 h.relationship
    obtain ⟨direction, hdirection⟩ := accepted_directionField.2 h.direction
    exact ⟨_, bind_eq_ok.2 ⟨rel, hrel, bind_eq_ok.2 ⟨direction, hdirection, rfl⟩⟩⟩

theorem accepted_mapM {α β : Type} {f : α → Except PyError β} {o : Option α} :
    Accepted (o.mapM f) ↔ ∀ a ∈ o, Accepted (f a) := by
  cases o with
  | none => exact iff_of_true ⟨none, rfl⟩ (fun a ha => by cases ha)
  | some a =>
      have hmap : (some a).mapM f = f a >>= fun b => pure (some b) := rfl
      rw [hmap]
      constructor
      · rintro ⟨_, h⟩ a' ha'
        obtain ⟨b, hb, _⟩ := bind_eq_ok.1 h
        obtain rfl := Option.some.inj ha'
        exact ⟨b, hb⟩
      · intro h
        obtain ⟨b, hb⟩ := h a rfl
        exact ⟨_, bind_eq_ok.2 ⟨b, hb, rfl⟩⟩

/-- A model is accepted exactly where the rows it carries are. -/
theorem accepted_realtimeSchedule {r : RealtimeScheduleModel} :
    Accepted (RealtimeSchedule.modelValidate r) ↔
      (∀ row ∈ r.rtStopTime, ServableStopTime row) ∧ ∀ row ∈ r.rtTrip, ServableTrip row := by
  have hstop := accepted_mapM (f := RTStopTime.modelValidate) (o := r.rtStopTime)
  have htrip := accepted_mapM (f := RTTrip.modelValidate) (o := r.rtTrip)
  simp only [accepted_rtStopTime] at hstop
  simp only [accepted_rtTrip] at htrip
  rw [← hstop, ← htrip]
  constructor
  · rintro ⟨_, h⟩
    obtain ⟨stop, hs, h⟩ := bind_eq_ok.1 h
    obtain ⟨trip, ht, _⟩ := bind_eq_ok.1 h
    exact ⟨⟨stop, hs⟩, trip, ht⟩
  · rintro ⟨⟨stop, hs⟩, trip, ht⟩
    exact ⟨_, bind_eq_ok.2 ⟨stop, hs, bind_eq_ok.2 ⟨trip, ht, rfl⟩⟩⟩

/-- The rows of each dataset are the records of an accepted feed, in any order. -/
def ImportedFrom (rtTrips : List RTTripModel) (rtStopTimes : List RTStopTimeModel) : Prop :=
  ∀ dataset, ∃ tripDir stopsInDb createdAt today data trips stops,
    buildRtTripAndStopTimeRecords dataset tripDir stopsInDb createdAt today data =
      .ok (trips, stops) ∧
    ((rtTrips.filter (fun r => r.dataset = dataset)).map (fun r => r.toRtTripRecord)).Perm
      trips ∧
    ((rtStopTimes.filter (fun r => r.dataset = dataset)).map
      (fun r => r.toRtStopTimeRecord)).Perm stops

/-- Every model of every list of schedules is accepted, in whatever order the rows are read. -/
def AllServed (rtTrips : List RTTripModel) (rtStopTimes : List RTStopTimeModel) : Prop :=
  ∀ rtTrips' rtStopTimes', rtTrips'.Perm rtTrips → rtStopTimes'.Perm rtStopTimes →
    ∀ nowUtc now schedules,
      ∀ r ∈ getRealtimeSchedulesForStaticSchedules rtTrips' rtStopTimes' nowUtc now schedules,
        Accepted (RealtimeSchedule.modelValidate r)

/-- No row that can be shown has a value that the response rejects. A stop row is shown where a
trip row of its trip does not remove the trip. -/
structure Servable (rtTrips : List RTTripModel) (rtStopTimes : List RTStopTimeModel) : Prop where
  trips : ∀ r ∈ rtTrips, ServableTrip r
  stopTimes : ∀ st ∈ rtStopTimes,
    (∃ r ∈ rtTrips, r.tripId = st.tripId ∧ r.dataset = st.dataset ∧ r.isRemoved = false) →
    ServableStopTime st

section Imported

variable {rtTrips : List RTTripModel} {rtStopTimes : List RTStopTimeModel}

theorem mem_records_of_perm {α β : Type} {datasetOf : α → String}
    {toRecord : α → β} {rows : List α} {records : List β} {dataset : String}
    (h : ((rows.filter (fun r => datasetOf r = dataset)).map toRecord).Perm records) {r : α}
    (hr : r ∈ rows) (hd : datasetOf r = dataset) : toRecord r ∈ records :=
  h.mem_iff.1 (List.mem_map_of_mem (List.mem_filter.2 ⟨hr, decide_eq_true hd⟩))

/-- A stop row stands beside a trip row of its trip. -/
theorem ImportedFrom.belongs (h : ImportedFrom rtTrips rtStopTimes) {st : RTStopTimeModel}
    (hst : st ∈ rtStopTimes) :
    ∃ r ∈ rtTrips, BelongsTo st.toRtStopTimeRecord r.toRtTripRecord := by
  obtain ⟨tripDir, stopsInDb, createdAt, today, data, trips, stops, hbuild, htrips, hstops⟩ :=
    h st.dataset
  have hmem := mem_records_of_perm hstops hst rfl
  obtain ⟨record, hrecord, hb⟩ := (snapshot_of_build hbuild).belongs _ hmem
  obtain ⟨r, hr, rfl⟩ := List.mem_map.1 (htrips.mem_iff.2 hrecord)
  exact ⟨r, List.mem_of_mem_filter hr, hb⟩

/-- The trip rows of a dataset are of one instant. -/
theorem ImportedFrom.createdAt_eq (h : ImportedFrom rtTrips rtStopTimes) {r r' : RTTripModel}
    (hr : r ∈ rtTrips) (hr' : r' ∈ rtTrips) (hd : r'.dataset = r.dataset) :
    r'.createdAt = r.createdAt := by
  obtain ⟨tripDir, stopsInDb, createdAt, today, data, trips, stops, hbuild, htrips, _⟩ :=
    h r.dataset
  obtain ⟨raw, hraw, hout⟩ := buildRtTripAndStopTimeRecords_eq hbuild
  have hof : ∀ record ∈ trips, record.createdAt = createdAt := by
    intro record hrecord
    rw [(Prod.mk.inj hout).1] at hrecord
    obtain ⟨_, _, _, _, hrec⟩ :=
      feedRecords_trip hraw record (OrderedDict.mem_of_mem_lastBy_values hrecord)
    exact hrec.createdAt_eq
  rw [hof _ (mem_records_of_perm htrips hr rfl), hof _ (mem_records_of_perm htrips hr' hd)]

/-- Keys that are unique in each dataset and name it are unique. -/
theorem nodup_map_of_filter {α κ : Type} {key : α → κ} (datasetOf : α → String)
    (hkey : ∀ a b, key a = key b → datasetOf a = datasetOf b) {rows : List α}
    (h : ∀ dataset, ((rows.filter (fun r => datasetOf r = dataset)).map key).Nodup) :
    (rows.map key).Nodup := by
  induction rows with
  | nil => exact List.nodup_nil
  | cons a rows ih =>
      rw [List.map_cons, List.nodup_cons]
      constructor
      · intro hmem
        obtain ⟨b, hb, hab⟩ := List.mem_map.1 hmem
        have hhead := h (datasetOf a)
        rw [List.filter_cons, if_pos (decide_eq_true rfl), List.map_cons, List.nodup_cons, ← hab]
          at hhead
        exact hhead.1 (List.mem_map_of_mem
          (List.mem_filter.2 ⟨hb, decide_eq_true (hkey b a hab)⟩))
      · apply ih
        intro dataset
        exact (h dataset).sublist (((List.sublist_cons_self a rows).filter _).map key)

theorem ImportedFrom.uniqueStopTimes (h : ImportedFrom rtTrips rtStopTimes) :
    UniqueStopTimes rtStopTimes := by
  apply nodup_map_of_filter (fun r : RTStopTimeModel => r.dataset)
  · intro a b hab
    simp only [RtStopTimeRecord.key, Prod.mk.injEq] at hab
    exact hab.2.2.2
  · intro dataset
    obtain ⟨tripDir, stopsInDb, createdAt, today, data, trips, stops, hbuild, _, hstops⟩ :=
      h dataset
    have hnodup := (snapshot_of_build hbuild).stops_nodup
    rw [← (hstops.map RtStopTimeRecord.key).nodup_iff, List.map_map] at hnodup
    exact hnodup

end Imported

section Shown

variable {rtTrips : List RTTripModel} {rtStopTimes : List RTStopTimeModel}

def callOf (dataset tripId stopId : String) (sequence : ℤ) : StaticScheduleModel :=
  timetableRow tripId dataset stopId sequence Time.midnight

/-- Some order of the rows shows a trip row on the calls of its trip. -/
theorem exists_shown (h : ImportedFrom rtTrips rtStopTimes) {r : RTTripModel} (hr : r ∈ rtTrips)
    (stopId : String) (sequence : ℤ) :
    ∃ rtTrips' : List RTTripModel, rtTrips'.Perm rtTrips ∧
      (callOf r.dataset r.tripId stopId sequence).rtTrip
        (loadRecentRtOverlayForSchedules rtTrips' rtStopTimes r.createdAt
          [callOf r.dataset r.tripId stopId sequence]) = some r := by
  have hmem : r ∈ recentTripRows rtTrips r.createdAt r.dataset r.tripId :=
    List.mem_filter.2 ⟨hr, decide_eq_true ⟨rfl, rfl, thirtyMinsAgo_le _⟩⟩
  have hgreatest : Selection.Greatest (fun r : RTTripModel => r.createdAt)
      (recentTripRows rtTrips r.createdAt r.dataset r.tripId) r := by
    refine ⟨hmem, fun b hb => ?_⟩
    obtain ⟨hb, hrow⟩ := List.mem_filter.1 hb
    exact (h.createdAt_eq hr hb (of_decide_eq_true hrow).2.1).le
  obtain ⟨l, hl, hpick⟩ := (Selection.decides_argmax _).complete _ _ hgreatest
  obtain ⟨rtTrips', hperm, hfilter⟩ := Selection.exists_perm_filter _ hl
  refine ⟨rtTrips', hperm, ?_⟩
  rw [rtTrip_load List.mem_cons_self]
  change newestTripRow (recentTripRows rtTrips' r.createdAt r.dataset r.tripId) = some r
  rw [newestTripRow, recentTripRows, hfilter, hpick]

/-- A stop row is shown on its own call where the trip row there does not remove the trip. -/
theorem stopOverlay_exact (h : ImportedFrom rtTrips rtStopTimes) (rtTrips' : List RTTripModel)
    {st : RTStopTimeModel} (hst : st ∈ rtStopTimes) :
    (callOf st.dataset st.tripId st.stopId st.stopSequence).stopOverlay
      (loadRecentRtOverlayForSchedules rtTrips' rtStopTimes st.createdAt
        [callOf st.dataset st.tripId st.stopId st.stopSequence]) = some ⟨st, true⟩ := by
  rw [stopOverlay_load List.mem_cons_self]
  change resolveCell (recentStopRows rtStopTimes st.createdAt st.dataset st.tripId) st.stopId
    st.stopSequence = some ⟨st, true⟩
  have hmem : st ∈ exactRows (recentStopRows rtStopTimes st.createdAt st.dataset st.tripId)
      st.stopId st.stopSequence := by
    simp [exactRows, recentStopRows, hst, thirtyMinsAgo_le]
  obtain hnil | ⟨r, hone⟩ := exactRows_cases h.uniqueStopTimes st.createdAt st.dataset st.tripId
    st.stopId st.stopSequence
  · rw [hnil] at hmem
    exact absurd hmem List.not_mem_nil
  · rw [hone, List.mem_singleton] at hmem
    rw [resolveCell, hone, hmem]
    rfl

theorem shown_model {rtTrips' : List RTTripModel} (hserved : AllServed rtTrips rtStopTimes)
    (hperm : rtTrips'.Perm rtTrips) (now : DateTime) (s : StaticScheduleModel) :
    Accepted (RealtimeSchedule.modelValidate (realtimeScheduleFor
      (loadRecentRtOverlayForSchedules rtTrips' rtStopTimes now [s]) now s)) :=
  hserved rtTrips' rtStopTimes hperm (List.Perm.refl _) now now [s] _ List.mem_cons_self

theorem servable_of_served (h : ImportedFrom rtTrips rtStopTimes)
    (hserved : AllServed rtTrips rtStopTimes) : Servable rtTrips rtStopTimes where
  trips r hr := by
    obtain ⟨rtTrips', hperm, hshown⟩ := exists_shown h hr "" 0
    have haccepted := shown_model hserved hperm r.createdAt (callOf r.dataset r.tripId "" 0)
    rw [accepted_realtimeSchedule, realtimeScheduleFor_rtTrip, hshown] at haccepted
    exact haccepted.2 r rfl
  stopTimes := by
    intro st hst ⟨r, hr, hid, hd, hremoved⟩
    obtain ⟨rtTrips', hperm, hshown⟩ := exists_shown h hr st.stopId st.stopSequence
    obtain ⟨r', hr', hb⟩ := h.belongs hst
    have hcreated : st.createdAt = r.createdAt :=
      hb.createdAt_eq.trans (h.createdAt_eq hr hr' (hb.dataset_eq.symm.trans hd.symm))
    rw [hid, hd, ← hcreated] at hshown
    have haccepted := shown_model hserved hperm st.createdAt
      (callOf st.dataset st.tripId st.stopId st.stopSequence)
    rw [accepted_realtimeSchedule, realtimeScheduleFor_rtStopTime, hshown,
      stopOverlay_exact h rtTrips' hst] at haccepted
    simp only [Option.any_some, hremoved] at haccepted
    exact haccepted.1 st rfl

theorem served_of_servable (h : ImportedFrom rtTrips rtStopTimes)
    (hservable : Servable rtTrips rtStopTimes) : AllServed rtTrips rtStopTimes := by
  intro rtTrips' rtStopTimes' htrips hstops nowUtc now schedules r hr
  cases schedules with
  | nil => cases hr
  | cons first rest =>
      obtain ⟨s, hs, rfl⟩ := List.mem_map.1 hr
      rw [accepted_realtimeSchedule, realtimeScheduleFor_rtStopTime, realtimeScheduleFor_rtTrip,
        rtTrip_load hs, stopOverlay_load hs]
      constructor
      · intro st hst
        split_ifs at hst with hremoved
        · cases hst
        · obtain ⟨o, ho, rfl⟩ := Option.map_eq_some_iff.1 hst
          obtain ⟨hmem, hrow⟩ := List.mem_filter.1 (resolveCell_mem ho)
          obtain ⟨hid, hd, hrecent⟩ := of_decide_eq_true hrow
          have hst := hstops.mem_iff.1 hmem
          apply hservable.stopTimes o.row hst
          -- The trip row beside the stop row is recent too, so that the newest one is some row.
          obtain ⟨r, hr, hb⟩ := h.belongs hst
          have hrecentTrip : r ∈ recentTripRows rtTrips' nowUtc first.trip.dataset s.trip.id := by
            refine List.mem_filter.2 ⟨htrips.mem_iff.2 hr, decide_eq_true ⟨?_, ?_, ?_⟩⟩
            · rw [← hb.tripId_eq, hid]
            · rw [← hb.dataset_eq, hd]
            · rw [← hb.createdAt_eq]
              exact hrecent
          obtain ⟨newest, hnewest⟩ := Selection.exists_argmax
            (fun r : RTTripModel => r.createdAt) (List.ne_nil_of_mem hrecentTrip)
          obtain ⟨hmemNewest, hrowNewest⟩ := List.mem_filter.1 (List.argmax_mem hnewest)
          obtain ⟨hidNewest, hdNewest, _⟩ := of_decide_eq_true hrowNewest
          refine ⟨newest, htrips.mem_iff.1 hmemNewest, hidNewest.trans hid.symm,
            hdNewest.trans hd.symm, ?_⟩
          rw [newestTripRow, hnewest, Option.any_some, Bool.not_eq_true] at hremoved
          exact hremoved
      · intro r hr
        exact hservable.trips r (htrips.mem_iff.1 (List.mem_of_mem_filter (List.argmax_mem hr)))

end Shown

def arrivalUpdate (departureDelay : Option ℤ) : FeedEntity where
  id := "e"
  tripUpdate := some {
    trip := ⟨some "T", none, none, some (.str "20240429"), none, none⟩
    tripProperties := ⟨none, none⟩
    stopTimeUpdate := [⟨some "S", some (.int 1), none, some 60, departureDelay⟩] }

def arrivalTripRow : RTTripModel :=
  ⟨⟨"T", "R1", Time.midnight, ⟨739005⟩, "SCHEDULED", 0, "e", "TFI", ⟨0⟩⟩, 1⟩

def arrivalStopRow (departureDelay : Option ℤ) : RTStopTimeModel :=
  ⟨⟨"S", "T", 1, "SCHEDULED", some 60, departureDelay, "e", "TFI", ⟨0⟩⟩, 1⟩

theorem importedFrom_arrival (departureDelay : Option ℤ) :
    ImportedFrom [arrivalTripRow] [arrivalStopRow departureDelay] := by
  intro dataset
  by_cases hd : dataset = "TFI"
  · subst hd
    exact ⟨OrderedDict.empty.set "T" ("R1", 0), ["S"], ⟨0⟩, ⟨0⟩, [arrivalUpdate departureDelay],
      [arrivalTripRow.toRtTripRecord], [(arrivalStopRow departureDelay).toRtStopTimeRecord], rfl,
      List.Perm.refl _, List.Perm.refl _⟩
  · refine ⟨OrderedDict.empty, [], ⟨0⟩, ⟨0⟩, [], [], [], rfl, ?_, ?_⟩
    · simp [arrivalTripRow, Ne.symm hd]
    · simp [arrivalStopRow, Ne.symm hd]

/-- A stop update with only an arrival makes the response of its stop fail. -/
theorem arrival_only_rejected :
    ¬ ∀ rtTrips rtStopTimes, ImportedFrom rtTrips rtStopTimes → ∀ nowUtc now schedules,
      ∀ r ∈ getRealtimeSchedulesForStaticSchedules rtTrips rtStopTimes nowUtc now schedules,
        Accepted (RealtimeSchedule.modelValidate r) := by
  intro h
  have haccepted := h [arrivalTripRow] [arrivalStopRow none] (importedFrom_arrival none) ⟨0⟩ ⟨0⟩
    [callOf "TFI" "T" "S" 1] _ List.mem_cons_self
  rw [accepted_realtimeSchedule, realtimeScheduleFor_rtStopTime] at haccepted
  exact (haccepted.1 (arrivalStopRow none) rfl).departureDelay rfl

/-- The response accepts every model that the service builds from imported rows exactly where the
rows that can be shown have both delays, known relationships and directions. -/
theorem imported_rows_served_iff {rtTrips : List RTTripModel} {rtStopTimes : List RTStopTimeModel}
    (h : ImportedFrom rtTrips rtStopTimes) :
    AllServed rtTrips rtStopTimes ↔ Servable rtTrips rtStopTimes :=
  ⟨servable_of_served h, served_of_servable h⟩

theorem imported_rows_served_both_delays :
    Servable [arrivalTripRow] [arrivalStopRow (some 60)] ∧
      AllServed [arrivalTripRow] [arrivalStopRow (some 60)] := by
  have hservable : Servable [arrivalTripRow] [arrivalStopRow (some 60)] := by
    refine ⟨fun r hr => ?_, fun st hst _ => ?_⟩
    · obtain rfl := List.mem_singleton.1 hr
      exact ⟨⟨.scheduled, rfl⟩, Or.inl rfl⟩
    · obtain rfl := List.mem_singleton.1 hst
      exact ⟨⟨.scheduled, rfl⟩, by simp [arrivalStopRow], by simp [arrivalStopRow]⟩
  exact ⟨hservable, (imported_rows_served_iff (importedFrom_arrival (some 60))).2 hservable⟩

end SimplyTransport
