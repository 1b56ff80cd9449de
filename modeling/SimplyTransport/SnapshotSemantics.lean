import SimplyTransport.RealtimeRecords
import SimplyTransport.SnapshotCopy
import Mathlib.Data.List.ReduceOption

/-!
# What a snapshot import leaves

The builders keep the last contributed record of each key, so that the copy cannot violate a
unique constraint, and the copy replaces the rows of the dataset or changes no row. A second import
of the same payload changes ids and instants of creation, and the start dates for which the payload
has none and the builder takes the UTC date of the import.
-/

namespace SimplyTransport.SnapshotCopy
open Transaction

section Contributions

variable (dataset : String) (tripDir : OrderedDict String (String × ℤ)) (stopsInDb : List String)
  (createdAt : DateTime) (today : Date)

def tripContribution (item : FeedEntity) : Option RtTripRecord :=
  (entityRecords dataset tripDir stopsInDb createdAt today item).toOption.join.map Prod.fst

def stopContributions (item : FeedEntity) : List RtStopTimeRecord :=
  ((entityRecords dataset tripDir stopsInDb createdAt today item).toOption.join.map
    Prod.snd).getD []

def vehicleContribution (item : VehicleEntity) : Option RtVehicleRecord :=
  (vehicleRecordOf dataset tripDir createdAt item).toOption.join

end Contributions

structure LastOfEachKey {α κ : Type} (key : α → κ) (contributed records : List α) : Prop where
  unique : (records.map key).Nodup
  last : ∀ r, r ∈ records ↔
    ∃ before after, contributed = before ++ r :: after ∧ ∀ r' ∈ after, key r' ≠ key r
  keys : ∀ k, k ∈ records.map key ↔ k ∈ contributed.map key

/-- A copy of the records replaces the rows of the dataset or leaves all rows as they were, and it
does not raise by the records. -/
structure Replacement {α β : Type} (t : Table α β) (dataset : String) (records : List α) :
    Prop where
  ok : ∀ fault s s', (snapshotCopyTable t fault records dataset).run s = (.ok (), s') →
    Replaces t dataset records s s'
  error : ∀ fault s s' e, (snapshotCopyTable t fault records dataset).run s = (.error e, s') →
    s'.rows = s.rows
  admitted : ∀ fault s, (∀ st, fault st = none) →
    (∀ r ∈ t.keptRows dataset s.rows,
      ¬ (s.lastValue < t.idOf r ∧ t.idOf r ≤ s.lastValue + records.length)) →
    ∃ s', (snapshotCopyTable t fault records dataset).run s = (.ok (), s')

/-- After a copy of `records'` over one of `records`, the rows of the dataset are in turn those
from before up to `Again` and their ids, and the other rows are the same. -/
def Reimported {α β : Type} (t : Table α β) (dataset : String) (Again : α → α → Prop)
    (records records' : List α) : Prop :=
  ∀ fault fault' s s₁ s₂, (snapshotCopyTable t fault records dataset).run s = (.ok (), s₁) →
    (snapshotCopyTable t fault' records' dataset).run s₁ = (.ok (), s₂) →
    List.Forall₂ (fun r r' => if t.IsOf dataset r then Again (t.toRecord r) (t.toRecord r')
      else r' = r) s₁.rows s₂.rows

/-- The trip records of two imports differ in the instant of creation and, where the trip update
gives no start date, in the start date, which is the date of the import. -/
structure TripAgain (data : List FeedEntity) (today today' : Date) (r r' : RtTripRecord) :
    Prop where
  same : r' = { r with startDate := r'.startDate, createdAt := r'.createdAt }
  startDate : r'.startDate = r.startDate ∨ r.startDate = today ∧ r'.startDate = today' ∧
    ∃ item ∈ data, ∃ u, item.tripUpdate = some u ∧ u.startDate = none ∧
      effectiveTripIdForTripUpdate u = some r.tripId

def StopAgain (r r' : RtStopTimeRecord) : Prop := r' = { r with createdAt := r'.createdAt }

def VehicleAgain (r r' : RtVehicleRecord) : Prop := r' = { r with createdAt := r'.createdAt }

section Replace

variable {α β κ : Type} [DecidableEq κ] {t : Table α β} {key : α → κ} {dataset : String}
  {contributed records records' : List α}

theorem lastOfEachKey_dedup (key : α → κ) (contributed : List α) :
    LastOfEachKey key contributed (dedupRecordsByKey key contributed) where
  unique := OrderedDict.nodup_lastBy_values key contributed
  last _ := OrderedDict.mem_lastBy_values_iff_append
  keys _ := OrderedDict.mem_map_lastBy_values

theorem admits_dedup (hkey : ∀ a b, t.conflicts a b → key a = key b)
    (hof : ∀ a ∈ dedupRecordsByKey key contributed, t.datasetOf a = dataset) :
    t.Admits dataset (dedupRecordsByKey key contributed) where
  of_dataset := hof
  apart := by
    have hnodup := OrderedDict.nodup_lastBy_values key contributed
    rw [List.Nodup, List.pairwise_map] at hnodup
    exact hnodup.imp (fun hne hconflict => hne (hkey _ _ hconflict).symm)

theorem replacement_of_admits (h : t.Admits dataset records) : Replacement t dataset records where
  ok _ _ _ hrun := replaces_of_ok h hrun
  error _ _ _ _ hrun := snapshotCopyTable_error hrun
  admitted _ _ hquiet hids := ok_of_quiet h hquiet hids

theorem forall₂_zipIdx {R : α → α → Prop} (h : List.Forall₂ R records records') (n : ℕ) :
    List.Forall₂ (fun p p' => R p.1 p'.1) (records.zipIdx n) (records'.zipIdx n) := by
  induction h generalizing n with
  | nil => exact .nil
  | cons ha _ ih => exact .cons ha (ih (n + 1))

theorem forall₂_newRows {R : α → α → Prop} (h : List.Forall₂ R records records')
    (firstId firstId' : ℤ) :
    List.Forall₂ (fun r r' => R (t.toRecord r) (t.toRecord r')) (t.newRows records firstId)
      (t.newRows records' firstId') := by
  simp only [Table.newRows, IdRanges.recordsWithIds, List.map_map, List.forall₂_map_left_iff,
    List.forall₂_map_right_iff, Function.comp_apply, t.toRecord_withId]
  exact forall₂_zipIdx h 0

theorem reimported {Again : α → α → Prop} (h : t.Admits dataset records)
    (hagain : List.Forall₂ Again records records') :
    Reimported t dataset Again records records' := by
  intro fault fault' s s₁ s₂ h₁ h₂
  have hothers := (replaces_of_ok h h₁).others
  obtain ⟨_, _, _, rfl⟩ := (snapshotCopyTable_eq_ok rfl).1 h₁
  obtain ⟨_, _, _, rfl⟩ := (snapshotCopyTable_eq_ok rfl).1 h₂
  simp only at hothers ⊢
  rw [hothers]
  apply List.rel_append
  · rw [List.forall₂_same]
    intro r hr
    have hother := (keptRows_mem.1 hr).2
    simp [Table.IsOf, hother]
  · have hof : ∀ row ∈ t.newRows records (s.lastValue + 1), t.IsOf dataset row :=
      List.filter_eq_self.1 (filter_newRows h (s.lastValue + 1)).1
    have hnew := forall₂_newRows (t := t) hagain (s.lastValue + 1)
      (s.lastValue + records.length + 1)
    apply ((List.forall₂_and_left _ _).2 ⟨hof, hnew⟩).imp
    intro r r' hr
    rw [if_pos hr.1]
    exact hr.2

end Replace

section Again

variable {dataset : String} {tripDir : OrderedDict String (String × ℤ)} {stopsInDb : List String}
  {createdAt : DateTime} {today : Date} (createdAt' : DateTime) (today' : Date)

theorem parseRtStartDate_fallback {d : Option JsonScalar} {date : Date}
    (h : parseRtStartDate d today = .ok date) :
    ∃ date', parseRtStartDate d today' = .ok date' ∧
      (date' = date ∨ date = today ∧ date' = today' ∧ d.filter JsonScalar.truthy = none) := by
  unfold parseRtStartDate at h ⊢
  cases hd : d.filter JsonScalar.truthy with
  | none =>
      rw [hd] at h
      exact ⟨today', rfl, Or.inr ⟨(Except.ok.inj h).symm, rfl, rfl⟩⟩
  | some v =>
      rw [hd] at h
      refine ⟨date, ?_, Or.inl rfl⟩
      cases v with
      | str s => exact h
      | int n => cases h
      | float q => cases h
      | infinity negative => cases h
      | nan => cases h

theorem stopTimeRecordOf_createdAt (tripId entityId : String) (st : StopTimeUpdate) :
    stopTimeRecordOf dataset stopsInDb createdAt' tripId entityId st =
      (stopTimeRecordOf dataset stopsInDb createdAt tripId entityId st).map
        (fun p => p.map (fun r => { r with createdAt := createdAt' })) := by
  unfold stopTimeRecordOf
  cases st.knownStop stopsInDb with
  | none => rfl
  | some sid =>
      cases st.stopSequence with
      | none => rfl
      | some rawSeq =>
          cases hseq : rawSeq.toInt with
          | error e => cases e <;> simp only [hseq] <;> rfl
          | ok stopSeq => simp only [hseq]; rfl

theorem stopTimeRecords_again {tripId entityId : String} {u : TripUpdate}
    {stops : List RtStopTimeRecord}
    (h : stopTimeRecords dataset stopsInDb createdAt tripId entityId u = .ok stops) :
    ∃ stops', stopTimeRecords dataset stopsInDb createdAt' tripId entityId u = .ok stops' ∧
      List.Forall₂ StopAgain stops stops' := by
  unfold stopTimeRecords at h ⊢
  split_ifs at h ⊢
  · rw [← Except.ok.inj h]
    exact ⟨[], rfl, .nil⟩
  · obtain ⟨records, hrecords, h⟩ := bind_eq_ok.1 h
    rw [← Except.ok.inj h]
    have hagain : u.stopTimeUpdate.mapM
        (stopTimeRecordOf dataset stopsInDb createdAt' tripId entityId) =
        .ok (records.map (Option.map (fun r => { r with createdAt := createdAt' }))) := by
      apply mapM_of_forall₂
      rw [List.forall₂_map_right_iff]
      apply (forall₂_of_mapM hrecords).imp
      intro st p hst
      rw [stopTimeRecordOf_createdAt, hst]
      rfl
    refine ⟨_, bind_eq_ok.2 ⟨_, hagain, rfl⟩, ?_⟩
    rw [List.reduceOption_map, List.forall₂_map_right_iff, List.forall₂_same]
    exact fun _ _ => rfl

inductive PartAgain (data : List FeedEntity) (today today' : Date) :
    Option (RtTripRecord × List RtStopTimeRecord) →
    Option (RtTripRecord × List RtStopTimeRecord) → Prop
  | none : PartAgain data today today' none none
  | some {r r' stops stops'} (htrip : TripAgain data today today' r r')
      (hstops : List.Forall₂ StopAgain stops stops') :
      PartAgain data today today' (some (r, stops)) (some (r', stops'))

theorem entityRecords_again {data : List FeedEntity} {item : FeedEntity} (hitem : item ∈ data)
    {p : Option (RtTripRecord × List RtStopTimeRecord)}
    (h : entityRecords dataset tripDir stopsInDb createdAt today item = .ok p) :
    ∃ p', entityRecords dataset tripDir stopsInDb createdAt' today' item = .ok p' ∧
      PartAgain data today today' p p' := by
  unfold entityRecords at h ⊢
  cases hu : item.tripUpdate with
  | none =>
      rw [hu] at h
      rw [← Except.ok.inj h]
      exact ⟨none, rfl, .none⟩
  | some u =>
      rw [hu] at h
      cases hc : contribution tripDir u with
      | none =>
          simp only [hc] at h ⊢
          rw [← Except.ok.inj h]
          exact ⟨none, rfl, .none⟩
      | some c =>
          obtain ⟨tripId, routeId, staticDirection⟩ := c
          simp only [hc] at h ⊢
          obtain ⟨direction, hdir, h⟩ := bind_eq_ok.1 h
          obtain ⟨startTime, htime, h⟩ := bind_eq_ok.1 h
          obtain ⟨startDate, hdate, h⟩ := bind_eq_ok.1 h
          obtain ⟨startDate', hdate', hsame⟩ := parseRtStartDate_fallback today' hdate
          obtain ⟨stops, hstops, h⟩ := bind_eq_ok.1 h
          obtain ⟨stops', hstops', hagain⟩ := stopTimeRecords_again createdAt' hstops
          rw [← Except.ok.inj h]
          refine ⟨_, bind_eq_ok.2 ⟨direction, hdir, bind_eq_ok.2 ⟨startTime, htime,
            bind_eq_ok.2 ⟨startDate', hdate', bind_eq_ok.2 ⟨stops', hstops', rfl⟩⟩⟩⟩,
            .some ⟨rfl, ?_⟩ hagain⟩
          refine hsame.imp_right (fun ⟨hd, hd', hnone⟩ => ⟨hd, hd', item, hitem, u, hu, hnone, ?_⟩)
          exact effectiveTripId_of_contribution hc

theorem feedRecords_again {data : List FeedEntity} {raw : List RtTripRecord × List RtStopTimeRecord}
    (h : feedRecords dataset tripDir stopsInDb createdAt today data = .ok raw) :
    ∃ raw', feedRecords dataset tripDir stopsInDb createdAt' today' data = .ok raw' ∧
      List.Forall₂ (TripAgain data today today') raw.1 raw'.1 ∧
      List.Forall₂ StopAgain raw.2 raw'.2 := by
  -- The entities are those of the whole payload, of which the induction takes a part.
  have hpart : ∀ part : List FeedEntity, (∀ item ∈ part, item ∈ data) → ∀ raw,
      feedRecords dataset tripDir stopsInDb createdAt today part = .ok raw →
      ∃ raw', feedRecords dataset tripDir stopsInDb createdAt' today' part = .ok raw' ∧
        List.Forall₂ (TripAgain data today today') raw.1 raw'.1 ∧
        List.Forall₂ StopAgain raw.2 raw'.2 := by
    intro part
    induction part with
    | nil =>
        intro _ raw h
        rw [← Except.ok.inj h]
        exact ⟨([], []), rfl, .nil, .nil⟩
    | cons item part ih =>
        intro hsub raw h
        obtain ⟨p, rest, hp, hrest, rfl⟩ := feedRecords_cons h
        obtain ⟨p', hp', hagain⟩ :=
          entityRecords_again createdAt' today' (hsub item List.mem_cons_self) hp
        obtain ⟨rest', hrest', htrips, hstops⟩ :=
          ih (fun i hi => hsub i (List.mem_cons_of_mem _ hi)) rest hrest
        refine ⟨_, feedRecords_cons_of hp' hrest', ?_⟩
        cases hagain with
        | none => exact ⟨htrips, hstops⟩
        | some htrip hstop => exact ⟨.cons htrip htrips, List.rel_append hstop hstops⟩
  exact hpart data (fun _ h => h) raw h

end Again

section Contributed

variable {dataset : String} {tripDir : OrderedDict String (String × ℤ)} {stopsInDb : List String}
  {createdAt : DateTime} {today : Date}

theorem feedRecords_eq {data : List FeedEntity} {raw : List RtTripRecord × List RtStopTimeRecord}
    (h : feedRecords dataset tripDir stopsInDb createdAt today data = .ok raw) :
    raw = (data.filterMap (tripContribution dataset tripDir stopsInDb createdAt today),
      data.flatMap (stopContributions dataset tripDir stopsInDb createdAt today)) := by
  induction data generalizing raw with
  | nil => exact (Except.ok.inj h).symm
  | cons item data ih =>
      obtain ⟨p, rest, hp, hrest, rfl⟩ := feedRecords_cons h
      rw [ih hrest, List.filterMap_cons, List.flatMap_cons, tripContribution, stopContributions, hp]
      cases p <;> rfl

theorem tripContribution_isSome {data : List FeedEntity}
    {raw : List RtTripRecord × List RtStopTimeRecord}
    (h : feedRecords dataset tripDir stopsInDb createdAt today data = .ok raw) :
    ∀ item ∈ data, (tripContribution dataset tripDir stopsInDb createdAt today item).isSome ↔
      ∃ u c, item.tripUpdate = some u ∧ contribution tripDir u = some c := by
  induction data generalizing raw with
  | nil => exact fun item hitem => absurd hitem List.not_mem_nil
  | cons first data ih =>
      obtain ⟨p, rest, hp, hrest, rfl⟩ := feedRecords_cons h
      intro item hitem
      rcases List.mem_cons.1 hitem with rfl | hitem
      · rw [tripContribution, hp]
        rcases entityRecords_cases hp with ⟨rfl, hnone⟩ | ⟨u, r, stops, hu, rfl, hrec, _⟩
        · refine iff_of_false Bool.false_ne_true (fun ⟨u, c, hu, hc⟩ => ?_)
          rw [hnone u hu] at hc
          cases hc
        · obtain ⟨direction, hc⟩ := hrec.contributes
          exact iff_of_true rfl ⟨u, _, hu, hc⟩
      · exact ih hrest item hitem

theorem mapM_vehicleRecordOf {data : List VehicleEntity} {out : List (Option RtVehicleRecord)}
    (h : data.mapM (vehicleRecordOf dataset tripDir createdAt) = .ok out) :
    out.reduceOption = data.filterMap (vehicleContribution dataset tripDir createdAt) ∧
      (∀ r ∈ out.reduceOption, r.dataset = dataset) ∧
      ∀ createdAt', data.mapM (vehicleRecordOf dataset tripDir createdAt') =
        .ok (out.map (Option.map (fun r => { r with createdAt := createdAt' }))) := by
  induction data generalizing out with
  | nil =>
      rw [← Except.ok.inj h]
      exact ⟨rfl, fun r hr => absurd hr List.not_mem_nil, fun _ => rfl⟩
  | cons item data ih =>
      rw [List.mapM_cons] at h
      obtain ⟨p, hp, h⟩ := bind_eq_ok.1 h
      obtain ⟨ps, hps, h⟩ := bind_eq_ok.1 h
      obtain ⟨hreduce, hof, hagain⟩ := ih hps
      rw [← Except.ok.inj h]
      refine ⟨?_, ?_, fun createdAt' => ?_⟩
      · rw [List.filterMap_cons, vehicleContribution, hp, ← hreduce]
        cases p <;> rfl
      · cases p with
        | none => exact hof
        | some r =>
            intro r' hr'
            rcases List.mem_cons.1 hr' with rfl | hr'
            · exact vehicleRecordOf_dataset hp
            · exact hof r' hr'
      · rw [List.mapM_cons, vehicleRecordOf_createdAt dataset tripDir createdAt createdAt', hp,
          hagain createdAt']
        rfl

end Contributed

/-- The semantics of a snapshot import of trip updates, and of one of vehicles. -/
theorem realtime_snapshot_semantics :
    (∀ dataset tripDir stopsInDb createdAt today data trips stops,
      buildRtTripAndStopTimeRecords dataset tripDir stopsInDb createdAt today data =
        .ok (trips, stops) →
      LastOfEachKey RtTripRecord.key
        (data.filterMap (tripContribution dataset tripDir stopsInDb createdAt today)) trips ∧
      LastOfEachKey RtStopTimeRecord.key
        (data.flatMap (stopContributions dataset tripDir stopsInDb createdAt today)) stops ∧
      (∀ item ∈ data, (tripContribution dataset tripDir stopsInDb createdAt today item).isSome ↔
        ∃ u c, item.tripUpdate = some u ∧ contribution tripDir u = some c) ∧
      Replacement rtTrip dataset trips ∧ Replacement rtStopTime dataset stops ∧
      ∀ createdAt' today', ∃ trips' stops',
        buildRtTripAndStopTimeRecords dataset tripDir stopsInDb createdAt' today' data =
          .ok (trips', stops') ∧
        Reimported rtTrip dataset (TripAgain data today today') trips trips' ∧
        Reimported rtStopTime dataset StopAgain stops stops') ∧
    (∀ dataset tripDir createdAt data vehicles,
      buildRtVehicleRecords dataset tripDir createdAt data = .ok vehicles →
      LastOfEachKey RtVehicleRecord.key
        (data.filterMap (vehicleContribution dataset tripDir createdAt)) vehicles ∧
      Replacement rtVehicle dataset vehicles ∧
      ∀ createdAt', ∃ vehicles',
        buildRtVehicleRecords dataset tripDir createdAt' data = .ok vehicles' ∧
        Reimported rtVehicle dataset VehicleAgain vehicles vehicles') := by
  constructor
  · intro dataset tripDir stopsInDb createdAt today data trips stops h
    have hsnapshot := snapshot_of_build h
    obtain ⟨raw, hraw, hout⟩ := buildRtTripAndStopTimeRecords_eq h
    obtain ⟨rfl, rfl⟩ := Prod.mk.inj hout
    have htrips : rtTrip.Admits dataset (dedupRecordsByKey RtTripRecord.key raw.1) :=
      admits_dedup (fun _ _ hkey => of_decide_eq_true hkey) hsnapshot.trips_dataset
    have hstops : rtStopTime.Admits dataset (dedupRecordsByKey RtStopTimeRecord.key raw.2) :=
      admits_dedup (fun _ _ hkey => of_decide_eq_true hkey) hsnapshot.stops_dataset
    refine ⟨?_, ?_, tripContribution_isSome hraw, replacement_of_admits htrips,
      replacement_of_admits hstops, fun createdAt' today' => ?_⟩
    · rw [feedRecords_eq hraw]
      exact lastOfEachKey_dedup _ _
    · rw [feedRecords_eq hraw]
      exact lastOfEachKey_dedup _ _
    obtain ⟨raw', hraw', htripsAgain, hstopsAgain⟩ := feedRecords_again createdAt' today' hraw
    refine ⟨_, _, bind_eq_ok.2 ⟨raw', hraw', rfl⟩, reimported htrips ?_, reimported hstops ?_⟩
    · exact OrderedDict.forall₂_lastBy_values (fun r r' hr => by rw [hr.same]; rfl) htripsAgain
    · apply OrderedDict.forall₂_lastBy_values (fun r r' hr => ?_) hstopsAgain
      rw [show r' = { r with createdAt := r'.createdAt } from hr]
      rfl
  · intro dataset tripDir createdAt data vehicles h
    obtain ⟨out, hout, h⟩ := bind_eq_ok.1 h
    obtain ⟨hreduce, hof, hagain⟩ := mapM_vehicleRecordOf hout
    rw [← Except.ok.inj h, ← hreduce]
    have hadmits : rtVehicle.Admits dataset
        (dedupRecordsByKey RtVehicleRecord.key out.reduceOption) :=
      admits_dedup (fun _ _ hconflict => by cases hconflict)
        (fun r hr => hof r (OrderedDict.mem_of_mem_lastBy_values hr))
    refine ⟨lastOfEachKey_dedup _ _, replacement_of_admits hadmits, fun createdAt' => ?_⟩
    refine ⟨_, bind_eq_ok.2 ⟨_, hagain createdAt', rfl⟩, reimported hadmits ?_⟩
    apply OrderedDict.forall₂_lastBy_values
    · intro r r' hr
      rw [show r' = { r with createdAt := r'.createdAt } from hr]
      rfl
    · rw [List.reduceOption_map, List.forall₂_map_right_iff, List.forall₂_same]
      exact fun _ _ => rfl

section Examples

def undatedTrip (id : String) : FeedEntity where
  id := id
  tripUpdate := some {
    trip := ⟨some "T1", none, none, none, none, none⟩
    tripProperties := ⟨none, none⟩
    stopTimeUpdate := [⟨some "S1", some (.int 1), none, some 60, none⟩] }

def oneTripDir : OrderedDict String (String × ℤ) := OrderedDict.empty.set "T1" ("R1", 0)

def undatedRecord (createdAt : DateTime) (today : Date) : RtTripRecord :=
  ⟨"T1", "R1", Time.midnight, today, "SCHEDULED", 0, "b", "TFI", createdAt⟩

def undatedStop (createdAt : DateTime) : RtStopTimeRecord :=
  ⟨"S1", "T1", 1, "SCHEDULED", some 60, none, "b", "TFI", createdAt⟩

def oneVehicle : VehicleEntity :=
  ⟨some ⟨some "T1", .value (some (.int 42)), some (.int 0), some (.float 53), some (.float (-6))⟩⟩

def oneVehicleRecord : RtVehicleRecord :=
  ⟨42, "T1", ⟨719163 * dayMicros⟩, .float 53, .float (-6), "TFI", ⟨0⟩⟩

theorem build_undatedTrips (createdAt : DateTime) (today : Date) :
    buildRtTripAndStopTimeRecords "TFI" oneTripDir ["S1"] createdAt today
        [undatedTrip "a", undatedTrip "b"] =
      .ok ([undatedRecord createdAt today], [undatedStop createdAt]) := rfl

/-- Of two updates of one trip the second is kept, a copy into a table with a row of another
dataset keeps that row and gives the record the next id, and so does one of a vehicle. -/
theorem realtime_snapshot_two_updates :
    LastOfEachKey RtTripRecord.key
      ([undatedTrip "a", undatedTrip "b"].filterMap
        (tripContribution "TFI" oneTripDir ["S1"] ⟨0⟩ ⟨739000⟩)) [undatedRecord ⟨0⟩ ⟨739000⟩] ∧
    Replaces rtTrip "TFI" [undatedRecord ⟨0⟩ ⟨739000⟩]
      ⟨[⟨{ undatedRecord ⟨0⟩ ⟨739000⟩ with dataset := "X" }, 4⟩], 7⟩
      ⟨[⟨{ undatedRecord ⟨0⟩ ⟨739000⟩ with dataset := "X" }, 4⟩,
        ⟨undatedRecord ⟨0⟩ ⟨739000⟩, 8⟩], 8⟩ ∧
    Replaces rtVehicle "TFI" [oneVehicleRecord] ⟨[], 7⟩
      ⟨[rtVehicleWithId 8 oneVehicleRecord], 8⟩ := by
  have h := realtime_snapshot_semantics.1 "TFI" oneTripDir ["S1"] ⟨0⟩ ⟨739000⟩ _ _ _
    (build_undatedTrips ⟨0⟩ ⟨739000⟩)
  have hv := realtime_snapshot_semantics.2 "TFI" oneTripDir ⟨0⟩ [oneVehicle] [oneVehicleRecord] rfl
  exact ⟨h.1, h.2.2.2.1.ok (fun _ => none) _ _ rfl, hv.2.1.ok (fun _ => none) _ _ rfl⟩

/-- An import on the next day changes the start date of the trip. -/
theorem realtime_reimport_changes_date :
    ¬ ∀ dataset tripDir stopsInDb createdAt today createdAt' today' data trips stops trips' stops',
      buildRtTripAndStopTimeRecords dataset tripDir stopsInDb createdAt today data =
        .ok (trips, stops) →
      buildRtTripAndStopTimeRecords dataset tripDir stopsInDb createdAt' today' data =
        .ok (trips', stops') →
      Reimported rtTrip dataset (fun r r' => r' = { r with createdAt := r'.createdAt }) trips
        trips' := by
  intro h
  have hrows := h "TFI" oneTripDir ["S1"] ⟨0⟩ ⟨739000⟩ ⟨86400000000⟩ ⟨739001⟩ _ _ _ _ _
    (build_undatedTrips _ _) (build_undatedTrips _ _) (fun _ => none) (fun _ => none) ⟨[], 0⟩
    ⟨[⟨undatedRecord ⟨0⟩ ⟨739000⟩, 1⟩], 1⟩
    ⟨[⟨undatedRecord ⟨86400000000⟩ ⟨739001⟩, 2⟩], 2⟩ rfl rfl
  have hsame := (List.forall₂_cons.1 hrows).1
  rw [if_pos (by decide)] at hsame
  exact absurd (congrArg RtTripRecord.startDate hsame) (by decide)

end Examples

end SimplyTransport.SnapshotCopy
